import RoomGateway.Model.WebSocket

/-!
The handler of `room.join` step by step (`handle_message` and
`websocket_session` in `ws.rs`). A session registers in the middle of the
handler and waits before and after: for the replay, for the roster, for the
answer to be sent. Other sessions run while it waits, so here each step ends at
a wait. `Session.join` is all the steps at once.
-/

namespace RoomGateway

/-- What a session waits for. -/
inductive Phase where
  /-- The next message or broadcast. -/
  | loop
  | replaying (join : Join)
  | snapshotting (join : Join) (isNewJoin : Bool) (events : List RoomEvent)
  /-- A frame to be sent; the session ends if that fails. -/
  | sending
  deriving DecidableEq, Repr

/-- What lets a session go on. -/
inductive Wake where
  /-- A valid join, read before the token expired. -/
  | join (join : Join)
  | replayed (events : Except RpcError (List RoomEvent))
  | snapshotted (ok : Bool)
  | sent (ok : Bool)
  /-- Any other turn of the loop. It may move the cursor and may end the session:
  the client closed, the token expired, a frame was not taken. -/
  | turned (lastSequence : Int) (goesOn : Bool)

structure Waiting where
  session : Session
  phase : Phase := .loop
  deriving DecidableEq, Repr

def cleanupPresence (presence : Presence) (s : Session) : Presence × Session :=
  match s.joinedRoom with
  | none => (presence, { s with receiver := none, ended := true })
  | some room =>
      (presence.unregisterParticipant room s.actor.id,
        { s with joinedRoom := none, receiver := none, ended := true })

/-- The loop ends, and the session leaves its room. -/
def Waiting.finish (presence : Presence) (w : Waiting) : Presence × Waiting :=
  ((cleanupPresence presence w.session).1, ⟨(cleanupPresence presence w.session).2, .loop⟩)

/-- One step of a session. What it does not wait for does not wake it. -/
def Waiting.advance (presence : Presence) (w : Waiting) (wake : Wake) : Presence × Waiting :=
  match w.phase, wake with
  | .loop, .join join =>
      if w.session.joinedRoom.any (· ≠ join.roomId) then (presence, { w with phase := .sending })
      else (presence, { w with phase := .replaying join })
  | .loop, .turned lastSequence goesOn =>
      let w := { w with session := { w.session with lastSequence := lastSequence } }
      if goesOn then (presence, w) else w.finish presence
  | .replaying _, .replayed (.error _) => (presence, { w with phase := .sending })
  | .replaying join, .replayed (.ok events) =>
      let isNewJoin := w.session.joinedRoom.isNone
      (if isNewJoin then presence.registerParticipant join.roomId w.session.actor else presence,
        { w with phase := .snapshotting join isNewJoin events })
  | .snapshotting join isNewJoin _, .snapshotted false =>
      (if isNewJoin then presence.unregisterParticipant join.roomId w.session.actor.id
        else presence, { w with phase := .sending })
  | .snapshotting join _ events, .snapshotted true =>
      (presence,
        { session :=
            { w.session with
              lastSequence := (events.getLast?.map (·.sequence)).getD join.cursor
              joinedRoom := some join.roomId
              receiver := some join.roomId }
          phase := .sending })
  | .sending, .sent ok => if ok then (presence, { w with phase := .loop }) else w.finish presence
  | _, _ => (presence, w)

structure Lobby where
  presence : Presence := fun _ => []
  sessions : List Waiting := []

inductive LobbyOp where
  | connect (actor : Actor)
  | wake (session : Nat) (wake : Wake)

def lobbyStep (lobby : Lobby) : LobbyOp → Lobby × Unit
  | .connect actor =>
      ({ lobby with sessions := lobby.sessions ++ [{ session := { actor := actor } }] }, ())
  | .wake index wake =>
      match lobby.sessions[index]? with
      | none => (lobby, ())
      | some w =>
          if w.session.ended then (lobby, ())
          else
            let (presence, w) := w.advance lobby.presence wake
            (⟨presence, lobby.sessions.set index w⟩, ())

/-- Any number of sessions, a step at a time. -/
def lobby : Machine Lobby LobbyOp Unit where
  init := {}
  step := lobbyStep

end RoomGateway
