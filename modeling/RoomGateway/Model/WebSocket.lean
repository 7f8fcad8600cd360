import RoomGateway.Model.Gateway

/-!
The WebSocket sessions (`ws.rs`) and what they share with the rest of the
gateway. A session reacts to one thing at a time: a message of its client, a
broadcast of its room's channel, or the end of its token's life. `Hub` is any
number of sessions next to everything else that works on the database.

A room's channel is a bounded queue that publishers fill in any order and that
drops what a slow session has not read. So nothing is assumed about what a
session reads from it except that it is an event of the room that is committed;
a session that fell behind reads that it lagged.
-/

namespace RoomGateway

variable (env : Env)

/-! ### Presence -/

/-- Who is connected to each room. -/
abbrev Presence := Uuid → List ParticipantPresence

namespace Presence

def registerParticipant (presence : Presence) (room : Uuid) (actor : Actor) : Presence :=
  let entries := presence room
  let entries :=
    if entries.any (·.id = actor.id) then entries
    else entries ++ [⟨actor.id, actor.role, actor.displayName, 0⟩]
  Function.update presence room (entries.map fun p =>
    if p.id = actor.id then
      { p with
        role := actor.role
        displayName := actor.displayName
        connections := p.connections + 1 }
    else p)

def unregisterParticipant (presence : Presence) (room actor : Uuid) : Presence :=
  Function.update presence room ((presence room).map fun p =>
    if p.id = actor then
      { p with connections := if 1 < p.connections then p.connections - 1 else 0 }
    else p)

end Presence

/-! ### Sessions -/

/-- What a session sends to its client. The answer to a repeated request is on
the wire what a live event is. -/
inductive Frame where
  | joined (id : String) (events : List RoomEvent) (participants : List RoomParticipant)
  | event (event : RoomEvent)
  | duplicate (event : RoomEvent)
  | participantsUpdated (room : Uuid) (participants : List RoomParticipant)
  | error (id : Option String) (error : RpcError)
  deriving DecidableEq, Repr

/-- What a session reacts to. A text message comes with what `validate_request`
makes of it and with the id an error names if that is nothing. -/
inductive Input where
  | message (request : Except RpcError ValidatedRequest) (fallbackId : Option String)
  | ignored
  | closed
  | expired
  | event (event : RoomEvent)
  | participants (participants : List RoomParticipant) (excludeActorId : Option Uuid)
  | lagged

/-- What the outside does during one reaction: the clock, whether the reads of
the log and of the roster succeed, how many frames the socket takes before it
fails, and what a request needs. -/
structure Io where
  now : Int
  replayOk : Bool := true
  snapshotOk : Bool := true
  sends : Nat
  conversationsEnabled : Bool := false
  txNow : Time
  fresh : Nat → Uuid

structure Session where
  actor : Actor
  joinedRoom : Option Uuid := none
  /-- The room whose channel the session reads. -/
  receiver : Option Uuid := none
  lastSequence : Int := 0
  ended : Bool := false
  deriving DecidableEq, Repr

/-- What the sessions share. -/
structure Shared where
  sys : Sys := {}
  presence : Presence := fun _ => []

/-- What a session does in reaction to an input: its loop goes on or ends. -/
structure Reaction where
  shared : Shared
  session : Session
  frames : List Frame := []
  goesOn : Bool := true

/-- 64-bit addition as a release build does it. -/
def wrapI64 (n : Int) : Int := (n + 2 ^ 63) % 2 ^ 64 - 2 ^ 63

/-- One frame, which ends the session if the socket does not take it. -/
def reply (shared : Shared) (s : Session) (io : Io) (frame : Frame) : Reaction where
  shared := shared
  session := s
  frames := [frame].take io.sends
  goesOn := 1 ≤ io.sends

/-- Send the events that follow the cursor, until one does not or the socket
fails: the cursor, the frames sent, and whether all went well. -/
def replayInOrder (actor : Uuid) : List RoomEvent → Int → Nat → Int × List Frame × Bool
  | [], lastSequence, _ => (lastSequence, [], true)
  | event :: events, lastSequence, sends =>
      if event.sequence ≤ lastSequence then replayInOrder actor events lastSequence sends
      else if event.sequence ≠ wrapI64 (lastSequence + 1) then (lastSequence, [], false)
      else if eventVisibleTo event actor then
        match sends with
        | 0 => (lastSequence, [], false)
        | sends + 1 =>
            let (lastSequence, frames, ok) := replayInOrder actor events event.sequence sends
            (lastSequence, .event event :: frames, ok)
      else replayInOrder actor events event.sequence sends

/-- Read the log from the cursor on and send what is there. -/
def Session.recover (shared : Shared) (s : Session) (io : Io) (room : Uuid) : Reaction :=
  if !io.replayOk then { shared := shared, session := s, goesOn := false }
  else
    let events := eventsAfter shared.sys.db room s.lastSequence
    let (lastSequence, frames, ok) := replayInOrder s.actor.id events s.lastSequence io.sends
    { shared := shared
      session := { s with lastSequence := lastSequence }
      frames := frames
      goesOn := ok }

def Session.receiveEvent (shared : Shared) (s : Session) (io : Io) (event : RoomEvent) :
    Reaction :=
  if event.sequence = wrapI64 (s.lastSequence + 1) then
    if eventVisibleTo event s.actor.id then
      if io.sends = 0 then { shared := shared, session := s, goesOn := false }
      else
        { shared := shared
          session := { s with lastSequence := event.sequence }
          frames := [.event event] }
    else { shared := shared, session := { s with lastSequence := event.sequence } }
  else if event.sequence > wrapI64 (s.lastSequence + 1) then
    match s.joinedRoom with
    | none => { shared := shared, session := s, goesOn := false }
    | some room => s.recover shared io room
  else { shared := shared, session := s }

/-- The cursor of a join. -/
def Join.cursor (join : Join) : Int := (join.afterSequence.map I64.val).getD 0

def Session.join (shared : Shared) (s : Session) (io : Io) (join : Join) : Reaction :=
  if s.joinedRoom.any (· ≠ join.roomId) then reply shared s io (.error join.id .forbidden)
  else if !io.replayOk then reply shared s io (.error join.id .internalError)
  else
    let events := eventsAfter shared.sys.db join.roomId join.cursor
    let isNewJoin := s.joinedRoom.isNone
    let presence :=
      if isNewJoin then shared.presence.registerParticipant join.roomId s.actor
      else shared.presence
    if !io.snapshotOk then
      let presence :=
        if isNewJoin then presence.unregisterParticipant join.roomId s.actor.id else presence
      reply { shared with presence := presence } s io (.error join.id .internalError)
    else
      let participants := participantSnapshot shared.sys.db join.roomId (presence join.roomId)
        io.conversationsEnabled
      reply { shared with presence := presence }
        { s with
          lastSequence := (events.getLast?.map (·.sequence)).getD join.cursor
          joinedRoom := some join.roomId
          receiver := some join.roomId }
        io (.joined join.id (events.filter (eventVisibleTo · s.actor.id)) participants)

/-- A request that may change the room. Its own events reach the client through
the channel; those of an earlier request with the same id are sent at once. -/
def Session.mutate (shared : Shared) (s : Session) (io : Io) (room : Uuid)
    (request : ValidatedRequest) : Reaction :=
  let (result, db) := (process env s.actor request (shared.presence room)
    io.conversationsEnabled io.txNow io.fresh).runTx shared.sys.db
  let shared := { shared with sys := { shared.sys with db := db } }
  match result with
  | .error error => reply shared s io (.error request.id error)
  | .ok processed =>
      if processed.duplicate then
        { shared := shared
          session := s
          frames := (processed.events.map .duplicate).take io.sends
          goesOn := processed.events.length ≤ io.sends }
      else { shared := shared, session := s }

def Session.handleMessage (shared : Shared) (s : Session) (io : Io)
    (request : Except RpcError ValidatedRequest) (fallbackId : Option String) : Reaction :=
  if s.actor.expiresAt ≤ io.now then
    { reply shared s io (.error fallbackId .unauthenticated) with goesOn := false }
  else
    match request with
    | .error error => reply shared s io (.error fallbackId error)
    | .ok (.join join) => s.join shared io join
    | .ok request =>
        match request.roomId with
        -- only authenticating a session names no room
        | none => reply shared s io (.error request.id .forbidden)
        | some room =>
            if s.joinedRoom ≠ some room then reply shared s io (.error request.id .forbidden)
            else s.mutate env shared io room request

def Session.react (shared : Shared) (s : Session) (io : Io) : Input → Reaction
  | .message request fallbackId => s.handleMessage env shared io request fallbackId
  | .ignored => { shared := shared, session := s }
  | .closed => { shared := shared, session := s, goesOn := false }
  | .expired => { reply shared s io (.error none .unauthenticated) with goesOn := false }
  | .event event => s.receiveEvent shared io event
  | .participants participants excludeActorId =>
      if excludeActorId = some s.actor.id then { shared := shared, session := s }
      else
        match s.joinedRoom with
        | none => { shared := shared, session := s, goesOn := false }
        | some room => reply shared s io (.participantsUpdated room participants)
  | .lagged =>
      match s.joinedRoom with
      | none => { shared := shared, session := s }
      | some room => s.recover shared io room

/-- A session whose loop has ended leaves its room. -/
def Reaction.finish (r : Reaction) : Reaction :=
  if r.goesOn then r
  else
    { r with
      shared :=
        match r.session.joinedRoom with
        | none => r.shared
        | some room =>
            { r.shared with
              presence := r.shared.presence.unregisterParticipant room r.session.actor.id }
      session := { r.session with joinedRoom := none, receiver := none, ended := true } }

@[simp] theorem Reaction.finish_frames (r : Reaction) : r.finish.frames = r.frames := by
  unfold Reaction.finish
  split <;> rfl

@[simp] theorem Reaction.finish_sys (r : Reaction) : r.finish.shared.sys = r.shared.sys := by
  unfold Reaction.finish
  split
  · rfl
  · cases r.session.joinedRoom <;> rfl

/-! ### The hub -/

structure Hub where
  shared : Shared := {}
  sessions : List Session := []

inductive HubOp where
  /-- A call that does not come through a session. -/
  | call (op : Op)
  /-- A caller of the store appends an event of its own. -/
  | append (eventId : Uuid) (event : NewEvent)
  | connect (actor : Actor)
  | input (session : Nat) (input : Input) (io : Io)

/-- Whether the session can read the input now: its loop still runs, and a
channel gives it only committed events of the room it reads. -/
def Session.canRead (db : Db) (s : Session) : Input → Bool
  | .event event =>
      !s.ended && s.receiver = some event.roomId && db.roomEvents.rows.contains event
  | .participants _ _ | .lagged => !s.ended && s.receiver.isSome
  | _ => !s.ended

def hubStep (hub : Hub) : HubOp → Hub × List Frame
  | .call op =>
      let sys := (gateway env).next hub.shared.sys op
      ({ hub with shared := { hub.shared with sys := sys } }, [])
  | .append eventId event =>
      let db := ((appendEvent env eventId event).runTx hub.shared.sys.db).2
      ({ hub with shared := { hub.shared with sys := { hub.shared.sys with db := db } } }, [])
  | .connect actor => ({ hub with sessions := hub.sessions ++ [{ actor := actor }] }, [])
  | .input index input io =>
      match hub.sessions[index]? with
      | none => (hub, [])
      | some s =>
          if s.canRead hub.shared.sys.db input then
            let r := (s.react env hub.shared io input).finish
            ({ shared := r.shared, sessions := hub.sessions.set index r.session }, r.frames)
          else (hub, [])

def hub : Machine Hub HubOp (List Frame) where
  init := {}
  step := hubStep env

end RoomGateway
