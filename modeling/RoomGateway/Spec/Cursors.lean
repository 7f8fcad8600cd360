import RoomGateway.Spec.Presence
import RoomGateway.Spec.Session
import RoomGateway.Spec.Visibility

/-!
The arithmetic on a session's cursor. The cursor is a 64-bit integer that a
client may choose, and `websocket_session` and `replay_in_order` compare sequences
with its successor. The successor exists as long as no client joins after the
largest integer and no room has an event with that number.
-/

namespace RoomGateway

/-! ### The sums -/

/-- The values of `last_sequence + 1` that `replayInOrder` compares with, before
they are reduced to 64 bits. -/
def replaySums (actor : Uuid) : List RoomEvent → Int → Nat → List Int
  | [], _, _ => []
  | event :: events, lastSequence, sends =>
      if event.sequence ≤ lastSequence then replaySums actor events lastSequence sends
      else
        (lastSequence + 1) ::
          if event.sequence ≠ wrapI64 (lastSequence + 1) then []
          else if eventVisibleTo event actor then
            match sends with
            | 0 => []
            | sends + 1 => replaySums actor events event.sequence sends
          else replaySums actor events event.sequence sends

def Session.recoverSums (shared : Shared) (s : Session) (io : Io) (room : Uuid) : List Int :=
  if !io.replayOk then []
  else replaySums s.actor.id (eventsAfter shared.sys.db room s.lastSequence) s.lastSequence io.sends

/-- Those of a reaction. -/
def Session.sums (shared : Shared) (s : Session) (io : Io) : Input → List Int
  | .event event =>
      (s.lastSequence + 1) ::
        if event.sequence > wrapI64 (s.lastSequence + 1) then
          (s.joinedRoom.map (s.recoverSums shared io)).getD []
        else []
  | .lagged => (s.joinedRoom.map (s.recoverSums shared io)).getD []
  | _ => []

/-- Those of a step of the hub. -/
def cursorSums (h : Hub) : HubOp → List Int
  | .input index input io =>
      match h.sessions[index]? with
      | none => []
      | some s => if s.canRead h.shared.sys.db input then s.sums h.shared io input else []
  | _ => []

/-! ### Cursors with a successor -/

/-- The largest 64-bit integer. -/
def maxI64 : Int := 2 ^ 63 - 1

/-- The log has no event with the largest number. -/
def LogBelow (db : Db) : Prop := ∀ e ∈ db.roomEvents.rows, e.sequence < maxI64

instance (db : Db) : Decidable (LogBelow db) :=
  inferInstanceAs (Decidable (∀ e ∈ db.roomEvents.rows, e.sequence < maxI64))

/-- The step joins no room after the largest number. -/
def HubOp.joinsBelow : HubOp → Bool
  | .input _ (.message (.ok (.join join)) _) _ => join.cursor < maxI64
  | _ => true

/-- The condition on a step: on the cursor it names and on the log it finds. -/
def SuccessorExists (h : Hub) (op : HubOp) : Prop :=
  op.joinsBelow = true ∧ LogBelow h.shared.sys.db

instance (h : Hub) (op : HubOp) : Decidable (SuccessorExists h op) :=
  inferInstanceAs (Decidable (_ ∧ _))

section Sessions

variable {env : Env} {shared : Shared} {s : Session} {io : Io} {actor : Uuid}

theorem eventsAfter_below (hlog : LogBelow shared.sys.db) (room : Uuid) (after : Int) :
    ∀ e ∈ eventsAfter shared.sys.db room after, e.sequence < maxI64 :=
  fun e he => hlog e (mem_eventsAfter.mp he).1

theorem replayInOrder_below {events : List RoomEvent} (hevents : ∀ e ∈ events, e.sequence < maxI64)
    {last : Int} (hlast : last < maxI64) (sends : Nat) :
    (replayInOrder actor events last sends).1 < maxI64 := by
  induction events generalizing last sends with
  | nil => exact hlast
  | cons e events ih =>
      obtain ⟨he, hevents⟩ := List.forall_mem_cons.mp hevents
      unfold replayInOrder
      split_ifs
      · exact ih hevents hlast sends
      · exact hlast
      · cases sends with
        | zero => exact hlast
        | succ sends => exact ih hevents he sends
      · exact ih hevents he sends

theorem replaySums_le {events : List RoomEvent} (hevents : ∀ e ∈ events, e.sequence < maxI64)
    {last : Int} (hlast : last < maxI64) (sends : Nat) :
    ∀ n ∈ replaySums actor events last sends, n ≤ maxI64 := by
  induction events generalizing last sends with
  | nil => simp [replaySums]
  | cons e events ih =>
      obtain ⟨he, hevents⟩ := List.forall_mem_cons.mp hevents
      unfold replaySums
      split_ifs
      · exact ih hevents hlast sends
      · exact List.forall_mem_cons.mpr ⟨Int.add_one_le_of_lt hlast, by simp⟩
      · refine List.forall_mem_cons.mpr ⟨Int.add_one_le_of_lt hlast, ?_⟩
        cases sends with
        | zero => simp
        | succ sends => exact ih hevents he sends
      · exact List.forall_mem_cons.mpr ⟨Int.add_one_le_of_lt hlast, ih hevents he sends⟩

theorem Session.recoverSums_le (hlog : LogBelow shared.sys.db) (hlast : s.lastSequence < maxI64)
    (room : Option Uuid) : ∀ n ∈ (room.map (s.recoverSums shared io)).getD [], n ≤ maxI64 := by
  cases room with
  | none => simp
  | some room =>
      rw [Option.map_some, Option.getD_some, Session.recoverSums]
      split_ifs
      · simp
      · exact replaySums_le (eventsAfter_below hlog room _) hlast io.sends

theorem Session.sums_le (hlog : LogBelow shared.sys.db) (hlast : s.lastSequence < maxI64)
    (input : Input) : ∀ n ∈ s.sums shared io input, n ≤ maxI64 := by
  cases input with
  | event event =>
      refine List.forall_mem_cons.mpr ⟨Int.add_one_le_of_lt hlast, ?_⟩
      split_ifs
      · exact s.recoverSums_le hlog hlast s.joinedRoom
      · simp
  | lagged => exact s.recoverSums_le hlog hlast s.joinedRoom
  | _ => simp [Session.sums]

theorem Session.recover_below (hlog : LogBelow shared.sys.db) (hlast : s.lastSequence < maxI64)
    (room : Uuid) : (s.recover shared io room).session.lastSequence < maxI64 := by
  unfold Session.recover
  split_ifs
  · exact hlast
  · exact replayInOrder_below (eventsAfter_below hlog room _) hlast io.sends

theorem Session.join_below (hlog : LogBelow shared.sys.db) (hlast : s.lastSequence < maxI64)
    {join : Join} (hjoin : join.cursor < maxI64) :
    (s.join shared io join).session.lastSequence < maxI64 := by
  unfold Session.join
  split_ifs
  · exact hlast
  · exact hlast
  · exact hlast
  · change (Option.map _ (eventsAfter shared.sys.db join.roomId join.cursor).getLast?).getD _ < _
    cases hlater : (eventsAfter shared.sys.db join.roomId join.cursor).getLast? with
    | none => exact hjoin
    | some e => exact eventsAfter_below hlog _ _ e (List.mem_of_getLast? hlater)

theorem Session.receiveEvent_below (hlog : LogBelow shared.sys.db) (hlast : s.lastSequence < maxI64)
    {event : RoomEvent} (hevent : event.sequence < maxI64) :
    (s.receiveEvent shared io event).session.lastSequence < maxI64 := by
  unfold Session.receiveEvent
  split_ifs
  · exact hlast
  · exact hevent
  · exact hevent
  · split
    · exact hlast
    · exact s.recover_below hlog hlast _
  · exact hlast

/-- A reaction keeps the cursor below the largest number. -/
theorem Session.react_below (hlog : LogBelow shared.sys.db) (hlast : s.lastSequence < maxI64)
    {input : Input} (hread : s.canRead shared.sys.db input = true) {index : Nat}
    (hjoins : HubOp.joinsBelow (.input index input io) = true) :
    (s.react env shared io input).session.lastSequence < maxI64 := by
  cases input with
  | message request fallbackId =>
      dsimp only [Session.react, Session.handleMessage]
      split_ifs
      · exact hlast
      · split
        · exact hlast
        · exact s.join_below hlog hlast (of_decide_eq_true hjoins)
        · split
          · exact hlast
          · split_ifs
            · exact hlast
            · rw [(s.mutate_quiet env _ _).2]
              exact hlast
  | event event =>
      have hmem : event ∈ shared.sys.db.roomEvents.rows := by
        simp only [Session.canRead, Bool.and_eq_true] at hread
        exact List.contains_iff_mem.mp hread.2
      exact s.receiveEvent_below hlog hlast (hlog event hmem)
  | participants participants excludeActorId =>
      dsimp only [Session.react]
      split_ifs
      · exact hlast
      · split <;> exact hlast
  | lagged =>
      dsimp only [Session.react]
      split
      · exact hlast
      · exact s.recover_below hlog hlast _
  | _ => exact hlast

theorem Reaction.finish_lastSequence (r : Reaction) :
    r.finish.session.lastSequence = r.session.lastSequence := by
  unfold Reaction.finish
  split_ifs <;> rfl

end Sessions

/-! ### Runs -/

def CursorsBelow (h : Hub) : Prop := ∀ s ∈ h.sessions, s.lastSequence < maxI64

theorem CursorsBelow.next {env : Env} {h : Hub} {op : HubOp} (hop : SuccessorExists h op)
    (hbelow : CursorsBelow h) : CursorsBelow ((hub env).next h op) := by
  obtain ⟨hjoins, hlog⟩ := hop
  change CursorsBelow (hubStep env h op).1
  cases op with
  | call op => exact hbelow
  | append eventId event => exact hbelow
  | connect actor =>
      intro s hs
      rcases List.mem_append.mp hs with hs | hs
      · exact hbelow s hs
      · rw [List.mem_singleton.mp hs]
        exact show (0 : Int) < maxI64 by decide
  | input index input io =>
      dsimp only [hubStep]
      cases hget : h.sessions[index]? with
      | none => exact hbelow
      | some s =>
          dsimp only
          split_ifs with hread
          · intro other hother
            rcases List.mem_or_eq_of_mem_set hother with hother | rfl
            · exact hbelow other hother
            · rw [Reaction.finish_lastSequence]
              exact s.react_below hlog (hbelow s (List.mem_of_getElem? hget)) hread hjoins
          · exact hbelow

theorem cursorSums_le {h : Hub} {op : HubOp} (hop : SuccessorExists h op)
    (hbelow : CursorsBelow h) : ∀ n ∈ cursorSums h op, n ≤ maxI64 := by
  cases op with
  | input index input io =>
      dsimp only [cursorSums]
      cases hget : h.sessions[index]? with
      | none => simp
      | some s =>
          dsimp only
          split_ifs
          · exact s.sums_le hop.2 (hbelow s (List.mem_of_getElem? hget)) input
          · simp
  | _ => simp [cursorSums]

/-- In every run in which nobody joins after the largest number and no log holds
it, every sum fits into 64 bits. -/
theorem cursor_sums_fit (env : Env) (ops : List HubOp)
    (h : (hub env).Guarded SuccessorExists (hub env).init ops) :
    ∀ n ∈ (hub env).collect cursorSums (hub env).init ops, n ≤ maxI64 :=
  Machine.forall_collect_of_guard (P := CursorsBelow) (fun _ _ hop hbelow => hbelow.next hop)
    (fun _ _ hop hbelow => cursorSums_le hop hbelow) (by simp [CursorsBelow, hub]) h

/-- Somebody joins, is sent a message and joins again. -/
def sampleCursorOps : List HubOp :=
  repeatedMessage ++ [.input 1 .lagged sampleIo,
    .input 1 (.message (.ok (.join { sampleJoin with afterSequence := some ⟨1, by decide,
      by decide⟩ })) none) sampleIo]

theorem cursor_sums_fit_sample :
    (hub sampleEnv).collect cursorSums (hub sampleEnv).init sampleCursorOps = [1] ∧
      ∀ n ∈ (hub sampleEnv).collect cursorSums (hub sampleEnv).init sampleCursorOps,
        n ≤ maxI64 :=
  ⟨by decide +kernel, cursor_sums_fit sampleEnv sampleCursorOps (by decide +kernel)⟩

/-! ### A cursor without a successor

Noor joins after the largest number, which the contract admits. The next message
of the room is compared with the successor. -/

def lastJoin : Join := { sampleJoin with afterSequence := some ⟨2 ^ 63 - 1, by decide, by decide⟩ }

def lastJoinText : Json :=
  .obj [("id", "join"), ("jsonrpc", "2.0"), ("method", "room.join"),
    ("params", .obj [("afterSequence", (9223372036854775807 : Int)),
      ("contractVersion", "n2n.room.v1"), ("occurredAt", "1970-01-01T00:00:00Z"),
      ("requestId", (2 : Uuid)), ("roomId", (1 : Uuid))])]

def lastCursorOps : List HubOp :=
  [.connect sampleActor, .connect sampleReader,
    .input 0 (.message (.ok (.join sampleJoin)) none) sampleIo,
    .input 1 (.message (validateRequest sampleFormats sampleEnv.parseRfc3339 lastJoinText) none)
      sampleIo,
    .input 0 (.message (.ok (.chatSend sampleChat)) none) sampleIo]

theorem last_cursor_overflows :
    validateRequest sampleFormats sampleEnv.parseRfc3339 lastJoinText = .ok (.join lastJoin) ∧
      ∃ e ∈ ((hub sampleEnv).run lastCursorOps).shared.sys.db.roomEvents.rows,
        ∃ n ∈ (hub sampleEnv).collect cursorSums (hub sampleEnv).init
          (lastCursorOps ++ [.input 1 (.event e) sampleIo]), maxI64 < n := by
  decide +kernel

end RoomGateway
