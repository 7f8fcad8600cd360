import RoomGateway.Lib.SeqLog
import RoomGateway.Model.Store

/-!
What the writes to the tables do, one rule for each: the new database is the
old one with one table replaced, and the rows of that table are known. Then the
one rule for appending an event.
-/

namespace RoomGateway

open Table

namespace Db

variable {db db' : Db}

theorem insertRoomEvent_some {e : RoomEvent} (h : insertRoomEvent e db = some db') :
    ∃ t : Table roomEventConstraints, t.rows = db.roomEvents.rows ++ [e] ∧
      roomEventConstraints.check e = true ∧
      (∀ x ∈ db.roomEvents.rows, roomEventConstraints.clash x e = false) ∧
      db' = { db with roomEvents := t } := by
  obtain ⟨t, ht, rfl⟩ := Option.map_eq_some_iff.mp h
  exact ⟨t, rows_insert ht, check_insert ht, clash_insert ht, rfl⟩

theorem insertDecision_some {d : Decision} (h : insertDecision d db = some db') :
    ∃ t : Table decisionConstraints, t.rows = db.decisions.rows ++ [d] ∧
      (∀ x ∈ db.decisions.rows, decisionConstraints.clash x d = false) ∧
      db' = { db with decisions := t } := by
  obtain ⟨t, ht, rfl⟩ := Option.map_eq_some_iff.mp h
  exact ⟨t, rows_insert ht, clash_insert ht, rfl⟩

theorem updateDecisions_some {p : Decision → Bool} {f : Decision → Decision}
    (h : updateDecisions p f db = some db') :
    ∃ t : Table decisionConstraints, t.rows = db.decisions.rows.map (alter p f) ∧
      db' = { db with decisions := t } := by
  obtain ⟨t, ht, rfl⟩ := Option.map_eq_some_iff.mp h
  exact ⟨t, rows_update ht, rfl⟩

theorem insertRoomRequest_some {r : RoomRequest} (h : insertRoomRequest r db = some db') :
    ∃ t : Table roomRequestConstraints, t.rows = db.roomRequests.rows ++ [r] ∧
      (∀ x ∈ db.roomRequests.rows, roomRequestConstraints.clash x r = false) ∧
      db' = { db with roomRequests := t } := by
  obtain ⟨t, ht, rfl⟩ := Option.map_eq_some_iff.mp h
  exact ⟨t, rows_insert ht, clash_insert ht, rfl⟩

theorem insertAgentTask_some {x : AgentTaskRecord} (h : insertAgentTask x db = some db') :
    ∃ t : Table agentTaskConstraints, t.rows = db.agentTasks.rows ++ [x] ∧
      db' = { db with agentTasks := t } := by
  obtain ⟨t, ht, rfl⟩ := Option.map_eq_some_iff.mp h
  exact ⟨t, rows_insert ht, rfl⟩

theorem updateAgentTasks_some {p : AgentTaskRecord → Bool} {f : AgentTaskRecord → AgentTaskRecord}
    (h : updateAgentTasks p f db = some db') :
    ∃ t : Table agentTaskConstraints, t.rows = db.agentTasks.rows.map (alter p f) ∧
      db' = { db with agentTasks := t } := by
  obtain ⟨t, ht, rfl⟩ := Option.map_eq_some_iff.mp h
  exact ⟨t, rows_update ht, rfl⟩

theorem insertAgentTaskUpdate_some {u : AgentTaskUpdateRow}
    (h : insertAgentTaskUpdate u db = some db') :
    ∃ t : Table agentTaskUpdateConstraints, t.rows = db.agentTaskUpdates.rows ++ [u] ∧
      db' = { db with agentTaskUpdates := t } := by
  rw [insertAgentTaskUpdate, Option.ite_none_right_eq_some] at h
  obtain ⟨-, h⟩ := h
  obtain ⟨t, ht, rfl⟩ := Option.map_eq_some_iff.mp h
  exact ⟨t, rows_insert ht, rfl⟩

theorem insertAgentConversation_some {c : AgentConversation}
    (h : insertAgentConversation c db = some db') :
    ∃ t : Table agentConversationConstraints, t.rows = db.agentConversations.rows ++ [c] ∧
      (∀ x ∈ db.agentConversations.rows, agentConversationConstraints.clash x c = false) ∧
      db' = { db with agentConversations := t } := by
  obtain ⟨t, ht, rfl⟩ := Option.map_eq_some_iff.mp h
  exact ⟨t, rows_insert ht, clash_insert ht, rfl⟩

theorem updateAgentConversations_some {p : AgentConversation → Bool}
    {f : AgentConversation → AgentConversation}
    (h : updateAgentConversations p f db = some db') :
    ∃ t : Table agentConversationConstraints,
      t.rows = db.agentConversations.rows.map (alter p f) ∧
      db' = { db with agentConversations := t } := by
  obtain ⟨t, ht, rfl⟩ := Option.map_eq_some_iff.mp h
  exact ⟨t, rows_update ht, rfl⟩

theorem insertConversationTask_some {x : ConversationTask}
    (h : insertConversationTask x db = some db') :
    ∃ t : Table conversationTaskConstraints, t.rows = db.conversationTasks.rows ++ [x] ∧
      db.taskReferences x = true ∧
      (∀ y ∈ db.conversationTasks.rows, conversationTaskConstraints.clash y x = false) ∧
      db' = { db with conversationTasks := t } := by
  rw [insertConversationTask, Option.ite_none_right_eq_some] at h
  obtain ⟨href, h⟩ := h
  obtain ⟨t, ht, rfl⟩ := Option.map_eq_some_iff.mp h
  exact ⟨t, rows_insert ht, href, clash_insert ht, rfl⟩

theorem updateConversationTasks_some {p : ConversationTask → Bool}
    {f : ConversationTask → ConversationTask} (h : updateConversationTasks p f db = some db') :
    ∃ t : Table conversationTaskConstraints,
      t.rows = db.conversationTasks.rows.map (alter p f) ∧
      db' = { db with conversationTasks := t } := by
  obtain ⟨t, ht, rfl⟩ := Option.map_eq_some_iff.mp h
  exact ⟨t, rows_update ht, rfl⟩

theorem insertConversationUpdate_some {u : ConversationUpdate}
    (h : insertConversationUpdate u db = some db') :
    ∃ t : Table conversationUpdateConstraints, t.rows = db.conversationUpdates.rows ++ [u] ∧
      db' = { db with conversationUpdates := t } := by
  rw [insertConversationUpdate, Option.ite_none_right_eq_some] at h
  obtain ⟨-, h⟩ := h
  obtain ⟨t, ht, rfl⟩ := Option.map_eq_some_iff.mp h
  exact ⟨t, rows_insert ht, rfl⟩

theorem discloseOnce_some {d : ConversationDisclosure} (h : discloseOnce d db = some db') :
    ∃ t : Table conversationDisclosureConstraints,
      db' = { db with conversationDisclosures := t } := by
  rw [discloseOnce, Option.ite_none_right_eq_some] at h
  obtain ⟨-, h⟩ := h
  obtain ⟨t, -, rfl⟩ := Option.map_eq_some_iff.mp h
  exact ⟨t, rfl⟩

theorem insertConversationUpdateRequest_some {u : ConversationUpdateRequest}
    (h : insertConversationUpdateRequest u db = some db') :
    ∃ t : Table conversationUpdateRequestConstraints,
      t.rows = db.conversationUpdateRequests.rows ++ [u] ∧
      (∀ x ∈ db.conversationUpdateRequests.rows,
        conversationUpdateRequestConstraints.clash x u = false) ∧
      db' = { db with conversationUpdateRequests := t } := by
  rw [insertConversationUpdateRequest, Option.ite_none_right_eq_some] at h
  obtain ⟨-, h⟩ := h
  obtain ⟨t, ht, rfl⟩ := Option.map_eq_some_iff.mp h
  exact ⟨t, rows_insert ht, clash_insert ht, rfl⟩

end Db

/-- Events are told apart by their ids. -/
theorem Db.eventId_unique {db : Db} {a b : RoomEvent} (ha : a ∈ db.roomEvents.rows)
    (hb : b ∈ db.roomEvents.rows) (hid : a.eventId = b.eventId) : a = b :=
  Table.eq_of_clash ha hb (by simp [roomEventConstraints, hid])
    (by simp [roomEventConstraints, hid])

/-! ### Appending an event -/

/-- The second database's events are the first's with events appended, each
under the next sequence of its room. -/
abbrev LogExtends (db db' : Db) : Prop :=
  SeqLog.Extends RoomEvent.roomId RoomEvent.sequence db.roomEvents.rows db'.roomEvents.rows

/-- An event was appended to its room's log, under the next sequence. -/
structure Appended (db : Db) (event : NewEvent) (eventId : Uuid) (e : RoomEvent)
    (events : Table roomEventConstraints) : Prop where
  row : e = event.row eventId (db.maxSequence event.roomId + 1)
  rows : events.rows = db.roomEvents.rows ++ [e]
  fresh : ∀ x ∈ db.roomEvents.rows, roomEventConstraints.clash x e = false
  bounded : e.sequence ≤ maxBigint

/-- The row of an event that passed the room contract. -/
def RoomEvent.Checked (env : Env) (e : RoomEvent) : Prop :=
  ∃ eventId event sequence, isValidRoomEvent env eventId event = true ∧
    e = event.row eventId sequence

theorem Appended.checked {env : Env} {db : Db} {event : NewEvent} {eventId : Uuid} {e : RoomEvent}
    {events : Table roomEventConstraints} (h : Appended db event eventId e events)
    (hvalid : isValidRoomEvent env eventId event = true) : e.Checked env :=
  ⟨eventId, event, _, hvalid, h.row⟩

theorem appendEventInTransaction_ok {env : Env} {eventId : Uuid} {event : NewEvent}
    {db db' : Db} {e : RoomEvent}
    (h : (appendEventInTransaction env eventId event).exec db = .ok (e, db')) :
    ∃ events, Appended db event eventId e events ∧ isValidRoomEvent env eventId event = true ∧
      db' = { db with roomEvents := events } := by
  simp only [appendEventInTransaction, Prog.exec_bind_ok, Prog.exec_ensure_ok,
    Prog.exec_returning_ok] at h
  obtain ⟨-, u, ⟨hvalid, rfl⟩, rfl, hinsert⟩ := h
  obtain ⟨events, hrows, hcheck, hfresh, rfl⟩ := Db.insertRoomEvent_some hinsert
  refine ⟨events, ⟨rfl, hrows, hfresh, ?_⟩, hvalid, rfl⟩
  simpa [roomEventConstraints] using hcheck

/-- An event is appended behind the events of its room. -/
theorem Appended.sequence_lt {db : Db} {event : NewEvent} {eventId : Uuid} {e x : RoomEvent}
    {events : Table roomEventConstraints} (h : Appended db event eventId e events)
    (hx : x ∈ db.roomEvents.rows) (hroom : x.roomId = event.roomId) : x.sequence < e.sequence := by
  have hlt : x.sequence < db.maxSequence x.roomId + 1 := SeqLog.lt_next hx
  rw [hroom] at hlt
  rw [h.row]
  exact hlt

theorem Appended.extends {db : Db} {event : NewEvent} {eventId : Uuid} {e : RoomEvent}
    {events : Table roomEventConstraints} (h : Appended db event eventId e events) :
    SeqLog.Extends RoomEvent.roomId RoomEvent.sequence db.roomEvents.rows events.rows := by
  rw [h.rows]
  refine .single ?_
  rw [h.row]
  rfl

/-! ### The request ledger -/

section Ledger

variable {db db' : Db} {room requestId : Uuid}

theorem priorRequest_ok {prior : Option (Json × List RoomEvent)}
    (h : (priorRequest room requestId).exec db = .ok (prior, db')) :
    db = db' ∧ prior = (findRequest db room requestId).map fun r =>
      (r.requestFingerprint, eventsById db r.eventIds) := by
  simp only [priorRequest, Prog.exec_bind_ok, Prog.exec_query_ok] at h
  obtain ⟨record, _, ⟨hrecord, rfl⟩, h⟩ := h
  cases record with
  | none =>
      obtain ⟨rfl, rfl⟩ := Prog.exec_pure_ok.mp h
      rw [hrecord]
      exact ⟨rfl, rfl⟩
  | some record =>
      simp only [Prog.exec_bind_ok, Prog.exec_query_ok, Prog.exec_pure_ok] at h
      obtain ⟨_, _, ⟨rfl, rfl⟩, rfl, rfl⟩ := h
      rw [hrecord]
      exact ⟨rfl, rfl⟩

/-- A request was recorded with the ids of its events. -/
structure Ledgered (db db' : Db) (room requestId : Uuid) (fingerprint : Json)
    (events : List RoomEvent) : Prop where
  unrecorded : findRequest db room requestId = none
  frame : ∃ rs : Table roomRequestConstraints,
    rs.rows = db.roomRequests.rows ++ [⟨room, requestId, fingerprint, events.map (·.eventId)⟩] ∧
      db' = { db with roomRequests := rs }

theorem recordRequest_ok {fingerprint : Json} {events : List RoomEvent} {u : Unit}
    (h : (recordRequest room requestId fingerprint events).exec db = .ok (u, db')) :
    Ledgered db db' room requestId fingerprint events := by
  obtain ⟨rs, hrs, hfresh, rfl⟩ := Db.insertRoomRequest_some (Prog.exec_execute_ok.mp h)
  refine ⟨List.find?_eq_none.mpr fun r hr hkey => ?_, rs, hrs, rfl⟩
  have := hfresh r hr
  simp_all [roomRequestConstraints]

end Ledger

end RoomGateway
