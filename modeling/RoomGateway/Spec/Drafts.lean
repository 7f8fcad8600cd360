import RoomGateway.Lib.Loops
import RoomGateway.Spec.Log
import RoomGateway.Spec.Requests

/-!
The events a request builds before any of them is stored. `draftEvents` lists
them, with their ids, for a first request that passes the checks of its method.
A request that succeeds stored exactly those, each found valid; and if they are
valid and the database has a place for them, the request succeeds.
-/

namespace RoomGateway

open Prog Table

variable {env : Env} {db db' : Db} {request : DecisionTransition} {row : Decision}

/-! ### The events of a request -/

/-- An event that is built, and the id drawn for it. -/
abbrev Draft := Uuid × NewEvent

section Drafts

variable (env : Env) (db : Db) (actor : Actor) (presence : List ParticipantPresence)
  (conversationsEnabled : Bool) (fresh : Nat → Uuid)

def messageDrafts (request : ChatSend) (audienceIds : List Uuid) : List Draft :=
  (fresh 0, messageEvent actor request audienceIds) ::
    if invokesActionItems actor request then
      [fresh 2, fresh 3, fresh 4].zip
        (actionItemsEvents request (actionItemsTaskPayload (fresh 1) (fresh 0) actor.id))
    else []

def proposeDrafts (request : DecisionPropose) : List Draft :=
  [(fresh 1, decisionEvent actor request.roomId request.requestId .decisionProposed
    (decisionPayload (fresh 0) .draft request.title request.summary request.sourceEventIds)
    request.occurredAt)]

def settleDrafts (request : DecisionTransition) (row : Decision) (status : DecisionStatus)
    (eventType : EventType) : List Draft :=
  [(fresh 0, decisionEvent actor request.roomId request.requestId eventType
    (decisionPayload request.decisionId status row.title row.summary row.sourceEventIds)
    request.occurredAt)]

def editDrafts (request : DecisionTransition) (row : Decision) (title summary : String) :
    List Draft :=
  [(fresh 1, decisionEvent actor request.roomId request.requestId .decisionEdited
      (editedPayload request.decisionId (fresh 0)) request.occurredAt),
    (fresh 2, decisionEvent actor request.roomId request.requestId .decisionConfirmed
      (replacementPayload (fresh 0) request.decisionId title summary row.sourceEventIds)
      request.occurredAt)]

def transitionDrafts (request : DecisionTransition) (row : Decision) :
    Except RpcError (List Draft) :=
  match request.action, request.editedTitle, request.editedSummary with
  | .confirm, _, _ => .ok (settleDrafts actor fresh request row .active .decisionConfirmed)
  | .dismiss, _, _ => .ok (settleDrafts actor fresh request row .dismissed .decisionDismissed)
  | .edit, some title, some summary => .ok (editDrafts actor fresh request row title summary)
  | .edit, _, _ => .error .invalidRequest

def deleteDrafts (request : DecisionDelete) (row : Decision) : List Draft :=
  [(fresh 0, decisionEvent actor request.roomId request.requestId .decisionDeleted
    (deletedPayload row) request.occurredAt)]

def startDrafts (request : AgentTaskStart) : List Draft :=
  [(fresh 1, requestedEvent actor.id actor.displayName request (fresh 0)
    (db.maxSequence request.roomId + 1))]

def foundDecision (decisionId room : Uuid) : Except RpcError Decision :=
  match db.decisions.rows.find? fun d => d.decisionId = decisionId && d.roomId = room with
  | some row => .ok row
  | none => .error .notFound

theorem foundDecision_mem {db : Db} {decisionId room : Uuid}
    (h : foundDecision db decisionId room = .ok row) : row ∈ db.decisions.rows := by
  unfold foundDecision at h
  split at h
  · next hfind =>
      cases h
      exact List.mem_of_find?_eq_some hfind
  · cases h

/-- What a first request builds, or the check of its method that it fails. -/
def draftEvents : ValidatedRequest → Except RpcError (List Draft)
  | .chatSend request => do
      let audienceIds ← resolveChatAudience env actor
        (participantSnapshot db request.roomId presence conversationsEnabled) request
      return messageDrafts actor fresh request audienceIds
  | .decisionPropose request => .ok (proposeDrafts actor fresh request)
  | .decisionTransition request => do
      let row ← foundDecision db request.decisionId request.roomId
      if row.status = .draft then transitionDrafts actor fresh request row
      else .error .invalidTransition
  | .decisionDelete request => do
      let row ← foundDecision db request.decisionId request.roomId
      return deleteDrafts actor fresh request row
  | .agentTaskStart request => .ok (startDrafts db actor fresh request)
  | .join _ | .sessionAuthenticate _ => .error .invalidRequest

end Drafts

/-! ### What a request stored -/

/-- The drafts were found valid and stored, in their order. -/
def DraftsStored (env : Env) (drafts : List Draft) (events : List RoomEvent) : Prop :=
  List.Forall₂ (fun d e => isValidRoomEvent env d.1 d.2 = true ∧
      ∃ sequence, e = d.2.row d.1 sequence)
    drafts events

theorem DraftsStored.valid {drafts : List Draft} {events : List RoomEvent}
    (h : DraftsStored env drafts events) : ∀ d ∈ drafts, isValidRoomEvent env d.1 d.2 = true := by
  intro d hd
  obtain ⟨hlength, hget⟩ := List.forall₂_iff_get.mp h
  obtain ⟨i, hi, rfl⟩ := List.getElem_of_mem hd
  exact (hget i hi (hlength ▸ hi)).1

section Stored

variable {actor : Actor} {presence : List ParticipantPresence} {conversationsEnabled : Bool}
  {fresh : Nat → Uuid} {events : List RoomEvent}

theorem appendEvent_stored {ε : Type} {f : StoreError → ε} {eventId : Uuid} {event : NewEvent}
    {e : RoomEvent}
    (h : ((appendEventInTransaction env eventId event).mapErr f).exec db = .ok (e, db')) :
    isValidRoomEvent env eventId event = true ∧ ∃ sequence, e = event.row eventId sequence := by
  obtain ⟨log, happended, hvalid, rfl⟩ := appendEventInTransaction_ok (exec_mapErr_ok.mp h)
  exact ⟨hvalid, _, happended.row⟩

theorem findDecision_found {decisionId room : Uuid}
    (h : (findDecision decisionId room).exec db = .ok (row, db')) :
    foundDecision db decisionId room = .ok row ∧ db = db' := by
  simp only [findDecision, exec_bind_ok, exec_query_ok, exec_orFail_ok] at h
  obtain ⟨_, _, ⟨rfl, rfl⟩, hfound, rfl⟩ := h
  rw [foundDecision, hfound]
  exact ⟨rfl, rfl⟩

theorem sendMessage_stored {request : ChatSend}
    (h : (sendMessage env actor request presence conversationsEnabled fresh).exec db =
      .ok (events, db')) :
    ∃ drafts, draftEvents env db actor presence conversationsEnabled fresh (.chatSend request) =
      .ok drafts ∧ DraftsStored env drafts events := by
  simp only [sendMessage, exec_bind_ok, exec_query_ok, exec_ofExcept_ok] at h
  obtain ⟨_, _, ⟨rfl, rfl⟩, audienceIds, _, ⟨haudience, rfl⟩, message, _, hmessage, h⟩ := h
  refine ⟨messageDrafts actor fresh request audienceIds, ?_, ?_⟩
  · rw [draftEvents, haudience]
    rfl
  have hfirst := appendEvent_stored hmessage
  obtain ⟨sequence, hrow⟩ := hfirst.2
  -- the agent's events name the message by the id it was stored under
  have hid : message.eventId = fresh 0 := by rw [hrow]; rfl
  unfold messageDrafts
  split_ifs at h ⊢ with hinvokes
  · simp only [exec_bind_ok, exec_pure_ok, hid] at h
    obtain ⟨queued, _, hqueued, running, _, hrunning, ended, _, hended, rfl, rfl⟩ := h
    exact .cons hfirst (.cons (appendEvent_stored hqueued) (.cons (appendEvent_stored hrunning)
      (.cons (appendEvent_stored hended) .nil)))
  · obtain ⟨rfl, rfl⟩ := exec_pure_ok.mp h
    exact .cons hfirst .nil

theorem proposeDecision_stored {request : DecisionPropose}
    (h : (proposeDecision env actor request fresh).exec db = .ok (events, db')) :
    DraftsStored env (proposeDrafts actor fresh request) events := by
  simp only [proposeDecision, exec_bind_ok, exec_pure_ok] at h
  obtain ⟨_, _, -, e, _, happend, rfl, rfl⟩ := h
  exact .cons (appendEvent_stored happend) .nil

theorem settleDecision_stored {status : DecisionStatus} {eventType : EventType}
    (h : (settleDecision env actor request row status eventType fresh).exec db =
      .ok (events, db')) :
    DraftsStored env (settleDrafts actor fresh request row status eventType) events := by
  simp only [settleDecision, exec_bind_ok, exec_pure_ok] at h
  obtain ⟨_, _, -, e, _, happend, rfl, rfl⟩ := h
  exact .cons (appendEvent_stored happend) .nil

theorem editDecision_stored
    (h : (editDecision env actor request row fresh).exec db = .ok (events, db')) :
    ∃ title summary, request.editedTitle = some title ∧ request.editedSummary = some summary ∧
      DraftsStored env (editDrafts actor fresh request row title summary) events := by
  simp only [editDecision, exec_bind_ok, exec_orFail_ok, exec_pure_ok] at h
  obtain ⟨title, _, ⟨htitle, rfl⟩, summary, _, ⟨hsummary, rfl⟩, _, _, -, _, _, -, edited, _,
    hedited, activated, _, hactivated, rfl, rfl⟩ := h
  exact ⟨title, summary, htitle, hsummary,
    .cons (appendEvent_stored hedited) (.cons (appendEvent_stored hactivated) .nil)⟩

theorem transitionDecision_stored
    (h : (transitionDecision env actor request fresh).exec db = .ok (events, db')) :
    ∃ drafts, draftEvents env db actor presence conversationsEnabled fresh
      (.decisionTransition request) = .ok drafts ∧ DraftsStored env drafts events := by
  simp only [transitionDecision, exec_bind_ok, exec_ensure_ok, decide_eq_true_eq] at h
  obtain ⟨row, _, hrow, _, _, ⟨hdraft, rfl⟩, h⟩ := h
  obtain ⟨hfound, rfl⟩ := findDecision_found hrow
  have hdrafts : draftEvents env db actor presence conversationsEnabled fresh
      (.decisionTransition request) = transitionDrafts actor fresh request row := by
    rw [draftEvents, hfound]
    exact if_pos hdraft
  rw [hdrafts, transitionDrafts]
  cases haction : request.action with
  | confirm =>
      rw [haction] at h
      exact ⟨_, rfl, settleDecision_stored h⟩
  | dismiss =>
      rw [haction] at h
      exact ⟨_, rfl, settleDecision_stored h⟩
  | edit =>
      rw [haction] at h
      obtain ⟨title, summary, htitle, hsummary, hstored⟩ := editDecision_stored h
      rw [htitle, hsummary]
      exact ⟨_, rfl, hstored⟩

theorem deleteDecision_stored {request : DecisionDelete}
    (h : (deleteDecision env actor request fresh).exec db = .ok (events, db')) :
    ∃ drafts, draftEvents env db actor presence conversationsEnabled fresh
      (.decisionDelete request) = .ok drafts ∧ DraftsStored env drafts events := by
  simp only [deleteDecision, exec_bind_ok, exec_pure_ok] at h
  obtain ⟨row, _, hrow, e, _, happend, _, _, -, rfl, rfl⟩ := h
  obtain ⟨hfound, rfl⟩ := findDecision_found hrow
  refine ⟨deleteDrafts actor fresh request row, ?_, .cons (appendEvent_stored happend) .nil⟩
  rw [draftEvents, hfound]
  rfl

theorem startAgentTask_stored {request : AgentTaskStart} {txNow : Time}
    {result : AgentTaskStartResult}
    (hnew : findRequest db request.roomId request.requestId = none)
    (h : (startAgentTaskInTransaction env actor.id actor.displayName request false txNow
      fresh).exec db = .ok (result, db')) :
    DraftsStored env (startDrafts db actor fresh request) result.events := by
  simp only [startAgentTaskInTransaction, lockRoom, exec_bind_ok, exec_acquire_ok] at h
  obtain ⟨-, _, rfl, prior, _, hprior, h⟩ := h
  obtain ⟨rfl, hfound⟩ := priorRequest_ok hprior
  rw [hnew, Option.map_none] at hfound
  subst hfound
  simp only [exec_bind_ok, exec_query_ok] at h
  obtain ⟨_, _, ⟨rfl, rfl⟩, e, _, happend, _, _, -, _, _, -, h⟩ := h
  obtain ⟨log, happended, hvalid, rfl⟩ := appendEventInTransaction_ok happend
  obtain ⟨rfl, -⟩ := exec_pure_ok.mp h
  exact .cons ⟨hvalid, _, happended.row⟩ .nil

/-- A first request that succeeds stored its drafts, and all of them are valid. -/
theorem performRequest_stored {request : ValidatedRequest} {room requestId : Uuid} {txNow : Time}
    (hroom : request.roomId = some room) (hrequest : request.requestId = some requestId)
    (hnew : findRequest db room requestId = none)
    (h : (performRequest env actor request presence conversationsEnabled txNow fresh).exec db =
      .ok (events, db')) :
    ∃ drafts, draftEvents env db actor presence conversationsEnabled fresh request = .ok drafts ∧
      DraftsStored env drafts events := by
  cases request with
  | chatSend request => exact sendMessage_stored h
  | decisionPropose request => exact ⟨_, rfl, proposeDecision_stored h⟩
  | decisionTransition request => exact transitionDecision_stored h
  | decisionDelete request => exact deleteDecision_stored h
  | agentTaskStart request =>
      simp only [performRequest, exec_bind_ok, exec_mapErr_ok, exec_pure_ok] at h
      obtain ⟨result, _, hstart, rfl, rfl⟩ := h
      cases hroom
      cases hrequest
      exact ⟨_, rfl, startAgentTask_stored hnew hstart⟩
  | join request => cases h
  | sessionAuthenticate request => cases h

end Stored

/-! ### Room for the events of a request -/

/-- Events with these ids can be appended to the room's log. -/
structure Accommodates (db : Db) (room : Uuid) (ids : List Uuid) : Prop where
  distinct : ids.Nodup
  unused : ∀ id ∈ ids, ∀ e ∈ db.roomEvents.rows, e.eventId ≠ id
  numbers : db.maxSequence room + ids.length ≤ maxBigint

theorem Appended.maxSequence {event : NewEvent} {eventId : Uuid} {e : RoomEvent}
    {log : Table roomEventConstraints} (h : Appended db event eventId e log) :
    ({ db with roomEvents := log } : Db).maxSequence event.roomId =
      db.maxSequence event.roomId + 1 := by
  have hroom : e.roomId = event.roomId := by rw [h.row]; rfl
  have hsequence : e.sequence = db.maxSequence event.roomId + 1 := by rw [h.row]; rfl
  have hnumber : e.sequence = SeqLog.next RoomEvent.roomId RoomEvent.sequence db.roomEvents.rows
      e.roomId := by rw [hsequence, hroom, Db.maxSequence_add_one]
  have hnext := SeqLog.next_append event.roomId e hnumber
  rw [if_pos hroom, ← h.rows, ← Db.maxSequence_add_one] at hnext
  exact (Int.add_left_inj 1).mp hnext

/-- After an event was appended there is room for the others. -/
theorem Accommodates.appended {event : NewEvent} {eventId : Uuid} {ids : List Uuid} {e : RoomEvent}
    {log : Table roomEventConstraints} (h : Accommodates db event.roomId (eventId :: ids))
    (happended : Appended db event eventId e log) :
    Accommodates { db with roomEvents := log } event.roomId ids where
  distinct := h.distinct.of_cons
  unused := by
    intro id hid x hx
    change x ∈ log.rows at hx
    rw [happended.rows] at hx
    rcases List.mem_append.mp hx with hx | hx
    · exact h.unused id (List.mem_cons_of_mem _ hid) x hx
    · rw [List.mem_singleton.mp hx, happended.row]
      rintro rfl
      exact (List.nodup_cons.mp h.distinct).1 hid
  numbers := by
    have hnumbers := h.numbers
    rw [List.length_cons, Int.natCast_add, Int.natCast_one] at hnumbers
    rw [happended.maxSequence]
    omega

/-- A valid event is appended where there is room for it. -/
theorem appendEvent_total {eventId : Uuid} {event : NewEvent} {ids : List Uuid}
    {Q : RoomEvent → Db → Prop} (h : Accommodates db event.roomId (eventId :: ids))
    (hvalid : isValidRoomEvent env eventId event = true)
    (hrest : ∀ e log now, Appended db event eventId e log → now = { db with roomEvents := log } →
      Accommodates now event.roomId ids → Q e now) :
    (appendEventInTransaction env eventId event).Total db Q := by
  set e := event.row eventId (db.maxSequence event.roomId + 1) with he
  have hclash : ∀ x ∈ db.roomEvents.rows, roomEventConstraints.clash x e = false := by
    intro x hx
    have hid : x.eventId ≠ e.eventId := h.unused eventId List.mem_cons_self x hx
    have hnumber : x.roomId = e.roomId → x.sequence ≠ e.sequence := by
      intro hroom
      have hlt : x.sequence < db.maxSequence x.roomId + 1 := SeqLog.lt_next hx
      rw [hroom] at hlt
      exact Int.ne_of_lt hlt
    simpa [roomEventConstraints, hid] using hnumber
  have hbound : e.sequence ≤ maxBigint := by
    have hnumbers := h.numbers
    rw [List.length_cons, Int.natCast_add, Int.natCast_one] at hnumbers
    change db.maxSequence event.roomId + 1 ≤ maxBigint
    omega
  obtain ⟨log, hinsert⟩ := exists_insert (c := roomEventConstraints)
    (by simpa [roomEventConstraints] using hbound) hclash
  have happended : Appended db event eventId e log := ⟨rfl, rows_insert hinsert, hclash, hbound⟩
  rw [appendEventInTransaction, total_bind, total_ensure, total_returning]
  refine ⟨hvalid, { db with roomEvents := log }, ?_,
    hrest e log _ happended rfl (h.appended happended)⟩
  rw [← he, Db.insertRoomEvent, hinsert]
  rfl

/-- What else a request needs: its ids are not used by a decision or by a task,
and its task is the first under the request's id. -/
structure Unclashing (db : Db) (fresh : Nat → Uuid) (request : ValidatedRequest) : Prop where
  decision : ∀ d ∈ db.decisions.rows, d.decisionId ≠ fresh 0
  task : ∀ t ∈ db.agentTasks.rows, t.taskId ≠ fresh 0 ∧
    ¬ (request.roomId = some t.roomId ∧ request.requestId = some t.requestId)

section Total

variable {actor : Actor} {presence : List ParticipantPresence} {conversationsEnabled : Bool}
  {fresh : Nat → Uuid} {drafts : List Draft}

theorem sendMessage_total {request : ChatSend}
    (hdrafts : draftEvents env db actor presence conversationsEnabled fresh (.chatSend request) =
      .ok drafts)
    (hvalid : ∀ d ∈ drafts, isValidRoomEvent env d.1 d.2 = true)
    (hplace : Accommodates db request.roomId (drafts.map (·.1))) :
    (sendMessage env actor request presence conversationsEnabled fresh).Total db
      fun _ _ => True := by
  obtain ⟨audienceIds, haudience, hmessages⟩ := Loops.bind_ok.mp hdrafts
  cases hmessages
  unfold messageDrafts at hvalid hplace
  simp only [sendMessage, total_bind, total_query, total_ofExcept, total_mapErr]
  refine ⟨audienceIds, haudience, ?_⟩
  split_ifs at hvalid hplace with hinvokes
  · simp only [actionItemsEvents, List.zip_cons_cons, List.zip_nil_left, List.mem_cons,
      List.not_mem_nil, or_false, forall_eq_or_imp, forall_eq] at hvalid
    obtain ⟨hmessage, hqueued, hrunning, hended⟩ := hvalid
    refine appendEvent_total hplace hmessage fun message log _ hlog _ hplace => ?_
    have hid : message.eventId = fresh 0 := by rw [hlog.row]; rfl
    simp only [hinvokes, if_true, appendActionItemsEvent, total_bind, total_mapErr, hid]
    generalize actionItemsOutcome (actionItemsTaskPayload (fresh 1) (fresh 0) actor.id)
      request.text = outcome at hended ⊢
    obtain ⟨eventType, payload⟩ := outcome
    simp only [total_pure]
    refine appendEvent_total hplace hqueued fun _ _ _ _ _ hplace => ?_
    refine appendEvent_total hplace hrunning fun _ _ _ _ _ hplace => ?_
    exact appendEvent_total hplace hended fun _ _ _ _ _ _ => trivial
  · have hmessage := hvalid (fresh 0, messageEvent actor request audienceIds) List.mem_cons_self
    refine appendEvent_total hplace hmessage fun _ _ _ _ _ _ => ?_
    simp only [hinvokes, Bool.false_eq_true, if_false, total_pure]

/-- The decision a request is about is looked up first. -/
theorem foundDecision_ok {decisionId room : Uuid} (h : foundDecision db decisionId room = .ok row) :
    (findDecision decisionId room).exec db = .ok (row, db) := by
  unfold foundDecision at h
  cases hfind : db.decisions.rows.find? fun d => d.decisionId = decisionId && d.roomId = room with
  | none =>
      rw [hfind] at h
      cases h
  | some found =>
      rw [hfind] at h
      cases h
      simp only [findDecision, exec_bind_ok, exec_query_ok, exec_orFail_ok]
      exact ⟨_, _, ⟨rfl, rfl⟩, hfind, rfl⟩

theorem insertDecision_total {d : Decision} {fault : RpcError} {Q : Unit → Db → Prop}
    (h : ∀ x ∈ db.decisions.rows, x.decisionId ≠ d.decisionId)
    (hrest : ∀ now, now.roomEvents = db.roomEvents → Q () now) :
    (execute fault (Db.insertDecision d) : Tx RpcError Unit).Total db Q := by
  obtain ⟨t, ht⟩ := exists_insert (t := db.decisions) (r := d) rfl
    fun x hx => by simp [decisionConstraints, h x hx]
  refine total_execute.mpr ⟨{ db with decisions := t }, ?_, hrest _ rfl⟩
  rw [Db.insertDecision, ht]
  rfl

/-- A change of a decision's state does not touch its id. -/
theorem updateDecisions_total {p : Decision → Bool} {f : Decision → Decision} {fault : RpcError}
    {Q : Unit → Db → Prop} (hid : ∀ d, (f d).decisionId = d.decisionId)
    (hrest : ∀ now, now.roomEvents = db.roomEvents →
      (∀ d ∈ now.decisions.rows, ∃ x ∈ db.decisions.rows, x.decisionId = d.decisionId) → Q () now) :
    (execute fault (Db.updateDecisions p f) : Tx RpcError Unit).Total db Q := by
  have hkeep : ∀ d, (alter p f d).decisionId = d.decisionId := by
    intro d
    unfold alter
    split_ifs
    · exact hid d
    · rfl
  obtain ⟨t, ht⟩ := exists_update (t := db.decisions) (p := p) (f := f) (fun _ _ _ => rfl)
    fun a _ b _ h => by simpa [decisionConstraints, hkeep] using h
  refine total_execute.mpr ⟨{ db with decisions := t }, ?_, hrest _ rfl fun d hd => ?_⟩
  · rw [Db.updateDecisions, ht]
    rfl
  · change d ∈ t.rows at hd
    rw [rows_update ht] at hd
    obtain ⟨x, hx, rfl⟩ := List.mem_map.mp hd
    exact ⟨x, hx, (hkeep x).symm⟩

theorem Accommodates.congr {room : Uuid} {ids : List Uuid} (h : Accommodates db room ids)
    (hlog : db'.roomEvents = db.roomEvents) : Accommodates db' room ids where
  distinct := h.distinct
  unused := hlog ▸ h.unused
  numbers := by
    have hsame : db'.maxSequence room = db.maxSequence room := by
      rw [Db.maxSequence, Db.maxSequence, Db.eventsOf, Db.eventsOf, hlog]
    rw [hsame]
    exact h.numbers

theorem proposeDecision_total {request : DecisionPropose}
    (hvalid : ∀ d ∈ proposeDrafts actor fresh request, isValidRoomEvent env d.1 d.2 = true)
    (hplace : Accommodates db request.roomId ((proposeDrafts actor fresh request).map (·.1)))
    (hfree : ∀ d ∈ db.decisions.rows, d.decisionId ≠ fresh 0) :
    (proposeDecision env actor request fresh).Total db fun _ _ => True := by
  have hproposed := List.forall_mem_singleton.mp hvalid
  simp only [proposeDecision, total_bind, total_mapErr, total_pure]
  refine insertDecision_total hfree fun now hlog => ?_
  exact appendEvent_total (hplace.congr hlog) hproposed fun _ _ _ _ _ _ => trivial

theorem settleDecision_total {status : DecisionStatus} {eventType : EventType}
    (hvalid : ∀ d ∈ settleDrafts actor fresh request row status eventType,
      isValidRoomEvent env d.1 d.2 = true) (hplace : Accommodates db request.roomId
      ((settleDrafts actor fresh request row status eventType).map (·.1))) :
    (settleDecision env actor request row status eventType fresh).Total db fun _ _ => True := by
  have hsettled := List.forall_mem_singleton.mp hvalid
  simp only [settleDecision, total_bind, total_mapErr, total_pure]
  refine updateDecisions_total (fun _ => rfl) fun now hlog _ => ?_
  exact appendEvent_total (hplace.congr hlog) hsettled fun _ _ _ _ _ _ => trivial

theorem editDecision_total {title summary : String} (htitle : request.editedTitle = some title)
    (hsummary : request.editedSummary = some summary)
    (hvalid : ∀ d ∈ editDrafts actor fresh request row title summary,
      isValidRoomEvent env d.1 d.2 = true) (hplace : Accommodates db request.roomId
      ((editDrafts actor fresh request row title summary).map (·.1)))
    (hfree : ∀ d ∈ db.decisions.rows, d.decisionId ≠ fresh 0) :
    (editDecision env actor request row fresh).Total db fun _ _ => True := by
  obtain ⟨hedited, hrest⟩ := List.forall_mem_cons.mp hvalid
  have hactivated := List.forall_mem_singleton.mp hrest
  simp only [editDecision, total_bind, total_orFail, total_mapErr, total_pure]
  refine ⟨title, htitle, summary, hsummary, ?_⟩
  refine updateDecisions_total (fun _ => rfl) fun now hlog hkept => ?_
  have hstill : ∀ d ∈ now.decisions.rows, d.decisionId ≠ fresh 0 := by
    intro d hd
    obtain ⟨x, hx, hid⟩ := hkept d hd
    exact hid ▸ hfree x hx
  refine insertDecision_total hstill fun later hlog' => ?_
  refine appendEvent_total (hplace.congr (hlog'.trans hlog)) hedited fun _ _ _ _ _ hplace => ?_
  exact appendEvent_total hplace hactivated fun _ _ _ _ _ _ => trivial

theorem transitionDecision_total
    (hdrafts : draftEvents env db actor presence conversationsEnabled fresh
      (.decisionTransition request) = .ok drafts)
    (hvalid : ∀ d ∈ drafts, isValidRoomEvent env d.1 d.2 = true)
    (hplace : Accommodates db request.roomId (drafts.map (·.1)))
    (hfree : ∀ d ∈ db.decisions.rows, d.decisionId ≠ fresh 0) :
    (transitionDecision env actor request fresh).Total db fun _ _ => True := by
  obtain ⟨row, hfound, hdrafts⟩ := Loops.bind_ok.mp hdrafts
  split_ifs at hdrafts with hdraft
  rw [transitionDecision, total_bind]
  refine ⟨row, db, foundDecision_ok hfound, ?_⟩
  refine total_bind.mpr (total_ensure.mpr ⟨decide_eq_true hdraft, ?_⟩)
  unfold transitionDrafts at hdrafts
  split at hdrafts
  · next haction =>
      cases hdrafts
      rw [haction]
      exact settleDecision_total hvalid hplace
  · next haction =>
      cases hdrafts
      rw [haction]
      exact settleDecision_total hvalid hplace
  · next title summary haction htitle hsummary =>
      cases hdrafts
      rw [haction]
      exact editDecision_total htitle hsummary hvalid hplace hfree
  · cases hdrafts

theorem deleteDecision_total {request : DecisionDelete}
    (hdrafts : draftEvents env db actor presence conversationsEnabled fresh
      (.decisionDelete request) = .ok drafts)
    (hvalid : ∀ d ∈ drafts, isValidRoomEvent env d.1 d.2 = true)
    (hplace : Accommodates db request.roomId (drafts.map (·.1))) :
    (deleteDecision env actor request fresh).Total db fun _ _ => True := by
  obtain ⟨row, hfound, hdeletes⟩ := Loops.bind_ok.mp hdrafts
  cases hdeletes
  have hdeleted := List.forall_mem_singleton.mp hvalid
  rw [deleteDecision, total_bind]
  refine ⟨row, db, foundDecision_ok hfound, ?_⟩
  simp only [total_bind, total_mapErr, total_execute, total_pure]
  exact appendEvent_total hplace hdeleted fun _ _ _ _ _ _ => ⟨_, rfl, trivial⟩

theorem startAgentTask_total {request : AgentTaskStart} {txNow : Time}
    (hnew : findRequest db request.roomId request.requestId = none)
    (hvalid : ∀ d ∈ startDrafts db actor fresh request, isValidRoomEvent env d.1 d.2 = true)
    (hplace : Accommodates db request.roomId ((startDrafts db actor fresh request).map (·.1)))
    (hfree : Unclashing db fresh (.agentTaskStart request)) :
    (startAgentTaskInTransaction env actor.id actor.displayName request false txNow fresh).Total db
      fun _ _ => True := by
  have hrequested := List.forall_mem_singleton.mp hvalid
  simp only [startAgentTaskInTransaction, lockRoom, priorRequest, total_bind, total_acquire,
    total_query, hnew, total_pure]
  refine appendEvent_total hplace hrequested fun e log now happended heq _ => ?_
  have hsequence : e.sequence = db.maxSequence request.roomId + 1 := by rw [happended.row]; rfl
  obtain ⟨t, ht⟩ := exists_insert (t := db.agentTasks)
    (r := startedRow actor.id request (fresh 0) (db.maxSequence request.roomId + 1) txNow) rfl
    fun x hx => by
      obtain ⟨hid, hkey⟩ := hfree.task x hx
      have hkey' : x.roomId = request.roomId → ¬ x.requestId = request.requestId :=
        fun hroom hrequest => hkey ⟨congrArg some hroom.symm, congrArg some hrequest.symm⟩
      simpa [agentTaskConstraints, startedRow, hid] using hkey'
  simp only [total_ensure, total_execute, decide_eq_true_eq, Bool.false_eq_true, if_false,
    total_pure, and_true]
  refine ⟨hsequence, { now with agentTasks := t }, ?_⟩
  subst heq
  rw [Db.insertAgentTask]
  change (db.agentTasks.insert (startedRow actor.id request (fresh 0) _ txNow)).map _ = _
  rw [ht]
  rfl

/-- A first request whose events are valid and have a place is performed. -/
theorem performRequest_total {request : ValidatedRequest} {room requestId : Uuid} (txNow : Time)
    (hroom : request.roomId = some room) (hrequest : request.requestId = some requestId)
    (hnew : findRequest db room requestId = none)
    (hdrafts : draftEvents env db actor presence conversationsEnabled fresh request = .ok drafts)
    (hvalid : ∀ d ∈ drafts, isValidRoomEvent env d.1 d.2 = true)
    (hplace : Accommodates db room (drafts.map (·.1))) (hfree : Unclashing db fresh request) :
    (performRequest env actor request presence conversationsEnabled txNow fresh).Total db
      fun _ _ => True := by
  cases request with
  | chatSend request =>
      cases hroom
      exact sendMessage_total hdrafts hvalid hplace
  | decisionPropose request =>
      cases hroom
      cases hdrafts
      exact proposeDecision_total hvalid hplace hfree.decision
  | decisionTransition request =>
      cases hroom
      exact transitionDecision_total hdrafts hvalid hplace hfree.decision
  | decisionDelete request =>
      cases hroom
      exact deleteDecision_total hdrafts hvalid hplace
  | agentTaskStart request =>
      cases hroom
      cases hrequest
      cases hdrafts
      simp only [performRequest, total_bind, total_mapErr, total_pure]
      exact startAgentTask_total hnew hvalid hplace hfree
  | join request => cases hdrafts
  | sessionAuthenticate request => cases hdrafts

end Total

end RoomGateway
