import RoomGateway.Lib.Loops
import RoomGateway.Spec.Decisions
import RoomGateway.Spec.OwnEvents

/-!
What one transaction of the gateway does to the decisions of a room: nothing, or
one of the four moves of `DecisionCall`, each with the events that show it.
-/

namespace RoomGateway

open Table

variable {env : Env} {db db' : Db}

namespace RoomEvent

/-- The event is about the decision. -/
def about (e : RoomEvent) (decision : Uuid) : Bool :=
  e.eventType.ofDecision && e.payload["decisionId"] = Json.str decision.text

def proposes (e : RoomEvent) (decision : Uuid) : Bool :=
  e.about decision && e.eventType = .decisionProposed

/-- The event settles the decision, one way or the other. -/
def transitions (e : RoomEvent) (decision : Uuid) : Bool :=
  e.about decision && decide (e.eventType ∈
    [.decisionConfirmed, .decisionEdited, .decisionDismissed])

def deletes (e : RoomEvent) (decision : Uuid) : Bool :=
  e.about decision && e.eventType = .decisionDeleted

/-- The edit that made the decision. -/
def makes (e : RoomEvent) (decision : Uuid) : Bool :=
  e.eventType = .decisionEdited && e.payload["replacementDecisionId"] = Json.str decision.text

/-- The event says which decision its own was derived from. -/
def derived (e : RoomEvent) : Bool := e.payload["derivedFromDecisionId"] ≠ .null

end RoomEvent

section Events

variable {e : RoomEvent} {d x : Uuid}

theorem RoomEvent.about_iff (h : e.about x = true) : e.about d = true ↔ d = x := by
  simp only [about, Bool.and_eq_true, decide_eq_true_eq] at h ⊢
  constructor
  · rintro ⟨-, hd⟩
    exact Uuid.text_injective (Json.str.inj (hd.symm.trans h.2))
  · rintro rfl
    exact h

theorem RoomEvent.about_of_proposes (h : e.proposes d = true) : e.about d = true :=
  (Bool.and_eq_true_iff.mp h).1

theorem RoomEvent.about_of_transitions (h : e.transitions d = true) : e.about d = true :=
  (Bool.and_eq_true_iff.mp h).1

theorem RoomEvent.about_of_deletes (h : e.deletes d = true) : e.about d = true :=
  (Bool.and_eq_true_iff.mp h).1

theorem RoomEvent.not_transitions_of_proposes (h : e.proposes x = true) :
    e.transitions d = false := by
  simp only [proposes, Bool.and_eq_true, decide_eq_true_eq] at h
  simp [transitions, h.2]

theorem RoomEvent.not_deletes_of_proposes (h : e.proposes x = true) : e.deletes d = false := by
  simp only [proposes, Bool.and_eq_true, decide_eq_true_eq] at h
  simp [deletes, h.2]

theorem RoomEvent.not_transitions_of_deletes (h : e.deletes x = true) :
    e.transitions d = false := by
  simp only [deletes, Bool.and_eq_true, decide_eq_true_eq] at h
  simp [transitions, h.2]

theorem RoomEvent.not_deletes_of_transitions (h : e.transitions x = true) :
    e.deletes d = false := by
  by_contra hdeletes
  rw [Bool.not_eq_false] at hdeletes
  rw [not_transitions_of_deletes hdeletes] at h
  cases h

theorem RoomEvent.not_proposes_of_transitions (h : e.transitions x = true) :
    e.proposes d = false := by
  by_contra hproposes
  rw [Bool.not_eq_false] at hproposes
  rw [not_transitions_of_proposes hproposes] at h
  cases h

theorem RoomEvent.not_proposes_of_deletes (h : e.deletes x = true) : e.proposes d = false := by
  simp only [deletes, Bool.and_eq_true, decide_eq_true_eq] at h
  simp [proposes, h.2]

/-- What one event adds to the trail of a decision. -/
theorem filter_about (h : e.about x = true) :
    [e].filter (·.about d) = if d = x then [e] else [] := by
  by_cases hd : d = x
  · rw [if_pos hd, List.filter_cons, if_pos ((RoomEvent.about_iff h).mpr hd), List.filter_nil]
  · rw [if_neg hd, List.filter_cons, if_neg (hd ∘ (RoomEvent.about_iff h).mp), List.filter_nil]

end Events

/-- What a transaction appended to the log. -/
def appended (db db' : Db) : List RoomEvent :=
  db'.roomEvents.rows.drop db.roomEvents.rows.length

/-- The ids that a call draws for new decisions. -/
def Op.drawnDecisions : Op → List Uuid
  | .process _ (.decisionPropose _) _ _ _ fresh => [fresh 0]
  | .process _ (.decisionTransition request) _ _ _ fresh =>
      if request.action = .edit then [fresh 0] else []
  | _ => []

/-- The decision that a request is about, if it must exist. -/
def ValidatedRequest.decision : ValidatedRequest → Option (Uuid × Uuid)
  | decisionTransition request => some (request.roomId, request.decisionId)
  | decisionDelete request => some (request.roomId, request.decisionId)
  | _ => none

/-! ### One transaction -/

/-- What a transaction does to the decisions; `drawn` are the ids it drew. -/
inductive DecisionCall (drawn : List Uuid) (db db' : Db) : List RoomEvent → Prop where
  | other {events} (unrelated : ∀ e ∈ events, e.eventType.ofDecision = false)
      (decisions : db'.decisions = db.decisions) : DecisionCall drawn db db' events
  | proposed {row e} (event : e.proposes row.decisionId) (draft : row.status = .draft)
      (id : row.decisionId ∈ drawn) (fresh : ∀ x ∈ db.decisions.rows, x.decisionId ≠ row.decisionId)
      (rows : ∀ d, d ∈ db'.decisions.rows ↔ d = row ∨ d ∈ db.decisions.rows) :
      DecisionCall drawn db db' [e]
  | settled {row row' e} (event : e.transitions row.decisionId) (plain : e.derived = false)
      (human : e.actorRole = .human) (unedited : e.eventType ≠ .decisionEdited)
      (mem : row ∈ db.decisions.rows) (draft : row.status = .draft)
      (id : row'.decisionId = row.decisionId) (moved : row'.status ≠ .draft)
      (active : row'.status = .active → e.eventType = .decisionConfirmed)
      (rows : ∀ d, d ∈ db'.decisions.rows ↔
        d = row' ∨ (d ∈ db.decisions.rows ∧ d.decisionId ≠ row.decisionId)) :
      DecisionCall drawn db db' [e]
  | edited {row row' new e confirmed} (event : e.transitions row.decisionId)
      (plain : e.derived = false) (human : e.actorRole = .human) (makes : e.makes new.decisionId)
      (event' : confirmed.transitions new.decisionId) (derived : confirmed.derived = true)
      (type' : confirmed.eventType = .decisionConfirmed) (human' : confirmed.actorRole = .human)
      (mem : row ∈ db.decisions.rows) (draft : row.status = .draft)
      (id : row'.decisionId = row.decisionId) (superseded : row'.status = .superseded)
      (active : new.status = .active) (source : new.derivedFromDecisionId = some row.decisionId)
      (sources : new.sourceEventIds = row.sourceEventIds) (id' : new.decisionId ∈ drawn)
      (fresh : ∀ x ∈ db.decisions.rows, x.decisionId ≠ new.decisionId)
      (rows : ∀ d, d ∈ db'.decisions.rows ↔
        (d = row' ∨ (d ∈ db.decisions.rows ∧ d.decisionId ≠ row.decisionId)) ∨ d = new) :
      DecisionCall drawn db db' [e, confirmed]
  | deleted {row e} (event : e.deletes row.decisionId) (human : e.actorRole = .human)
      (mem : row ∈ db.decisions.rows) (payload : e.payload = deletedPayload row)
      (rows : ∀ d, d ∈ db'.decisions.rows ↔
        d ∈ db.decisions.rows ∧ d.decisionId ≠ row.decisionId) :
      DecisionCall drawn db db' [e]

section Call

variable {actor : Actor} {request : ValidatedRequest} {presence : List ParticipantPresence}
  {conversationsEnabled : Bool} {txNow : Time} {fresh : Nat → Uuid} {events : List RoomEvent}

/-- What an edit builds. -/
theorem draftEvents_edit {request : DecisionTransition} {drafts : List Draft}
    (haction : request.action = .edit)
    (h : draftEvents env db actor presence conversationsEnabled fresh
      (.decisionTransition request) = .ok drafts) :
    ∃ row title summary, drafts = editDrafts actor fresh request row title summary := by
  rw [draftEvents] at h
  obtain ⟨row, -, h⟩ := Loops.bind_ok.mp h
  split_ifs at h
  unfold transitionDrafts at h
  rw [haction] at h
  split at h
  · cases h
    rename_i hnone
    cases hnone
  · cases h
    rename_i hnone
    cases hnone
  · cases h
    exact ⟨row, _, _, rfl⟩
  · cases h

theorem settled_some {action : DecisionAction} {status : DecisionStatus} {eventType : EventType}
    (h : settled action = some (status, eventType)) :
    eventType ∈ [.decisionConfirmed, .decisionEdited, .decisionDismissed] ∧
      eventType ≠ .decisionEdited ∧ status ≠ .draft ∧
      (status = .active → eventType = .decisionConfirmed) := by
  cases action <;> cases h <;> simp

theorem Performed.decisionCall (h : Performed env actor db db' request events)
    (human : request.governed = true → actor.role = .human) {drafts : List Draft}
    (hdrafts : draftEvents env db actor presence conversationsEnabled fresh request = .ok drafts)
    (hstored : DraftsStored env drafts events) :
    DecisionCall (Op.process actor request presence conversationsEnabled txNow fresh).drawnDecisions
      db db' events := by
  cases h with
  | message _ _ _ logged eq =>
      subst eq
      refine .other (fun e he => ?_) rfl
      obtain ⟨new, hnew, _, _, rfl⟩ := logged.of_new he
      exact message_ofDecision hnew
  | @proposed request d e log ds decisions draft room hnew logged eq =>
      subst eq
      obtain ⟨eventId, sequence, rfl⟩ := logged.single
      -- the event names the decision by the id that was drawn
      cases hdrafts
      obtain ⟨-, _, hrow⟩ := (List.forall₂_cons.mp hstored).1
      have hpayload := congrArg (fun e : RoomEvent => e.payload["decisionId"]) hrow
      have hid : d.decisionId = fresh 0 := Uuid.text_injective (by
        simpa [NewEvent.row, decisionEvent, decisionPayload] using hpayload)
      have hproposes : ((decisionEvent actor request.roomId request.requestId .decisionProposed
          (decisionPayload d.decisionId .draft request.title request.summary
            request.sourceEventIds) request.occurredAt).row eventId sequence).proposes
          d.decisionId := by
        simp [RoomEvent.proposes, RoomEvent.about, NewEvent.row, decisionEvent, decisionPayload,
          EventType.ofDecision]
      refine .proposed hproposes draft (by simp [Op.drawnDecisions, hid]) hnew fun x => ?_
      change x ∈ ds.rows ↔ _
      rw [decisions]
      simp [or_comm]
  | @deleted request row e log ds mem id room logged decisions eq =>
      subst eq
      obtain ⟨eventId, sequence, rfl⟩ := logged.single
      refine .deleted ?_ (human rfl) mem rfl fun x => ?_
      · simp [RoomEvent.deletes, RoomEvent.about, NewEvent.row, decisionEvent, deletedPayload,
          EventType.ofDecision]
      · change x ∈ ds.rows ↔ _
        rw [decisions]
        simp
  | @settled request row status eventType e log ds updatedAt action mem id room draft logged
      decisions eq =>
      subst eq
      obtain ⟨eventId, sequence, rfl⟩ := logged.single
      obtain ⟨htype, hunedited, hmoved, hactive⟩ := settled_some action
      have hid : ({ row with status := status, updatedAt := updatedAt } : Decision).decisionId =
        row.decisionId := rfl
      refine .settled ?_ ?_ (human rfl) hunedited mem draft hid hmoved hactive fun x => ?_
      · have hdecision : eventType.ofDecision = true := by
          simp only [List.mem_cons, List.not_mem_nil, or_false] at htype
          rcases htype with rfl | rfl | rfl <;> rfl
        simp [RoomEvent.transitions, RoomEvent.about, NewEvent.row, decisionEvent,
          decisionPayload, hdecision, htype]
      · simp [RoomEvent.derived, NewEvent.row, decisionEvent, decisionPayload]
      · change x ∈ ds.rows ↔ _
        rw [decisions, mem_put_decision mem, List.mem_singleton]
  | @edited request row d events log ds updatedAt action mem id room draft decisions active room'
      sources derived hnew logged eq =>
      subst eq
      obtain ⟨e, e', rfl, ⟨eventId, sequence, rfl⟩, ⟨eventId', sequence', rfl⟩⟩ := logged.pair
      obtain ⟨_, _, _, rfl⟩ := draftEvents_edit action hdrafts
      obtain ⟨-, _, hrow⟩ := (List.forall₂_cons.mp hstored).1
      have hpayload := congrArg (fun e : RoomEvent => e.payload["replacementDecisionId"]) hrow
      have hid : d.decisionId = fresh 0 := Uuid.text_injective (by
        simpa [NewEvent.row, decisionEvent, editedPayload] using hpayload)
      have hsame : ({ row with status := .superseded, updatedAt := updatedAt } :
        Decision).decisionId = row.decisionId := rfl
      refine .edited ?_ ?_ (human rfl) ?_ ?_ ?_ rfl (human rfl) mem draft hsame rfl active derived
        sources (by simp [Op.drawnDecisions, action, hid]) hnew fun x => ?_
      · simp [RoomEvent.transitions, RoomEvent.about, NewEvent.row, decisionEvent, editedPayload,
          EventType.ofDecision]
      · simp [RoomEvent.derived, NewEvent.row, decisionEvent, editedPayload]
      · simp [RoomEvent.makes, NewEvent.row, decisionEvent, editedPayload]
      · simp [RoomEvent.transitions, RoomEvent.about, NewEvent.row, decisionEvent,
          replacementPayload, EventType.ofDecision]
      · simp [RoomEvent.derived, NewEvent.row, decisionEvent, replacementPayload]
      · change x ∈ ds.rows ↔ _
        rw [decisions, List.mem_append, mem_put_decision mem, List.mem_singleton,
          List.mem_singleton]
  | started h =>
      obtain ⟨eventId, sequence, rfl⟩ := h.logged.single
      obtain rfl := h.eq
      refine .other (fun e he => ?_) rfl
      rw [List.mem_singleton.mp he]
      rfl

end Call

theorem CallEffect.undecided {who : Actor → Prop} (h : CallEffect env who db db') :
    db'.decisions = db.decisions ∧ ∀ e ∈ db'.roomEvents.rows,
      e ∈ db.roomEvents.rows ∨ e.eventType.ofDecision = false := by
  cases h with
  | same rooms events => exact ⟨rooms.decisions, fun e he => .inl (events ▸ he)⟩
  | replied h => exact ⟨h.rooms.decisions, (Aside.of_appended h.appended rfl).events⟩
  | claimed h => exact ⟨(Aside.of_claimed h).decisions, (Aside.of_claimed h).events⟩
  | updated h => exact ⟨(Aside.of_updated h).decisions, (Aside.of_updated h).events⟩
  | @started _ _ _ _ _ e _ _ _ h ledgered =>
      obtain ⟨_, _, rfl⟩ := ledgered.frame
      obtain ⟨eventId, sequence, rfl⟩ := h.logged.single
      obtain rfl := h.eq
      refine ⟨rfl, fun e he => ?_⟩
      rw [h.logged.rows, List.mem_append, List.mem_singleton] at he
      rcases he with he | rfl
      · exact .inl he
      · exact .inr rfl
  | reserved _ _ h =>
      obtain ⟨_, _, happended⟩ := h.appended
      refine ⟨?_, (Aside.of_appended happended rfl).events⟩
      obtain ⟨_, _, _, _, rfl⟩ := h.frame
      rfl

/-- The ledger is no part of it. -/
theorem DecisionCall.ledgered {drawn : List Uuid} {events : List RoomEvent}
    {ledger : Table roomRequestConstraints} (h : DecisionCall drawn db db' events) :
    DecisionCall drawn db { db' with roomRequests := ledger } events := by
  cases h with
  | other unrelated decisions => exact .other unrelated decisions
  | proposed event draft id fresh rows => exact .proposed event draft id fresh rows
  | settled event plain human unedited mem draft id moved active rows =>
      exact .settled event plain human unedited mem draft id moved active rows
  | edited event plain human makes event' derived type' human' mem draft id superseded active
      source sources id' fresh rows =>
      exact .edited event plain human makes event' derived type' human' mem draft id superseded
        active source sources id' fresh rows
  | deleted event human mem payload rows => exact .deleted event human mem payload rows

theorem appended_of_rows {new : List RoomEvent}
    (h : db'.roomEvents.rows = db.roomEvents.rows ++ new) : appended db db' = new := by
  rw [appended, h, List.drop_left]

theorem rows_appended (h : LogExtends db db') :
    db'.roomEvents.rows = db.roomEvents.rows ++ appended db db' := by
  obtain ⟨new, hrows⟩ := h.exists_append
  rw [appended_of_rows hrows, hrows]

theorem process_decisionCall {actor : Actor} {request : ValidatedRequest}
    {presence : List ParticipantPresence} {conversationsEnabled : Bool} {txNow : Time}
    {fresh : Nat → Uuid} (db : Db) :
    let db' := ((process env actor request presence conversationsEnabled txNow fresh).runTx db).2
    DecisionCall (Op.process actor request presence conversationsEnabled txNow fresh).drawnDecisions
      db db' (appended db db') := by
  dsimp only
  obtain hsame | ⟨r, hcommit⟩ := Prog.runTx_store
    (process env actor request presence conversationsEnabled txNow fresh) db
  · rw [hsame]
    refine .other ?_ rfl
    rw [appended, List.drop_length]
    simp
  · obtain ⟨_, _, -, -, ⟨_, -, -, hending⟩ | ⟨-, events, mid, hending, hperformed, hledgered⟩⟩ :=
      process_ok hcommit
    · cases hending
    · cases hending
      have hresult : ((process env actor request presence conversationsEnabled txNow
          fresh).runTx db).1 = .ok ⟨events, false⟩ := by rw [Prog.runTx_eq_of_commit hcommit]
      obtain ⟨drafts, hdrafts, hstored⟩ := process_stored hresult rfl
      have hcall : DecisionCall (Op.process actor request presence conversationsEnabled txNow
          fresh).drawnDecisions db mid events :=
        hperformed.decisionCall (process_human hcommit) hdrafts hstored
      obtain ⟨_, logged, -⟩ := hperformed.logged
      rw [← hledgered.log] at logged
      rw [appended_of_rows logged.rows]
      obtain ⟨_, _, hframe⟩ := hledgered.frame
      rw [hframe]
      exact hcall.ledgered

/-- Every step treats the decisions as one of these. -/
theorem gateway_decisionCall (s : Sys) (op : Op) :
    DecisionCall op.drawnDecisions s.db ((gateway env).next s op).db
      (appended s.db ((gateway env).next s op).db) := by
  cases hop : op.ofRequest with
  | false =>
      have hcall : CallEffect env _ s.db ((gateway env).next s op).db := gateway_callEffect s hop
      obtain ⟨hdecisions, hevents⟩ := hcall.undecided
      exact .other (forall_new (rows_appended (gateway_effect s op).log) hevents) hdecisions
  | true =>
      cases op with
      | process actor request presence conversationsEnabled txNow fresh =>
          exact process_decisionCall s.db
      | _ => cases hop

/-! ### What the events of a transaction show -/

/-- Who writes about decisions: only a proposal may come from an agent. -/
theorem Written.human {new : NewEvent} (h : Written env new)
    (hdecision : new.eventType.ofDecision = true) (hnot : new.eventType ≠ .decisionProposed) :
    new.actorRole = .human := by
  cases h with
  | decision _ human => exact human.resolve_left hnot
  | actionItems mem =>
      simp only [actionItemsEvents, List.mem_cons, List.not_mem_nil, or_false] at mem
      rcases mem with rfl | rfl | rfl
      · cases hdecision
      · cases hdecision
      · revert hdecision
        simp only [actionItemsEvent, actionItemsOutcome]
        split <;> intro hdecision <;> cases hdecision
  | update state_eq =>
      rw [updateEvent, Aside.stateForUpdate_ofDecision state_eq] at hdecision
      cases hdecision
  | message _ => cases hdecision
  | requested => cases hdecision
  | prompt => cases hdecision
  | reply => cases hdecision

namespace DecisionCall

variable {drawn : List Uuid} {events : List RoomEvent} {e : RoomEvent} {d : Uuid}

/-- What settles a decision finds it a draft, or makes it. -/
theorem whileDraft (h : DecisionCall drawn db db' events) (he : e ∈ events)
    (hevent : e.transitions d = true) :
    (∃ draft ∈ db.decisions.rows, draft.decisionId = d ∧ draft.status = .draft) ∨
      e.derived = true := by
  have hsubject : ∀ {x}, e.transitions x = true → x = d := fun hx =>
    ((RoomEvent.about_iff (RoomEvent.about_of_transitions hx)).mp
      (RoomEvent.about_of_transitions hevent)).symm
  cases h with
  | other unrelated _ =>
      simp [RoomEvent.transitions, RoomEvent.about, unrelated e he] at hevent
  | proposed event _ _ _ _ =>
      rw [List.mem_singleton.mp he, RoomEvent.not_transitions_of_proposes event] at hevent
      cases hevent
  | settled event _ _ _ mem draft _ _ _ _ =>
      obtain rfl := List.mem_singleton.mp he
      exact .inl ⟨_, mem, hsubject event, draft⟩
  | edited event _ _ _ event' derived _ _ mem draft _ _ _ _ _ _ _ _ =>
      rcases List.mem_cons.mp he with rfl | he
      · exact .inl ⟨_, mem, hsubject event, draft⟩
      · obtain rfl := List.mem_singleton.mp he
        exact .inr derived
  | deleted event _ _ _ _ =>
      rw [List.mem_singleton.mp he, RoomEvent.not_transitions_of_deletes event] at hevent
      cases hevent

/-- An edit confirms the decision that it makes, and does no more. -/
theorem makes (h : DecisionCall drawn db db' events) (he : e ∈ events)
    (hmakes : e.makes d = true) :
    ∃ confirmed, events = [e, confirmed] ∧ confirmed.eventType = .decisionConfirmed ∧
      confirmed.transitions d = true ∧ confirmed.derived = true := by
  have htype : e.eventType = .decisionEdited := by
    simp only [RoomEvent.makes, Bool.and_eq_true, decide_eq_true_eq] at hmakes
    exact hmakes.1
  cases h with
  | other unrelated _ =>
      have := unrelated e he
      rw [htype] at this
      cases this
  | proposed event _ _ _ _ =>
      rw [List.mem_singleton.mp he] at htype
      simp [RoomEvent.proposes, htype] at event
  | settled _ _ _ unedited _ _ _ _ _ _ =>
      rw [List.mem_singleton.mp he] at htype
      exact absurd htype unedited
  | @edited _ _ new _ confirmed _ _ _ made event' derived type' _ _ _ _ _ _ _ _ _ _ _ =>
      rcases List.mem_cons.mp he with rfl | he
      · refine ⟨confirmed, rfl, type', ?_, derived⟩
        simp only [RoomEvent.makes, Bool.and_eq_true, decide_eq_true_eq] at hmakes made
        rw [Uuid.text_injective (Json.str.inj (hmakes.2.symm.trans made.2))]
        exact event'
      · rw [List.mem_singleton.mp he, type'] at htype
        cases htype
  | deleted event _ _ _ _ =>
      rw [List.mem_singleton.mp he] at htype
      simp [RoomEvent.deletes, htype] at event

/-- The deletion shows the row as it was. -/
theorem deletes (h : DecisionCall drawn db db' events) (he : e ∈ events)
    (htype : e.eventType = .decisionDeleted) :
    ∃ row ∈ db.decisions.rows, e.payload = deletedPayload row := by
  cases h with
  | other unrelated _ =>
      have := unrelated e he
      rw [htype] at this
      cases this
  | proposed event _ _ _ _ =>
      rw [List.mem_singleton.mp he] at htype
      simp [RoomEvent.proposes, htype] at event
  | settled event _ _ _ _ _ _ _ _ _ =>
      rw [List.mem_singleton.mp he] at htype
      simp [RoomEvent.transitions, htype] at event
  | edited event _ _ _ event' _ _ _ _ _ _ _ _ _ _ _ _ _ =>
      rcases List.mem_cons.mp he with rfl | he
      · simp [RoomEvent.transitions, htype] at event
      · rw [List.mem_singleton.mp he] at htype
        simp [RoomEvent.transitions, htype] at event'
  | deleted _ _ mem payload _ =>
      obtain rfl := List.mem_singleton.mp he
      exact ⟨_, mem, payload⟩

end DecisionCall

/-- A request about a decision of another room fails. -/
theorem process_elsewhere {actor : Actor} {request : ValidatedRequest}
    {presence : List ParticipantPresence} {conversationsEnabled : Bool} {txNow : Time}
    {fresh : Nat → Uuid} {room : Uuid} {row : Decision} (hrow : row ∈ db.decisions.rows)
    (hroom : row.roomId ≠ room) (hrequest : request.decision = some (room, row.decisionId)) :
    ((process env actor request presence conversationsEnabled txNow fresh).runTx db).2 = db := by
  refine (Prog.runTx_store _ db).resolve_right ?_
  rintro ⟨r, hcommit⟩
  obtain ⟨_, _, -, -, ⟨_, -, -, hending⟩ | ⟨-, events, mid, -, hperformed, -⟩⟩ :=
    process_ok hcommit
  · cases hending
  · have hsame : ∀ {x : Decision}, x ∈ db.decisions.rows → x.decisionId = row.decisionId →
        x.roomId ≠ room := fun hx hid => by rwa [db.decision_unique hx hrow hid]
    cases hperformed with
    | message _ _ _ _ _ => cases hrequest
    | proposed _ _ _ _ _ _ => cases hrequest
    | deleted mem id room' _ _ _ =>
        obtain ⟨rfl, hid⟩ := Prod.mk.inj (Option.some.inj hrequest)
        exact hsame mem (id.trans hid) room'
    | settled _ mem id room' _ _ _ _ =>
        obtain ⟨rfl, hid⟩ := Prod.mk.inj (Option.some.inj hrequest)
        exact hsame mem (id.trans hid) room'
    | edited _ mem id room' _ _ _ _ _ _ _ _ _ =>
        obtain ⟨rfl, hid⟩ := Prod.mk.inj (Option.some.inj hrequest)
        exact hsame mem (id.trans hid) room'
    | started _ => cases hrequest

end RoomGateway
