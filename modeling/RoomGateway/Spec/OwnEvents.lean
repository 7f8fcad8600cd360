import RoomGateway.Spec.Drafts
import RoomGateway.Spec.Ledger
import RoomGateway.Spec.Record
import RoomGateway.Spec.RoomContract

/-!
The gateway against its own contract. Every event is checked against the room
contract before it is stored, so a request whose events do not fit is undone as
a whole. What the gateway writes of its own accord always fits, with two
exceptions: the time of the request, once written in UTC, and what the built-in
agent makes of the text of a message.
-/

namespace RoomGateway

open Prog Table

variable {formats : Formats} {readTime : String → Option Time} {env : Env} {db db' : Db}

/-! ### Admitted calls -/

/-- Some text of a client was admitted as this request. -/
def ValidatedRequest.Admitted (formats : Formats) (readTime : String → Option Time)
    (request : ValidatedRequest) : Prop :=
  ∃ value, validateRequest formats readTime value = .ok request

theorem ValidatedRequest.Admitted.wellFormed {request : ValidatedRequest}
    (h : request.Admitted formats readTime) : request.WellFormed := by
  obtain ⟨value, hvalue⟩ := h
  exact validateRequest_wellFormed hvalue

def Op.Admitted (formats : Formats) (readTime : String → Option Time) : Op → Prop
  | .process _ request _ _ _ _ => request.Admitted formats readTime
  | _ => True

abbrev AdmittedRequest (formats : Formats) (readTime : String → Option Time) :=
  { request : ValidatedRequest // request.Admitted formats readTime }

/-- A call of the gateway; a room request only as it was admitted. -/
abbrev AdmittedOp (formats : Formats) (readTime : String → Option Time) :=
  { op : Op // op.Admitted formats readTime }

/-- The gateway under the room contract, taking admitted calls. -/
def admittedGateway (env : Env) (formats : Formats) (readTime : String → Option Time) :
    Machine Sys (AdmittedOp formats readTime) Out where
  init := {}
  step s op := gatewayStep (env.underContract formats) s op.1

theorem admittedGateway_run (ops : List (AdmittedOp formats readTime)) :
    (admittedGateway env formats readTime).run ops =
      (gateway (env.underContract formats)).run (ops.map (·.1)) := by
  rw [Machine.run, Machine.run, Machine.runFrom, Machine.runFrom, List.foldl_map]
  rfl

/-! ### The texts of decisions -/

/-- Every decision has a title and a summary. -/
def DecisionsFilled (db : Db) : Prop :=
  ∀ d ∈ db.decisions.rows, d.title ≠ "" ∧ d.summary ≠ ""

/-- Decisions that have their texts keep them. -/
def Fills (db db' : Db) : Prop := DecisionsFilled db → DecisionsFilled db'

namespace Fills

theorem refl (db : Db) : Fills db db := id

theorem trans (a b c : Db) (hab : Fills a b) (hbc : Fills b c) : Fills a c := hbc ∘ hab

theorem of_same (h : db'.decisions = db.decisions) : Fills db db' := by
  intro hfilled
  rw [DecisionsFilled, h]
  exact hfilled

theorem appendEvent {f : StoreError → RpcError} (eventId : Uuid) (event : NewEvent) :
    ((appendEventInTransaction env eventId event).mapErr f).Keeps Fills := by
  refine .mapErr fun db e db' h => ?_
  obtain ⟨_, -, -, rfl⟩ := appendEventInTransaction_ok h
  exact .of_same rfl

theorem insert {fault : RpcError} {d : Decision} (htitle : d.title ≠ "")
    (hsummary : d.summary ≠ "") :
    (execute fault (Db.insertDecision d) : Tx RpcError Unit).Keeps Fills := by
  refine .execute fun db db' h hfilled x hx => ?_
  obtain ⟨t, ht, -, rfl⟩ := Db.insertDecision_some h
  change x ∈ t.rows at hx
  rw [ht] at hx
  rcases List.mem_append.mp hx with hx | hx
  · exact hfilled x hx
  · rw [List.mem_singleton.mp hx]
    exact ⟨htitle, hsummary⟩

theorem update {fault : RpcError} {p : Decision → Bool} {f : Decision → Decision}
    (htexts : ∀ d, (f d).title = d.title ∧ (f d).summary = d.summary) :
    (execute fault (Db.updateDecisions p f) : Tx RpcError Unit).Keeps Fills := by
  refine .execute fun db db' h hfilled x hx => ?_
  obtain ⟨t, ht, rfl⟩ := Db.updateDecisions_some h
  change x ∈ t.rows at hx
  rw [ht] at hx
  obtain ⟨d, hd, rfl⟩ := List.mem_map.mp hx
  unfold alter
  split_ifs
  · rw [(htexts d).1, (htexts d).2]
    exact hfilled d hd
  · exact hfilled d hd

theorem delete {fault : RpcError} {p : Decision → Bool} :
    (execute fault (Db.deleteDecisions p) : Tx RpcError Unit).Keeps Fills := by
  refine .execute fun db db' h hfilled x hx => ?_
  cases h
  exact hfilled x (List.mem_filter.mp hx).1

theorem findDecision (decisionId room : Uuid) :
    (RoomGateway.findDecision decisionId room).Keeps Fills :=
  .bind trans (.query refl _ _) fun _ => .orFail refl _ _

end Fills

section Fills

variable {actor : Actor} {fresh : Nat → Uuid}

theorem proposeDecision_fills {request : DecisionPropose} (htitle : request.title ≠ "")
    (hsummary : request.summary ≠ "") :
    (proposeDecision env actor request fresh).Keeps Fills :=
  .bind Fills.trans (Fills.insert htitle hsummary) fun _ =>
    .bind Fills.trans (Fills.appendEvent _ _) fun _ => .pure Fills.refl _

theorem settleDecision_fills (request : DecisionTransition) (row : Decision)
    (status : DecisionStatus) (eventType : EventType) :
    (settleDecision env actor request row status eventType fresh).Keeps Fills :=
  .bind Fills.trans (Fills.update fun _ => ⟨rfl, rfl⟩) fun _ =>
    .bind Fills.trans (Fills.appendEvent _ _) fun _ => .pure Fills.refl _

theorem editDecision_fills {request : DecisionTransition} (htitle : request.editedTitle ≠ some "")
    (hsummary : request.editedSummary ≠ some "") (row : Decision) :
    (editDecision env actor request row fresh).Keeps Fills := by
  refine .orFail_bind fun title htitle' => .orFail_bind fun summary hsummary' => ?_
  have hfilled : title ≠ "" ∧ summary ≠ "" := by
    constructor
    · rintro rfl
      exact htitle htitle'
    · rintro rfl
      exact hsummary hsummary'
  refine .bind Fills.trans (Fills.update fun _ => ⟨rfl, rfl⟩) fun _ => ?_
  refine .bind Fills.trans (Fills.insert hfilled.1 hfilled.2) fun _ => ?_
  refine .bind Fills.trans (Fills.appendEvent _ _) fun _ => ?_
  exact .bind Fills.trans (Fills.appendEvent _ _) fun _ => .pure Fills.refl _

theorem transitionDecision_fills {request : DecisionTransition}
    (hrequest : ValidatedRequest.WellFormed (.decisionTransition request)) :
    (transitionDecision env actor request fresh).Keeps Fills := by
  obtain ⟨-, -, htitle, hsummary⟩ := hrequest
  refine .bind Fills.trans (Fills.findDecision _ _) fun row => ?_
  refine .bind Fills.trans (.ensure Fills.refl _ _) fun _ => ?_
  cases request.action with
  | confirm => exact settleDecision_fills request row _ _
  | dismiss => exact settleDecision_fills request row _ _
  | edit => exact editDecision_fills htitle hsummary row

theorem deleteDecision_fills (request : DecisionDelete) :
    (deleteDecision env actor request fresh).Keeps Fills :=
  .bind Fills.trans (Fills.findDecision _ _) fun _ =>
    .bind Fills.trans (Fills.appendEvent _ _) fun _ =>
      .bind Fills.trans Fills.delete fun _ => .pure Fills.refl _

theorem sendMessage_fills (request : ChatSend) (presence : List ParticipantPresence)
    (conversationsEnabled : Bool) :
    (sendMessage env actor request presence conversationsEnabled fresh).Keeps Fills := by
  intro db events db' h
  obtain ⟨_, _, _, _, rfl⟩ := sendMessage_ok h
  exact .of_same rfl

theorem startAgentTaskInTransaction_fills (requesterId : Uuid) (name : String)
    (start : AgentTaskStart) (txNow : Time) :
    (startAgentTaskInTransaction env requesterId name start false txNow fresh).Keeps Fills := by
  intro db result db' h
  obtain ⟨_, _, -, -, -, -, -, -, rfl⟩ | ⟨-, mid, _, _, _, _, hstarted, -, rfl⟩ :=
    startAgentTaskInTransaction_ok h
  · exact .refl _
  · obtain rfl := hstarted.eq
    exact .of_same rfl

theorem performRequest_fills {request : ValidatedRequest} (hrequest : request.WellFormed)
    (presence : List ParticipantPresence) (conversationsEnabled : Bool) (txNow : Time) :
    (performRequest env actor request presence conversationsEnabled txNow fresh).Keeps Fills := by
  cases request with
  | chatSend request => exact sendMessage_fills request presence conversationsEnabled
  | decisionPropose request => exact proposeDecision_fills hrequest.1 hrequest.2
  | decisionTransition request => exact transitionDecision_fills hrequest
  | decisionDelete request => exact deleteDecision_fills request
  | agentTaskStart request =>
      exact .bind Fills.trans (.mapErr (startAgentTaskInTransaction_fills _ _ request txNow))
        fun _ => .pure Fills.refl _
  | join request => exact .fail _
  | sessionAuthenticate request => exact .fail _

theorem process_fills {request : ValidatedRequest} (hrequest : request.WellFormed)
    (presence : List ParticipantPresence) (conversationsEnabled : Bool) (txNow : Time) :
    (process env actor request presence conversationsEnabled txNow fresh).Keeps Fills := by
  refine .bind Fills.trans (.ensure Fills.refl _ _) fun _ => ?_
  refine .bind Fills.trans (.orFail Fills.refl _ _) fun room => ?_
  refine .bind Fills.trans (.orFail Fills.refl _ _) fun requestId => ?_
  refine .bind Fills.trans (.mapErr (.acquire Fills.refl _)) fun _ => ?_
  refine .bind Fills.trans (.mapErr fun db prior db' h => ?_) fun prior => ?_
  · obtain ⟨rfl, -⟩ := priorRequest_ok h
    exact .refl _
  cases prior with
  | some prior =>
      exact .bind Fills.trans (.ensure Fills.refl _ _) fun _ => .pure Fills.refl _
  | none =>
      refine .bind Fills.trans (performRequest_fills hrequest presence conversationsEnabled txNow)
        fun events => ?_
      refine .bind Fills.trans (.mapErr fun db u db' h => ?_) fun _ => .pure Fills.refl _
      obtain ⟨_, -, rfl⟩ := (recordRequest_ok h).frame
      exact .of_same rfl

end Fills

theorem CallEffect.fills {who : Actor → Prop} (h : CallEffect env who db db') : Fills db db' := by
  cases h with
  | same rooms _ => exact .of_same rooms.decisions
  | replied h => exact .of_same h.rooms.decisions
  | claimed h =>
      obtain ⟨_, _, rfl⟩ := h.frame
      exact .of_same rfl
  | updated h =>
      obtain ⟨_, _, _, _, _, -, -, -, -, rfl⟩ := h.frame
      exact .of_same rfl
  | started _ h ledgered =>
      obtain ⟨_, -, rfl⟩ := ledgered.frame
      obtain rfl := h.eq
      exact .of_same rfl
  | reserved _ _ h =>
      obtain ⟨_, _, _, _, rfl⟩ := h.frame
      exact .of_same rfl

theorem admittedGateway_filled (ops : List (AdmittedOp formats readTime)) :
    DecisionsFilled ((admittedGateway env formats readTime).run ops).db := by
  refine Machine.run_invariant (P := fun s : Sys => DecisionsFilled s.db)
    (by simp [DecisionsFilled, admittedGateway]) (fun s op h => ?_) ops
  obtain ⟨op, hop⟩ := op
  change DecisionsFilled ((gateway (env.underContract formats)).next s op).db
  cases hkind : op.ofRequest with
  | false => exact (gateway_callEffect s hkind).fills h
  | true =>
      cases op with
      | process actor request presence conversationsEnabled txNow fresh =>
          exact (process_fills hop.wellFormed presence conversationsEnabled txNow).runTx Fills.refl
            s.db h
      | _ => cases hkind

/-! ### Which requests fit -/

/-- When the request was made, by its sender. -/
def ValidatedRequest.occurredAt : ValidatedRequest → Option Time
  | sessionAuthenticate _ => none
  | join request => some request.occurredAt
  | chatSend request => some request.occurredAt
  | decisionPropose request => some request.occurredAt
  | decisionTransition request => some request.occurredAt
  | decisionDelete request => some request.occurredAt
  | agentTaskStart request => some request.occurredAt

/-- The text makes the built-in agent write nothing that its result may not be. -/
def outcomeWritable (actor : Actor) : ValidatedRequest → Bool
  | .chatSend request => !invokesActionItems actor request || outcomeFits request.text
  | _ => true

/-- The request's time is a timestamp in UTC too, and the built-in agent's
result fits. -/
def writable (env : Env) (formats : Formats) (actor : Actor) (request : ValidatedRequest) : Bool :=
  (request.occurredAt.all fun t => formats.dateTime (env.rfc3339 t)) &&
    outcomeWritable actor request

section Valid

variable {actor : Actor} {presence : List ParticipantPresence} {conversationsEnabled : Bool}
  {fresh : Nat → Uuid} {drafts : List Draft}

theorem writable_chatSend {request : ChatSend} :
    writable env formats actor (.chatSend request) = true ↔
      formats.dateTime (env.rfc3339 request.occurredAt) = true ∧
        (invokesActionItems actor request = true → outcomeFits request.text = true) := by
  rw [writable, outcomeWritable, Bool.and_eq_true, Bool.or_eq_true, Bool.not_eq_true',
    ← Bool.not_eq_true, ← imp_iff_not_or]
  rfl

/-- Every other request fits if its time does. -/
theorem writable_other {request : ValidatedRequest} {occurredAt : Time}
    (hother : outcomeWritable actor request = true)
    (htime : request.occurredAt = some occurredAt) :
    writable env formats actor request = true ↔
      formats.dateTime (env.rfc3339 occurredAt) = true := by
  rw [writable, hother, Bool.and_true, htime]
  rfl

theorem messageDrafts_valid_iff {request : ChatSend} {participants : List RoomParticipant}
    {audienceIds : List Uuid} (hrequest : ValidatedRequest.WellFormed (.chatSend request))
    (haudience : resolveChatAudience (env.underContract formats) actor participants request =
      .ok audienceIds) :
    (∀ d ∈ messageDrafts actor fresh request audienceIds,
      isValidRoomEvent (env.underContract formats) d.1 d.2 = true) ↔
      writable env formats actor (.chatSend request) = true := by
  rw [writable_chatSend, messageDrafts, List.forall_mem_cons,
    message_valid_iff hrequest haudience]
  refine and_congr_right fun htime => ?_
  cases hinvokes : invokesActionItems actor request with
  | false => simp
  | true =>
      simp only [if_true, actionItemsEvents, List.zip_cons_cons, List.zip_nil_left,
        List.forall_mem_cons, actionItemsEvent_core_valid_iff (.inl rfl),
        actionItemsEvent_core_valid_iff (.inr rfl), outcome_valid_iff, htime,
          true_and, forall_const]
      simp

theorem decisionPayload_fits (decisionId : Uuid) (status : DecisionStatus) (title summary : String)
    (sources : List Uuid) :
    eventPayloadSchema (decisionPayload decisionId status title summary sources) = true := by
  simp [eventPayloadSchema, Schema.openRecord, decisionPayload]

theorem editedPayload_fits (decisionId replacementId : Uuid) :
    eventPayloadSchema (editedPayload decisionId replacementId) = true := by
  simp [eventPayloadSchema, Schema.openRecord, editedPayload]

theorem replacementPayload_fits (replacementId decisionId : Uuid) (title summary : String)
    (sources : List Uuid) :
    eventPayloadSchema
      (replacementPayload replacementId decisionId title summary sources) = true := by
  simp [eventPayloadSchema, Schema.openRecord, replacementPayload]

theorem settleDrafts_valid_iff (request : DecisionTransition) (row : Decision)
    (status : DecisionStatus) {eventType : EventType}
    (htype : eventType ∈ [.decisionProposed, .decisionConfirmed, .decisionEdited,
      .decisionDismissed]) :
    (∀ d ∈ settleDrafts actor fresh request row status eventType,
      isValidRoomEvent (env.underContract formats) d.1 d.2 = true) ↔
      formats.dateTime (env.rfc3339 request.occurredAt) = true := by
  rw [settleDrafts, List.forall_mem_singleton]
  exact decision_valid_iff htype (decisionPayload_fits ..)

theorem transitionDrafts_valid_iff {request : DecisionTransition} {row : Decision}
    (h : transitionDrafts actor fresh request row = .ok drafts) :
    (∀ d ∈ drafts, isValidRoomEvent (env.underContract formats) d.1 d.2 = true) ↔
      formats.dateTime (env.rfc3339 request.occurredAt) = true := by
  unfold transitionDrafts at h
  split at h
  · cases h
    exact settleDrafts_valid_iff request row _ (by simp)
  · cases h
    exact settleDrafts_valid_iff request row _ (by simp)
  · cases h
    rw [editDrafts, List.forall_mem_cons, List.forall_mem_singleton]
    refine (and_congr ?_ ?_).trans (and_self_iff)
    · exact decision_valid_iff (by simp) (editedPayload_fits ..)
    · exact decision_valid_iff (by simp) (replacementPayload_fits ..)
  · cases h

/-- What a request builds is valid exactly if the request is writable. -/
theorem draftEvents_valid_iff {request : ValidatedRequest} (hrequest : request.WellFormed)
    (hfilled : DecisionsFilled db)
    (hnumbered : SeqLog.Numbered RoomEvent.roomId RoomEvent.sequence db.roomEvents.rows)
    (hdrafts : draftEvents (env.underContract formats) db actor presence conversationsEnabled fresh
      request = .ok drafts) :
    (∀ d ∈ drafts, isValidRoomEvent (env.underContract formats) d.1 d.2 = true) ↔
      writable env formats actor request = true := by
  cases request with
  | chatSend request =>
      obtain ⟨audienceIds, haudience, hmessages⟩ := Loops.bind_ok.mp hdrafts
      cases hmessages
      exact messageDrafts_valid_iff hrequest haudience
  | decisionPropose request =>
      cases hdrafts
      rw [writable_other rfl rfl, proposeDrafts, List.forall_mem_singleton]
      exact decision_valid_iff (by simp) (decisionPayload_fits ..)
  | decisionTransition request =>
      obtain ⟨row, -, hdrafts⟩ := Loops.bind_ok.mp hdrafts
      split_ifs at hdrafts
      rw [writable_other rfl rfl]
      exact transitionDrafts_valid_iff hdrafts
  | decisionDelete request =>
      obtain ⟨row, hfound, hdeletes⟩ := Loops.bind_ok.mp hdrafts
      cases hdeletes
      obtain ⟨htitle, hsummary⟩ := hfilled row (foundDecision_mem hfound)
      rw [writable_other rfl rfl, deleteDrafts, List.forall_mem_singleton]
      exact deleted_valid_iff htitle hsummary
  | agentTaskStart request =>
      cases hdrafts
      rw [writable_other rfl rfl, startDrafts, List.forall_mem_singleton]
      refine requested_valid_iff hrequest.1 _ _ _ ?_
      rw [Db.maxSequence_add_one, hnumbered.next_eq]
      omega
  | join request => cases hdrafts
  | sessionAuthenticate request => cases hdrafts

end Valid

/-! ### What becomes of a request -/

/-- The request passes the role check and is not in the ledger. -/
structure FirstRequest (db : Db) (actor : Actor) (request : ValidatedRequest) : Prop where
  role : request.governed = true → actor.role = .human
  unrecorded : ∀ room requestId, request.roomId = some room → request.requestId = some requestId →
    findRequest db room requestId = none

/-- The texts of a request that the database stores. -/
def ValidatedRequest.texts : ValidatedRequest → List String
  | chatSend request => [request.text]
  | decisionPropose request => [request.title, request.summary]
  | decisionTransition request => request.editedTitle.toList ++ request.editedSummary.toList
  | agentTaskStart request => [request.input]
  | decisionDelete _ | join _ | sessionAuthenticate _ => []

/-- The database takes what the request writes: the ids that are drawn for it are
new, the room has numbers left for as many events as a request can have, and no
text has the character that PostgreSQL does not store. -/
structure Storable (db : Db) (actor : Actor) (request : ValidatedRequest) (fresh : Nat → Uuid) :
    Prop where
  distinct : ((List.range 5).map fresh).Nodup
  unused : ∀ n < 5, ∀ e ∈ db.roomEvents.rows, e.eventId ≠ fresh n
  numbers : ∀ room, request.roomId = some room → db.maxSequence room + 4 ≤ maxBigint
  unclashing : Unclashing db fresh request
  texts : ∀ s ∈ actor.displayName :: request.texts, Char.ofNat 0 ∉ s.toList

section Fate

variable {actor : Actor} {request : ValidatedRequest} {presence : List ParticipantPresence}
  {conversationsEnabled : Bool} {txNow : Time} {fresh : Nat → Uuid} {drafts : List Draft}

/-- Only requests that have a place in the ledger build events. -/
theorem draftEvents_ledgerKey
    (h : draftEvents env db actor presence conversationsEnabled fresh request = .ok drafts) :
    ∃ room requestId, request.ledgerKey = some (room, requestId) := by
  cases request with
  | join request => cases h
  | sessionAuthenticate request => cases h
  | _ => exact ⟨_, _, rfl⟩

/-- The events of a request have ids that were drawn for it, at most four. -/
theorem draftEvents_ids
    (h : draftEvents env db actor presence conversationsEnabled fresh request = .ok drafts) :
    ∃ drawn : List Nat, drafts.map (·.1) = drawn.map fresh ∧ drawn.Sublist (List.range 5) ∧
      drawn.length ≤ 4 := by
  cases request with
  | chatSend request =>
      obtain ⟨audienceIds, -, hmessages⟩ := Loops.bind_ok.mp h
      cases hmessages
      unfold messageDrafts
      split_ifs
      · exact ⟨[0, 2, 3, 4], rfl, by decide, by decide⟩
      · exact ⟨[0], rfl, by decide, by decide⟩
  | decisionPropose request =>
      cases h
      exact ⟨[1], rfl, by decide, by decide⟩
  | decisionTransition request =>
      obtain ⟨row, -, hdrafts⟩ := Loops.bind_ok.mp h
      split_ifs at hdrafts
      unfold transitionDrafts at hdrafts
      split at hdrafts <;> cases hdrafts
      · exact ⟨[0], rfl, by decide, by decide⟩
      · exact ⟨[0], rfl, by decide, by decide⟩
      · exact ⟨[1, 2], rfl, by decide, by decide⟩
  | decisionDelete request =>
      obtain ⟨row, -, hdeletes⟩ := Loops.bind_ok.mp h
      cases hdeletes
      exact ⟨[0], rfl, by decide, by decide⟩
  | agentTaskStart request =>
      cases h
      exact ⟨[1], rfl, by decide, by decide⟩
  | join request => cases h
  | sessionAuthenticate request => cases h

theorem Storable.place {room : Uuid} (h : Storable db actor request fresh)
    (hdrafts : draftEvents env db actor presence conversationsEnabled fresh request = .ok drafts)
    (hroom : request.roomId = some room) : Accommodates db room (drafts.map (·.1)) := by
  obtain ⟨drawn, hids, hsub, hlength⟩ := draftEvents_ids hdrafts
  rw [hids]
  refine ⟨h.distinct.sublist (hsub.map fresh), fun id hid => ?_, ?_⟩
  · obtain ⟨n, hn, rfl⟩ := List.mem_map.mp hid
    exact h.unused n (List.mem_range.mp (hsub.subset hn))
  · have hnumbers := h.numbers room hroom
    rw [List.length_map]
    omega

theorem ledgerKey_roomId {room requestId : Uuid} (h : request.ledgerKey = some (room, requestId)) :
    request.roomId = some room := by
  cases request <;> simp_all [ValidatedRequest.ledgerKey, ValidatedRequest.roomId]

theorem process_stored {result : ProcessedRequest}
    (h : ((process env actor request presence conversationsEnabled txNow fresh).runTx db).1 =
      .ok result) (hnew : result.duplicate = false) :
    ∃ drafts, draftEvents env db actor presence conversationsEnabled fresh request = .ok drafts ∧
      DraftsStored env drafts result.events := by
  have hexec : ∃ ending mid, (process env actor request presence conversationsEnabled txNow
      fresh).exec db = .ok (ending, mid) ∧
      (ending = .rollback result ∨ ending = .commit (.ok result)) := by
    obtain ⟨mid, hrollback, -⟩ | hcommit := runTx_ok h
    · exact ⟨_, mid, hrollback, .inl rfl⟩
    · exact ⟨_, _, hcommit, .inr rfl⟩
  obtain ⟨ending, mid, hexec, hending⟩ := hexec
  simp only [process, exec_bind_ok, exec_ensure_ok, exec_orFail_ok, exec_mapErr_ok] at hexec
  obtain ⟨_, _, ⟨-, rfl⟩, room, _, ⟨hroom, rfl⟩, requestId, _, ⟨hrequest, rfl⟩, _, _, hlock,
    prior, _, hprior, hexec⟩ := hexec
  obtain rfl := exec_acquire_ok.mp hlock
  obtain ⟨rfl, hfound⟩ := priorRequest_ok hprior
  have hroom : request.roomId = some room := by
    cases request <;> simp_all
  cases hfind : findRequest db room requestId with
  | some r =>
      rw [hfind, Option.map_some] at hfound
      subst hfound
      simp only [exec_bind_ok, exec_ensure_ok, exec_pure_ok] at hexec
      obtain ⟨_, _, -, rfl, rfl⟩ := hexec
      rcases hending with hending | hending
      · cases hending
        cases hnew
      · cases hending
  | none =>
      rw [hfind, Option.map_none] at hfound
      subst hfound
      simp only [exec_bind_ok, exec_pure_ok, exec_mapErr_ok] at hexec
      obtain ⟨events, _, hperform, _, _, -, rfl, rfl⟩ := hexec
      rcases hending with hending | hending
      · cases hending
      · cases hending
        exact performRequest_stored hroom hrequest hfind hperform

theorem recordRequest_total {room requestId : Uuid} (fingerprint : Json) (events : List RoomEvent)
    (h : findRequest db room requestId = none) :
    (recordRequest room requestId fingerprint events).Total db fun _ _ => True := by
  obtain ⟨t, ht⟩ := exists_insert (t := db.roomRequests)
    (r := ⟨room, requestId, fingerprint, events.map (·.eventId)⟩) rfl fun x hx => by
      have hne := List.find?_eq_none.mp h x hx
      simpa [roomRequestConstraints] using hne
  refine total_execute.mpr ⟨{ db with roomRequests := t }, ?_, trivial⟩
  rw [Db.insertRoomRequest, ht]
  rfl

/-- A first request whose events are valid and storable is committed. -/
theorem process_commits (txNow : Time) (hfirst : FirstRequest db actor request)
    (hdrafts : draftEvents env db actor presence conversationsEnabled fresh request = .ok drafts)
    (hvalid : ∀ d ∈ drafts, isValidRoomEvent env d.1 d.2 = true)
    (hstorable : Storable db actor request fresh) :
    ∃ events, ((process env actor request presence conversationsEnabled txNow fresh).runTx db).1 =
      .ok ⟨events, false⟩ := by
  obtain ⟨room, requestId, hkey⟩ := draftEvents_ledgerKey hdrafts
  have hroom := ledgerKey_roomId hkey
  obtain ⟨hroom', hrequest⟩ := ValidatedRequest.ledgerKey_eq hkey
  have hnew := hfirst.unrecorded room requestId hroom hrequest
  have hrole : (!(request.governed && decide (actor.role ≠ .human))) = true := by
    cases hgoverned : request.governed with
    | false => rfl
    | true => simp [hfirst.role hgoverned]
  obtain ⟨events, mid, hperform, -⟩ := performRequest_total txNow hroom hrequest hnew
    hdrafts hvalid (hstorable.place hdrafts hroom) hstorable.unclashing
  have hrequests := (performRequest_ok hroom hrequest hnew hperform).requests
  have hmid : findRequest mid room requestId = none := by
    rw [findRequest, hrequests]
    exact hnew
  obtain ⟨u, final, hrecord, -⟩ := recordRequest_total (request.fingerprint env) events
    hmid
  refine ⟨events, ?_⟩
  have hexec : (process env actor request presence conversationsEnabled txNow fresh).exec db =
      .ok (.commit (.ok ⟨events, false⟩), final) := by
    simp only [process, lockRoom, exec_bind_ok, exec_ensure_ok, exec_orFail_ok, exec_mapErr_ok]
    refine ⟨(), db, ⟨hrole, rfl⟩, room, db, ⟨hroom', rfl⟩, requestId, db, ⟨hrequest, rfl⟩, (), db,
      exec_acquire_ok.mpr rfl, none, db, ?_, ?_⟩
    · rw [priorRequest, exec_bind, query, exec]
      simp only [exec, hnew]
      rfl
    · simp only [exec_bind_ok, exec_pure_ok, exec_mapErr_ok]
      exact ⟨events, mid, hperform, u, final, hrecord, rfl, rfl⟩
  rw [runTx, hexec]

theorem duplicate_recorded {result : ProcessedRequest} (hfirst : FirstRequest db actor request)
    (h : ((process env actor request presence conversationsEnabled txNow fresh).runTx db).1 =
      .ok result) : result.duplicate = false := by
  have hcases : ∀ {ending mid}, (process env actor request presence conversationsEnabled txNow
      fresh).exec db = .ok (ending, mid) →
      (ending = .rollback result ∨ ending = .commit (.ok result)) → result.duplicate = false := by
    intro ending mid hexec hending
    obtain ⟨room, requestId, hroom, hrequest, ⟨r, hfound, -, -⟩ | ⟨-, events, _, rfl, -, -⟩⟩ :=
      process_ok hexec
    · rw [hfirst.unrecorded room requestId hroom hrequest] at hfound
      cases hfound
    · rcases hending with hending | hending
      · cases hending
      · cases hending
        rfl
  obtain ⟨mid, hrollback, -⟩ | hcommit := runTx_ok h
  · exact hcases hrollback (.inl rfl)
  · exact hcases hcommit (.inr rfl)

/-- A request either answers with events or leaves the database as it was. -/
theorem process_error {e : RpcError}
    (h : ((process env actor request presence conversationsEnabled txNow fresh).runTx db).1 =
      .error e) :
    ((process env actor request presence conversationsEnabled txNow fresh).runTx db).2 = db := by
  obtain hsame | ⟨r, hcommit⟩ := runTx_store
    (process env actor request presence conversationsEnabled txNow fresh) db
  · exact hsame
  · obtain ⟨_, _, -, -, ⟨_, -, -, hending⟩ | ⟨-, events, _, hending, -, -⟩⟩ := process_ok hcommit
    · cases hending
    · cases hending
      rw [runTx, hcommit] at h
      cases h

/-- A first request that builds an event that is not valid fails as a whole. -/
theorem process_refused (hfirst : FirstRequest db actor request)
    (hdrafts : draftEvents env db actor presence conversationsEnabled fresh request = .ok drafts)
    (hinvalid : ¬ ∀ d ∈ drafts, isValidRoomEvent env d.1 d.2 = true) :
    ∃ e, (process env actor request presence conversationsEnabled txNow fresh).runTx db =
      (.error e, db) := by
  rcases hrun : (process env actor request presence conversationsEnabled txNow fresh).runTx db
    with ⟨answer, final⟩
  cases answer with
  | error e =>
      have hsame := process_error (congrArg Prod.fst hrun)
      rw [hrun] at hsame
      exact ⟨e, congrArg (Prod.mk _) hsame⟩
  | ok result =>
      have hok := congrArg Prod.fst hrun
      obtain ⟨drafts', hdrafts', hstored⟩ := process_stored hok (duplicate_recorded hfirst hok)
      rw [hdrafts] at hdrafts'
      cases hdrafts'
      exact absurd hstored.valid hinvalid

end Fate

/-- What becomes of the events of a request in a database. -/
structure OwnEvents (env : Env) (formats : Formats) (db : Db) (actor : Actor)
    (request : ValidatedRequest) (presence : List ParticipantPresence)
    (conversationsEnabled : Bool) (txNow : Time) (fresh : Nat → Uuid) : Prop where
  /-- What the request builds is valid exactly if the request is writable. -/
  valid_iff : ∀ drafts, draftEvents (env.underContract formats) db actor presence
    conversationsEnabled fresh request = .ok drafts →
    ((∀ d ∈ drafts, isValidRoomEvent (env.underContract formats) d.1 d.2 = true) ↔
      writable env formats actor request = true)
  /-- What a new answer holds is what was built, and it was valid. -/
  stored : ∀ result, ((process (env.underContract formats) actor request presence
    conversationsEnabled txNow fresh).runTx db).1 = .ok result → result.duplicate = false →
    ∃ drafts, draftEvents (env.underContract formats) db actor presence conversationsEnabled fresh
      request = .ok drafts ∧ DraftsStored (env.underContract formats) drafts result.events
  /-- A first request that passes its checks commits what it builds, if it is
  writable and the database takes it. -/
  committed : ∀ drafts, FirstRequest db actor request → draftEvents (env.underContract formats) db
    actor presence conversationsEnabled fresh request = .ok drafts →
    Storable db actor request fresh → writable env formats actor request = true →
    ∃ events, ((process (env.underContract formats) actor request presence conversationsEnabled
      txNow fresh).runTx db).1 = .ok ⟨events, false⟩ ∧
      DraftsStored (env.underContract formats) drafts events
  /-- Otherwise it fails and nothing is written. -/
  refused : ∀ drafts, FirstRequest db actor request → draftEvents (env.underContract formats) db
    actor presence conversationsEnabled fresh request = .ok drafts →
    writable env formats actor request = false →
    ∃ e, (process (env.underContract formats) actor request presence conversationsEnabled txNow
      fresh).runTx db = (.error e, db)
  /-- A message for the built-in agent comes with three events of the agent. -/
  invoked : ∀ drafts chat, request = .chatSend chat → invokesActionItems actor chat = true →
    draftEvents (env.underContract formats) db actor presence conversationsEnabled fresh request =
      .ok drafts →
    ∃ last, (last = .agentTaskSucceeded ∨ last = .agentTaskFailed) ∧ drafts.map (·.2.eventType) =
      [.messageCreated, .agentTaskQueued, .agentTaskRunning, last]

theorem messageDrafts_eventTypes {actor : Actor} {chat : ChatSend} {fresh : Nat → Uuid}
    (h : invokesActionItems actor chat = true) (audienceIds : List Uuid) :
    ∃ last, (last = .agentTaskSucceeded ∨ last = .agentTaskFailed) ∧
      (messageDrafts actor fresh chat audienceIds).map (·.2.eventType) =
        [.messageCreated, .agentTaskQueued, .agentTaskRunning, last] := by
  refine ⟨(actionItemsOutcome (actionItemsTaskPayload (fresh 1) (fresh 0) actor.id) chat.text).1,
    ?_, ?_⟩
  · unfold actionItemsOutcome
    cases extractActionItems chat.text with
    | ok items => exact .inl rfl
    | error e => exact .inr rfl
  · rw [messageDrafts, if_pos h]
    rfl

/-- The events of every admitted request, in every state that admitted calls
lead to. -/
theorem own_events_accepted (env : Env) (formats : Formats) (readTime : String → Option Time)
    (ops : List (AdmittedOp formats readTime)) (actor : Actor)
    (request : AdmittedRequest formats readTime) (presence : List ParticipantPresence)
    (conversationsEnabled : Bool) (txNow : Time) (fresh : Nat → Uuid) :
    OwnEvents env formats ((gateway (env.underContract formats)).run (ops.map (·.1))).db actor
      request.1 presence conversationsEnabled txNow fresh := by
  have hfilled : DecisionsFilled ((gateway (env.underContract formats)).run (ops.map (·.1))).db :=
    admittedGateway_run ops ▸ admittedGateway_filled ops
  have hnumbered : SeqLog.Numbered RoomEvent.roomId RoomEvent.sequence
      ((gateway (env.underContract formats)).run (ops.map (·.1))).db.roomEvents.rows :=
    gateway_numbered _
  have hvalid : ∀ drafts, draftEvents (env.underContract formats)
      ((gateway (env.underContract formats)).run (ops.map (·.1))).db actor presence
      conversationsEnabled fresh request.1 = .ok drafts →
      ((∀ d ∈ drafts, isValidRoomEvent (env.underContract formats) d.1 d.2 = true) ↔
        writable env formats actor request.1 = true) :=
    fun drafts => draftEvents_valid_iff request.2.wellFormed hfilled hnumbered
  refine ⟨hvalid, fun result => process_stored, ?_, ?_, ?_⟩
  · intro drafts hfirst hdrafts hstorable hwritable
    obtain ⟨events, hok⟩ := process_commits txNow hfirst hdrafts
      ((hvalid drafts hdrafts).mpr hwritable) hstorable
    obtain ⟨drafts', hdrafts', hstored⟩ := process_stored hok rfl
    rw [hdrafts] at hdrafts'
    cases hdrafts'
    exact ⟨events, hok, hstored⟩
  · intro drafts hfirst hdrafts hwritable
    refine process_refused hfirst hdrafts fun hall => ?_
    rw [(hvalid drafts hdrafts).mp hall] at hwritable
    cases hwritable
  · intro drafts chat hchat hinvokes hdrafts
    rw [hchat] at hdrafts
    obtain ⟨audienceIds, -, hmessages⟩ := Loops.bind_ok.mp hdrafts
    cases hmessages
    exact messageDrafts_eventTypes hinvokes audienceIds

/-! ### An item without an owner

The text has one item, and the item names neither an owner nor a date. -/

def sampleItems : ChatSend where
  id := "1"
  contractVersion := "n2n.room.v1"
  requestId := 9
  roomId := 1
  occurredAt := seconds 100
  text := "@action-items\n- ship it"
  mentions := [.participant actionItemsAgentId "action-items"]

def sampleItemsText : Json :=
  .obj [("id", "1"), ("jsonrpc", "2.0"), ("method", "chat.send"),
    ("params", .obj [("contractVersion", "n2n.room.v1"),
      ("mentions", .arr [(ChatMention.participant actionItemsAgentId "action-items").toJson]),
      ("occurredAt", "1970-01-01T00:01:40Z"), ("requestId", (9 : Uuid)), ("roomId", (1 : Uuid)),
      ("text", "@action-items\n- ship it")])]

/-- The request is admitted and passes every check, and its last event is not
valid: the message is lost with it. -/
theorem items_without_owner_refused :
    validateRequest sampleFormats sampleEnv.parseRfc3339 sampleItemsText =
        .ok (.chatSend sampleItems) ∧
      invokesActionItems sampleActor sampleItems = true ∧
      ∃ drafts, draftEvents (sampleEnv.underContract sampleFormats) {} sampleActor [] true
          (fun n => .ofNat (20 + n)) (.chatSend sampleItems) = .ok drafts ∧
        (∃ d ∈ drafts, isValidRoomEvent (sampleEnv.underContract sampleFormats) d.1 d.2 = false) ∧
        ∃ e, (process (sampleEnv.underContract sampleFormats) sampleActor (.chatSend sampleItems)
          [] true 0 fun n => .ofNat (20 + n)).runTx {} = (.error e, {}) := by
  have hadmitted : validateRequest sampleFormats sampleEnv.parseRfc3339 sampleItemsText =
      .ok (.chatSend sampleItems) := by decide +kernel
  have haudience : resolveChatAudience (sampleEnv.underContract sampleFormats) sampleActor
      (participantSnapshot {} 1 [] true) sampleItems = .ok [] := by decide +kernel
  have hdrafts : draftEvents (sampleEnv.underContract sampleFormats) {} sampleActor [] true
      (fun n => .ofNat (20 + n)) (.chatSend sampleItems) =
        .ok (messageDrafts sampleActor _ sampleItems []) :=
    Loops.bind_ok.mpr ⟨[], haudience, rfl⟩
  have hinvalid : ¬ ∀ d ∈ messageDrafts sampleActor (fun n => .ofNat (20 + n)) sampleItems [],
      isValidRoomEvent (sampleEnv.underContract sampleFormats) d.1 d.2 = true := by
    rw [messageDrafts_valid_iff (validateRequest_wellFormed hadmitted) haudience]
    decide +kernel
  refine ⟨hadmitted, by decide, _, hdrafts, ?_, process_refused
    ⟨fun _ => rfl, fun _ _ _ _ => rfl⟩ hdrafts hinvalid⟩
  simpa using hinvalid

end RoomGateway
