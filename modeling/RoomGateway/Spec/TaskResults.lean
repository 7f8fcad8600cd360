import RoomGateway.Spec.Packets
import RoomGateway.Spec.RoomContract

/-!
The result of an external task. The contract governs two shapes of it, and the
handler checks what the result cites against the packet of the task. The events
of the room's own agent are succeeded events too, and their payload is an open
record: an update that comes in that shape passes all checks.
-/

namespace RoomGateway

open Schema

variable {env : Env} {formats : Formats} {db db' : Db}

/-- The payload of a succeeded event as the contract wants it from an external
agent: the fields of the task and a result of one of the two shapes, which
cites nothing but what the packet has. -/
structure GovernedPayload (packet : RoomContextPacket) (payload : Json) : Prop where
  fields : ∀ key ∈ payload.keys,
    key ∈ ["taskId", "agentId", "requesterId", "skillId", "contextRevision", "result"]
  shape : contextSummarySchema payload["result"] = true ∨
    actionItemsResultSchema payload["result"] = true
  citations : ∃ citations, payload["result"]["citations"] = .arr citations ∧
    ∀ citation ∈ citations, ∃ id ∈ packet.visibleIds,
      citation.asStr.bind Uuid.parse = some id

/-! ### What the handler records -/

theorem EventType.ofStr_succeeded {name : String} (h : ofStr name = .agentTaskSucceeded) :
    name = "agent.task.succeeded" := by
  unfold ofStr at h
  cases hfound : ([messageCreated, decisionProposed, decisionConfirmed, decisionEdited,
    decisionDismissed, decisionDeleted, agentTaskQueued, agentTaskRunning, agentTaskRequested,
    agentTaskProgressed, agentTaskAwaitingExternalInput, agentTaskSucceeded,
    agentTaskFailed].find? (·.asStr = name)) with
  | none =>
      rw [hfound] at h
      cases h
  | some eventType =>
      rw [hfound] at h
      obtain rfl : eventType = .agentTaskSucceeded := h
      have hname := List.find?_some hfound
      simp only [decide_eq_true_eq] at hname
      exact hname.symm

/-- An update that was checked and recorded. -/
structure TakenUpdate (env : Env) (leaseDb contextDb db db' : Db) (taskId leaseToken : Uuid)
    (now contextNow txNow : Time) (request : TaskUpdateRequest) (lease : AgentTaskLease)
    (context : AgentTaskContext) (t : AgentTaskRecord) (e : RoomEvent) : Prop where
  live : matchingLiveLease leaseDb taskId leaseToken now = some lease
  found : contextForLease contextDb lease (pgTime contextNow) = some context
  visible : terminalCitationsAreVisible (contextPacket env context lease) request.update = true
  updated : ∃ state payload, UpdatedTask env db db' t lease txNow
    ⟨request.updateId, .ofStr request.update.eventType, request.update.payload,
      request.update.occurredAt⟩ state payload e

theorem checkUpdate_ok {leaseDb contextDb : Db} {taskId leaseToken : Uuid} {now txNow : Time}
    {request : TaskUpdateRequest} {lease : AgentTaskLease} {update : AgentTaskUpdate}
    (h : checkUpdate env leaseDb contextDb taskId leaseToken now txNow request =
      .ok (lease, update)) :
    ∃ context, matchingLiveLease leaseDb taskId leaseToken now = some lease ∧
      contextForLease contextDb lease (pgTime txNow) = some context ∧
      terminalCitationsAreVisible (contextPacket env context lease) request.update = true ∧
      update = ⟨request.updateId, .ofStr request.update.eventType, request.update.payload,
        request.update.occurredAt⟩ := by
  unfold checkUpdate at h
  split at h
  · cases h
  · rename_i found hlive
    split at h
    · cases h
    · rename_i context hcontext
      split_ifs at h with _ hvisible
      cases h
      exact ⟨context, hlive, hcontext, hvisible, rfl⟩

/-- A new event in the log is that of an update that was taken. -/
theorem AgentService.update_new {leaseDb contextDb : Db} {taskId leaseToken : Uuid}
    {now contextNow txNow handoffNow : Time} {request : TaskUpdateRequest} {fresh : Nat → Uuid}
    {result : Except UpdateRefusal AgentTaskUpdateResult} {e : RoomEvent}
    (h : AgentService.update env leaseDb contextDb taskId leaseToken now contextNow txNow handoffNow
      request fresh db = (result, db'))
    (hnew : e ∈ db'.roomEvents.rows) (hold : e ∉ db.roomEvents.rows) :
    ∃ lease context t, TakenUpdate env leaseDb contextDb db db' taskId leaseToken now contextNow
      txNow request lease context t e := by
  unfold AgentService.update at h
  split at h
  · cases h
    exact absurd hnew hold
  · rename_i lease update hcheck
    obtain ⟨context, hlive, hcontext, hvisible, rfl⟩ := checkUpdate_ok hcheck
    simp only [Prod.mk.injEq] at h
    obtain ⟨-, rfl⟩ := h
    rcases Prog.runTx_store (recordAgentTaskUpdateWithOutcome env lease _ txNow handoffNow fresh)
      db with hsame | ⟨r, hcommit⟩
    · rw [hsame] at hnew
      exact absurd hnew hold
    · obtain ⟨_, _, -, hending, -⟩ | ⟨t, state, payload, e', hupdated, -⟩ :=
        recordAgentTaskUpdateWithOutcome_ok hcommit
      · cases hending
      · obtain ⟨_, _, log, _, _, -, happended, -, -, heq⟩ := hupdated.frame
        obtain rfl : e = e' := by
          rw [heq, happended.rows, List.mem_append, List.mem_singleton] at hnew
          exact hnew.resolve_left hold
        exact ⟨lease, context, t, hlive, hcontext, hvisible, state, payload, hupdated⟩

/-! ### Two shapes of a payload -/

/-- What the room's own agents report names its kind. -/
theorem legacy_kind {payload : Json} (h : legacyTaskSucceededPayload payload = true) :
    (payload.get? "kind").isSome = true := by
  rw [legacyTaskSucceededPayload, all_cons, Bool.and_eq_true] at h
  exact openRecord_required (show openRecord _ _ payload = true from h.1) (by simp)

/-- The payload of a succeeded event is in one of the two shapes. -/
theorem UpdatedTask.succeeded {t : AgentTaskRecord} {lease : AgentTaskLease} {txNow : Time}
    {update : AgentTaskUpdate} {state : AgentTaskState} {payload : Json} {e : RoomEvent}
    (h : UpdatedTask (env.underContract formats) db db' t lease txNow update state payload e)
    (htype : update.eventType = .agentTaskSucceeded) :
    e.payload = payload ∧ (legacyTaskSucceededPayload payload = true ∨
      externalTaskSucceededPayload formats payload = true) := by
  obtain ⟨requestId, eventId, log, _, _, hvalid, happended, -⟩ := h.frame
  obtain ⟨-, -, -, hrules, -⟩ := (isValidRoomEvent_underContract ..).mp hvalid
  have hname :
      (updateEvent t update payload requestId).eventType.asStr = "agent.task.succeeded" := by
    rw [updateEvent, htype]
    rfl
  rw [hname, payloadRules_succeeded, all_cons, Bool.and_eq_true] at hrules
  obtain ⟨schema, hschema, hpayload⟩ := exists_of_one hrules.1
  simp only [List.mem_cons, List.not_mem_nil, or_false] at hschema
  refine ⟨by rw [happended.row]; rfl, ?_⟩
  rcases hschema with rfl | rfl
  · exact .inl hpayload
  · exact .inr hpayload

/-- The task's own fields leave the others of a payload as they are. -/
theorem normalizedAgentTaskUpdatePayload_get? {t : AgentTaskRecord} {payload normalized : Json}
    (h : normalizedAgentTaskUpdatePayload t payload = .ok normalized) {key : String}
    (hkey : key ∉ ["agentId", "contextRevision", "requesterId", "skillId", "taskId"]) :
    normalized.get? key = payload.get? key := by
  obtain ⟨-, rfl⟩ := normalizedAgentTaskUpdatePayload_ok h
  refine Json.get?_setAll_of_ne (fun f hf heq => hkey ?_) payload
  simp only [agentTaskCore, List.mem_cons, List.not_mem_nil, or_false] at hf
  rcases hf with rfl | rfl | rfl | rfl | rfl <;> simp [← heq]

/-- Both shapes of a result list their citations. -/
theorem externalTaskResult_citations {result : Json} (h : externalTaskResultSchema result = true) :
    (contextSummarySchema result = true ∨ actionItemsResultSchema result = true) ∧
      ∃ citations, result.get? "citations" = some (.arr citations) := by
  have hlisted : ∀ {fields names}, record fields names result = true →
      ("citations", citationIdsSchema) ∈ fields → "citations" ∈ names →
      ∃ citations, result.get? "citations" = some (.arr citations) := by
    intro fields names hrecord hfield hname
    have hcitations := record_field hrecord hfield hname
    rw [citationIdsSchema, all_cons, Bool.and_eq_true] at hcitations
    obtain ⟨citations, heq⟩ := eq_arr_of_array hcitations.1
    exact ⟨citations, heq ▸ record_required hrecord hname⟩
  obtain ⟨schema, hschema, hresult⟩ := exists_of_one h
  simp only [List.mem_cons, List.not_mem_nil, or_false] at hschema
  rcases hschema with rfl | rfl
  · exact ⟨.inl hresult, hlisted hresult (by simp) (by simp)⟩
  · exact ⟨.inr hresult, hlisted hresult (by simp) (by simp)⟩

/-- The external shape, with the handler's check, is what the contract wants. -/
theorem governed_of_external {packet : RoomContextPacket} {update : NormalizedAgentTaskUpdate}
    {payload : Json} (hexternal : externalTaskSucceededPayload formats payload = true)
    (hresult : payload.get? "result" = update.payload.get? "result")
    (htype : update.eventType = "agent.task.succeeded")
    (hvisible : terminalCitationsAreVisible packet update = true) :
    GovernedPayload packet payload := by
  have hrecord : record _ _ payload = true := hexternal
  have hget : payload.get? "result" = some payload["result"] :=
    record_required hrecord (by simp)
  have hschema : externalTaskResultSchema payload["result"] = true :=
    record_field hrecord (by simp) (by simp)
  obtain ⟨hshape, citations, hcitations⟩ := externalTaskResult_citations hschema
  refine ⟨fun key hkey => by simpa using record_keys hrecord hkey, hshape, citations, ?_, ?_⟩
  · rw [Json.getElem_eq _ "citations", Json.field, hcitations, Option.getD_some]
  · intro citation hcitation
    have hnot : ¬ update.eventType ≠ "agent.task.succeeded" := fun hne => hne htype
    rw [terminalCitationsAreVisible, if_neg hnot, ← hresult, hget, Option.bind_some,
      hcitations] at hvisible
    simp only [Json.asArray, List.all_eq_true] at hvisible
    have hcited := hvisible citation hcitation
    cases hid : citation.asStr.bind Uuid.parse with
    | none =>
        rw [hid] at hcited
        cases hcited
    | some id =>
        rw [hid] at hcited
        exact ⟨id, by simpa using hcited, rfl⟩

/-! ### When a result is governed -/

/-- A succeeded event that the handler records is governed if and only if the
update that was posted does not name a kind of its own. -/
theorem recorded_result_governed_iff (env : Env) (formats : Formats) (leaseDb contextDb db db' : Db)
    (taskId leaseToken : Uuid) (now contextNow txNow handoffNow : Time)
    (request : TaskUpdateRequest) (fresh : Nat → Uuid)
    (result : Except UpdateRefusal AgentTaskUpdateResult) (e : RoomEvent)
    (h : AgentService.update (env.underContract formats) leaseDb contextDb taskId leaseToken now
      contextNow txNow handoffNow request fresh db = (result, db'))
    (hnew : e ∈ db'.roomEvents.rows) (hold : e ∉ db.roomEvents.rows)
    (htype : e.eventType = .agentTaskSucceeded) :
    ∃ lease context, matchingLiveLease leaseDb taskId leaseToken now = some lease ∧
      contextForLease contextDb lease (pgTime contextNow) = some context ∧
      (GovernedPayload (contextPacket (env.underContract formats) context lease) e.payload ↔
        request.update.payload.get? "kind" = none) := by
  obtain ⟨lease, context, t, htaken⟩ := AgentService.update_new h hnew hold
  obtain ⟨state, payload, hupdated⟩ := htaken.updated
  have hevent : e.eventType = .ofStr request.update.eventType := by
    obtain ⟨_, _, _, _, _, -, happended, -⟩ := hupdated.frame
    rw [happended.row]
    rfl
  have hname := EventType.ofStr_succeeded (hevent.symm.trans htype)
  obtain ⟨rfl, hshapes⟩ := hupdated.succeeded (hevent.symm.trans htype)
  have hkept : ∀ {key}, key ∉ ["agentId", "contextRevision", "requesterId", "skillId", "taskId"] →
      e.payload.get? key = request.update.payload.get? key :=
    normalizedAgentTaskUpdatePayload_get? hupdated.normalized
  have hkind : e.payload.get? "kind" = request.update.payload.get? "kind" := hkept (by decide)
  refine ⟨lease, context, htaken.live, htaken.found, fun hgoverned => ?_, fun hnone => ?_⟩
  · by_contra hsome
    rw [← hkind] at hsome
    exact absurd (hgoverned.fields "kind" (Json.mem_keys.mpr (Option.isSome_iff_ne_none.mpr hsome)))
      (by decide)
  · rcases hshapes with hlegacy | hexternal
    · have hsome := legacy_kind hlegacy
      rw [hkind, hnone] at hsome
      cases hsome
    · exact governed_of_external hexternal (hkept (by decide)) hname htaken.visible

/-! ### Two updates of one task

Maya writes and asks the reference agent for a summary. The agent may answer
with one, and it may answer in the shape of the room's own action items. -/

abbrev sampleContractEnv : Env := sampleEnv.underContract sampleFormats

def sampleTaskDb : Db :=
  ((gateway sampleContractEnv).run
    [.process sampleActor (.chatSend sampleChat) [] true (seconds 100) fun n =>
        .ofNat (20 + n),
      sampleAskLater, sampleClaim]).db

/-- What the handler does with a succeeded update that carries the payload. -/
def sampleSucceeded (payload : Json) : Except UpdateRefusal AgentTaskUpdateResult × Db :=
  AgentService.update sampleContractEnv sampleTaskDb sampleTaskDb 30 40 (seconds 120) (seconds 120)
    (seconds 120) (seconds 120) ⟨50, 2, ⟨"agent.task.succeeded", payload, seconds 100⟩⟩
    (fun n => .ofNat (60 + n)) sampleTaskDb

def sampleSummary : Json :=
  .obj [("result", .obj [("kind", "context-summary.v1"), ("summary", "Maya said hello."),
    ("citations", .arr [Json.str (20 : Uuid).text])])]

def sampleActionItems : Json :=
  .obj [("kind", "action-items.v1"), ("note", "anything"),
    ("result", .obj [("actionItems", .arr [])]), ("sourceEventId", (20 : Uuid))]

theorem recorded_result_governed_sample :
    ∃ e ∈ (sampleSucceeded sampleSummary).2.roomEvents.rows, e ∉ sampleTaskDb.roomEvents.rows ∧
      ∃ lease context, contextForLease sampleTaskDb lease (pgTime (seconds 120)) = some context ∧
        GovernedPayload (contextPacket sampleContractEnv context lease) e.payload := by
  have hrecorded : ∃ e ∈ (sampleSucceeded sampleSummary).2.roomEvents.rows,
      e ∉ sampleTaskDb.roomEvents.rows ∧ e.eventType = .agentTaskSucceeded := by
    decide +kernel
  obtain ⟨e, hnew, hold, htype⟩ := hrecorded
  have hran : sampleSucceeded sampleSummary =
      ((sampleSucceeded sampleSummary).1, (sampleSucceeded sampleSummary).2) := Prod.mk.eta.symm
  obtain ⟨lease, context, -, hcontext, hiff⟩ := recorded_result_governed_iff sampleEnv sampleFormats
    sampleTaskDb sampleTaskDb sampleTaskDb _ 30 40 (seconds 120) (seconds 120) (seconds 120)
    (seconds 120) ⟨50, 2, ⟨"agent.task.succeeded", sampleSummary, seconds 100⟩⟩
    (fun n => .ofNat (60 + n)) _ e hran hnew hold htype
  have hkind : sampleSummary.get? "kind" = none := by decide
  exact ⟨e, hnew, hold, lease, context, hcontext, hiff.mpr hkind⟩

/-- An update in the shape of the room's own agents is recorded: it has a field
of its choice, and its result is not of a governed shape and cites nothing. -/
theorem ungoverned_result_recorded :
    ∃ e ∈ (sampleSucceeded sampleActionItems).2.roomEvents.rows,
      e ∉ sampleTaskDb.roomEvents.rows ∧ e.eventType = .agentTaskSucceeded ∧
      e.payload["note"] = Json.str "anything" ∧ e.payload["result"].get? "citations" = none ∧
      ∀ packet, ¬ GovernedPayload packet e.payload := by
  have hrecorded : ∃ e ∈ (sampleSucceeded sampleActionItems).2.roomEvents.rows,
      e ∉ sampleTaskDb.roomEvents.rows ∧ e.eventType = .agentTaskSucceeded ∧
      e.payload["note"] = Json.str "anything" ∧ e.payload["result"].get? "citations" = none ∧
      "note" ∈ e.payload.keys := by
    decide +kernel
  obtain ⟨e, hnew, hold, htype, hnote, hcitations, hkey⟩ := hrecorded
  refine ⟨e, hnew, hold, htype, hnote, hcitations, fun packet hgoverned => ?_⟩
  exact absurd (hgoverned.fields "note" hkey) (by decide)

end RoomGateway
