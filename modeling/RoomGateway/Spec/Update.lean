import RoomGateway.Spec.Turn

/-!
What recording a worker's update does: a completion appends the reply and
closes the turn, a failure closes it, and any other update leaves the turn
under way.
-/

namespace RoomGateway

open Table

variable {env : Env} {db db' : Db} {kind : UpdateKind}

/-! ### Checks that only read -/

theorem validateCitations_ok {policy : ConversationPolicy} {t : ConversationTask} {reply : Json}
    {u : Unit} (h : (validateCitations env policy t reply).exec db = .ok (u, db')) : db = db' := by
  simp only [validateCitations, Prog.exec_bind_ok, Prog.exec_orFail_ok, Prog.exec_ofExcept_ok,
    Prog.exec_query_ok] at h
  obtain ⟨_, _, ⟨-, rfl⟩, _, _, ⟨-, rfl⟩, _, _, ⟨-, rfl⟩, _, _, ⟨-, rfl⟩, h⟩ := h
  refine Prog.exec_forEach_ok (P := fun x => db = x) ?_ rfl h
  rintro citation - s t rfl hc
  simp only [validateCitation, Prog.exec_bind_ok, Prog.exec_orFail_ok, Prog.exec_ofExcept_ok,
    Prog.exec_query_ok, Prog.exec_ensure_ok] at hc
  obtain ⟨_, _, ⟨-, rfl⟩, _, _, ⟨-, rfl⟩, _, _, ⟨-, rfl⟩, -, rfl⟩ := hc
  rfl

theorem disclosures_ok {policy : ConversationPolicy} {room : Uuid} {t : ConversationTask}
    {sources : List Json} {u : Unit}
    (h : (Prog.forEach sources (disclose policy room t)).exec db = .ok (u, db')) :
    ∃ ds, db' = { db with conversationDisclosures := ds } := by
  refine Prog.exec_forEach_ok
    (P := fun x : Db => ∃ ds, x = { db with conversationDisclosures := ds })
    ?_ ⟨db.conversationDisclosures, rfl⟩ h
  rintro source - s s' ⟨ds, rfl⟩ hs
  simp only [disclose, Prog.exec_bind_ok, Prog.exec_ofExcept_ok, Prog.exec_orFail_ok,
    Prog.exec_execute_ok] at hs
  obtain ⟨_, _, ⟨-, rfl⟩, _, _, ⟨-, rfl⟩, hs⟩ := hs
  obtain ⟨ds', rfl⟩ := Db.discloseOnce_some hs
  exact ⟨ds', rfl⟩

/-! ### Completing a task -/

def completedTask (env : Env) (t : ConversationTask) (data : Json) (reply : RoomEvent)
    (text : String) (now : Time) : ConversationTask :=
  { t with
    state := .completed
    result := some data
    replyEventId := some reply.eventId
    receiptAcknowledgement := some (acknowledgement env t reply text)
    effectiveSettings := optionalJson data["effectiveSettings"]
    usage := optionalJson data["usage"]
    updatedAt := pgTime now }

def readyConversation (t : ConversationTask) (c : AgentConversation) (now : Time) :
    AgentConversation :=
  { c with
    state := .ready
    activeTaskId := none
    consumedRevision := t.contextRevision
    updatedAt := pgTime now }

/-- What was checked of a reply before it was accepted, and what it discloses. -/
structure CheckedReply (env : Env) (policy : ConversationPolicy) (db db' : Db)
    (t : ConversationTask) (data : Json) (reply : RoomEvent) (text : String) : Prop where
  result : validateProfileValue env .result data = .ok ()
  event : reply.Checked env
  ack : validateProfileValue env .ack (acknowledgement env t reply text) = .ok ()
  short : text.utf8ByteSize ≤ 65536
  cited : (validateCitations env policy t data).exec db = .ok ((), db)
  disclosed : ∃ sources before after, t.sourceManifest.asArray = some sources ∧
    (Prog.forEach sources (disclose policy t.roomId t)).exec before = .ok ((), after) ∧
    before.conversationDisclosures = db.conversationDisclosures ∧
    after.conversationDisclosures = db'.conversationDisclosures

theorem completeTask_ok {policy : ConversationPolicy} {t : ConversationTask}
    {c : AgentConversation} {data ack : Json} {now : Time} {eventId : Uuid} {reply : RoomEvent}
    (hjoined : Joined db t c)
    (h : (completeTask env policy t.roomId t data now eventId).exec db = .ok ((ack, reply), db')) :
    ∃ text es ts cs ds, data["assistantText"] = Json.str text ∧
      ack = acknowledgement env t reply text ∧
      Appended db (replyEvent t.roomId t data now) eventId reply es ∧
      db' = { db with
        roomEvents := es
        conversationTasks := ts
        agentConversations := cs
        conversationDisclosures := ds } ∧
      CheckedReply env policy db db' t data reply text ∧
      TurnChange db db' t (completedTask env t data reply text now) c
        (readyConversation t c now) := by
  simp only [completeTask, Prog.exec_bind_ok, Prog.exec_ofExcept_ok, Prog.exec_ensure_ok,
    Prog.exec_orFail_ok, Prog.exec_mapErr_ok, Prog.exec_execute_ok, Prog.exec_pure_ok,
    Prod.mk.injEq] at h
  obtain ⟨_, _, ⟨hresult, rfl⟩, _, _, ⟨-, rfl⟩, text, _, ⟨htext, rfl⟩, _, _, ⟨hshort, rfl⟩, _, db1,
    hcite, reply', db2, happend, _, _, ⟨hack, rfl⟩, _, db3, htasks, _, db4, hconvs, sources, _,
    ⟨hsources, rfl⟩, _, db5, hdisclose, ⟨rfl, rfl⟩, rfl⟩ := h
  obtain rfl := validateCitations_ok hcite
  obtain ⟨es, happended, hevent, rfl⟩ := appendEventInTransaction_ok happend
  obtain ⟨ts, hts, rfl⟩ := Db.updateConversationTasks_some htasks
  obtain ⟨cs, hcs, rfl⟩ := Db.updateAgentConversations_some hconvs
  have hshort : text.utf8ByteSize ≤ 65536 := by simpa using hshort
  have hdisclosed := hdisclose
  obtain ⟨ds, rfl⟩ := disclosures_ok hdisclose
  refine ⟨text, es, ts, cs, ds, Json.eq_str_of_asStr htext, rfl, happended, rfl,
    ⟨hresult, happended.checked hevent, hack, hshort, hcite, sources, _, _, hsources, hdisclosed,
      rfl, rfl⟩, hjoined, ?_, ?_⟩
  · change ts.rows = _
    rw [hts]
    change db.conversationTasks.rows.map _ = _
    rw [hjoined.alter_tasks (by simp)]
    simp [alter, completedTask]
  · change cs.rows = _
    rw [hcs]
    change db.agentConversations.rows.map _ = _
    rw [Db.alter_conversation hjoined.conversation (by simp [hjoined.conversationId_eq])]
    simp [alter, hjoined.conversationId_eq, readyConversation]

/-! ### Retaining an update -/

/-- The rows kept beside a new update. -/
def keptUpdates (env : Env) (task : Uuid) (kind : UpdateKind) (rows : List ConversationUpdate) :
    List ConversationUpdate :=
  rows.filter fun u => !replaced env task kind u

theorem keptUpdates_terminal {task : Uuid} (hkind : kind.terminal = true)
    (rows : List ConversationUpdate) : keptUpdates env task kind rows = rows := by
  apply List.filter_eq_self.mpr
  intro u _
  cases kind <;> simp_all [UpdateKind.terminal, replaced]

theorem retainUpdate_ok {row : TaskRow} {u : ConversationUpdate} {now : Time} {v : Unit}
    (h : (retainUpdate env row u now).exec db = .ok (v, db')) :
    (coalesced env row u.kind u.data now db = true ∧ db' = db) ∨
      coalesced env row u.kind u.data now db = false ∧
        ∃ us, us.rows =
          keptUpdates env row.task.taskId u.kind db.conversationUpdates.rows ++ [u] ∧
        ((u.kind ≠ .progress ∧ db' = { db with conversationUpdates := us }) ∨
          (u.kind = .progress ∧ ∃ ts, ts.rows = db.conversationTasks.rows.map
              (alter (fun t => t.taskId = row.task.taskId)
                fun t => { t with lastProgressAt := some (pgTime now) }) ∧
            db' = { db with conversationUpdates := us, conversationTasks := ts })) := by
  simp only [retainUpdate, Prog.exec_bind_ok, Prog.exec_query_ok, Prog.exec_ite] at h
  obtain ⟨folded, _, ⟨rfl, rfl⟩, h⟩ := h
  by_cases hfolded : coalesced env row u.kind u.data now db = true
  · rw [if_neg (by simp [hfolded])] at h
    obtain ⟨-, rfl⟩ := Prog.exec_pure_ok.mp h
    exact .inl ⟨hfolded, rfl⟩
  · rw [if_pos (by simp [hfolded])] at h
    simp only [Prog.exec_bind_ok, Prog.exec_execute_ok, Prog.exec_ite] at h
    obtain ⟨_, db1, hdelete, _, db2, hinsert, h⟩ := h
    cases hdelete
    obtain ⟨us, hus, rfl⟩ := Db.insertConversationUpdate_some hinsert
    refine .inr ⟨by simpa using hfolded, us, hus, ?_⟩
    by_cases hkind : u.kind = .progress
    · rw [if_pos hkind] at h
      obtain ⟨ts, hts, rfl⟩ := Db.updateConversationTasks_some (Prog.exec_execute_ok.mp h)
      exact .inr ⟨hkind, ts, hts, rfl⟩
    · rw [if_neg hkind] at h
      obtain ⟨-, rfl⟩ := Prog.exec_pure_ok.mp h
      exact .inl ⟨hkind, rfl⟩

/-- Only progress is folded. -/
theorem coalesced_progress {row : TaskRow} {data : Json} {now : Time}
    (h : coalesced env row kind data now db = true) : kind = .progress := by
  simp only [coalesced, Bool.and_eq_true, decide_eq_true_eq] at h
  exact h.1

/-! ### Updates without a reply -/

theorem failureCode_ok {code : String} {error : ConversationError}
    (h : failureCode code = .ok error) : error.code = code := by
  unfold failureCode at h
  split at h
  · rename_i found hfound
    cases h
    simpa using List.find?_some hfound
  · cases h

/-- A task whose settings, usage, progress or ordinal moved on. -/
def notedTask (t : ConversationTask) (effectiveSettings usage : Option Json) (updatedAt : Time)
    (lastProgressAt : Option Time) : ConversationTask :=
  { t with
    effectiveSettings := effectiveSettings
    usage := usage
    updatedAt := updatedAt
    lastProgressAt := lastProgressAt }

/-- Settings and usage are as they were, or as the update has them. -/
structure NotedMetadata (t : ConversationTask) (kind : UpdateKind) (data : Json)
    (effectiveSettings usage : Option Json) : Prop where
  settings : effectiveSettings = t.effectiveSettings ∨
    (kind = .settings ∧ effectiveSettings = some data)
  usage : usage = t.usage ∨ (kind = .usage ∧ usage = some data)

theorem applyUpdate_ok {row : TaskRow} {c : AgentConversation} {data : Json} {txNow now : Time}
    {u : Unit} (hjoined : Joined db row.task c)
    (h : (applyUpdate row kind data txNow now).exec db = .ok (u, db')) :
    (kind = .failed ∧ ∃ error ts cs, data["code"] = Json.str error.code ∧
        db' = { db with conversationTasks := ts, agentConversations := cs } ∧
        TurnChange db db' row.task (endedTask error txNow row.task) c
          (releasedConversation row.task.taskId txNow c)) ∨
      (kind ≠ .failed ∧ ∃ ts effectiveSettings usage updatedAt,
        NotedMetadata row.task kind data effectiveSettings usage ∧
        db' = { db with conversationTasks := ts } ∧
        ts.rows = put (taskIs row.task.taskId)
          (notedTask row.task effectiveSettings usage updatedAt row.task.lastProgressAt)
          db.conversationTasks.rows) := by
  have hsame : db.conversationTasks.rows = put (taskIs row.task.taskId)
      (notedTask row.task row.task.effectiveSettings row.task.usage row.task.updatedAt
        row.task.lastProgressAt) db.conversationTasks.rows := hjoined.put_tasks.symm
  cases kind with
  | failed =>
      simp only [applyUpdate, Prog.exec_bind_ok, Prog.exec_orFail_ok, Prog.exec_ofExcept_ok] at h
      obtain ⟨code, _, ⟨hcode, rfl⟩, error, _, ⟨herror, rfl⟩, h⟩ := h
      obtain ⟨ts, cs, rfl, hchange⟩ := failTaskState_ok hjoined h
      refine .inl ⟨rfl, error, ts, cs, ?_, rfl, hchange⟩
      rw [failureCode_ok herror]
      exact Json.eq_str_of_asStr hcode
  | settings =>
      obtain ⟨ts, hts, rfl⟩ := Db.updateConversationTasks_some (Prog.exec_execute_ok.mp h)
      refine .inr ⟨by simp, ts, some data, row.task.usage, pgTime now,
        ⟨.inr ⟨rfl, rfl⟩, .inl rfl⟩, rfl, ?_⟩
      rw [hts, hjoined.alter_tasks (by simp)]
      simp [alter, notedTask]
  | usage =>
      obtain ⟨ts, hts, rfl⟩ := Db.updateConversationTasks_some (Prog.exec_execute_ok.mp h)
      refine .inr ⟨by simp, ts, row.task.effectiveSettings, some data, pgTime now,
        ⟨.inl rfl, .inr ⟨rfl, rfl⟩⟩, rfl, ?_⟩
      rw [hts, hjoined.alter_tasks (by simp)]
      simp [alter, notedTask]
  | progress =>
      obtain ⟨-, rfl⟩ := Prog.exec_pure_ok.mp h
      exact .inr ⟨by simp, db.conversationTasks, _, _, _, ⟨.inl rfl, .inl rfl⟩, rfl, hsame⟩
  | completed =>
      obtain ⟨-, rfl⟩ := Prog.exec_pure_ok.mp h
      exact .inr ⟨by simp, db.conversationTasks, _, _, _, ⟨.inl rfl, .inl rfl⟩, rfl, hsame⟩
  | other name =>
      obtain ⟨-, rfl⟩ := Prog.exec_pure_ok.mp h
      exact .inr ⟨by simp, db.conversationTasks, _, _, _, ⟨.inl rfl, .inl rfl⟩, rfl, hsame⟩

/-! ### A new update -/

/-- What every update that was not seen before has in common. -/
structure NewUpdate (env : Env) (db db' : Db) (t : ConversationTask) (c : AgentConversation)
    (lease : Uuid) (updateId : Uuid) (ordinal : Int) (request response : Json) (now : Time) :
    Prop where
  underWay : UnderWay t c
  leased : t.leaseToken = some lease
  valid : validateProfileValue env .update request = .ok ()
  named : uuidField request "updateId" = .ok updateId
  numbered : request["ordinal"].asI64 = some ordinal
  later : t.lastUpdateOrdinal < ordinal
  requests : db'.conversationUpdateRequests.rows = db.conversationUpdateRequests.rows ++
    [requestRow t.roomId t updateId ordinal request response now]
  rooms : SameRoomTables db db'

/-- The completing update: the reply is in the room and the turn is closed. -/
structure CompletedTurn (env : Env) (db db' : Db) (t : ConversationTask) (c : AgentConversation)
    (lease updateId : Uuid) (ordinal : Int) (request : Json) (now : Time) (eventId : Uuid)
    (reply : RoomEvent) (text : String) : Prop
    extends NewUpdate env db db' t c lease updateId ordinal request
      (acknowledgement env t reply text) now where
  kind : request["kind"] = Json.str "completed"
  text_eq : request["data"]["assistantText"] = Json.str text
  appended : Appended db (replyEvent t.roomId t request["data"] now) eventId reply db'.roomEvents
  change : TurnChange db db' t
    { completedTask env t request["data"] reply text now with lastUpdateOrdinal := ordinal } c
    (readyConversation t c now)
  updates : db'.conversationUpdates.rows = db.conversationUpdates.rows ++
    [updateRow t.roomId t updateId ordinal .completed now request["data"]]
  checked : ∃ policy, policyCurrent policy t = true ∧
    CheckedReply env policy db db' t request["data"] reply text

/-- An update that reports a failure. -/
structure ReportedFailure (env : Env) (db db' : Db) (t : ConversationTask) (c : AgentConversation)
    (lease updateId : Uuid) (ordinal : Int) (request : Json) (txNow now : Time)
    (error : ConversationError) : Prop
    extends NewUpdate env db db' t c lease updateId ordinal request
      (updateAcknowledgement t.taskId updateId ordinal) now where
  kind : request["kind"] = Json.str "failed"
  code : request["data"]["code"] = Json.str error.code
  events : db'.roomEvents = db.roomEvents
  change : TurnChange db db' t
    { endedTask error txNow t with lastUpdateOrdinal := ordinal } c
    (releasedConversation t.taskId txNow c)
  updates : db'.conversationUpdates.rows = db.conversationUpdates.rows ++
    [updateRow t.roomId t updateId ordinal .failed now request["data"]]
  disclosures : db'.conversationDisclosures = db.conversationDisclosures

/-- An update that is folded into what is retained: progress, and of acceptances
only a further one. -/
structure Folded (env : Env) (db : Db) (t : ConversationTask) (kind : UpdateKind) (data : Json) :
    Prop where
  progress : kind = .progress
  again : data["phase"] = Json.str "accepted" → ∃ u ∈ db.conversationUpdates.rows,
    u.taskId = t.taskId ∧ u.kind = .progress ∧ env.text u.data "phase" = some "accepted"

/-- If the update is an acceptance, none is retained yet. -/
def FirstAcceptance (env : Env) (db : Db) (t : ConversationTask) (kind : UpdateKind) (data : Json) :
    Prop :=
  kind = .progress → data["phase"] = Json.str "accepted" → ∀ u ∈ db.conversationUpdates.rows,
    u.taskId = t.taskId → u.kind = .progress → env.text u.data "phase" ≠ some "accepted"

theorem firstAcceptance_of_not_coalesced {row : TaskRow} {data : Json} {now : Time}
    (h : coalesced env row kind data now db = false) :
    FirstAcceptance env db row.task kind data := by
  intro hkind hphase u hu htask hprogress htext
  have hfolded : coalesced env row kind data now db = true := by
    refine Bool.and_eq_true_iff.mpr ⟨decide_eq_true hkind, ?_⟩
    rw [if_pos hphase, List.any_eq_true]
    exact ⟨u, hu, by simp [htask, hprogress, htext]⟩
  rw [h] at hfolded
  cases hfolded

theorem folded_of_coalesced {row : TaskRow} {data : Json} {now : Time}
    (h : coalesced env row kind data now db = true) : Folded env db row.task kind data := by
  refine ⟨coalesced_progress h, fun hphase => ?_⟩
  have hany := (Bool.and_eq_true_iff.mp h).2
  rw [if_pos hphase, List.any_eq_true] at hany
  obtain ⟨u, hu, hcond⟩ := hany
  simp only [Bool.and_eq_true, decide_eq_true_eq, and_assoc] at hcond
  exact ⟨u, hu, hcond⟩

/-- An update on the way: progress, settings or usage. -/
structure NotedTurn (env : Env) (db db' : Db) (t : ConversationTask) (c : AgentConversation)
    (lease updateId : Uuid) (ordinal : Int) (kind : UpdateKind) (request : Json) (now : Time) :
    Prop
    extends NewUpdate env db db' t c lease updateId ordinal request
      (updateAcknowledgement t.taskId updateId ordinal) now where
  kind_eq : ∃ name, request["kind"] = Json.str name ∧ UpdateKind.ofStr name = kind
  onTheWay : kind.terminal = false
  notLast : ordinal ≠ maxSafeInteger
  events : db'.roomEvents = db.roomEvents
  noted : ∃ effectiveSettings usage updatedAt lastProgressAt,
    NotedMetadata t kind request["data"] effectiveSettings usage ∧
    TurnChange db db' t
      { notedTask t effectiveSettings usage updatedAt lastProgressAt with
        lastUpdateOrdinal := ordinal } c c
  updates : (Folded env db t kind request["data"] ∧
      db'.conversationUpdates.rows = db.conversationUpdates.rows) ∨
    FirstAcceptance env db t kind request["data"] ∧
      db'.conversationUpdates.rows = keptUpdates env t.taskId kind db.conversationUpdates.rows ++
        [updateRow t.roomId t updateId ordinal kind now request["data"]]
  disclosures : db'.conversationDisclosures = db.conversationDisclosures

theorem NotedTurn.change {t : ConversationTask} {c : AgentConversation} {lease updateId : Uuid}
    {ordinal : Int} {request : Json} {now : Time}
    (h : NotedTurn env db db' t c lease updateId ordinal kind request now) :
    ∃ effectiveSettings usage updatedAt lastProgressAt,
      TurnChange db db' t
        { notedTask t effectiveSettings usage updatedAt lastProgressAt with
          lastUpdateOrdinal := ordinal } c c := by
  obtain ⟨settings, usage, updatedAt, lastProgressAt, -, hchange⟩ := h.noted
  exact ⟨settings, usage, updatedAt, lastProgressAt, hchange⟩

theorem UpdateKind.ofStr_eq_completed {name : String}
    (h : UpdateKind.ofStr name = .completed) : name = "completed" := by
  unfold UpdateKind.ofStr at h
  split_ifs at h with h1 h2 h3 h4
  exact h4

theorem UpdateKind.ofStr_eq_failed {name : String}
    (h : UpdateKind.ofStr name = .failed) : name = "failed" := by
  unfold UpdateKind.ofStr at h
  split_ifs at h with h1 h2 h3 h4 h5
  exact h5

/-- The three ways an update that was not seen before can go. -/
inductive UpdateEffect (env : Env) (db db' : Db) (t : ConversationTask) (c : AgentConversation)
    (lease updateId : Uuid) (request : Json) (txNow now : Time) (eventId : Uuid) :
    ConversationUpdateOutcome → Prop where
  | completed {ordinal reply text}
      (h : CompletedTurn env db db' t c lease updateId ordinal request now eventId reply text) :
      UpdateEffect env db db' t c lease updateId request txNow now eventId
        ⟨acknowledgement env t reply text, some reply⟩
  | failed {ordinal error}
      (h : ReportedFailure env db db' t c lease updateId ordinal request txNow now error) :
      UpdateEffect env db db' t c lease updateId request txNow now eventId
        ⟨updateAcknowledgement t.taskId updateId ordinal, none⟩
  | noted {ordinal kind}
      (h : NotedTurn env db db' t c lease updateId ordinal kind request now) :
      UpdateEffect env db db' t c lease updateId request txNow now eventId
        ⟨updateAcknowledgement t.taskId updateId ordinal, none⟩

section NewUpdate

variable {policy : ConversationPolicy} {row : TaskRow} {c : AgentConversation}
  {lease updateId : Uuid} {request : Json} {txNow : Time} {clock : Nat → Time} {fresh : Uuid}
  {outcome : ConversationUpdateOutcome}

theorem applyNewUpdate_ok (hjoined : Joined db row.task c) (hunder : UnderWay row.task c)
    (hlease : row.task.leaseToken = some lease)
    (hvalid : validateProfileValue env .update request = .ok ())
    (hnamed : uuidField request "updateId" = .ok updateId)
    (h : (applyNewUpdate env policy row.task.roomId row lease updateId request txNow clock
      fresh).exec db = .ok (outcome, db')) :
    UpdateEffect env db db' row.task c lease updateId request txNow (clock 5) fresh outcome := by
  simp only [applyNewUpdate, setLastOrdinal, Prog.exec_bind_ok, Prog.exec_orFail_ok,
    Prog.exec_ensure_ok, Prog.exec_ofExcept_ok, Prog.exec_execute_ok, Prog.exec_pure_ok,
    Option.map_eq_some_iff] at h
  obtain ⟨ordinal, _, ⟨hordinal, rfl⟩, _, _, ⟨hlater, rfl⟩, kind, _,
    ⟨⟨name, hname, hkind⟩, rfl⟩, _, _, ⟨hlast', rfl⟩, _, _, ⟨-, rfl⟩, outcome', db1, hdo, _, db2,
    hretain, _, db3, hlast, _, db4, hrequest, _, _, ⟨hauthority, rfl⟩, rfl, rfl⟩ := h
  have hlater : row.task.lastUpdateOrdinal < ordinal := by simpa using hlater
  have hname := Json.eq_str_of_asStr hname
  obtain ⟨ts', hts', rfl⟩ := Db.updateConversationTasks_some hlast
  obtain ⟨rs, hrs, -, rfl⟩ := Db.insertConversationUpdateRequest_some hrequest
  by_cases hcompleted : kind = .completed
  · subst hcompleted
    rw [performUpdate, if_pos rfl] at hdo
    simp only [Prog.exec_bind_ok, Prog.exec_pure_ok] at hdo
    obtain ⟨⟨ack, reply⟩, _, hcomplete, rfl, rfl⟩ := hdo
    obtain ⟨text, es, ts, cs, ds, htext, rfl, happended, rfl, hchecked, hchange⟩ :=
      completeTask_ok hjoined hcomplete
    obtain ⟨hfolded, -⟩ | ⟨-, us, hus, hdb2⟩ := retainUpdate_ok hretain
    · cases coalesced_progress hfolded
    obtain ⟨-, rfl⟩ | ⟨hprogress, -⟩ := hdb2
    · refine .completed (?_ : CompletedTurn env db _ row.task c lease updateId ordinal request
        (clock 5) fresh reply text)
      refine ⟨⟨hunder, hlease, hvalid, hnamed, hordinal, hlater, hrs, rfl, rfl, rfl, rfl⟩, ?_,
        htext, happended, ⟨hjoined, ?_, hchange.conversations⟩, ?_, policy,
        taskAuthority_policy hauthority, hchecked.result, hchecked.event, hchecked.ack,
        hchecked.short, hchecked.cited, hchecked.disclosed⟩
      · rw [hname, UpdateKind.ofStr_eq_completed hkind]
      · change ts'.rows = _
        rw [hts', show _ = _ from hchange.tasks, alter_put_tasks (by simp)]
        simp [alter, completedTask]
      · change us.rows = _
        rw [hus]
        exact congrArg (· ++ _) (keptUpdates_terminal rfl _)
    · cases hprogress
  · rw [performUpdate, if_neg hcompleted] at hdo
    simp only [Prog.exec_bind_ok, Prog.exec_pure_ok] at hdo
    obtain ⟨_, _, happly, rfl, rfl⟩ := hdo
    obtain ⟨rfl, error, ts, cs, hcode, rfl, hchange⟩ | ⟨hfailed, ts, settings, usage, updatedAt,
      hmetadata, rfl, hts⟩ := applyUpdate_ok hjoined happly
    · obtain ⟨hfolded, -⟩ | ⟨-, us, hus, hdb2⟩ := retainUpdate_ok hretain
      · cases coalesced_progress hfolded
      obtain ⟨-, rfl⟩ | ⟨hprogress, -⟩ := hdb2
      · refine .failed
          (?_ : ReportedFailure env db _ row.task c lease updateId ordinal request txNow
          (clock 5) error)
        refine ⟨⟨hunder, hlease, hvalid, hnamed, hordinal, hlater, hrs, rfl, rfl, rfl, rfl⟩, ?_,
          hcode, rfl, ⟨hjoined, ?_, hchange.conversations⟩, ?_, rfl⟩
        · rw [hname, UpdateKind.ofStr_eq_failed hkind]
        · change ts'.rows = _
          rw [hts', show _ = _ from hchange.tasks, alter_put_tasks (by simp)]
          simp [alter]
        · change us.rows = _
          rw [hus]
          exact congrArg (· ++ _) (keptUpdates_terminal rfl _)
      · cases hprogress
    · have hway : kind.terminal = false := by
        cases kind <;> simp_all [UpdateKind.terminal]
      have hnotLast : ordinal ≠ maxSafeInteger := by simpa [hway] using hlast'
      have hname : ∃ name, request["kind"] = Json.str name ∧ UpdateKind.ofStr name = kind :=
        ⟨name, hname, hkind⟩
      have hnoted : ∀ (lastProgressAt : Option Time) (db2 : Db)
          (hupdates : (Folded env db row.task kind request["data"] ∧
              db2.conversationUpdates.rows = db.conversationUpdates.rows) ∨
            FirstAcceptance env db row.task kind request["data"] ∧
              db2.conversationUpdates.rows =
                keptUpdates env row.task.taskId kind db.conversationUpdates.rows ++
                  [updateRow row.task.roomId row.task updateId ordinal kind (clock 5)
                    request["data"]])
          (hconvs : db2.agentConversations = db.agentConversations)
          (hdisclosures : db2.conversationDisclosures = db.conversationDisclosures)
          (hevents : db2.roomEvents = db.roomEvents) (hrooms : SameRoomTables db db2)
          (hrequests : db2.conversationUpdateRequests.rows =
            db.conversationUpdateRequests.rows ++
              [requestRow row.task.roomId row.task updateId ordinal request
                (updateAcknowledgement row.task.taskId updateId ordinal) (clock 5)])
          (htasks : db2.conversationTasks.rows = put (taskIs row.task.taskId)
            { notedTask row.task settings usage updatedAt lastProgressAt with
              lastUpdateOrdinal := ordinal } db.conversationTasks.rows),
          NotedTurn env db db2 row.task c lease updateId ordinal kind request (clock 5) := by
        intro lastProgressAt db2 hupdates hconvs hdisclosures hevents hrooms hrequests htasks
        refine ⟨⟨hunder, hlease, hvalid, hnamed, hordinal, hlater, hrequests, hrooms⟩, hname, hway,
          hnotLast, hevents, ⟨settings, usage, updatedAt, lastProgressAt, hmetadata, hjoined,
            htasks, ?_⟩, hupdates, hdisclosures⟩
        rw [hconvs, hjoined.put_conversations]
      obtain ⟨hfold, rfl⟩ | ⟨hfirst, us, hus, ⟨-, rfl⟩ | ⟨-, ts2, hts2, rfl⟩⟩ :=
        retainUpdate_ok hretain
      · have hfolded : Folded env db row.task kind request["data"] := folded_of_coalesced hfold
        refine .noted (hnoted row.task.lastProgressAt _ (.inl ⟨hfolded, rfl⟩) rfl rfl rfl
          ⟨rfl, rfl, rfl, rfl⟩ hrs ?_)
        change ts'.rows = _
        rw [hts', show _ = _ from hts, alter_put_tasks (by simp)]
        simp [alter, notedTask]
      · refine .noted (hnoted row.task.lastProgressAt _
          (.inr ⟨firstAcceptance_of_not_coalesced hfirst, hus⟩) rfl rfl rfl
          ⟨rfl, rfl, rfl, rfl⟩ hrs ?_)
        change ts'.rows = _
        rw [hts', show _ = _ from hts, alter_put_tasks (by simp)]
        simp [alter, notedTask]
      · refine .noted (hnoted (some (pgTime (clock 5))) _
          (.inr ⟨firstAcceptance_of_not_coalesced hfirst, hus⟩) rfl rfl rfl
          ⟨rfl, rfl, rfl, rfl⟩ hrs ?_)
        change ts'.rows = _
        rw [hts', show _ = _ from hts2, show _ = _ from hts, alter_put_tasks (by simp),
          alter_put_tasks (by simp)]
        simp [alter, notedTask]

/-- A repeated update is answered only if it is the request that was recorded. -/
theorem replayUpdate_ok {prior : ConversationUpdateRequest}
    (h : replayUpdate policy row lease prior request clock = .ok outcome) :
    prior.request = request ∧ outcome = ⟨prior.response, none⟩ := by
  have hmap : ∀ {x : Except ConversationError Unit},
      (x.map fun _ => (⟨prior.response, none⟩ : ConversationUpdateOutcome)) = .ok outcome →
        outcome = ⟨prior.response, none⟩ := by
    intro x hx
    cases x with
    | error e => cases hx
    | ok _ => exact (Except.ok.inj hx).symm
  unfold replayUpdate at h
  split_ifs at h with hrequest
  · exact ⟨not_not.mp hrequest, hmap h⟩
  · exact ⟨not_not.mp hrequest, hmap h⟩

theorem recordUpdate_ok {task : Uuid} {ending : Ending ConversationError ConversationUpdateOutcome}
    (h : (recordUpdate env policy task lease request txNow clock fresh).exec db =
      .ok (ending, db')) :
    ∃ row c, joinedTask db task = some row ∧ Joined db row.task c ∧
      row.conversationState = c.state ∧ row.task.leaseToken = some lease ∧
      ∃ updateId, uuidField request "updateId" = .ok updateId ∧
        ((∃ prior outcome, ending = .rollback outcome ∧ db = db' ∧
            (db.conversationUpdateRequests.rows.find? fun u =>
              u.taskId = task && u.updateId = updateId) = some prior ∧
            replayUpdate policy row lease prior request clock = .ok outcome) ∨
          (db.conversationUpdateRequests.rows.find? fun u =>
              u.taskId = task && u.updateId = updateId) = none ∧
            ((∃ error, ending = .commit (.error error) ∧ row.task.state.live = true ∧
              FailedTurn db db' row.task c error txNow fresh) ∨
            ∃ outcome, ending = .commit (.ok outcome) ∧
              UpdateEffect env db db' row.task c lease updateId request txNow (clock 5) fresh
                outcome)) := by
  simp only [recordUpdate, Prog.exec_bind_ok, Prog.exec_ofExcept_ok, Prog.exec_ensure_ok,
    Prog.exec_query_ok, Prog.exec_orFail_ok] at h
  obtain ⟨_, _, ⟨hvalid, rfl⟩, _, _, ⟨-, rfl⟩, _, _, ⟨hquery, rfl⟩, found, _,
    ⟨hseen, rfl⟩, _, _, hlock,
    row, _, hrow, _, _, ⟨-, rfl⟩, _, _, ⟨-, rfl⟩, _, _, ⟨hlease, rfl⟩, updateId, _,
      ⟨hupdateId, rfl⟩,
    prior, _, ⟨hprior, rfl⟩, h⟩ := h
  obtain rfl := lockRoom_ok hlock
  obtain ⟨hfound, rfl⟩ := taskInTransaction_ok hrow
  obtain ⟨c, hjoined, -, -, hstate, hactive⟩ := joinedTask_some hfound
  -- the room that is locked is the task's
  have hsame : found = row.task := by
    rw [← hquery, findTask_of_joinedTask hfound] at hseen
    exact (Option.some.inj hseen).symm
  subst hsame
  have hlease : row.task.leaseToken = some lease := by simpa using hlease
  refine ⟨row, c, hfound, hjoined, hstate, hlease, updateId, hupdateId, ?_⟩
  cases prior with
  | some prior =>
      simp only [Prog.exec_bind_ok, Prog.exec_ofExcept_ok, Prog.exec_pure_ok] at h
      obtain ⟨outcome, _, ⟨hreplay, rfl⟩, rfl, rfl⟩ := h
      exact .inl ⟨prior, outcome, rfl, rfl, hprior, hreplay⟩
  | none =>
      cases hauth : taskAuthority policy row (some lease) false (clock 4) with
      | error error =>
          simp only [hauth, Prog.exec_ite] at h
          by_cases hlive : row.task.state.live = true
          · rw [if_pos hlive] at h
            simp only [Prog.exec_bind_ok, Prog.exec_pure_ok] at h
            obtain ⟨_, _, hfail, rfl, rfl⟩ := h
            exact .inr ⟨hprior, .inl ⟨error, rfl, hlive, failTask_ok hjoined hfail⟩⟩
          · rw [if_neg hlive] at h
            simp [Prog.exec] at h
      | ok _ =>
          simp only [hauth, Prog.exec_bind_ok, Prog.exec_pure_ok] at h
          obtain ⟨outcome, _, hnew, rfl, rfl⟩ := h
          exact .inr ⟨hprior, .inr ⟨outcome, rfl,
            applyNewUpdate_ok hjoined (taskAuthority_underWay hauth hstate hactive) hlease hvalid
              hupdateId hnew⟩⟩

end NewUpdate

end RoomGateway
