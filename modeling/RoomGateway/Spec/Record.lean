import RoomGateway.Lib.Schema
import RoomGateway.Spec.Turns

/-!
The retained updates of a task are its record: while the task is under way none
of them ends it, and once it has ended exactly one does, the last. A claim that
resumes on a task that ended meanwhile adds a second one, so this holds of the
runs without such a claim.
-/

namespace RoomGateway

open Table

/-- The retained updates of a task. -/
def Db.updatesOf (db : Db) (task : Uuid) : List ConversationUpdate :=
  db.conversationUpdates.rows.filter (·.taskId = task)

/-- The updates of a task that end it. -/
def Db.endingsOf (db : Db) (task : Uuid) : List ConversationUpdate :=
  (db.updatesOf task).filter (·.kind.terminal)

/-- The row says how the task ended. -/
inductive Agrees (t : ConversationTask) (u : ConversationUpdate) : Prop where
  | completed (state : t.state = .completed) (kind : u.kind = .completed)
      (result : t.result = some u.data)
  | failed {failure : Json} (state : t.state = .failed) (kind : u.kind = .failed)
      (stored : t.failure = some failure) (code : failure["code"] = u.data["code"])

theorem Agrees.terminal {t : ConversationTask} {u : ConversationUpdate} (h : Agrees t u) :
    u.kind.terminal = true ∧ t.state.live = false := by
  cases h with
  | completed state kind => exact ⟨by rw [kind]; rfl, by rw [state]; rfl⟩
  | failed state kind => exact ⟨by rw [kind]; rfl, by rw [state]; rfl⟩

/-- The record of a task fits its state. -/
structure Recorded (db : Db) (t : ConversationTask) : Prop where
  live : t.state.live = true → db.endingsOf t.taskId = []
  ended : t.state.live = false → ∃ u, db.endingsOf t.taskId = [u] ∧ Agrees t u ∧
    ∀ v ∈ db.updatesOf t.taskId, v.ordinal ≤ u.ordinal

/-- A task that has ended, and its record, are the same in both states. -/
def EndedUnchanged (db db' : Db) : Prop := ∀ t ∈ db.conversationTasks.rows,
  t.state.live = false →
    t ∈ db'.conversationTasks.rows ∧ db'.updatesOf t.taskId = db.updatesOf t.taskId

/-! ### Steps on a record -/

/-- How an update changes a task that is under way. -/
inductive RecordChange (t t' : ConversationTask) (before after : List ConversationUpdate) :
    Prop where
  | ended {u} (rows : after = before ++ [u]) (agrees : Agrees t' u)
      (later : t.lastUpdateOrdinal < u.ordinal) (last : t'.lastUpdateOrdinal = u.ordinal)
  | onTheWay (live : t'.state.live = true) (last : t.lastUpdateOrdinal ≤ t'.lastUpdateOrdinal)
      (rows : ∀ u ∈ after, u ∈ before ∨
        (u.kind.terminal = false ∧ u.ordinal ≤ t'.lastUpdateOrdinal))

/-- What a step does to the tasks and their records. -/
inductive RecordStep (db db' : Db) : Prop where
  | same (tasks : db'.conversationTasks.rows = db.conversationTasks.rows)
      (updates : db'.conversationUpdates.rows = db.conversationUpdates.rows)
  | reserved {t} (tasks : db'.conversationTasks.rows = db.conversationTasks.rows ++ [t])
      (live : t.state.live = true) (unused : ∀ x ∈ db.conversationTasks.rows, x.taskId ≠ t.taskId)
      (updates : db'.conversationUpdates.rows = db.conversationUpdates.rows)
  | changed {t t'} (mem : t ∈ db.conversationTasks.rows) (live : t.state.live = true)
      (tasks : ∀ x, x ∈ db'.conversationTasks.rows ↔
        x = t' ∨ (x ∈ db.conversationTasks.rows ∧ x.taskId ≠ t.taskId))
      (id : t'.taskId = t.taskId)
      (others : ∀ id, id ≠ t.taskId → db'.updatesOf id = db.updatesOf id)
      (record : RecordChange t t' (db.updatesOf t.taskId) (db'.updatesOf t.taskId))

section Steps

variable {env : Env} {db db' : Db} {t t' : ConversationTask} {c c' : AgentConversation}

theorem Db.updatesOf_congr
    (h : db'.conversationUpdates.rows = db.conversationUpdates.rows) (id : Uuid) :
    db'.updatesOf id = db.updatesOf id := by
  rw [Db.updatesOf, Db.updatesOf, h]

/-- An update was added beside those that were kept. -/
theorem Db.updatesOf_append {kept : List ConversationUpdate} {u : ConversationUpdate}
    (h : db'.conversationUpdates.rows = kept ++ [u]) (id : Uuid) :
    db'.updatesOf id = kept.filter (·.taskId = id) ++ if u.taskId = id then [u] else [] := by
  rw [Db.updatesOf, h, List.filter_append]
  congr 1
  by_cases hid : u.taskId = id <;> simp [hid]

@[simp] theorem updateRow_taskId (room updateId : Uuid) (ordinal : Int) (kind : UpdateKind)
    (occurredAt : Time) (data : Json) :
    (updateRow room t updateId ordinal kind occurredAt data).taskId = t.taskId := rfl

/-- An update that ends a task that is under way. -/
theorem RecordStep.of_ended {u : ConversationUpdate} (change : TurnChange db db' t t' c c')
    (live : t.state.live = true) (id : t'.taskId = t.taskId) (hid : u.taskId = t.taskId)
    (updates : db'.conversationUpdates.rows = db.conversationUpdates.rows ++ [u])
    (agrees : Agrees t' u) (later : t.lastUpdateOrdinal < u.ordinal)
    (last : t'.lastUpdateOrdinal = u.ordinal) : RecordStep db db' := by
  refine .changed change.task live (fun x => change.mem_tasks) id ?_ (.ended ?_ agrees later last)
  · intro other hne
    rw [Db.updatesOf_append updates, if_neg (by rw [hid]; exact hne.symm), List.append_nil]
    rfl
  · rw [Db.updatesOf_append updates, if_pos hid]
    rfl

theorem endedTask_failure {error : ConversationError} {txNow : Time}
    (h : t.state.live = true) : (endedTask error txNow t).failure =
      some (.obj [("code", error.code), ("message", error.code)]) := by
  rw [endedTask, if_pos h]

theorem FailedTurn.recordStep {error : ConversationError} {txNow : Time} {updateId : Uuid}
    (live : t.state.live = true) (h : FailedTurn db db' t c error txNow updateId) :
    RecordStep db db' := by
  refine .of_ended h.change live (endedTask_taskId ..) rfl h.updates ?_ (Int.lt_succ _) rfl
  exact .failed (endedTask_state live) rfl (endedTask_failure live) (by simp [updateRow])

theorem ReportedFailure.recordStep {lease updateId : Uuid} {ordinal : Int} {request : Json}
    {txNow now : Time} {error : ConversationError}
    (h : ReportedFailure env db db' t c lease updateId ordinal request txNow now error) :
    RecordStep db db' := by
  have live := h.underWay.live
  refine .of_ended h.change live (endedTask_taskId ..) rfl h.updates ?_ h.later rfl
  refine .failed (endedTask_state live) rfl (endedTask_failure live) ?_
  rw [updateRow, h.code]
  simp

theorem NotedTurn.recordStep {lease updateId : Uuid} {ordinal : Int} {kind : UpdateKind}
    {request : Json} {now : Time}
    (h : NotedTurn env db db' t c lease updateId ordinal kind request now) :
    RecordStep db db' := by
  obtain ⟨settings, usage, updatedAt, lastProgressAt, change⟩ := h.change
  refine .changed change.task h.underWay.live (fun x => change.mem_tasks) rfl ?_
    (.onTheWay h.underWay.live h.later.le ?_)
  · intro other hne
    rcases h.updates with ⟨-, hupdates⟩ | ⟨-, hupdates⟩
    · exact Db.updatesOf_congr hupdates other
    · rw [Db.updatesOf_append hupdates, updateRow_taskId, if_neg hne.symm, List.append_nil,
        keptUpdates, List.filter_filter, Db.updatesOf]
      apply List.filter_congr
      intro u _
      by_cases hu : u.taskId = other
      · simp [replaced, hu, hne]
      · simp [hu]
  · intro u hu
    rcases h.updates with ⟨-, hupdates⟩ | ⟨-, hupdates⟩
    · exact .inl (Db.updatesOf_congr hupdates _ ▸ hu)
    · rw [Db.updatesOf_append hupdates, List.mem_append] at hu
      rcases hu with hu | hu
      · obtain ⟨hu, hid⟩ := List.mem_filter.mp hu
        exact .inl (List.mem_filter.mpr ⟨(List.mem_filter.mp hu).1, hid⟩)
      · rw [updateRow_taskId, if_pos rfl, List.mem_singleton] at hu
        subst hu
        exact .inr ⟨h.onTheWay, le_rfl⟩

/-- Every step but a stale claim leaves the ended tasks and their records
alone. -/
theorem Effect.recordStep {stale update : Prop} (hstale : ¬ stale)
    (h : Effect env stale update db db') :
    RecordStep db db' := by
  cases h with
  | quiet h => exact .same (by rw [h.tasks]) (by rw [h.updates])
  | reserved h =>
      refine .reserved h.tasks (by rw [h.task_state]; rfl) h.unused ?_
      obtain ⟨_, _, _, _, rfl⟩ := h.frame
      rfl
  | claimed h =>
      have hupdates : db'.conversationUpdates.rows = db.conversationUpdates.rows := by
        obtain ⟨_, _, rfl⟩ := h.frame
        rfl
      refine .changed h.change.task h.underWay.live (fun x => h.change.mem_tasks) rfl
        (fun id _ => Db.updatesOf_congr hupdates id) (.onTheWay rfl le_rfl ?_)
      intro u hu
      exact .inl (Db.updatesOf_congr hupdates _ ▸ hu)
  | completed _ h =>
      exact .of_ended h.change h.underWay.live rfl rfl h.updates
        (.completed rfl rfl rfl) h.later rfl
  | reported _ h => exact h.recordStep
  | noted _ h => exact h.recordStep
  | failed live h => exact h.recordStep live
  | staleFailed h => exact absurd h hstale

end Steps

/-! ### Runs -/

/-- Every task has a fitting record, under ordinals it has passed. -/
structure Records (db : Db) : Prop where
  recorded : ∀ t ∈ db.conversationTasks.rows, Recorded db t
  passed : ∀ t ∈ db.conversationTasks.rows, ∀ u ∈ db.updatesOf t.taskId,
    u.ordinal ≤ t.lastUpdateOrdinal
  unknown : ∀ id, (∀ t ∈ db.conversationTasks.rows, t.taskId ≠ id) → db.updatesOf id = []

section Runs

variable {db db' : Db} {t t' : ConversationTask}

theorem Recorded.congr (h : Recorded db t) (heq : db'.updatesOf t.taskId = db.updatesOf t.taskId) :
    Recorded db' t := by
  have hendings : db'.endingsOf t.taskId = db.endingsOf t.taskId := by
    rw [Db.endingsOf, heq, Db.endingsOf]
  exact ⟨fun hlive => hendings ▸ h.live hlive, fun hended => hendings ▸ heq ▸ h.ended hended⟩

/-- The change to a record keeps to the ordinals its task has passed. -/
theorem RecordChange.passed {before after : List ConversationUpdate}
    (change : RecordChange t t' before after)
    (passed : ∀ u ∈ before, u.ordinal ≤ t.lastUpdateOrdinal) :
    ∀ u ∈ after, u.ordinal ≤ t'.lastUpdateOrdinal := by
  intro v hv
  cases change with
  | @ended u rows agrees later last =>
      rw [rows, List.mem_append, List.mem_singleton] at hv
      rcases hv with hv | rfl
      · exact last ▸ (passed v hv).trans later.le
      · exact last.ge
  | onTheWay live last rows =>
      rcases rows v hv with hv | ⟨-, hle⟩
      · exact (passed v hv).trans last
      · exact hle

/-- A change to the record of a task that was under way: it ends the task with one
row, or it has no row that ends it. -/
theorem RecordChange.endings {before after : List ConversationUpdate}
    (change : RecordChange t t' before after) (hnone : before.filter (·.kind.terminal) = []) :
    (∃ u, after.filter (·.kind.terminal) = [u] ∧ Agrees t' u ∧
      t'.lastUpdateOrdinal = u.ordinal) ∨
    (t'.state.live = true ∧ after.filter (·.kind.terminal) = []) := by
  cases change with
  | @ended u rows agrees later last =>
      refine .inl ⟨u, ?_, agrees, last⟩
      rw [rows, List.filter_append, hnone]
      simp [agrees.terminal.1]
  | onTheWay live last rows =>
      refine .inr ⟨live, List.filter_eq_nil_iff.mpr fun u hu => ?_⟩
      rcases rows u hu with hu | ⟨hkind, -⟩
      · exact List.filter_eq_nil_iff.mp hnone u hu
      · simp [hkind]

theorem RecordChange.recorded (h : Recorded db t) (live : t.state.live = true)
    (id : t'.taskId = t.taskId)
    (passed : ∀ u ∈ db.updatesOf t.taskId, u.ordinal ≤ t.lastUpdateOrdinal)
    (change : RecordChange t t' (db.updatesOf t.taskId) (db'.updatesOf t.taskId)) :
    Recorded db' t' := by
  have hpassed := change.passed passed
  rcases change.endings (h.live live) with ⟨u, hone, agrees, last⟩ | ⟨live', hnone⟩
  · refine ⟨fun hlive => ?_, fun _ => ⟨u, ?_, agrees, id ▸ last ▸ hpassed⟩⟩
    · rw [agrees.terminal.2] at hlive
      cases hlive
    · rw [Db.endingsOf, id, hone]
  · refine ⟨fun _ => ?_, fun hended => ?_⟩
    · rw [Db.endingsOf, id, hnone]
    · rw [live'] at hended
      cases hended

/-- A step keeps the updates to the tasks there are, under ordinals they have passed. -/
theorem RecordStep.placed (hstep : RecordStep db db')
    (passed : ∀ t ∈ db.conversationTasks.rows, ∀ u ∈ db.updatesOf t.taskId,
      u.ordinal ≤ t.lastUpdateOrdinal)
    (unknown : ∀ id, (∀ t ∈ db.conversationTasks.rows, t.taskId ≠ id) → db.updatesOf id = []) :
    (∀ t ∈ db'.conversationTasks.rows, ∀ u ∈ db'.updatesOf t.taskId,
      u.ordinal ≤ t.lastUpdateOrdinal) ∧
    ∀ id, (∀ t ∈ db'.conversationTasks.rows, t.taskId ≠ id) → db'.updatesOf id = [] := by
  cases hstep with
  | same tasks updates =>
      have heq := Db.updatesOf_congr updates
      exact ⟨fun t ht => heq t.taskId ▸ passed t (tasks ▸ ht),
        fun id hid => heq id ▸ unknown id (tasks ▸ hid)⟩
  | @reserved new tasks live unused updates =>
      have heq := Db.updatesOf_congr updates
      refine ⟨fun t ht => ?_, fun id hid => ?_⟩
      · rw [tasks, List.mem_append, List.mem_singleton] at ht
        rcases ht with ht | rfl
        · exact heq t.taskId ▸ passed t ht
        · simp [heq, unknown t.taskId unused]
      · refine heq id ▸ unknown id fun t ht => hid t ?_
        rw [tasks]
        exact List.mem_append_left _ ht
  | @changed t t' mem live tasks id others record =>
      refine ⟨fun x hx => ?_, fun other hother => ?_⟩
      · rcases (tasks x).mp hx with rfl | ⟨hx, hne⟩
        · exact id ▸ record.passed (passed t mem)
        · exact others _ hne ▸ passed x hx
      · have hne : other ≠ t.taskId := by
          rintro rfl
          exact hother t' ((tasks t').mpr (.inl rfl)) id
        rw [others other hne]
        refine unknown other fun x hx hid => ?_
        exact hother x ((tasks x).mpr (.inr ⟨hx, fun hxt => hne (hid.symm.trans hxt)⟩)) hid

theorem Records.init : Records {} where
  recorded := by simp
  passed := by simp
  unknown := fun _ _ => rfl

theorem Records.step (h : Records db) (hstep : RecordStep db db') : Records db' := by
  obtain ⟨hpassed, hunknown⟩ := hstep.placed h.passed h.unknown
  refine ⟨fun t ht => ?_, hpassed, hunknown⟩
  cases hstep with
  | same tasks updates => exact (h.recorded t (tasks ▸ ht)).congr (Db.updatesOf_congr updates _)
  | @reserved new tasks live unused updates =>
      have heq := Db.updatesOf_congr updates
      rw [tasks, List.mem_append, List.mem_singleton] at ht
      rcases ht with ht | rfl
      · exact (h.recorded t ht).congr (heq _)
      · -- a task nobody knew has no updates yet
        refine ⟨fun _ => by simp [Db.endingsOf, heq, h.unknown t.taskId unused], fun hended => ?_⟩
        rw [live] at hended
        cases hended
  | @changed old new mem live tasks id others record =>
      rcases (tasks t).mp ht with rfl | ⟨ht, hne⟩
      · exact record.recorded (h.recorded old mem) live id (h.passed old mem)
      · exact (h.recorded t ht).congr (others _ hne)

theorem RecordStep.endedUnchanged (hstep : RecordStep db db') : EndedUnchanged db db' := by
  intro t ht hended
  cases hstep with
  | same tasks updates => exact ⟨tasks ▸ ht, Db.updatesOf_congr updates _⟩
  | reserved tasks _ _ updates =>
      exact ⟨tasks ▸ List.mem_append_left _ ht, Db.updatesOf_congr updates _⟩
  | @changed u u' mem live tasks id others record =>
      have hne : t.taskId ≠ u.taskId := by
        intro hid
        rw [Db.task_unique ht mem hid, live] at hended
        cases hended
      exact ⟨(tasks t).mpr (.inr ⟨ht, hne⟩), others _ hne⟩

theorem EndedUnchanged.trans {a b c : Db} (hab : EndedUnchanged a b) (hbc : EndedUnchanged b c) :
    EndedUnchanged a c := by
  intro t ht hended
  obtain ⟨htb, hb⟩ := hab t ht hended
  obtain ⟨htc, hc⟩ := hbc t htb hended
  exact ⟨htc, hc.trans hb⟩

end Runs

section Gateway

variable (env : Env)

theorem gateway_recordStep {s : Sys} {op : Op} (h : ¬ staleClaim s op = true) :
    RecordStep s.db ((gateway env).next s op).db :=
  (gateway_effect s op).recordStep h

theorem gateway_records {ops : List Op}
    (h : (gateway env).Guarded (fun s op => ¬ staleClaim s op = true) (gateway env).init ops) :
    Records ((gateway env).run ops).db :=
  Machine.runFrom_invariant_of_guard (P := fun s : Sys => Records s.db)
    (fun _ _ hguard hs => hs.step (gateway_recordStep env hguard)) Records.init h

/-- Without stale claims a task ends once, its record says how, and neither
changes afterwards. -/
theorem task_ends_once (first second : List Op)
    (h : (gateway env).Guarded (fun s op => ¬ staleClaim s op = true) (gateway env).init
      (first ++ second)) :
    (∀ t ∈ ((gateway env).run first).db.conversationTasks.rows,
      Recorded ((gateway env).run first).db t) ∧
    EndedUnchanged ((gateway env).run first).db ((gateway env).run (first ++ second)).db := by
  obtain ⟨hfirst, hsecond⟩ := Machine.guarded_append.mp h
  refine ⟨(gateway_records env hfirst).recorded, ?_⟩
  rw [Machine.run_append]
  exact Machine.runFrom_trans (R := fun a b : Sys => EndedUnchanged a.db b.db)
    (P := fun _ => True) (fun _ _ ht _ => ⟨ht, rfl⟩) (fun _ _ _ => EndedUnchanged.trans)
    (fun _ _ _ _ => trivial) (fun _ _ hguard _ => (gateway_recordStep env hguard).endedUnchanged)
    trivial hsecond

end Gateway

/-! ### A claim that comes late

One turn of a sample room, whose worker lets the deadline pass: the worker asks
for its packet again while another claim waits for the room. The timeouts are
those of the default policy. -/

/-- The texts of the instants that the sample runs render. -/
def sampleTimes : List (Time × String) :=
  [(seconds 0, "1970-01-01T00:00:00Z"), (seconds 100, "1970-01-01T00:01:40Z"),
    (seconds 280, "1970-01-01T00:04:40Z"), (seconds 285, "1970-01-01T00:04:45Z"),
    (seconds 1000, "1970-01-01T00:16:40Z")]

/-- The values of the sample runs are valid, and the one text they hash is the
canonical context of the sample turn. -/
def sampleEnv : Env where
  profileValid _ _ := true
  roomEventValid _ := true
  sha256Hex _ := "70f4e256944e8050fd6f34256cfa7f86a8946271a505b8977668a6d452655020"
  rfc3339 t := (sampleTimes.lookup t).getD ""
  parseRfc3339 text := (sampleTimes.find? (·.2 = text)).map (·.1)
  jsonbText value := String.ofList (compact value)
  nfkd text := text.toList
  toLowercase c := [c.toLower]
  parseUrl _ := none

def sampleFormats : Formats where
  whole _ := none
  dateTime text := sampleTimes.any (·.2 = text)
  uri _ := false

def samplePolicy : ConversationPolicy where
  enabled := true
  policyRevision := "p1"
  guidanceRevision := "g1"
  catalogRevision := "c1"
  model := "m1"
  reasoningEffort := "low"
  models := [⟨"m1", ["low"]⟩]

def sampleActor : Actor := ⟨7, .human, "Maya Chen", 1000⟩

def sampleRequest : Json :=
  .obj [("agentId", codexAgentId),
    ("mentions", .arr [.obj [("id", codexAgentId), ("token", "codex-agent"),
      ("type", "participant")]]),
    ("occurredAt", "1970-01-01T00:00:00Z"), ("profileVersion", profileVersion),
    ("requestId", (5 : Uuid)), ("roomId", (1 : Uuid)), ("text", "hi")]

/-- A turn is reserved and handed out. -/
def sampleTurn : List Op :=
  [.reserve samplePolicy sampleActor sampleRequest (seconds 1000) none none
      (fun _ => seconds 100) (fun n => .ofNat (20 + n)),
    .claimSelect samplePolicy "w1" (seconds 101), .claimFinish (seconds 101) 30]

/-- The worker asks for the packet after the deadline, which fails the task. -/
def samplePacket : Op := .packet samplePolicy 21 30 (seconds 281) (seconds 281) 40

/-- A second claim selects the expired task before that, and resumes after. -/
def lateClaim : List Op :=
  [.claimSelect samplePolicy "w2" (seconds 281), samplePacket, .claimFinish (seconds 282) 41]

/-- The run evaluated: the packet request fails the task, the claim fails it
again. -/
theorem late_claim_run :
    ((((gateway sampleEnv).run (sampleTurn ++ lateClaim.take 2)).db.updatesOf 21).map
        fun u => (u.kind, u.ordinal)) = [(.failed, 1)] ∧
      (∃ t ∈ ((gateway sampleEnv).run (sampleTurn ++ lateClaim.take 2)).db.conversationTasks.rows,
        t.taskId = 21 ∧ t.state = .failed ∧ t.lastUpdateOrdinal = 1) ∧
      ((((gateway sampleEnv).run (sampleTurn ++ lateClaim)).db.updatesOf 21).map
        fun u => (u.kind, u.ordinal)) = [(.failed, 1), (.failed, 2)] ∧
      ∃ t ∈ ((gateway sampleEnv).run (sampleTurn ++ lateClaim)).db.conversationTasks.rows,
        t.taskId = 21 ∧ t.state = .failed ∧ t.lastUpdateOrdinal = 2 := by
  decide +kernel

/-- The task has two failed rows, and the second came after it had ended. -/
theorem late_claim_ends_twice :
    (∃ t ∈ ((gateway sampleEnv).run (sampleTurn ++ lateClaim)).db.conversationTasks.rows,
      ¬ Recorded ((gateway sampleEnv).run (sampleTurn ++ lateClaim)).db t) ∧
    ¬ EndedUnchanged ((gateway sampleEnv).run (sampleTurn ++ lateClaim.take 2)).db
      ((gateway sampleEnv).run (sampleTurn ++ lateClaim)).db := by
  obtain ⟨hbefore, ⟨t, ht, htid, htstate, -⟩, hafter, u, hu, huid, hustate, -⟩ := late_claim_run
  constructor
  · refine ⟨u, hu, fun hrecorded => ?_⟩
    obtain ⟨v, hv, -⟩ := hrecorded.ended (by rw [hustate]; rfl)
    have hall : ∀ w ∈ ((gateway sampleEnv).run (sampleTurn ++ lateClaim)).db.updatesOf 21,
        w.kind.terminal = true := by
      intro w hw
      have hkind : (w.kind, w.ordinal) ∈ [(UpdateKind.failed, (1 : Int)), (.failed, 2)] :=
        hafter ▸ List.mem_map_of_mem hw
      simp only [List.mem_cons, Prod.mk.injEq, List.not_mem_nil, or_false] at hkind
      rcases hkind with ⟨hkind, -⟩ | ⟨hkind, -⟩ <;> rw [hkind] <;> rfl
    rw [Db.endingsOf, huid, List.filter_eq_self.mpr hall] at hv
    rw [hv] at hafter
    simp at hafter
  · intro hunchanged
    have hsame := (hunchanged t ht (by rw [htstate]; rfl)).2
    rw [htid] at hsame
    rw [hsame, hbefore] at hafter
    simp at hafter

/-- Without the second claim the same turn ends once. -/
theorem task_ends_once_sample :
    (((gateway sampleEnv).run (sampleTurn ++ [samplePacket])).db.endingsOf 21).map
        (fun u => (u.kind, u.ordinal)) = [(.failed, 1)] ∧
      (∀ t ∈ ((gateway sampleEnv).run (sampleTurn ++ [samplePacket])).db.conversationTasks.rows,
        Recorded ((gateway sampleEnv).run (sampleTurn ++ [samplePacket])).db t) ∧
      EndedUnchanged ((gateway sampleEnv).run (sampleTurn ++ [samplePacket])).db
        ((gateway sampleEnv).run (sampleTurn ++ [samplePacket] ++
          [.claimSelect samplePolicy "w2" (seconds 281), .claimFinish (seconds 282) 41])).db :=
  ⟨by decide +kernel, task_ends_once sampleEnv _ _ (by decide +kernel)⟩

end RoomGateway
