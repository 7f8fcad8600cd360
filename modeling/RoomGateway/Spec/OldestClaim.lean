import RoomGateway.Lib.Sort
import RoomGateway.Model.RoomContract
import RoomGateway.Spec.Leases

/-!
The two claims of an agent's task. One takes the task it names, the other the
oldest one of an agent that can be taken. The second leaves the task as the
first would, except that it sets a task that waits for external input running
again, where the first leaves it waiting.
-/

namespace RoomGateway

open Table Prog

variable {db : Db} {agent owner : Uuid} {now : Time} {t : AgentTaskRecord}

/-! ### The oldest task -/

def taskAge (t : AgentTaskRecord) : Lex (Time × Uuid) := toLex (t.createdAt, t.taskId)

/-- Of the tasks of the agent that can be claimed, `t` is the oldest. -/
structure Oldest (db : Db) (agent : Uuid) (now : Time) (t : AgentTaskRecord) : Prop where
  mem : t ∈ db.agentTasks.rows
  ofAgent : t.agentId = agent
  claimable : claimable (pgTime now) t = true
  least : ∀ x ∈ db.agentTasks.rows, x.agentId = agent →
    RoomGateway.claimable (pgTime now) x = true →
    t.createdAt < x.createdAt ∨ (t.createdAt = x.createdAt ∧ t.taskId ≤ x.taskId)

theorem Oldest.unique {u : AgentTaskRecord} (ht : Oldest db agent now t)
    (hu : Oldest db agent now u) : t = u := by
  have hle : taskAge t ≤ taskAge u :=
    Prod.Lex.toLex_le_toLex.mpr (ht.least u hu.mem hu.ofAgent hu.claimable)
  have hge : taskAge u ≤ taskAge t :=
    Prod.Lex.toLex_le_toLex.mpr (hu.least t ht.mem ht.ofAgent ht.claimable)
  have hage := le_antisymm hle hge
  exact db.agentTask_unique ht.mem hu.mem (congrArg (fun key => (ofLex key).2) hage)

theorem mem_claimableTasks : t ∈ claimableTasks db agent now ↔
    t ∈ db.agentTasks.rows ∧ t.agentId = agent ∧ claimable now t = true := by
  rw [claimableTasks, List.mem_insertionSort, List.mem_filter]
  simp

/-- The first of the claimable tasks is the oldest. -/
theorem oldest_of_head {rest : List AgentTaskRecord}
    (h : claimableTasks db agent (pgTime now) = t :: rest) : Oldest db agent now t := by
  have hmem : ∀ x, x ∈ t :: rest ↔ _ := fun x => h ▸ mem_claimableTasks
  obtain ⟨hrow, hagent, hclaimable⟩ := (hmem t).mp List.mem_cons_self
  refine ⟨hrow, hagent, hclaimable, fun x hx hxagent hxclaimable => ?_⟩
  have hsorted : (t :: rest).Pairwise fun a b => taskAge a ≤ taskAge b := by
    rw [← h, claimableTasks, insertionSort_pair]
    exact sortOn_sorted _ _
  rcases List.mem_cons.mp ((hmem x).mpr ⟨hx, hxagent, hxclaimable⟩) with rfl | hx
  · exact .inr ⟨rfl, le_rfl⟩
  · exact Prod.Lex.toLex_le_toLex.mp (List.rel_of_pairwise_cons hsorted hx)

theorem claimableTasks_ne_nil (ht : t ∈ db.agentTasks.rows) (hagent : t.agentId = agent)
    (hclaimable : claimable now t = true) :
    ∃ first rest, claimableTasks db agent now = first :: rest := by
  refine List.exists_cons_of_ne_nil fun hnil => ?_
  have hmem := mem_claimableTasks.mpr ⟨ht, hagent, hclaimable⟩
  rw [hnil] at hmem
  cases hmem

theorem exists_oldest
    (h : ∃ t ∈ db.agentTasks.rows, t.agentId = agent ∧ claimable (pgTime now) t = true) :
    ∃ t, Oldest db agent now t := by
  obtain ⟨x, hx, hagent, hclaimable⟩ := h
  obtain ⟨t, rest, hqueue⟩ := claimableTasks_ne_nil hx hagent hclaimable
  exact ⟨t, oldest_of_head hqueue⟩

theorem Oldest.head (h : Oldest db agent now t) :
    ∃ rest, claimableTasks db agent (pgTime now) = t :: rest := by
  obtain ⟨u, rest, hqueue⟩ := claimableTasks_ne_nil h.mem h.ofAgent h.claimable
  exact ⟨rest, by rw [hqueue, h.unique (oldest_of_head hqueue)]⟩

/-! ### What the claims do -/

/-- A task keeps its identity under a new lease, so the claim goes through. -/
theorem updateAgentTasks_leases (db : Db) (p : AgentTaskRecord → Bool)
    (f : AgentTaskRecord → AgentTaskRecord)
    (hf : ∀ x, (f x).taskId = x.taskId ∧ (f x).roomId = x.roomId ∧ (f x).requestId = x.requestId) :
    ∃ ts : Table agentTaskConstraints, ts.rows = db.agentTasks.rows.map (alter p f) ∧
      db.updateAgentTasks p f = some { db with agentTasks := ts } := by
  have hsame : ∀ x, (alter p f x).taskId = x.taskId ∧ (alter p f x).roomId = x.roomId ∧
      (alter p f x).requestId = x.requestId := by
    intro x
    by_cases hp : p x = true
    · rw [alter_of_pos hp]
      exact hf x
    · rw [alter_of_neg (by simpa using hp)]
      exact ⟨rfl, rfl, rfl⟩
  obtain ⟨ts, hts⟩ : ∃ ts, db.agentTasks.update p f = some ts := by
    refine exists_update (fun _ _ _ => rfl) fun a _ b _ hclash => ?_
    simpa [agentTaskConstraints, hsame a, hsame b] using hclash
  exact ⟨ts, rows_update hts, by rw [Db.updateAgentTasks, hts]; rfl⟩

/-- The state of the task after a claim that names it. -/
def namedState (t : AgentTaskRecord) : AgentTaskState :=
  if t.state = .queued then .running else t.state

/-- A search that needs the id of a task finds the task or nothing. -/
theorem Db.find_agentTask (db : Db) {p : AgentTaskRecord → Bool} (ht : t ∈ db.agentTasks.rows)
    (hpt : p t = true) (hp : ∀ x, p x = true → x.taskId = t.taskId) :
    db.agentTasks.rows.find? p = some t := by
  cases hfind : db.agentTasks.rows.find? p with
  | none => exact absurd hpt (List.find?_eq_none.mp hfind t ht)
  | some x =>
      have hid := hp x (List.find?_some hfind)
      rw [db.agentTask_unique (List.mem_of_find?_eq_some hfind) ht hid]

theorem claimAgentTask_run (owner : Uuid) (ht : t ∈ db.agentTasks.rows)
    (hclaimable : claimable (pgTime now) t = true) :
    ∃ db', (claimAgentTask t.taskId owner now).runTx db =
        (.ok (some (ClaimedTask.lease t owner now)), db') ∧
      db'.agentTasks.rows =
        put (fun x => x.taskId = t.taskId) (leasedRow t owner now (namedState t))
          db.agentTasks.rows := by
  have hcond : (t.taskId = t.taskId && claimable (pgTime now) t) = true := by simpa using hclaimable
  have hid : ∀ x : AgentTaskRecord, (x.taskId = t.taskId && claimable (pgTime now) x) = true →
      x.taskId = t.taskId := by
    intro x hx
    rw [Bool.and_eq_true, decide_eq_true_eq] at hx
    exact hx.1
  obtain ⟨ts, hts, hwrite⟩ := updateAgentTasks_leases db
    (fun x => x.taskId = t.taskId && claimable (pgTime now) x)
    (fun x => leasedRow x owner now (namedState x)) fun _ => ⟨rfl, rfl, rfl⟩
  refine ⟨{ db with agentTasks := ts }, runTx_eq_of_commit ?_, ?_⟩
  · rw [claimAgentTask]
    refine exec_bind_ok.mpr ⟨(), db, exec_acquire_ok.mpr rfl, ?_⟩
    have hfind := db.find_agentTask ht hcond hid
    exact exec_bind_ok.mpr ⟨some t, _, exec_returning_ok.mpr ⟨hfind, hwrite⟩, rfl⟩
  · exact hts.trans (db.alter_agentTask ht hcond hid)

theorem lockFirst_first {rest : List AgentTaskRecord} (ht : t ∈ db.agentTasks.rows)
    (hagent : t.agentId = agent) (hclaimable : claimable now t = true) :
    (lockFirst agent now (t :: rest)).exec db = .ok (some t, db) := by
  have hfind : (db.agentTasks.rows.find? fun x =>
      x.taskId = t.taskId && x.agentId = agent && claimable now x) = some t := by
    refine db.find_agentTask ht (by simp [hagent, hclaimable]) fun x hx => ?_
    simp only [Bool.and_eq_true, decide_eq_true_eq] at hx
    exact hx.1.1
  rw [lockFirst]
  refine exec_bind_ok.mpr ⟨(), db, exec_acquire_ok.mpr rfl, ?_⟩
  exact exec_bind_ok.mpr ⟨some t, db, exec_query_ok.mpr ⟨hfind, rfl⟩, rfl⟩

theorem claimOldestQueuedAgentTask_none (owner : Uuid)
    (h : ¬ ∃ t ∈ db.agentTasks.rows, t.agentId = agent ∧ claimable (pgTime now) t = true) :
    (claimOldestQueuedAgentTask agent owner now).runTx db = (.ok none, db) := by
  have hqueue : claimableTasks db agent (pgTime now) = [] :=
    List.eq_nil_iff_forall_not_mem.mpr fun t ht => h ⟨t, mem_claimableTasks.mp ht⟩
  refine runTx_eq_of_commit ?_
  rw [claimOldestQueuedAgentTask]
  refine exec_bind_ok.mpr ⟨(), db, exec_acquire_ok.mpr rfl, ?_⟩
  exact exec_bind_ok.mpr ⟨[], db, exec_query_ok.mpr ⟨hqueue, rfl⟩, rfl⟩

theorem Oldest.run (holdest : Oldest db agent now t) (owner : Uuid) :
    ∃ db', (claimOldestQueuedAgentTask agent owner now).runTx db =
        (.ok (some (ClaimedTask.lease t owner now)), db') ∧
      db'.agentTasks.rows =
        put (fun x => x.taskId = t.taskId) (leasedRow t owner now .running)
          db.agentTasks.rows := by
  obtain ⟨rest, h⟩ := holdest.head
  obtain ⟨ts, hts, hwrite⟩ := updateAgentTasks_leases db (fun x => x.taskId = t.taskId)
    (fun x => leasedRow x owner now .running) fun _ => ⟨rfl, rfl, rfl⟩
  refine ⟨{ db with agentTasks := ts }, runTx_eq_of_commit ?_, ?_⟩
  · rw [claimOldestQueuedAgentTask]
    refine exec_bind_ok.mpr ⟨(), db, exec_acquire_ok.mpr rfl, ?_⟩
    refine exec_bind_ok.mpr ⟨t :: rest, db, exec_query_ok.mpr ⟨h, rfl⟩, ?_⟩
    have hlock : (lockFirst agent (pgTime now) (t :: rest)).exec db = .ok (some t, db) :=
      lockFirst_first holdest.mem holdest.ofAgent holdest.claimable
    rw [claimFirst, exec_bind_of_ok hlock]
    exact exec_bind_ok.mpr ⟨(), _, exec_execute_ok.mpr hwrite, rfl⟩
  · exact hts.trans (db.alter_agentTask holdest.mem (by simp) fun x hx => of_decide_eq_true hx)

/-! ### The two claims compared -/

/-- What the claim of the oldest task is meant to do: it finds nothing if there
is nothing to claim; otherwise it takes the oldest task, no other task changes,
and the row of that task is the one that a claim of it by its id would leave. -/
structure ClaimsAlike (db : Db) (agent owner : Uuid) (now : Time) : Prop where
  nothing : ((claimOldestQueuedAgentTask agent owner now).runTx db).1 = .ok none ↔
    ∀ t ∈ db.agentTasks.rows, t.agentId = agent → claimable (pgTime now) t = false
  oldest : (∃ t ∈ db.agentTasks.rows, t.agentId = agent ∧ claimable (pgTime now) t = true) →
    ∃ t, Oldest db agent now t ∧
      ((claimOldestQueuedAgentTask agent owner now).runTx db).1 =
        .ok (some (ClaimedTask.lease t owner now)) ∧
      (∀ x, x.taskId ≠ t.taskId →
        (x ∈ ((claimOldestQueuedAgentTask agent owner now).runTx db).2.agentTasks.rows ↔
          x ∈ db.agentTasks.rows)) ∧
      ∀ x, x.taskId = t.taskId →
        (x ∈ ((claimOldestQueuedAgentTask agent owner now).runTx db).2.agentTasks.rows ↔
          x ∈ ((claimAgentTask t.taskId owner now).runTx db).2.agentTasks.rows)

theorem namedState_eq_running (h : claimable (pgTime now) t = true) :
    namedState t = .running ↔ t.state ≠ .awaitingExternalInput := by
  rw [claimable, Bool.and_eq_true] at h
  obtain ⟨hlive, -⟩ := h
  cases hstate : t.state <;> simp_all [namedState, AgentTaskState.live]

/-- The one row that a claim leaves under the id of the task. -/
theorem mem_claimed {rows : List AgentTaskRecord} {state : AgentTaskState}
    (ht : t ∈ db.agentTasks.rows)
    (hrows : rows = put (fun x => x.taskId = t.taskId) (leasedRow t owner now state)
      db.agentTasks.rows) {x : AgentTaskRecord} (hid : x.taskId = t.taskId) :
    x ∈ rows ↔ x = leasedRow t owner now state := by
  rw [hrows, db.mem_put_agentTask ht]
  simp [hid]

/-- The two claims leave the oldest task alike unless it waits for external input. -/
theorem claimed_alike (ht : Oldest db agent now t) :
    (∀ x, x.taskId = t.taskId →
      (x ∈ ((claimOldestQueuedAgentTask agent owner now).runTx db).2.agentTasks.rows ↔
        x ∈ ((claimAgentTask t.taskId owner now).runTx db).2.agentTasks.rows)) ↔
      t.state ≠ .awaitingExternalInput := by
  obtain ⟨db₁, hrun, hrows⟩ := ht.run owner
  obtain ⟨db₂, hrun', hrows'⟩ := claimAgentTask_run owner ht.mem ht.claimable
  rw [hrun, hrun', ← namedState_eq_running ht.claimable]
  constructor
  · intro h
    have hid : (leasedRow t owner now .running).taskId = t.taskId := rfl
    have hrow := (h _ hid).mp ((mem_claimed ht.mem hrows hid).mpr rfl)
    have heq := (mem_claimed ht.mem hrows' hid).mp hrow
    exact (congrArg AgentTaskRecord.state heq).symm
  · intro h x hx
    rw [mem_claimed ht.mem hrows hx, mem_claimed ht.mem hrows' hx, h]

theorem claims_alike_iff (db : Db) (agent owner : Uuid) (now : Time) :
    ClaimsAlike db agent owner now ↔
      ∀ t, Oldest db agent now t → t.state ≠ .awaitingExternalInput := by
  constructor
  · intro h t ht
    obtain ⟨u, hu, -, -, hrow⟩ := h.oldest ⟨t, ht.mem, ht.ofAgent, ht.claimable⟩
    obtain rfl := hu.unique ht
    exact (claimed_alike ht).mp hrow
  · intro h
    by_cases hsome : ∃ t ∈ db.agentTasks.rows, t.agentId = agent ∧ claimable (pgTime now) t = true
    · obtain ⟨t, ht⟩ := exists_oldest hsome
      obtain ⟨db', hrun, hrows⟩ := ht.run owner
      refine ⟨?_, fun _ => ⟨t, ht, ?_, fun x hx => ?_, (claimed_alike ht).mpr (h t ht)⟩⟩
      · rw [hrun]
        refine iff_of_false (by simp) fun hnone => ?_
        exact absurd ht.claimable (by simp [hnone t ht.mem ht.ofAgent])
      · rw [hrun]
      · rw [hrun, hrows, db.mem_put_agentTask ht.mem]
        constructor
        · rintro (rfl | ⟨hmem, -⟩)
          · exact absurd rfl hx
          · exact hmem
        · exact fun hmem => .inr ⟨hmem, hx⟩
    · refine ⟨?_, fun h => absurd h hsome⟩
      rw [claimOldestQueuedAgentTask_none owner hsome]
      refine iff_of_true rfl fun t ht hagent => ?_
      exact Bool.eq_false_iff.mpr fun hclaimable => hsome ⟨t, ht, hagent, hclaimable⟩

/-! ### A task that waits

The reference agent hands its task to an external page and its lease runs out. -/

def sampleUrl : String := "https://reference-agent.thought-khoral.local/sign-in"

def sampleUrlEnv : Env :=
  { sampleEnv.underContract { sampleFormats with uri := (· = sampleUrl) } with
    parseUrl := fun text =>
      if text = sampleUrl then
        some ⟨"https", "", none, none, some "reference-agent.thought-khoral.local", some 443⟩
      else none }

def sampleHandoff : AgentTaskUpdate where
  updateId := 50
  eventType := .agentTaskAwaitingExternalInput
  payload := .obj [("handoff", .obj [("instruction", "Sign in."), ("url", sampleUrl),
    ("host", "reference-agent.thought-khoral.local"), ("expiresAt", "1970-01-01T00:04:45Z")])]
  occurredAt := seconds 100

def sampleWaiting : List Op :=
  [sampleAskLater, sampleClaim,
    .recordAgentTaskUpdate sampleLease sampleHandoff (seconds 120) (seconds 120)
      fun n => .ofNat (60 + n)]

/-- The next claim sets the task running, although nothing was entered yet. -/
theorem waiting_task_set_running :
    ¬ ClaimsAlike ((gateway sampleUrlEnv).run sampleWaiting).db referenceAgentId 41
        (seconds 500) := by
  have hwaits : ∃ t ∈ ((gateway sampleUrlEnv).run sampleWaiting).db.agentTasks.rows,
      t.agentId = referenceAgentId ∧ claimable (pgTime (seconds 500)) t = true ∧
      (∀ x ∈ ((gateway sampleUrlEnv).run sampleWaiting).db.agentTasks.rows,
        x.agentId = referenceAgentId → claimable (pgTime (seconds 500)) x = true →
        t.createdAt < x.createdAt ∨ (t.createdAt = x.createdAt ∧ t.taskId ≤ x.taskId)) ∧
      t.state = .awaitingExternalInput := by
    decide +kernel
  obtain ⟨t, hmem, hagent, hclaimable, hleast, hstate⟩ := hwaits
  intro h
  have ht : Oldest _ referenceAgentId (seconds 500) t := ⟨hmem, hagent, hclaimable, hleast⟩
  obtain ⟨u, hu, -, -, hrow⟩ := h.oldest ⟨t, hmem, hagent, hclaimable⟩
  obtain rfl := hu.unique ht
  exact (claimed_alike ht).mp hrow hstate

end RoomGateway
