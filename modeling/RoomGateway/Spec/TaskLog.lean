import RoomGateway.Spec.Log
import RoomGateway.Spec.Snapshot

/-!
The log of an agent's task: it is requested once, then reported on any number
of times, and it ends at most once. The state column says how it ended, and a
task that has ended is never touched again, neither its row nor its log.
-/

namespace RoomGateway

open Table

variable {env : Env} {db db' : Db} {t : AgentTaskRecord} {e : RoomEvent} {id : Uuid}
  {state : AgentTaskState}

/-! ### The calls on tasks -/

/-- Starting, claiming and updating the agents' tasks. -/
def Op.ofAgentTasks : Op → Bool
  | .process _ (.agentTaskStart _) _ _ _ _ => true
  | .startAgentTask .. | .claimAgentTask .. | .claimOldestQueuedAgentTask ..
  | .recordAgentTaskUpdate .. => true
  | _ => false

abbrev AgentTaskOp := { op : Op // op.ofAgentTasks = true }

/-- What such a call does; the clocks it reads are arguments of the call. -/
inductive TaskEffect (env : Env) (db db' : Db) : Prop where
  | same (eq : db' = db)
  | started {requesterId name start mid task e log ts fingerprint}
      (h : StartedTask requesterId name start db mid task e log ts)
      (ledgered : Ledgered mid db' start.roomId start.requestId fingerprint [e])
  | claimed {t owner now state} (h : ClaimedTask db db' t owner now state)
  | updated {t lease txNow update state payload e}
      (h : UpdatedTask env db db' t lease txNow update state payload e)

theorem agentTaskOp_effect (s : Sys) (op : AgentTaskOp) :
    TaskEffect env s.db ((gateway env).next s op).db := by
  obtain ⟨op, hop⟩ := op
  cases op with
  | process actor request presence conversationsEnabled txNow fresh =>
      cases request with
      | agentTaskStart start =>
          change TaskEffect env s.db (Prog.runTx _ s.db).2
          obtain hsame | ⟨r, hcommit⟩ := Prog.runTx_store
            (process env actor (.agentTaskStart start) presence conversationsEnabled txNow fresh)
            s.db
          · exact .same hsame
          · obtain ⟨room, requestId, hroom, hid, ⟨_, -, -, hending⟩ | ⟨-, events, mid, -,
              hperformed, hledgered⟩⟩ := process_ok hcommit
            · cases hending
            · cases hroom
              cases hid
              cases hperformed with
              | started h => exact .started h hledgered
      | _ => cases hop
  | startAgentTask requesterId name start txNow fresh =>
      change TaskEffect env s.db (Prog.runTx _ s.db).2
      obtain hsame | ⟨r, hcommit⟩ := Prog.runTx_store
        (startAgentTask env requesterId name start txNow fresh) s.db
      · exact .same hsame
      · obtain ⟨result, -, hstart⟩ := startAgentTask_ok hcommit
        obtain ⟨_, _, -, -, -, -, -, -, hsame⟩ | ⟨-, mid, task, e, log, ts, hstarted, -,
          hledgered⟩ := startAgentTaskInTransaction_ok hstart
        · exact .same hsame
        · exact .started hstarted hledgered
  | claimAgentTask task owner now =>
      change TaskEffect env s.db (Prog.runTx _ s.db).2
      obtain hsame | ⟨r, hcommit⟩ := Prog.runTx_store (claimAgentTask task owner now) s.db
      · exact .same hsame
      · obtain ⟨-, hsame⟩ | ⟨t, state, -, h, -⟩ := claimAgentTask_ok hcommit
        · exact .same hsame
        · exact .claimed h
  | claimOldestQueuedAgentTask agent owner now =>
      change TaskEffect env s.db (Prog.runTx _ s.db).2
      obtain hsame | ⟨r, hcommit⟩ := Prog.runTx_store
        (claimOldestQueuedAgentTask agent owner now) s.db
      · exact .same hsame
      · obtain ⟨-, hsame⟩ | ⟨t, -, h, -⟩ := claimOldestQueuedAgentTask_ok hcommit
        · exact .same hsame
        · exact .claimed h
  | recordAgentTaskUpdate lease update txNow now fresh =>
      change TaskEffect env s.db (Prog.runTx _ s.db).2
      obtain hsame | ⟨r, hcommit⟩ := Prog.runTx_store
        (recordAgentTaskUpdateWithOutcome env lease update txNow now fresh) s.db
      · exact .same hsame
      · obtain ⟨_, _, -, -, hsame⟩ | ⟨_, _, _, _, h, -⟩ :=
          recordAgentTaskUpdateWithOutcome_ok hcommit
        · exact .same hsame
        · exact .updated h
  | _ => cases hop

/-! ### The events of a task -/

/-- The event names the task in its payload. -/
def RoomEvent.carries (e : RoomEvent) (id : Uuid) : Bool := e.payload["taskId"] = Json.str id.text

/-- The events that carry a task's id, oldest first. -/
def taskEvents (db : Db) (id : Uuid) : List RoomEvent := db.roomEvents.rows.filter (·.carries id)

theorem RoomEvent.carries_iff {u : Uuid} (h : e.payload["taskId"] = Json.str u.text) :
    e.carries id = true ↔ id = u := by
  rw [RoomEvent.carries, h, decide_eq_true_eq, Json.str.injEq]
  exact ⟨fun htext => (Uuid.text_injective htext).symm, fun heq => by rw [heq]⟩

theorem taskEvents_append (h : db'.roomEvents.rows = db.roomEvents.rows ++ [e]) {u : Uuid}
    (hid : e.payload["taskId"] = Json.str u.text) (id : Uuid) :
    taskEvents db' id = if id = u then taskEvents db id ++ [e] else taskEvents db id := by
  rw [taskEvents, h, List.filter_append]
  split_ifs with heq
  · rw [List.filter_cons, if_pos ((RoomEvent.carries_iff hid).mpr heq), List.filter_nil]
    rfl
  · rw [List.filter_cons, if_neg fun hcarries => heq ((RoomEvent.carries_iff hid).mp hcarries),
      List.filter_nil, List.append_nil]
    rfl

/-- How the log of a task ends, by its state. -/
def AgentTaskState.ending : AgentTaskState → List EventType
  | succeeded => [.agentTaskSucceeded]
  | failed => [.agentTaskFailed]
  | _ => []

theorem AgentTaskState.ending_of_live (h : state.live = true) :
    state.ending = [] := by
  cases state <;> first | rfl | cases h

/-- The log of a task: it was requested, then reported on, and it has the one
ending its state says, if any; every event is in the task's room and has the
task's fields. -/
structure TaskWord (db : Db) (t : AgentTaskRecord) : Prop where
  word : ∃ reports, (taskEvents db t.taskId).map (·.eventType) =
      .agentTaskRequested :: reports ++ t.state.ending ∧
    ∀ x ∈ reports, x = .agentTaskProgressed ∨ x = .agentTaskAwaitingExternalInput
  room : ∀ e ∈ taskEvents db t.taskId, e.roomId = t.roomId
  core : ∀ e ∈ taskEvents db t.taskId, ∀ f ∈ agentTaskCore t, e.payload[f.1] = f.2

/-- The rows and the log agree. -/
structure TaskLog (db : Db) : Prop where
  owned : ∀ e ∈ db.roomEvents.rows, ∀ id, e.carries id = true →
    ∃ t ∈ db.agentTasks.rows, t.taskId = id
  words : ∀ t ∈ db.agentTasks.rows, TaskWord db t

/-- An accepted report goes on with the log, and an ending ends it. -/
theorem stateForUpdate_ending {eventType : EventType} (h : stateForUpdate eventType = .ok state) :
    (state.ending = [] ∧
      (eventType = .agentTaskProgressed ∨ eventType = .agentTaskAwaitingExternalInput)) ∨
    state.ending = [eventType] := by
  cases eventType <;> cases h
  · exact .inl ⟨rfl, .inl rfl⟩
  · exact .inl ⟨rfl, .inr rfl⟩
  · exact .inr rfl
  · exact .inr rfl

/-- A task that keeps its fields and its log, and that ends as before. -/
theorem TaskWord.keep {t' : AgentTaskRecord} (h : TaskWord db t) (hsame : t'.identity = t.identity)
    (hevents : taskEvents db' t.taskId = taskEvents db t.taskId)
    (hending : t'.state.ending = t.state.ending) : TaskWord db' t' := by
  have hid : t'.taskId = t.taskId := eq_of_identity AgentTaskRecord.taskId (fun _ => rfl) hsame
  have hroom : t'.roomId = t.roomId := eq_of_identity AgentTaskRecord.roomId (fun _ => rfl) hsame
  have hcore : agentTaskCore t' = agentTaskCore t :=
      eq_of_identity agentTaskCore (fun _ => rfl) hsame
  refine ⟨?_, ?_, ?_⟩
  · rw [hid, hevents, hending]
    exact h.word
  · rw [hid, hevents, hroom]
    exact h.room
  · rw [hid, hevents, hcore]
    exact h.core

/-! ### One call -/

/-- A new task has an id of its own. -/
theorem StartedTask.unused {requesterId : Uuid} {name : String} {start : AgentTaskStart}
    {task : AgentTaskRecord} {log : Table roomEventConstraints} {ts : Table agentTaskConstraints}
    (h : StartedTask requesterId name start db db' task e log ts) :
    ∀ t ∈ db.agentTasks.rows, t.taskId ≠ task.taskId := by
  intro t ht hid
  have hunique := ts.unique
  rw [h.tasks, List.pairwise_append] at hunique
  have hclash := hunique.2.2 t ht task (List.mem_singleton.mpr rfl)
  simp [agentTaskConstraints, hid] at hclash

theorem StartedTask.carries {requesterId : Uuid} {name : String} {start : AgentTaskStart}
    {task : AgentTaskRecord} {log : Table roomEventConstraints} {ts : Table agentTaskConstraints}
    (h : StartedTask requesterId name start db db' task e log ts) :
    db'.roomEvents.rows = db.roomEvents.rows ++ [e] ∧
      e.payload["taskId"] = Json.str task.taskId.text := by
  obtain ⟨_, _, rfl⟩ := h.logged.single
  obtain rfl := h.eq
  exact ⟨h.logged.rows, rfl⟩

theorem UpdatedTask.carries {lease : AgentTaskLease} {txNow : Time} {update : AgentTaskUpdate}
    {payload : Json} (h : UpdatedTask env db db' t lease txNow update state payload e) :
    db'.roomEvents.rows = db.roomEvents.rows ++ [e] ∧
      e.payload["taskId"] = Json.str t.taskId.text := by
  obtain ⟨_, _, _, _, _, -, happended, -, -, rfl⟩ := h.frame
  refine ⟨happended.rows, ?_⟩
  rw [happended.row]
  exact normalizedAgentTaskUpdatePayload_core h.normalized ("taskId", _) (by simp [agentTaskCore])

namespace TaskLog

theorem congr (h : TaskLog db) (hlog : db'.roomEvents = db.roomEvents)
    (htasks : db'.agentTasks = db.agentTasks) : TaskLog db' where
  owned := by
    rw [hlog, htasks]
    exact h.owned
  words t ht := by
    rw [htasks] at ht
    exact (h.words t ht).keep rfl (by rw [taskEvents, hlog, taskEvents]) rfl

/-- One more event, about the task `u`. -/
theorem owned_append (h : TaskLog db) (hrows : db'.roomEvents.rows = db.roomEvents.rows ++ [e])
    {u : Uuid} (hid : e.payload["taskId"] = Json.str u.text)
    (hu : ∃ t ∈ db'.agentTasks.rows, t.taskId = u)
    (hkept : ∀ t ∈ db.agentTasks.rows, ∃ t' ∈ db'.agentTasks.rows, t'.taskId = t.taskId) :
    ∀ x ∈ db'.roomEvents.rows, ∀ id, x.carries id = true →
      ∃ t ∈ db'.agentTasks.rows, t.taskId = id := by
  intro x hx id hcarries
  rw [hrows, List.mem_append, List.mem_singleton] at hx
  rcases hx with hx | rfl
  · obtain ⟨t, ht, rfl⟩ := h.owned x hx id hcarries
    exact hkept t ht
  · rw [(RoomEvent.carries_iff hid).mp hcarries]
    exact hu

/-- The first event of a task. -/
theorem started (h : TaskLog db) {requesterId : Uuid} {name : String} {start : AgentTaskStart}
    {task : AgentTaskRecord} {log : Table roomEventConstraints} {ts : Table agentTaskConstraints}
    (hstart : StartedTask requesterId name start db db' task e log ts) : TaskLog db' := by
  obtain ⟨hrows, hid⟩ := hstart.carries
  have hevents := taskEvents_append hrows hid
  obtain ⟨txNow, hrow⟩ := hstart.row
  have hmem : ∀ t, t ∈ db'.agentTasks.rows ↔ t ∈ db.agentTasks.rows ∨ t = task := by
    rw [hstart.eq]
    simp [hstart.tasks]
  -- the id is new, so nothing is logged under it yet
  have hfirst : taskEvents db task.taskId = [] := by
    refine List.filter_eq_nil_iff.mpr fun x hx hcarries => ?_
    obtain ⟨t, ht, hid⟩ := h.owned x hx task.taskId hcarries
    exact hstart.unused t ht hid
  refine ⟨h.owned_append hrows hid ⟨task, (hmem task).mpr (.inr rfl), rfl⟩
    fun t ht => ⟨t, (hmem t).mpr (.inl ht), rfl⟩, ?_⟩
  intro t ht
  rcases (hmem t).mp ht with hold | rfl
  · refine (h.words t hold).keep rfl ?_ rfl
    rw [hevents, if_neg (hstart.unused t hold)]
  · have hlog := hevents t.taskId
    rw [if_pos rfl, hfirst, List.nil_append] at hlog
    obtain ⟨_, _, rfl⟩ := hstart.logged.single
    refine ⟨⟨[], ?_, by simp⟩, ?_, ?_⟩
    · rw [hlog, hrow]
      rfl
    · rw [hlog, hrow]
      simp [NewEvent.row, requestedEvent, startedRow]
    · rw [hlog]
      have hagent : t.agentId = start.agentId := by rw [hrow]; rfl
      have hskill : t.skillId = start.skillId := by rw [hrow]; rfl
      simp [agentTaskCore, NewEvent.row, requestedEvent, requestedTaskPayload, hagent, hskill,
        hstart.requester]

/-- A claim is in no log. -/
theorem claimed (h : TaskLog db) {owner : Uuid} {now : Time}
    (hclaim : ClaimedTask db db' t owner now state) : TaskLog db' := by
  obtain ⟨ts, hts, rfl⟩ := hclaim.frame
  have hmem : ∀ t', t' ∈ ts.rows ↔ t' = leasedRow t owner now state ∨
      (t' ∈ db.agentTasks.rows ∧ t'.taskId ≠ t.taskId) := by
    intro t'
    rw [hts, db.mem_put_agentTask hclaim.mem]
  have hlive := hclaim.claimable
  rw [claimable, Bool.and_eq_true] at hlive
  refine ⟨fun x hx id hcarries => ?_, fun t' ht' => ?_⟩
  · obtain ⟨u, hu, rfl⟩ := h.owned x hx id hcarries
    by_cases hid : u.taskId = t.taskId
    · exact ⟨_, (hmem _).mpr (.inl rfl), hid.symm⟩
    · exact ⟨u, (hmem u).mpr (.inr ⟨hu, hid⟩), rfl⟩
  · rcases (hmem t').mp ht' with rfl | ⟨hold, -⟩
    · refine (h.words t hclaim.mem).keep rfl rfl ?_
      rw [AgentTaskState.ending_of_live hlive.1]
      exact AgentTaskState.ending_of_live hclaim.live
    · exact (h.words t' hold).keep rfl rfl rfl

/-- One more report, or the ending. -/
theorem updated (h : TaskLog db) {lease : AgentTaskLease} {txNow : Time} {update : AgentTaskUpdate}
    {payload : Json} (hupdate : UpdatedTask env db db' t lease txNow update state payload e)
    : TaskLog db' := by
  obtain ⟨hrows, hid⟩ := hupdate.carries
  have hevents := taskEvents_append hrows hid
  obtain ⟨requestId, eventId, log, us, ts, -, happended, -, hts, rfl⟩ := hupdate.frame
  have ht := (leasedTask_some hupdate.leased).1
  have hcore := normalizedAgentTaskUpdatePayload_core hupdate.normalized
  have hmem : ∀ t', t' ∈ ts.rows ↔
      t' = { t with state := state, updatedAt := pgTime update.occurredAt } ∨
        (t' ∈ db.agentTasks.rows ∧ t'.taskId ≠ t.taskId) := by
    intro t'
    rw [hts, db.mem_put_agentTask ht]
  refine ⟨h.owned_append hrows hid ⟨_, (hmem _).mpr (.inl rfl), rfl⟩ fun u hu => ?_, ?_⟩
  · by_cases hsame : u.taskId = t.taskId
    · exact ⟨_, (hmem _).mpr (.inl rfl), hsame.symm⟩
    · exact ⟨u, (hmem u).mpr (.inr ⟨hu, hsame⟩), rfl⟩
  · intro t' ht'
    rcases (hmem t').mp ht' with rfl | ⟨hold, hother⟩
    · have hlog := hevents t.taskId
      rw [if_pos rfl] at hlog
      have hword := h.words t ht
      refine ⟨?_, ?_, ?_⟩
      · obtain ⟨reports, hreports, hkinds⟩ := hword.word
        have htype : e.eventType = update.eventType := by rw [happended.row]; rfl
        rw [AgentTaskState.ending_of_live hupdate.live, List.append_nil] at hreports
        rw [hlog, List.map_append, hreports, List.map_singleton, htype]
        rcases stateForUpdate_ending hupdate.state_eq with ⟨hnone, hkind⟩ | hending
        · refine ⟨reports ++ [update.eventType], by simp [hnone], fun x hx => ?_⟩
          rcases List.mem_append.mp hx with hx | hx
          · exact hkinds x hx
          · rw [List.mem_singleton.mp hx]
            exact hkind
        · exact ⟨reports, by simp [hending], hkinds⟩
      · rw [hlog]
        intro x hx
        rcases List.mem_append.mp hx with hx | hx
        · exact hword.room x hx
        · rw [List.mem_singleton.mp hx, happended.row]
          rfl
      · rw [hlog]
        intro x hx f hf
        rcases List.mem_append.mp hx with hx | hx
        · exact hword.core x hx f hf
        · rw [List.mem_singleton.mp hx, happended.row]
          exact hcore f hf
    · refine (h.words t' hold).keep rfl ?_ rfl
      rw [hevents, if_neg hother]

end TaskLog

theorem TaskEffect.taskLog (h : TaskEffect env db db') (hlog : TaskLog db) : TaskLog db' := by
  cases h with
  | same eq => rwa [eq]
  | started h ledgered =>
      have hmid := hlog.started h
      obtain ⟨_, _, rfl⟩ := ledgered.frame
      exact hmid.congr rfl rfl
  | claimed h => exact hlog.claimed h
  | updated h => exact hlog.updated h

/-- A task that has ended is left alone. -/
theorem TaskEffect.ended (h : TaskEffect env db db') (ht : t ∈ db.agentTasks.rows)
    (hended : t.state.live = false) :
    t ∈ db'.agentTasks.rows ∧ taskEvents db' t.taskId = taskEvents db t.taskId := by
  cases h with
  | same eq => exact ⟨by rwa [eq], by rw [eq]⟩
  | started h ledgered =>
      obtain ⟨hrows, hid⟩ := h.carries
      have hevents := taskEvents_append hrows hid t.taskId
      obtain ⟨_, _, rfl⟩ := ledgered.frame
      obtain rfl := h.eq
      refine ⟨?_, hevents.trans (if_neg (h.unused t ht))⟩
      rw [h.tasks]
      exact List.mem_append_left _ ht
  | @claimed u owner now state h =>
      obtain ⟨ts, hts, rfl⟩ := h.frame
      refine ⟨?_, rfl⟩
      change t ∈ ts.rows
      rw [hts, db.mem_put_agentTask h.mem]
      refine .inr ⟨ht, fun hid => ?_⟩
      have hlive := h.claimable
      rw [claimable, ← db.agentTask_unique ht h.mem hid, hended] at hlive
      cases hlive
  | @updated u lease txNow update state payload e h =>
      obtain ⟨hrows, hid⟩ := h.carries
      have hevents := taskEvents_append hrows hid t.taskId
      obtain ⟨_, _, log, us, ts, -, -, -, hts, rfl⟩ := h.frame
      have hu := (leasedTask_some h.leased).1
      have hother : t.taskId ≠ u.taskId := by
        intro hid
        have hlive := h.live
        rw [← db.agentTask_unique ht hu hid, hended] at hlive
        cases hlive
      refine ⟨?_, hevents.trans (if_neg hother)⟩
      change t ∈ ts.rows
      rw [hts, db.mem_put_agentTask hu]
      exact .inr ⟨ht, hother⟩

/-! ### Whole runs -/

/-- The calls on tasks as a machine of their own. -/
def agentTaskRun (env : Env) (ops : List AgentTaskOp) : Sys := (gateway env).run (ops.map (·.1))

theorem agentTaskRun_taskLog (ops : List AgentTaskOp) : TaskLog (agentTaskRun env ops).db := by
  induction ops using List.reverseRecOn with
  | nil =>
      refine ⟨?_, ?_⟩ <;> simp [agentTaskRun, gateway, Machine.run]
  | append_singleton ops op ih =>
      rw [agentTaskRun, List.map_append, Machine.run_append]
      exact (agentTaskOp_effect _ op).taskLog ih

theorem agentTaskRun_ended (ops more : List AgentTaskOp)
    (ht : t ∈ (agentTaskRun env ops).db.agentTasks.rows) (hended : t.state.live = false) :
    t ∈ (agentTaskRun env (ops ++ more)).db.agentTasks.rows ∧
      taskEvents (agentTaskRun env (ops ++ more)).db t.taskId =
        taskEvents (agentTaskRun env ops).db t.taskId := by
  induction more using List.reverseRecOn with
  | nil => simpa using ht
  | append_singleton more op ih =>
      have hnext : agentTaskRun env (ops ++ (more ++ [op])) =
          (gateway env).next (agentTaskRun env (ops ++ more)) op := by
        rw [← List.append_assoc, agentTaskRun, List.map_append, Machine.run_append]
        rfl
      have heffect : TaskEffect env _ ((gateway env).next (agentTaskRun env (ops ++ more)) op).db :=
        agentTaskOp_effect _ op
      obtain ⟨hkept, hsame⟩ := heffect.ended ih.1 hended
      rw [hnext]
      exact ⟨hkept, hsame.trans ih.2⟩

/-- Every task has its word in the log, in the order of the sequences, and what
has ended stays as it is. -/
structure TaskHistory (env : Env) (ops : List AgentTaskOp) : Prop where
  word : ∀ t ∈ (agentTaskRun env ops).db.agentTasks.rows, TaskWord (agentTaskRun env ops).db t
  ordered : ∀ t ∈ (agentTaskRun env ops).db.agentTasks.rows,
    Ascending RoomEvent.sequence (taskEvents (agentTaskRun env ops).db t.taskId)
  ended : ∀ more, ∀ t ∈ (agentTaskRun env ops).db.agentTasks.rows, t.state.live = false →
    t ∈ (agentTaskRun env (ops ++ more)).db.agentTasks.rows ∧
      taskEvents (agentTaskRun env (ops ++ more)).db t.taskId =
        taskEvents (agentTaskRun env ops).db t.taskId

theorem agent_task_history (env : Env) (ops : List AgentTaskOp) : TaskHistory env ops where
  word := (agentTaskRun_taskLog ops).words
  ordered := by
    intro t ht
    -- the events are in one room, whose part of the log is in order
    have hroom := ((agentTaskRun_taskLog ops).words t ht).room
    have hpart : taskEvents (agentTaskRun env ops).db t.taskId =
        ((agentTaskRun env ops).db.eventsOf t.roomId).filter (·.carries t.taskId) := by
      rw [Db.eventsOf, List.filter_filter]
      refine (List.filter_congr fun e he => ?_)
      cases hcarries : e.carries t.taskId with
      | false => rfl
      | true => simp [hroom e (List.mem_filter.mpr ⟨he, hcarries⟩)]
    rw [hpart]
    exact ((gateway_numbered _).sorted t.roomId).filter _
  ended more t ht hended := agentTaskRun_ended ops more ht hended

end RoomGateway
