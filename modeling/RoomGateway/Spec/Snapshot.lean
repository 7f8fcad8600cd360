import RoomGateway.Model.AgentService
import RoomGateway.Spec.Ledger
import RoomGateway.Spec.Log

/-!
The context of an agent's task. Nothing of it is stored: every request for the
packet builds it from the log, up to the sequence of the event that started the
task. No later call changes what the log has up to there, nor what makes up the
task, so the packet is a snapshot all the same.
-/

namespace RoomGateway

variable {env : Env} {db db' : Db} {t t' : AgentTaskRecord}

/-! ### Tasks over runs -/

theorem Performed.agentTasks {actor : Actor} {request : ValidatedRequest}
    {events : List RoomEvent} (h : Performed env actor db db' request events) :
    db'.agentTasks = db.agentTasks ∨ ∃ start task e log ts,
      StartedTask actor.id actor.displayName start db db' task e log ts := by
  cases h with
  | started h => exact .inr ⟨_, _, _, _, _, h⟩
  | _ => simp_all

/-- Once started, a task stays the same task. -/
def TasksNamed (db db' : Db) : Prop :=
  db.agentTasks.rows.map AgentTaskRecord.identity <+:
    db'.agentTasks.rows.map AgentTaskRecord.identity

theorem StartedTask.named {requesterId : Uuid} {name : String} {start : AgentTaskStart}
    {task : AgentTaskRecord} {e : RoomEvent} {log : Table roomEventConstraints}
    {ts : Table agentTaskConstraints}
    (h : StartedTask requesterId name start db db' task e log ts) : TasksNamed db db' := by
  obtain rfl := h.eq
  exact List.IsPrefix.map _ ⟨_, h.tasks.symm⟩

theorem RequestEffect.tasksNamed (h : RequestEffect env db db') : TasksNamed db db' := by
  cases h with
  | aside h _ => exact ⟨[], by rw [List.append_nil, h.tasks]⟩
  | processed _ _ performed ledgered =>
      obtain ⟨_, _, rfl⟩ := ledgered.frame
      rcases performed.agentTasks with hsame | ⟨_, _, _, _, _, h⟩
      · exact ⟨[], by rw [List.append_nil]; exact congrArg (List.map _ ·.rows) hsame.symm⟩
      · exact h.named
  | started _ h ledgered =>
      obtain ⟨_, _, rfl⟩ := ledgered.frame
      exact h.named
  | reserved h =>
      obtain ⟨_, _, _, _, rfl⟩ := h.frame
      exact List.prefix_rfl

theorem gateway_tasksNamed (s : Sys) (ops : List Op) :
    TasksNamed s.db ((gateway env).runFrom s ops).db :=
  Machine.runFrom_trans (R := fun a b : Sys => TasksNamed a.db b.db) (P := fun _ => True)
    (fun _ => List.prefix_rfl) (fun _ _ _ => List.IsPrefix.trans) (fun _ _ _ _ => trivial)
    (fun s op _ _ => (gateway_requestEffect s op).tasksNamed) trivial
    (Machine.guarded_true _ ops)

/-- What is read off the identity is the same for the same task. -/
theorem eq_of_identity {α : Type} (f : AgentTaskRecord → α) (hf : ∀ t, f t.identity = f t)
    (h : t'.identity = t.identity) : f t' = f t := by
  rw [← hf t', h, hf]

/-- The row of a task in a later state. -/
theorem TasksNamed.exists_mem (h : TasksNamed db db') (ht : t ∈ db.agentTasks.rows) :
    ∃ t' ∈ db'.agentTasks.rows, t'.identity = t.identity :=
  List.mem_map.mp (h.subset (List.mem_map_of_mem ht))

theorem TasksNamed.identity_eq (h : TasksNamed db db') (ht : t ∈ db.agentTasks.rows)
    (ht' : t' ∈ db'.agentTasks.rows) (hid : t'.taskId = t.taskId) : t'.identity = t.identity := by
  obtain ⟨u, hu, hsame⟩ := h.exists_mem ht
  have huid : u.taskId = t.taskId := eq_of_identity AgentTaskRecord.taskId (fun _ => rfl) hsame
  rw [db'.agentTask_unique ht' hu (hid.trans huid.symm), hsame]

/-! ### The start of a task -/

/-- The event that starts a task is the last one of its room. -/
theorem StartedTask.last {requesterId : Uuid} {name : String} {start : AgentTaskStart}
    {task : AgentTaskRecord} {e : RoomEvent} {log : Table roomEventConstraints}
    {ts : Table agentTaskConstraints}
    (h : StartedTask requesterId name start db db' task e log ts) :
    task.contextRevision = db'.maxSequence task.roomId := by
  obtain ⟨_, _, he⟩ := h.logged.single
  have hroom : e.roomId = task.roomId := by rw [he, h.room]; rfl
  have hextends := h.logged.extended
  rw [h.logged.rows, ← List.nil_append [e]] at hextends
  obtain ⟨-, hnum⟩ := SeqLog.Extends.append_singleton hextends
  rw [List.append_nil, hroom] at hnum
  have hlast := db'.maxSequence_add_one task.roomId
  rw [h.eq, h.logged.rows, SeqLog.next_append task.roomId e (hroom ▸ hnum), if_pos hroom] at hlast
  rw [h.revision, h.eq]
  omega

theorem StartedTask.task_cases {requesterId : Uuid} {name : String} {start : AgentTaskStart}
    {task : AgentTaskRecord} {e : RoomEvent} {log : Table roomEventConstraints}
    {ts : Table agentTaskConstraints}
    (h : StartedTask requesterId name start db db' task e log ts)
    (ht' : t' ∈ db'.agentTasks.rows) :
    t' ∈ db.agentTasks.rows ∨ t'.contextRevision = db'.maxSequence t'.roomId := by
  have hlast := h.last
  obtain rfl := h.eq
  change t' ∈ ts.rows at ht'
  rw [h.tasks, List.mem_append, List.mem_singleton] at ht'
  rcases ht' with hold | rfl
  · exact .inl hold
  · exact .inr hlast

/-- A call starts a task at the end of its room, or the task was there. -/
theorem RequestEffect.task_cases (h : RequestEffect env db db') (ht' : t' ∈ db'.agentTasks.rows) :
    (∃ t ∈ db.agentTasks.rows, t'.identity = t.identity) ∨
      t'.contextRevision = db'.maxSequence t'.roomId := by
  cases h with
  | aside h _ =>
      have hmem := List.mem_map_of_mem (f := AgentTaskRecord.identity) ht'
      rw [h.tasks] at hmem
      obtain ⟨t, ht, hsame⟩ := List.mem_map.mp hmem
      exact .inl ⟨t, ht, hsame.symm⟩
  | processed _ _ performed ledgered =>
      obtain ⟨_, _, rfl⟩ := ledgered.frame
      rcases performed.agentTasks with hsame | ⟨_, _, _, _, _, h⟩
      · exact .inl ⟨t', hsame ▸ ht', rfl⟩
      · have hcases := h.task_cases ht'
        exact hcases.imp_left fun hold => ⟨t', hold, rfl⟩
  | started _ h ledgered =>
      obtain ⟨_, _, rfl⟩ := ledgered.frame
      have hcases := h.task_cases ht'
      exact hcases.imp_left fun hold => ⟨t', hold, rfl⟩
  | reserved h =>
      obtain ⟨_, _, _, _, rfl⟩ := h.frame
      exact .inl ⟨t', ht', rfl⟩

/-- Every task was started at the end of its room: the log it is to see is the
whole log as of some earlier moment. -/
theorem gateway_task_start (ops : List Op) :
    ∀ t ∈ ((gateway env).run ops).db.agentTasks.rows, ∃ before after, ops = before ++ after ∧
      t.contextRevision = ((gateway env).run before).db.maxSequence t.roomId := by
  induction ops using List.reverseRecOn with
  | nil => simp [gateway, Machine.run]
  | append_singleton ops op ih =>
      intro t' ht'
      rw [Machine.run_append] at ht'
      rcases (gateway_requestEffect _ op).task_cases ht' with ⟨t, ht, hsame⟩ | hlast
      · obtain ⟨before, after, rfl, hstart⟩ := ih t ht
        refine ⟨before, after ++ [op], List.append_assoc .., ?_⟩
        rw [eq_of_identity AgentTaskRecord.contextRevision (fun _ => rfl) hsame,
          eq_of_identity AgentTaskRecord.roomId (fun _ => rfl) hsame, hstart]
      · refine ⟨ops ++ [op], [], by simp, ?_⟩
        rw [Machine.run_append]
        exact hlast

/-- What a task is to see is in the log. -/
theorem gateway_revision_le (ops : List Op) {t : AgentTaskRecord}
    (ht : t ∈ ((gateway env).run ops).db.agentTasks.rows) :
    t.contextRevision ≤ ((gateway env).run ops).db.maxSequence t.roomId := by
  obtain ⟨before, after, rfl, hstart⟩ := gateway_task_start ops t ht
  have hlog : LogExtends _ ((gateway env).runFrom ((gateway env).run before) after).db :=
    gateway_log _ after
  have hle := hlog.next_le t.roomId
  rw [← Db.maxSequence_add_one, ← Db.maxSequence_add_one] at hle
  rw [hstart, Machine.run_append]
  omega

/-! ### Contexts -/

/-- The context of a task, whoever holds a lease on it. -/
def taskContext (db : Db) (t : AgentTaskRecord) : AgentTaskContext where
  task := t
  events := eventsUpTo db t.roomId t.contextRevision

theorem contextForLease_some {lease : AgentTaskLease} {now : Time} {context : AgentTaskContext}
    (h : contextForLease db lease now = some context) :
    ∃ t ∈ db.agentTasks.rows, t.taskId = lease.taskId ∧ context = taskContext db t := by
  obtain ⟨t, hleased, rfl⟩ := Option.map_eq_some_iff.mp h
  obtain ⟨hmem, hid, -⟩ := leasedTask_some hleased
  exact ⟨t, hmem, hid, rfl⟩

/-- A later context of a task is the earlier one, up to the state and the lease
of the task, which no packet shows. -/
theorem contextPacket_later {lease : AgentTaskLease} (hnamed : TasksNamed db db')
    (hlog : LogExtends db db') (hrevision : t.contextRevision ≤ db.maxSequence t.roomId)
    (ht : t ∈ db.agentTasks.rows) (ht' : t' ∈ db'.agentTasks.rows) (hid : t'.taskId = t.taskId) :
    contextPacket env (taskContext db' t') lease = contextPacket env (taskContext db t) lease := by
  have hsame : t'.identity = t.identity := hnamed.identity_eq ht ht' hid
  calc contextPacket env (taskContext db' t') lease
      = contextPacket env (taskContext db' t) lease :=
        eq_of_identity (fun t => contextPacket env (taskContext db' t) lease) (fun _ => rfl) hsame
    _ = contextPacket env (taskContext db t) lease := by
        rw [taskContext, eventsUpTo_extends hlog hrevision, taskContext]

/-- The packets of a task in `db'` are those it had in `db`. -/
structure FrozenPackets (env : Env) (db db' : Db) : Prop where
  kept : ∀ t ∈ db.agentTasks.rows, ∃ t' ∈ db'.agentTasks.rows, t'.taskId = t.taskId
  served : ∀ lease now context, contextForLease db' lease now = some context →
    ∃ t' ∈ db'.agentTasks.rows, t'.taskId = lease.taskId ∧ context = taskContext db' t'
  sameLease : ∀ t ∈ db.agentTasks.rows, ∀ t' ∈ db'.agentTasks.rows, t'.taskId = t.taskId →
    ∀ lease, contextPacket env (taskContext db' t') lease =
      contextPacket env (taskContext db t) lease
  reissued : ∀ t ∈ db.agentTasks.rows, ∀ t' ∈ db'.agentTasks.rows, t'.taskId = t.taskId →
    ∀ lease lease',
      let first := contextPacket env (taskContext db t) lease
      let later := contextPacket env (taskContext db' t') lease'
      later = { first with
        issuedAt := later.issuedAt
        expiresAt := later.expiresAt
        canonicalSha256 := later.canonicalSha256 }
  citations : ∀ t ∈ db.agentTasks.rows, ∀ t' ∈ db'.agentTasks.rows, t'.taskId = t.taskId →
    ∀ lease lease' update,
      terminalCitationsAreVisible (contextPacket env (taskContext db' t') lease') update =
        terminalCitationsAreVisible (contextPacket env (taskContext db t) lease) update

/-- Whatever is committed after a task was started, its packets stay. -/
theorem packets_frozen (env : Env) (ops more : List Op) :
    FrozenPackets env ((gateway env).run ops).db ((gateway env).run (ops ++ more)).db := by
  rw [Machine.run_append]
  have hnamed : TasksNamed _ ((gateway env).runFrom ((gateway env).run ops) more).db :=
    gateway_tasksNamed _ more
  have hlog : LogExtends _ ((gateway env).runFrom ((gateway env).run ops) more).db :=
    gateway_log _ more
  have hlater : ∀ t ∈ ((gateway env).run ops).db.agentTasks.rows,
      ∀ t' ∈ ((gateway env).runFrom ((gateway env).run ops) more).db.agentTasks.rows,
      t'.taskId = t.taskId → ∀ lease,
        contextPacket env (taskContext ((gateway env).runFrom ((gateway env).run ops) more).db t')
          lease = contextPacket env (taskContext ((gateway env).run ops).db t) lease :=
    fun t ht t' ht' hid _ =>
      contextPacket_later hnamed hlog (gateway_revision_le ops ht) ht ht' hid
  refine ⟨fun t ht => ?_, fun _ _ _ => contextForLease_some, hlater, ?_, ?_⟩
  · obtain ⟨t', ht', hsame⟩ := hnamed.exists_mem ht
    exact ⟨t', ht', eq_of_identity AgentTaskRecord.taskId (fun _ => rfl) hsame⟩
  · -- the lease shows in its two times and in the digest over them
    intro t ht t' ht' hid lease lease'
    rw [hlater t ht t' ht' hid lease']
    rfl
  · intro t ht t' ht' hid lease lease' update
    rw [hlater t ht t' ht' hid lease']
    rfl

end RoomGateway
