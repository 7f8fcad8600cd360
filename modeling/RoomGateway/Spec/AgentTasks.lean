import RoomGateway.Spec.Requests

/-!
The agents' tasks: everything a call can do to a task, its lease and its
updates. A claim needs a task without a live lease; an update needs the lease
and a task that has not ended, and it logs one event that carries the task's
own fields.
-/

namespace RoomGateway

open Table

variable {env : Env} {db db' : Db} {t : AgentTaskRecord}

/-! ### The rows -/

/-- An id names one task. -/
theorem Db.agentTask_unique (db : Db) {t u : AgentTaskRecord} (ht : t ∈ db.agentTasks.rows)
    (hu : u ∈ db.agentTasks.rows) (hid : t.taskId = u.taskId) : t = u :=
  eq_of_clash ht hu (by simp [agentTaskConstraints, hid]) (by simp [agentTaskConstraints, hid])

/-- An update of a task is an update of its one row. -/
theorem Db.alter_agentTask (db : Db) {p : AgentTaskRecord → Bool}
    {f : AgentTaskRecord → AgentTaskRecord} (ht : t ∈ db.agentTasks.rows) (hpt : p t = true)
    (hp : ∀ x, p x = true → x.taskId = t.taskId) :
    db.agentTasks.rows.map (alter p f) =
      put (fun x => x.taskId = t.taskId) (f t) db.agentTasks.rows := by
  have huniq : ∀ x ∈ db.agentTasks.rows, decide (x.taskId = t.taskId) = true → x = t :=
    fun x hx hid => db.agentTask_unique hx ht (of_decide_eq_true hid)
  rw [map_alter_eq_put huniq fun x hx => decide_eq_true (hp x hx), alter_of_pos hpt]

theorem Db.mem_put_agentTask (db : Db) {t u x : AgentTaskRecord} (ht : t ∈ db.agentTasks.rows) :
    x ∈ put (fun x => x.taskId = t.taskId) u db.agentTasks.rows ↔
      x = u ∨ (x ∈ db.agentTasks.rows ∧ x.taskId ≠ t.taskId) := by
  rw [mem_put ht (by simp)]
  simp

theorem Db.map_put_agentTask {β : Type} (db : Db) {t u : AgentTaskRecord}
    {f : AgentTaskRecord → β} (ht : t ∈ db.agentTasks.rows) (hf : f u = f t) :
    (put (fun x => x.taskId = t.taskId) u db.agentTasks.rows).map f =
      db.agentTasks.rows.map f :=
  map_put (fun _ hx hid => db.agentTask_unique hx ht (of_decide_eq_true hid)) hf

theorem leasedTask_some {lease : AgentTaskLease} {now : Time} (h : leasedTask db lease now = some t)
    : t ∈ db.agentTasks.rows ∧ t.taskId = lease.taskId ∧
      t.leaseOwner = some lease.ownerId ∧ t.leaseExpiresAt = some (pgTime lease.expiresAt) ∧
      now < pgTime lease.expiresAt := by
  have hcond := List.find?_some h
  simp only [Bool.and_eq_true, decide_eq_true_eq] at hcond
  obtain ⟨⟨⟨hid, howner⟩, hexpires⟩, hlive⟩ := hcond
  refine ⟨List.mem_of_find?_eq_some h, hid, howner, hexpires, ?_⟩
  simpa [hexpires] using hlive

/-! ### Claims -/

def leasedRow (t : AgentTaskRecord) (owner : Uuid) (now : Time) (state : AgentTaskState) :
    AgentTaskRecord :=
  { t with
    leaseOwner := some owner
    leaseExpiresAt := some (pgTime (now + agentTaskLeaseDuration))
    state := state
    updatedAt := pgTime now }

/-- A worker took the task. -/
structure ClaimedTask (db db' : Db) (t : AgentTaskRecord) (owner : Uuid) (now : Time)
    (state : AgentTaskState) : Prop where
  mem : t ∈ db.agentTasks.rows
  claimable : claimable (pgTime now) t = true
  live : state.live = true
  frame : ∃ ts : Table agentTaskConstraints,
    ts.rows = put (fun x => x.taskId = t.taskId) (leasedRow t owner now state)
      db.agentTasks.rows ∧ db' = { db with agentTasks := ts }

def ClaimedTask.lease (t : AgentTaskRecord) (owner : Uuid) (now : Time) : AgentTaskLease where
  taskId := t.taskId
  ownerId := owner
  expiresAt := pgTime (now + agentTaskLeaseDuration)

theorem claimed_live {now : Time} (h : claimable now t = true) :
    (if t.state = .queued then AgentTaskState.running else t.state).live = true := by
  rw [claimable, Bool.and_eq_true] at h
  split_ifs
  · rfl
  · exact h.1

theorem claimAgentTask_ok {task owner : Uuid} {now : Time}
    {ending : Ending StoreError (Option AgentTaskLease)}
    (h : (claimAgentTask task owner now).exec db = .ok (ending, db')) :
    (ending = .commit (.ok none) ∧ db' = db) ∨
      ∃ t state, t.taskId = task ∧ ClaimedTask db db' t owner now state ∧
        ending = .commit (.ok (some (ClaimedTask.lease t owner now))) := by
  simp only [claimAgentTask, Prog.exec_bind_ok, Prog.exec_acquire_ok, Prog.exec_returning_ok,
    Prog.exec_pure_ok] at h
  obtain ⟨_, _, rfl, row, mid, ⟨hrow, hwrite⟩, rfl, rfl⟩ := h
  obtain ⟨ts, hts, rfl⟩ := Db.updateAgentTasks_some hwrite
  cases row with
  | none =>
      have hsame : ts.rows = db.agentTasks.rows := by
        rw [hts, ← List.map_id db.agentTasks.rows, List.map_map]
        refine List.map_congr_left fun t ht => ?_
        exact alter_of_neg (by simpa using List.find?_eq_none.mp hrow t ht)
      exact .inl ⟨rfl, by rw [Table.ext hsame]⟩
  | some t =>
      have hcond := List.find?_some hrow
      have hmem := List.mem_of_find?_eq_some hrow
      have hrows := hts.trans (db.alter_agentTask hmem hcond fun x hx => ?_)
      · rw [Bool.and_eq_true, decide_eq_true_eq] at hcond
        refine .inr ⟨t, _, hcond.1, ⟨hmem, hcond.2, ?_, ts, hrows, rfl⟩, rfl⟩
        exact claimed_live hcond.2
      · rw [Bool.and_eq_true, decide_eq_true_eq] at hx hcond
        exact hx.1.trans hcond.1.symm

theorem claimFirst_ok {agent owner : Uuid} {now : Time} {candidates : List AgentTaskRecord}
    {ending : Ending StoreError (Option AgentTaskLease)}
    (h : (claimFirst agent owner now candidates).exec db = .ok (ending, db')) :
    (ending = .commit (.ok none) ∧ db' = db) ∨
      ∃ t, t.agentId = agent ∧ ClaimedTask db db' t owner now .running ∧
        ending = .commit (.ok (some (ClaimedTask.lease t owner now))) := by
  simp only [claimFirst, Prog.exec_bind_ok] at h
  obtain ⟨row, locked, hlock, h⟩ := h
  obtain ⟨heq, hrow⟩ := lockFirst_ok hlock
  rw [heq] at h
  cases row with
  | none =>
      obtain ⟨rfl, rfl⟩ := Prog.exec_pure_ok.mp h
      exact .inl ⟨rfl, rfl⟩
  | some t =>
      simp only [Prog.exec_bind_ok, Prog.exec_execute_ok, Prog.exec_pure_ok] at h
      obtain ⟨_, _, hwrite, rfl, rfl⟩ := h
      obtain ⟨ts, hts, rfl⟩ := Db.updateAgentTasks_some hwrite
      obtain ⟨hmem, hagent, hclaimable⟩ := hrow t rfl
      refine .inr ⟨t, hagent, ⟨hmem, hclaimable, rfl, ts, ?_, rfl⟩, rfl⟩
      exact hts.trans (db.alter_agentTask hmem (by simp) fun x hx => of_decide_eq_true hx)

theorem claimOldestQueuedAgentTask_ok {agent owner : Uuid} {now : Time}
    {ending : Ending StoreError (Option AgentTaskLease)}
    (h : (claimOldestQueuedAgentTask agent owner now).exec db = .ok (ending, db')) :
    (ending = .commit (.ok none) ∧ db' = db) ∨
      ∃ t, t.agentId = agent ∧ ClaimedTask db db' t owner now .running ∧
        ending = .commit (.ok (some (ClaimedTask.lease t owner now))) := by
  simp only [claimOldestQueuedAgentTask, Prog.exec_bind_ok, Prog.exec_acquire_ok,
    Prog.exec_query_ok] at h
  obtain ⟨_, _, rfl, candidates, _, ⟨-, rfl⟩, h⟩ := h
  exact claimFirst_ok h

/-! ### Updates -/

/-- The event of an accepted update. -/
def updateEvent (t : AgentTaskRecord) (update : AgentTaskUpdate) (payload : Json)
    (requestId : Uuid) : NewEvent where
  roomId := t.roomId
  requestId := requestId
  eventType := update.eventType
  actorId := t.agentId
  actorRole := .agent
  actorDisplayName := none
  payload := payload
  occurredAt := update.occurredAt

def findUpdate (db : Db) (task update : Uuid) : Option AgentTaskUpdateRow :=
  db.agentTaskUpdates.rows.find? fun u => u.taskId = task && u.updateId = update

/-- The worker under the lease reported something new about the task `t`. -/
structure UpdatedTask (env : Env) (db db' : Db) (t : AgentTaskRecord) (lease : AgentTaskLease)
    (txNow : Time) (update : AgentTaskUpdate) (state : AgentTaskState) (payload : Json)
    (e : RoomEvent) : Prop where
  leased : leasedTask db lease (pgTime txNow) = some t
  live : t.state.live = true
  state_eq : stateForUpdate update.eventType = .ok state
  normalized : normalizedAgentTaskUpdatePayload t update.payload = .ok payload
  unknown : findUpdate db t.taskId update.updateId = none
  frame : ∃ (requestId eventId : Uuid) (log : Table roomEventConstraints)
    (us : Table agentTaskUpdateConstraints) (ts : Table agentTaskConstraints),
    isValidRoomEvent env eventId (updateEvent t update payload requestId) = true ∧
    Appended db (updateEvent t update payload requestId) eventId e log ∧
    us.rows = db.agentTaskUpdates.rows ++ [⟨t.taskId, update.updateId, [e.eventId]⟩] ∧
    ts.rows = put (fun x => x.taskId = t.taskId)
      { t with state := state, updatedAt := pgTime update.occurredAt } db.agentTasks.rows ∧
    db' = { db with roomEvents := log, agentTaskUpdates := us, agentTasks := ts }

/-- An update that was recorded before is answered from the log. -/
structure RepeatedUpdate (db : Db) (t : AgentTaskRecord) (lease : AgentTaskLease) (txNow : Time)
    (update : AgentTaskUpdate) (events : List RoomEvent) : Prop where
  leased : leasedTask db lease (pgTime txNow) = some t
  known : ∃ row, findUpdate db t.taskId update.updateId = some row ∧
    events = eventsById db row.eventIds
  same : ∃ payload, normalizedAgentTaskUpdatePayload t update.payload = .ok payload ∧
    isMatchingAgentTaskUpdate events update payload = true

theorem recordAgentTaskUpdateWithOutcome_ok {lease : AgentTaskLease} {update : AgentTaskUpdate}
    {txNow now : Time} {fresh : Nat → Uuid} {ending : Ending StoreError AgentTaskUpdateResult}
    (h : (recordAgentTaskUpdateWithOutcome env lease update txNow now fresh).exec db =
      .ok (ending, db')) :
    (∃ t events, RepeatedUpdate db t lease txNow update events ∧
      ending = .rollback ⟨t.taskId, events, true⟩ ∧ db' = db) ∨
    ∃ t state payload e, UpdatedTask env db db' t lease txNow update state payload e ∧
      ending = .commit (.ok ⟨t.taskId, [e], false⟩) := by
  simp only [recordAgentTaskUpdateWithOutcome, lockRoom, Prog.exec_bind_ok, Prog.exec_acquire_ok,
    Prog.exec_query_ok, Prog.exec_orFail_ok, Prog.exec_ofExcept_ok] at h
  obtain ⟨_, _, rfl, _, _, ⟨rfl, rfl⟩, t, _, ⟨hleased, rfl⟩, _, _, rfl, payload, _,
    ⟨hpayload, rfl⟩, known, _, ⟨hknown, rfl⟩, h⟩ := h
  cases known with
  | some row =>
      simp only [Prog.exec_bind_ok, Prog.exec_query_ok, Prog.exec_ensure_ok,
        Prog.exec_pure_ok] at h
      obtain ⟨events, _, ⟨rfl, rfl⟩, _, _, ⟨hmatch, rfl⟩, rfl, rfl⟩ := h
      exact .inl ⟨t, _, ⟨hleased, ⟨row, hknown, rfl⟩, payload, hpayload, hmatch⟩, rfl, rfl⟩
  | none =>
      simp only [Prog.exec_bind_ok, Prog.exec_ensure_ok, Prog.exec_ofExcept_ok,
        Prog.exec_execute_ok, Prog.exec_pure_ok] at h
      obtain ⟨_, _, ⟨hlive, rfl⟩, _, _, ⟨-, rfl⟩, state, _, ⟨hstate, rfl⟩, e, _, happend, _, _,
        hinsert, _, _, hupdate, rfl, rfl⟩ := h
      obtain ⟨log, happended, hvalid, rfl⟩ := appendEventInTransaction_ok happend
      obtain ⟨us, hus, rfl⟩ := Db.insertAgentTaskUpdate_some hinsert
      obtain ⟨ts, hts, rfl⟩ := Db.updateAgentTasks_some hupdate
      obtain ⟨hmem, -⟩ := leasedTask_some hleased
      refine .inr ⟨t, state, payload, e, ⟨hleased, hlive, hstate, hpayload, hknown, _, _, log, us,
        ts, hvalid, happended, hus, ?_, rfl⟩, rfl⟩
      exact hts.trans (db.alter_agentTask hmem (by simp) fun x hx => of_decide_eq_true hx)

/-- The payload with the task's fields; whatever it had under these names it
had to agree. -/
theorem normalizedAgentTaskUpdatePayload_ok {payload normalized : Json}
    (h : normalizedAgentTaskUpdatePayload t payload = .ok normalized) :
    payload.isObject = true ∧ normalized = payload.setAll (agentTaskCore t) := by
  have hfold : ∀ (core : List (String × Json)) (object : Json),
      core.foldlM (fun (object : Json) (c : String × Json) =>
        if (object.get? c.1).any (· ≠ c.2) then Except.error StoreError.invalidAgentTask
        else .ok (object.set c.1 c.2)) object = .ok normalized →
      normalized = object.setAll core := by
    intro core
    induction core with
    | nil =>
        intro object hok
        cases hok
        rfl
    | cons c core ih =>
        intro object hok
        rw [List.foldlM_cons] at hok
        by_cases hdiffer : (object.get? c.1).any (· ≠ c.2) = true
        · rw [if_pos hdiffer] at hok
          cases hok
        · rw [if_neg hdiffer] at hok
          exact ih _ hok
  unfold normalizedAgentTaskUpdatePayload at h
  cases hobject : payload.isObject with
  | false =>
      rw [hobject] at h
      cases h
  | true =>
      rw [hobject] at h
      exact ⟨rfl, hfold _ _ h⟩

/-- So it carries the task's fields. -/
theorem normalizedAgentTaskUpdatePayload_core {payload normalized : Json}
    (h : normalizedAgentTaskUpdatePayload t payload = .ok normalized) :
    ∀ f ∈ agentTaskCore t, normalized[f.1] = f.2 := by
  obtain ⟨hobject, rfl⟩ := normalizedAgentTaskUpdatePayload_ok h
  intro f hf
  have hnodup : ((agentTaskCore t).map (·.1)).Nodup := by
    simp [agentTaskCore]
  rw [Json.getElem_eq, Json.field, Json.get?_setAll hnodup hobject hf, Option.getD_some]

/-! ### Steps -/

/-- What a call that is in no ledger does to the tasks. -/
inductive AgentStep (env : Env) (db db' : Db) : Prop where
  | same (tasks : db'.agentTasks = db.agentTasks)
      (updates : db'.agentTaskUpdates = db.agentTaskUpdates)
  | claimed {t owner now state} (h : ClaimedTask db db' t owner now state)
  | updated {t lease txNow update state payload e}
      (h : UpdatedTask env db db' t lease txNow update state payload e)

theorem AgentStep.refl (db : Db) : AgentStep env db db := .same rfl rfl

theorem AgentStep.of_rooms (h : SameRoomTables db db') : AgentStep env db db' :=
  .same h.agentTasks h.agentTaskUpdates

end RoomGateway
