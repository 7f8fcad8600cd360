import RoomGateway.Lib.Locking
import RoomGateway.Spec.TaskLog

/-!
The calls of the workers side by side, statement by statement. The row of a
task is locked by every call that takes or uses a lease on it, so each call
might as well have run alone when it ended; only where a claim of the oldest
task looks for candidates, and where a lease or a context is looked up, other
calls may come in between.
-/

namespace RoomGateway

open Locking Table

variable {env : Env} {db db' : Db}

/-! ### The calls -/

inductive LeaseCall where
  | claim (task owner : Uuid) (now : Time)
  | claimOldest (agent owner : Uuid) (now : Time)
  /-- The handlers first look up the lease that a token stands for. -/
  | lookup (task token : Uuid) (now : Time)
  | context (lease : AgentTaskLease) (txNow : Time)
  | update (lease : AgentTaskLease) (report : AgentTaskUpdate) (txNow now : Time)
      (fresh : Nat → Uuid)

def LeaseCall.Answer : LeaseCall → Type
  | claim .. | claimOldest .. | lookup .. => Option AgentTaskLease
  | context .. => Option AgentTaskContext
  | update .. => AgentTaskUpdateResult

def LeaseCall.body (env : Env) : (c : LeaseCall) → Tx StoreError (Ending StoreError c.Answer)
  | claim task owner now => claimAgentTask task owner now
  | claimOldest agent owner now => claimOldestQueuedAgentTask agent owner now
  | lookup task token now => do
      let lease ← .query .database fun db => matchingLiveLease db task token now
      return .rollback lease
  | context lease txNow => readContext lease txNow
  | update lease report txNow now fresh =>
      recordAgentTaskUpdateWithOutcome env lease report txNow now fresh

abbrev LeaseEntry := Finished Db StoreError LeaseCall.Answer

/-- The calls side by side, from a store. -/
abbrev workers (env : Env) (init : Db) := sideBySide (LeaseCall.body env) init

/-- How a call ends, given the history before it: an update and a claim of a
task as if alone, a claim of the oldest task as if alone with some candidates,
and what is only looked up is as of some moment since the call began. -/
def LeaseCall.Spec (env : Env) (init : Db) : (c : LeaseCall) → (began : Nat) →
    Except StoreError c.Answer → List LeaseEntry → Db → Prop
  | claim task owner now, _, result, history, after =>
      (claimAgentTask task owner now).runTx (store init history) = (result, after)
  | claimOldest agent owner now, _, result, history, after => ∃ candidates,
      (claimFirst agent owner now candidates).runTx (store init history) = (result, after)
  | lookup task token now, began, result, history, after =>
      after = store init history ∧ ∃ i, began ≤ i ∧ i ≤ history.length ∧
        result = .ok (matchingLiveLease (store init (history.take i)) task token now)
  | context lease txNow, began, result, history, after =>
      after = store init history ∧ ∃ i j, began ≤ i ∧ i ≤ j ∧ j ≤ history.length ∧
        result = .ok ((leasedTask (store init (history.take i)) lease (pgTime txNow)).map
          (taskContext (store init (history.take j))))
  | update lease report txNow now fresh, _, result, history, after =>
      (recordAgentTaskUpdateWithOutcome env lease report txNow now fresh).runTx
        (store init history) = (result, after)

/-! ### What the locks protect -/

def Db.rowsOfTask (db : Db) (task : Uuid) : List AgentTaskRecord :=
  db.agentTasks.rows.filter fun t => t.taskId = task

def Db.updatesOfTask (db : Db) (task : Uuid) : List AgentTaskUpdateRow :=
  db.agentTaskUpdates.rows.filter fun u => u.taskId = task

/-- The events of every recorded update are in the log. -/
def UpdatesLogged (db : Db) : Prop :=
  ∀ u ∈ db.agentTaskUpdates.rows, ∀ id ∈ u.eventIds, ∃ e ∈ db.roomEvents.rows, e.eventId = id

/-- What a call may rely on: a task whose row it has locked stays with its
updates, a room it has locked gets no event, and recorded updates keep their
events anyway. -/
structure KeptFor (held : List LockKey) (db db' : Db) : Prop where
  rows : ∀ task, .agentTaskRow task ∈ held → db'.rowsOfTask task = db.rowsOfTask task
  updates : ∀ task, .agentTaskRow task ∈ held → db'.updatesOfTask task = db.updatesOfTask task
  log : ∀ room, .room room ∈ held → db'.eventsOf room = db.eventsOf room
  known : ∀ u ∈ db.agentTaskUpdates.rows, u ∈ db'.agentTaskUpdates.rows ∧
    eventsById db' u.eventIds = eventsById db u.eventIds
  logged : UpdatesLogged db → UpdatesLogged db'

def taskRely : Rely Db LockKey where
  rel := KeptFor
  refl _ _ := ⟨fun _ _ => rfl, fun _ _ => rfl, fun _ _ => rfl, fun _ hu => ⟨hu, rfl⟩, id⟩
  trans h h' := by
    refine ⟨fun task ht => (h'.rows task ht).trans (h.rows task ht),
      fun task ht => (h'.updates task ht).trans (h.updates task ht),
      fun room hr => (h'.log room hr).trans (h.log room hr), fun u hu => ?_,
      fun hlogged => h'.logged (h.logged hlogged)⟩
    obtain ⟨hu', hevents⟩ := h.known u hu
    obtain ⟨hu'', hevents'⟩ := h'.known u hu'
    exact ⟨hu'', hevents'.trans hevents⟩
  antitone hsub h := ⟨fun task ht => h.rows task (hsub ht), fun task ht => h.updates task (hsub ht),
    fun room hr => h.log room (hsub hr), h.known, h.logged⟩
  inv := UpdatesLogged
  keeps h := h.logged

/-! Each read is of something that is protected. -/

theorem find?_rowsOfTask (db : Db) (task : Uuid) (p : AgentTaskRecord → Bool) :
    (db.agentTasks.rows.find? fun t => t.taskId = task && p t) = (db.rowsOfTask task).find? p := by
  simp [Db.rowsOfTask, List.find?_filter]

theorem leasedTask_eq (db : Db) (lease : AgentTaskLease) (now : Time) :
    leasedTask db lease now = (db.rowsOfTask lease.taskId).find? fun t =>
      t.leaseOwner = some lease.ownerId && t.leaseExpiresAt = some (pgTime lease.expiresAt) &&
        t.leaseExpiresAt.any (now < ·) := by
  rw [← find?_rowsOfTask, leasedTask]
  simp only [Bool.and_assoc]

theorem findUpdate_eq (db : Db) (task update : Uuid) :
    findUpdate db task update = (db.updatesOfTask task).find? fun u => u.updateId = update := by
  simp [Db.updatesOfTask, List.find?_filter, findUpdate]

theorem rowsOfTask_put {t u : AgentTaskRecord} {ts : Table agentTaskConstraints} {task : Uuid}
    (hts : ts.rows = put (fun x => x.taskId = t.taskId) u db.agentTasks.rows)
    (hid : u.taskId = t.taskId) (hne : task ≠ t.taskId) :
    ts.rows.filter (fun t => t.taskId = task) = db.rowsOfTask task := by
  rw [hts, Db.rowsOfTask]
  refine filter_put (fun r hr => ?_) (by simp [hid, Ne.symm hne])
  simp [of_decide_eq_true hr, Ne.symm hne]

/-- What a claim changes is under the lock of the row. -/
theorem ClaimedTask.guarantee {t : AgentTaskRecord} {owner : Uuid} {now : Time}
    {state : AgentTaskState} {held : List LockKey} (h : ClaimedTask db db' t owner now state)
    (hheld : .agentTaskRow t.taskId ∈ held) : Guarantee taskRely held db db' := by
  obtain ⟨ts, hts, rfl⟩ := h.frame
  intro other hother
  refine ⟨fun task htask => ?_, fun _ _ => rfl, fun _ _ => rfl, fun _ hu => ⟨hu, rfl⟩, id⟩
  have hne : task ≠ t.taskId := by
    rintro rfl
    exact hother _ htask hheld
  exact rowsOfTask_put hts rfl hne

theorem UpdatesLogged.of_same (h : UpdatesLogged db)
    (hupdates : db'.agentTaskUpdates = db.agentTaskUpdates) (hlog : LogExtends db db') :
    UpdatesLogged db' := by
  intro u hu id hid
  rw [hupdates] at hu
  obtain ⟨e, he, heid⟩ := h u hu id hid
  exact ⟨e, hlog.mem he, heid⟩

theorem UpdatesLogged.updated {t : AgentTaskRecord} {lease : AgentTaskLease} {txNow : Time}
    {update : AgentTaskUpdate} {state : AgentTaskState} {payload : Json} {e : RoomEvent}
    (h : UpdatesLogged db)
    (hupdated : UpdatedTask env db db' t lease txNow update state payload e) :
    UpdatesLogged db' := by
  obtain ⟨_, _, log, us, ts, -, happended, hus, -, rfl⟩ := hupdated.frame
  intro u hu id hid
  change u ∈ us.rows at hu
  change ∃ e ∈ log.rows, _
  rw [hus, List.mem_append, List.mem_singleton] at hu
  rw [happended.rows]
  rcases hu with hu | rfl
  · obtain ⟨x, hx, hxid⟩ := h u hu id hid
    exact ⟨x, List.mem_append_left _ hx, hxid⟩
  · exact ⟨e, by simp, (List.mem_singleton.mp hid).symm⟩

/-- What an update changes is under the locks of the row and the room. -/
theorem UpdatedTask.guarantee {t : AgentTaskRecord} {lease : AgentTaskLease} {txNow : Time}
    {update : AgentTaskUpdate} {state : AgentTaskState} {payload : Json} {e : RoomEvent}
    {held : List LockKey} (h : UpdatedTask env db db' t lease txNow update state payload e)
    (hlogged : UpdatesLogged db) (hrow : .agentTaskRow t.taskId ∈ held)
    (hroom : .room t.roomId ∈ held) : Guarantee taskRely held db db' := by
  have hlogged' := hlogged.updated h
  obtain ⟨requestId, eventId, log, us, ts, -, happended, hus, hts, rfl⟩ := h.frame
  have heroom : e.roomId = t.roomId := by rw [happended.row]; rfl
  intro other hother
  have hnetask : ∀ task, .agentTaskRow task ∈ other → task ≠ t.taskId := by
    rintro task htask rfl
    exact hother _ htask hrow
  refine ⟨fun task htask => ?_, fun task htask => ?_, fun room hin => ?_, fun u hu => ⟨?_, ?_⟩,
    fun _ => hlogged'⟩
  · exact rowsOfTask_put hts rfl (hnetask task htask)
  · change us.rows.filter _ = _
    rw [hus, List.filter_append]
    simp [Db.updatesOfTask, Ne.symm (hnetask task htask)]
  · have hne : t.roomId ≠ room := by
      rintro rfl
      exact hother _ hin hroom
    change log.rows.filter _ = _
    rw [happended.rows, List.filter_append]
    simp [Db.eventsOf, heroom, hne]
  · change u ∈ us.rows
    rw [hus]
    exact List.mem_append_left _ hu
  · -- the new event has an id of its own, so no recorded update has it
    have hnew : e.eventId ∉ u.eventIds := by
      intro hid
      obtain ⟨x, hx, hxid⟩ := hlogged u hu _ hid
      have hclash := happended.fresh x hx
      simp [roomEventConstraints, hxid] at hclash
    change bySequence (log.rows.filter _) = bySequence _
    rw [happended.rows, List.filter_append, List.filter_cons, if_neg (by simpa using hnew),
      List.filter_nil, List.append_nil]

/-! ### The bodies -/

/-- What a claim of one task reads is the task's row. -/
theorem claimAgentTask_guarded (task owner : Uuid) (now : Time) :
    Guarded taskRely (claimAgentTask task owner now) (claimAgentTask task owner now) []
      UpdatesLogged [] := by
  unfold claimAgentTask
  refine guarded_acquire (guarded_returning ?_ ?_)
  · rintro s s' view view' hrely - - hview hview'
    cases hview
    cases hview'
    rw [find?_rowsOfTask, find?_rowsOfTask, hrely.rows task (by simp)]
  · intro s view _ _ s view hknown hview hexec
    obtain ⟨-, hsame⟩ | ⟨t, state, rfl, h, -⟩ := claimAgentTask_ok hexec
    · rw [hsame]
      exact fun _ _ => taskRely.refl _ _
    · exact h.guarantee (by simp)

/-- The candidates are locked one by one, and each is read again under its
lock. -/
theorem lockFirst_guarded {β : Type} {body : Tx StoreError (Ending StoreError β)}
    {agent : Uuid} {now : Time} {k : Option AgentTaskRecord → Tx StoreError (Ending StoreError β)}
    (hnone : ∀ held P, Guarded taskRely body (k none) held P [])
    (hsome : ∀ row held P, .agentTaskRow row.taskId ∈ held →
      Guarded taskRely body (k (some row)) held P [])
    (candidates : List AgentTaskRecord) (held : List LockKey) (P : Db → Prop) :
    Guarded taskRely body (lockFirst agent now candidates >>= k) held P [] := by
  induction candidates generalizing held P with
  | nil => exact hnone held P
  | cons t candidates ih =>
      rw [lockFirst, Prog.bind_assoc]
      refine guarded_acquire ?_
      rw [Prog.bind_assoc]
      refine guarded_query ?_ ?_
      · rintro s s' view view' hrely - - hview hview'
        cases hview
        cases hview'
        simp only [Bool.and_assoc]
        rw [find?_rowsOfTask, find?_rowsOfTask, hrely.rows t.taskId (by simp)]
      · intro s view _ _
        split
        · next row hrow =>
            have hid := List.find?_some hrow
            simp only [Bool.and_eq_true, decide_eq_true_eq] at hid
            exact hsome row _ _ (by simp [hid.1.1])
        · exact ih _ _

theorem claimFirst_guarded (agent owner : Uuid) (now : Time) (candidates : List AgentTaskRecord)
    (held : List LockKey) (P : Db → Prop) :
    Guarded taskRely (claimFirst agent owner now candidates)
      (claimFirst agent owner now candidates) held P [] := by
  refine lockFirst_guarded ?_ ?_ _ _ _
  · intro held P s view _ hview _
    cases hview
    exact fun _ _ => taskRely.refl _ _
  · intro row held P hheld
    refine guarded_execute fun s view _ _ hexec => ?_
    obtain ⟨hnone, -⟩ | ⟨t, -, h, hsome⟩ := claimFirst_ok hexec
    · cases hnone
    · -- the lease that is returned names the row
      have hid : row.taskId = t.taskId := by
        injection hsome with hsome
        injection hsome with hsome
        exact congrArg AgentTaskLease.taskId (Option.some.inj hsome)
      exact h.guarantee (hid ▸ hheld)

/-- An update reads the row it has locked, the updates of that task, and the
log of the room it has locked. -/
theorem recordAgentTaskUpdateWithOutcome_guarded (lease : AgentTaskLease)
    (report : AgentTaskUpdate) (txNow now : Time) (fresh : Nat → Uuid) :
    Guarded taskRely (recordAgentTaskUpdateWithOutcome env lease report txNow now fresh)
      (recordAgentTaskUpdateWithOutcome env lease report txNow now fresh) [] UpdatesLogged [] := by
  refine guarded_acquire (guarded_query ?_ ?_)
  · rintro s s' view view' hrely - - hview hview'
    cases hview
    cases hview'
    rw [leasedTask_eq, leasedTask_eq, hrely.rows lease.taskId (by simp)]
  intro db₀ view₀ _ _
  refine guarded_orFail fun t ht => guarded_acquire (guarded_ofExcept fun payload _ =>
    guarded_query ?_ ?_)
  · rintro s s' view view' hrely - - hview hview'
    cases hview
    cases hview'
    change findUpdate _ _ _ = findUpdate _ _ _
    obtain ⟨-, hid, -⟩ := leasedTask_some ht
    rw [findUpdate_eq, findUpdate_eq, hrely.updates t.taskId (by simp [hid])]
  intro db₁ view₁ _ _
  split
  · next row hrow =>
      refine guarded_query ?_ fun _ _ _ _ => guarded_ensure fun _ => trivial
      rintro s s' view view' hrely ⟨-, hknown⟩ - hview hview'
      cases hview
      cases hview'
      have hmem := List.mem_of_find?_eq_some ((hknown _ rfl).trans hrow)
      exact (hrely.known row hmem).2
  · refine guarded_ensure fun _ => guarded_ofExcept fun _ _ => guarded_ofExcept fun state _ => ?_
    rw [appendEventInTransaction, Prog.bind_assoc]
    refine guarded_ensure fun _ => guarded_returning ?_ ?_
    · rintro s s' view view' hrely - - hview hview'
      cases hview
      cases hview'
      rw [Db.maxSequence, Db.maxSequence, hrely.log t.roomId (by simp)]
    · intro _ _ _ _
      refine guarded_execute (guarded_execute ?_)
      rintro s view ⟨⟨⟨hlogged, hleased⟩, -⟩, -⟩ _ hexec
      obtain ⟨_, _, -, hrollback, -⟩ | ⟨u, _, _, e, h, -⟩ :=
        recordAgentTaskUpdateWithOutcome_ok hexec
      · cases hrollback
      · -- the task is the one whose room was locked
        have hsame : u = t := by
          have hread := (hleased s rfl).trans ht
          rw [h.leased] at hread
          exact Option.some.inj hread
        subst hsame
        obtain ⟨-, hid, -⟩ := leasedTask_some ht
        exact h.guarantee hlogged (by simp [hid]) (by simp)

/-! ### The calls end as specified -/

section Upholds

variable (init : Db) (began : Nat)

theorem take_of_isPrefix {α : Type} {first history : List α} (h : first <+: history) :
    history.take first.length = first :=
  (List.prefix_iff_eq_take.mp h).symm

theorem lookup_upholds (task token : Uuid) (now : Time) :
    Upholds taskRely init (LeaseCall.Spec env init (.lookup task token now) began)
      (LeaseCall.body env (.lookup task token now)) [] (Beginning taskRely init began) [] := by
  refine upholds_query fun first hfirst history view hprefix _ => ?_
  refine ⟨rfl, first.length, hfirst.1, hprefix.length_le, ?_⟩
  rw [take_of_isPrefix hprefix]

theorem readContext_upholds (lease : AgentTaskLease) (txNow : Time) :
    Upholds taskRely init (LeaseCall.Spec env init (.context lease txNow) began)
      (LeaseCall.body env (.context lease txNow)) [] (Beginning taskRely init began) [] := by
  refine upholds_query fun first hfirst => ?_
  cases hleased : leasedTask (store init first) lease (pgTime txNow) with
  | none =>
      intro history view hprefix _
      refine ⟨rfl, first.length, first.length, hfirst.1, Nat.le_refl _, hprefix.length_le, ?_⟩
      rw [take_of_isPrefix hprefix, hleased]
      rfl
  | some t =>
      refine upholds_query fun second hsecond history view hprefix _ => ?_
      refine ⟨rfl, first.length, second.length, hfirst.1, hsecond.length_le, hprefix.length_le, ?_⟩
      rw [take_of_isPrefix (hsecond.trans hprefix), take_of_isPrefix hprefix, hleased]
      rfl

theorem claimOldest_upholds (agent owner : Uuid) (now : Time) :
    Upholds taskRely init (LeaseCall.Spec env init (.claimOldest agent owner now) began)
      (LeaseCall.body env (.claimOldest agent owner now)) []
        (Beginning taskRely init began) [] := by
  refine upholds_acquire (upholds_query fun first _ => ?_)
  refine Upholds.mono (Guarded.upholds (K := fun _ => True)
    (claimFirst_guarded agent owner now _ [.agentQueue agent] fun _ => True) (fun _ _ => trivial)
    (fun _ _ _ _ => trivial) ?_) (fun _ _ => trivial) (fun _ _ _ h => ⟨_, h⟩) fun _ => rfl
  intro s view _ hview
  cases hview
  rfl

theorem lease_upholds (c : LeaseCall) :
    Upholds taskRely init (LeaseCall.Spec env init c began) (LeaseCall.body env c) []
      (Beginning taskRely init began) [] := by
  cases c with
  | claim task owner now =>
      exact (claimAgentTask_guarded task owner now).upholds_alone began
  | claimOldest agent owner now => exact claimOldest_upholds init began agent owner now
  | lookup task token now => exact lookup_upholds init began task token now
  | context lease txNow => exact readContext_upholds init began lease txNow
  | update lease report txNow now fresh =>
      exact (recordAgentTaskUpdateWithOutcome_guarded lease report txNow now
        fresh).upholds_alone began

end Upholds

/-- Every call in every history ends as specified. -/
theorem workers_serial {init : Db} (hinit : UpdatesLogged init)
    (acts : List (Locking.Act LeaseCall))
    (i : Nat) (f : LeaseEntry) (hf : ((workers env init).run acts).history[i]? = some f) :
    LeaseCall.Spec env init f.call f.began f.result
      (((workers env init).run acts).history.take i) f.after :=
  finished_upholds (R := taskRely) (Q := fun c => LeaseCall.Spec env init c) hinit
    (fun c began => lease_upholds init began c) acts i f hf

end RoomGateway
