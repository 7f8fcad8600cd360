import RoomGateway.Spec.Packets
import RoomGateway.Spec.TaskLocks

/-!
Leases over whole histories of the workers' calls. The expiry of a task's lease
only moves forward, and a claim moves it beyond every lease that was given out
before; so a lease is taken over only when it has expired, and it is worth
nothing afterwards. What an update recorded stays, so that the same update gets
the same answer under whichever lease is live.
-/

namespace RoomGateway

open Locking Table

variable {env : Env} {db db' : Db} {t t' : AgentTaskRecord}

/-! ### The events of the updates -/

theorem Performed.agentTaskUpdates {actor : Actor} {request : ValidatedRequest}
    {events : List RoomEvent} (h : Performed env actor db db' request events) :
    db'.agentTaskUpdates = db.agentTaskUpdates := by
  cases h with
  | started h => rw [h.eq]
  | _ => simp_all

theorem RequestEffect.updatesLogged (h : RequestEffect env db db') (hlogged : UpdatesLogged db) :
    UpdatesLogged db' := by
  have hlog := h.grows.log
  cases h with
  | aside _ agents =>
      cases agents with
      | same _ hupdates => exact hlogged.of_same hupdates hlog
      | claimed h =>
          obtain ⟨_, _, rfl⟩ := h.frame
          exact hlogged.of_same rfl hlog
      | updated h => exact hlogged.updated h
  | processed _ _ performed ledgered =>
      obtain ⟨_, _, rfl⟩ := ledgered.frame
      exact hlogged.of_same performed.agentTaskUpdates hlog
  | started _ h ledgered =>
      obtain ⟨_, _, rfl⟩ := ledgered.frame
      refine hlogged.of_same ?_ hlog
      rw [h.eq]
  | reserved h =>
      obtain ⟨_, _, _, _, rfl⟩ := h.frame
      exact hlogged.of_same rfl hlog

theorem gateway_updatesLogged (ops : List Op) : UpdatesLogged ((gateway env).run ops).db :=
  Machine.run_invariant (P := fun s : Sys => UpdatesLogged s.db)
    (by simp [UpdatesLogged, gateway])
    (fun s op h => (gateway_requestEffect s op).updatesLogged h) ops

/-! ### One call -/

theorem pgTime_lt_lease (now : Int) : pgTime now < pgTime (now + agentTaskLeaseDuration) := by
  change (now / 1000 * 1000 : Int) < (now + 300 * 1000000000) / 1000 * 1000
  omega

/-- The call gave out the lease. -/
inductive GaveLease : LeaseEntry → AgentTaskLease → Time → Prop where
  | task {task owner now began lease after} :
      GaveLease ⟨.claim task owner now, began, .ok (some lease), after⟩ lease now
  | oldest {agent owner now began lease after} :
      GaveLease ⟨.claimOldest agent owner now, began, .ok (some lease), after⟩ lease now

/-- The call recorded the update as the event `e`. -/
inductive RecordedUpdate : LeaseEntry → AgentTaskLease → AgentTaskUpdate → RoomEvent → Prop where
  | mk {lease report txNow now fresh began taskId e after} :
      RecordedUpdate ⟨.update lease report txNow now fresh, began,
        .ok ⟨taskId, [e], false⟩, after⟩ lease
        report e

/-- What one call does; `gave` tells which lease it gave out. -/
inductive LeaseStep (env : Env) (gave : AgentTaskLease → Time → Prop) (db db' : Db) : Prop where
  | same (eq : db' = db)
  | claimed {t owner now state} (h : ClaimedTask db db' t owner now state)
      (lease : gave (ClaimedTask.lease t owner now) now)
  | updated {t lease txNow update state payload e}
      (h : UpdatedTask env db db' t lease txNow update state payload e)

theorem LeaseStep.of_runTx {gave : AgentTaskLease → Time → Prop} {α : Type}
    {p : Tx StoreError (Ending StoreError α)} {result : Except StoreError α}
    (h : p.runTx db = (result, db'))
    (hcommit : p.exec db = .ok (.commit result, db') → LeaseStep env gave db db') :
    LeaseStep env gave db db' := by
  have hstore := p.runTx_store db
  rw [h] at hstore
  obtain hsame | ⟨r, hexec⟩ := hstore
  · exact .same hsame
  · rw [Prog.runTx, hexec] at h
    cases h
    exact hcommit hexec

theorem LeaseCall.Spec.step {init after : Db} {began : Nat} {history : List LeaseEntry} :
    (c : LeaseCall) → {result : Except StoreError c.Answer} →
      LeaseCall.Spec env init c began result history after →
        LeaseStep env (GaveLease ⟨c, began, result, after⟩) (store init history) after
  | .claim .., _, h => .of_runTx h fun hexec => by
      obtain ⟨-, hsame⟩ | ⟨_, _, -, hclaim, hending⟩ := claimAgentTask_ok hexec
      · exact .same hsame
      · cases hending
        exact .claimed hclaim .task
  | .claimOldest .., _, ⟨_, h⟩ => .of_runTx h fun hexec => by
      obtain ⟨-, hsame⟩ | ⟨_, -, hclaim, hending⟩ := claimFirst_ok hexec
      · exact .same hsame
      · cases hending
        exact .claimed hclaim .oldest
  | .lookup .., _, h => .same h.1
  | .context .., _, h => .same h.1
  | .update .., _, h => .of_runTx h fun hexec => by
      obtain ⟨_, _, -, -, hsame⟩ | ⟨_, _, _, _, h, -⟩ := recordAgentTaskUpdateWithOutcome_ok hexec
      · exact .same hsame
      · exact .updated h

/-! ### What stays -/

/-- From one store to a later one: tasks stay the same, the expiry of a lease
does not go back, and updates keep their events. -/
structure Later (db db' : Db) : Prop where
  named : TasksNamed db db'
  kept : KeptFor [] db db'
  expiry : ∀ t ∈ db.agentTasks.rows, ∀ t' ∈ db'.agentTasks.rows, t'.taskId = t.taskId →
    ∀ x ∈ t.leaseExpiresAt, ∃ y ∈ t'.leaseExpiresAt, x ≤ y

namespace Later

theorem refl (db : Db) : Later db db where
  named := List.prefix_rfl
  kept := taskRely.refl _ _
  expiry t ht t' ht' hid x hx := by
    rw [db.agentTask_unique ht' ht hid]
    exact ⟨x, hx, Int.le_refl x⟩

theorem trans {a b c : Db} (hab : Later a b) (hbc : Later b c) : Later a c where
  named := hab.named.trans hbc.named
  kept := taskRely.trans hab.kept hbc.kept
  expiry t ht u hu hid x hx := by
    obtain ⟨m, hm, hsame⟩ := hab.named.exists_mem ht
    have hmid : m.taskId = t.taskId := eq_of_identity AgentTaskRecord.taskId (fun _ => rfl) hsame
    obtain ⟨y, hy, hxy⟩ := hab.expiry t ht m hm hmid x hx
    obtain ⟨z, hz, hyz⟩ := hbc.expiry m hm u hu (hid.trans hmid.symm) y hy
    exact ⟨z, hz, Int.le_trans hxy hyz⟩

/-- A call that changes one row and does not take its expiry back. -/
theorem of_put {t u : AgentTaskRecord} {ts : Table agentTaskConstraints}
    (ht : t ∈ db.agentTasks.rows) (hts : db'.agentTasks = ts)
    (hrows : ts.rows = put (fun x => x.taskId = t.taskId) u db.agentTasks.rows)
    (hsame : u.identity = t.identity) (hkept : KeptFor [] db db')
    (hexpiry : ∀ x ∈ t.leaseExpiresAt, ∃ y ∈ u.leaseExpiresAt, x ≤ y) : Later db db' where
  named := ⟨[], by rw [List.append_nil, hts, hrows, db.map_put_agentTask ht hsame]⟩
  kept := hkept
  expiry a ha b hb hid x hx := by
    rw [hts, hrows, db.mem_put_agentTask ht] at hb
    rcases hb with rfl | ⟨hb, -⟩
    · have hba : a = t := db.agentTask_unique ha ht
        (hid.symm.trans (eq_of_identity AgentTaskRecord.taskId (fun _ => rfl) hsame))
      exact hexpiry x (hba ▸ hx)
    · rw [db.agentTask_unique hb ha hid]
      exact ⟨x, hx, Int.le_refl x⟩

end Later

/-- A task is claimed when its lease has expired, if it has one. -/
theorem ClaimedTask.expired {owner : Uuid} {now : Time} {state : AgentTaskState}
    (h : ClaimedTask db db' t owner now state) : ∀ x ∈ t.leaseExpiresAt, x ≤ pgTime now := by
  intro x hx
  have hclaimable := h.claimable
  rw [RoomGateway.claimable, Bool.and_eq_true, Option.mem_def.mp hx] at hclaimable
  simpa using hclaimable.2

theorem ClaimedTask.row_mem {owner : Uuid} {now : Time} {state : AgentTaskState}
    (h : ClaimedTask db db' t owner now state) :
    leasedRow t owner now state ∈ db'.agentTasks.rows := by
  obtain ⟨ts, hts, rfl⟩ := h.frame
  change _ ∈ ts.rows
  rw [hts, db.mem_put_agentTask h.mem]
  exact .inl rfl

theorem LeaseStep.later {gave : AgentTaskLease → Time → Prop} (h : LeaseStep env gave db db')
    (hlogged : UpdatesLogged db) :
    Later db db' := by
  cases h with
  | same eq =>
      rw [eq]
      exact .refl db
  | @claimed t owner now state h _ =>
      have hkept := h.guarantee (List.mem_singleton.mpr rfl) [] (by simp)
      have hexpired := h.expired
      obtain ⟨ts, hts, rfl⟩ := h.frame
      refine .of_put h.mem rfl hts rfl hkept fun x hx => ⟨_, rfl, ?_⟩
      exact Int.le_trans (hexpired x hx) (Int.le_of_lt (pgTime_lt_lease now))
  | @updated t lease txNow update state payload e h =>
      have hkept := h.guarantee hlogged (List.mem_cons_self (l := [.room t.roomId])) (by simp) []
        (by simp)
      have hmem := (leasedTask_some h.leased).1
      obtain ⟨_, _, log, us, ts, -, -, -, hts, rfl⟩ := h.frame
      exact .of_put hmem rfl hts rfl hkept fun x hx => ⟨x, hx, Int.le_refl x⟩

/-! ### Histories -/

/-- A history in which every call ended as specified. -/
structure LeaseHistory (env : Env) (init : Db) (history : List LeaseEntry) : Prop where
  logged : UpdatesLogged init
  serial : ∀ (i : Nat) f, history[i]? = some f →
    LeaseCall.Spec env init f.call f.began f.result (history.take i) f.after

namespace LeaseHistory

variable {init : Db} {history : List LeaseEntry} {i j k : Nat} {f g : LeaseEntry}
  {lease lease' : AgentTaskLease} {now now' : Time}

theorem step (h : LeaseHistory env init history) (k : Nat) :
    LeaseStep env (fun lease now => ∃ f, history[k]? = some f ∧ GaveLease f lease now)
      (store init (history.take k)) (store init (history.take (k + 1))) := by
  cases hf : history[k]? with
  | none => exact .same (by rw [List.take_add_one, hf, Option.toList_none, List.append_nil])
  | some f =>
      rw [store_take_succ init hf]
      cases (h.serial k f hf).step with
      | same eq => exact .same eq
      | claimed h lease => exact .claimed h ⟨f, rfl, lease⟩
      | updated h => exact .updated h

theorem logged_take (h : LeaseHistory env init history) (k : Nat) :
    UpdatesLogged (store init (history.take k)) := by
  induction k with
  | zero => exact h.logged
  | succ k ih => exact ((h.step k).later ih).kept.logged ih

theorem later (h : LeaseHistory env init history) (hik : i ≤ k) :
    Later (store init (history.take i)) (store init (history.take k)) := by
  induction k, hik using Nat.le_induction with
  | base => exact .refl _
  | succ k _ ih => exact ih.trans ((h.step k).later (h.logged_take k))

theorem claimed (h : LeaseHistory env init history) (hf : history[i]? = some f)
    (hclaimed : GaveLease f lease now) : ∃ t state,
      ClaimedTask (store init (history.take i)) (store init (history.take (i + 1))) t lease.ownerId
        now state ∧ lease = ClaimedTask.lease t lease.ownerId now := by
  have hspec := h.serial i f hf
  rw [store_take_succ init hf]
  cases hclaimed with
  | @task task owner _ _ _ after =>
      have hexec := Prog.runTx_ok (p := claimAgentTask task owner now) (congrArg Prod.fst hspec)
      rw [congrArg Prod.snd hspec] at hexec
      obtain ⟨s, hrollback, -⟩ | hcommit := hexec
      · obtain ⟨hending, -⟩ | ⟨_, _, -, -, hending⟩ := claimAgentTask_ok hrollback <;> cases hending
      · obtain ⟨hending, -⟩ | ⟨t, state, -, hclaim, hending⟩ := claimAgentTask_ok hcommit
        · cases hending
        · cases hending
          exact ⟨t, state, hclaim, rfl⟩
  | @oldest agent owner _ _ _ after =>
      obtain ⟨candidates, hspec⟩ := hspec
      have hexec := Prog.runTx_ok (p := claimFirst agent owner now candidates)
        (congrArg Prod.fst hspec)
      rw [congrArg Prod.snd hspec] at hexec
      obtain ⟨s, hrollback, -⟩ | hcommit := hexec
      · obtain ⟨hending, -⟩ | ⟨_, -, -, hending⟩ := claimFirst_ok hrollback <;> cases hending
      · obtain ⟨hending, -⟩ | ⟨t, -, hclaim, hending⟩ := claimFirst_ok hcommit
        · cases hending
        · cases hending
          exact ⟨t, _, hclaim, rfl⟩

/-- A later claim of the task finds the lease expired. -/
theorem expired (h : LeaseHistory env init history) (hij : i < j) (hf : history[i]? = some f)
    (hg : history[j]? = some g) (hfirst : GaveLease f lease now) (hsecond : GaveLease g lease' now')
    (hid : lease'.taskId = lease.taskId) : lease.expiresAt ≤ pgTime now' := by
  obtain ⟨t, state, hclaim, hlease⟩ := h.claimed hf hfirst
  obtain ⟨u, _, hclaim', hlease'⟩ := h.claimed hg hsecond
  have hut : u.taskId = t.taskId := by
    rw [hlease, hlease'] at hid
    exact hid
  obtain ⟨y, hy, hle⟩ := (h.later hij).expiry _ hclaim.row_mem u hclaim'.mem hut _ rfl
  rw [hlease]
  exact Int.le_trans hle (hclaim'.expired y hy)

/-- Once the task was claimed again, the lease is not the live one. -/
theorem superseded (h : LeaseHistory env init history) (hij : i < j) (hf : history[i]? = some f)
    (hg : history[j]? = some g) (hfirst : GaveLease f lease now) (hsecond : GaveLease g lease' now')
    (hid : lease'.taskId = lease.taskId) (hjk : j < k) (at_ : Time) :
    leasedTask (store init (history.take k)) lease at_ = none := by
  have hexpired := h.expired hij hf hg hfirst hsecond hid
  obtain ⟨_, _, -, hlease⟩ := h.claimed hf hfirst
  obtain ⟨u, _, hclaim, hlease'⟩ := h.claimed hg hsecond
  cases hfound : leasedTask (store init (history.take k)) lease at_ with
  | none => rfl
  | some t =>
      -- the expiry of the row is beyond that of the lease
      obtain ⟨hmem, htask, -, hexpires, -⟩ := leasedTask_some hfound
      have hut : t.taskId = u.taskId := by
        rw [htask, ← hid, hlease']
        rfl
      obtain ⟨y, hy, hle⟩ := (h.later hjk).expiry _ hclaim.row_mem t hmem hut _ rfl
      rw [hexpires, hlease, ClaimedTask.lease, pgTime_pgTime] at hy
      rw [hlease] at hexpired
      obtain rfl := Option.some.inj hy
      exact absurd (Int.lt_of_lt_of_le (pgTime_lt_lease now') hle) (Int.not_lt.mpr hexpired)

/-- The row of a task that was claimed has the owner of the last claim. -/
theorem owner_of_row (h : LeaseHistory env init history) (hg : history[j]? = some g)
    (hgave : GaveLease g lease now) (hjk : j < k) :
    ∀ t ∈ (store init (history.take k)).agentTasks.rows, t.taskId = lease.taskId →
      ∃ m f lease' now', j ≤ m ∧ history[m]? = some f ∧ GaveLease f lease' now' ∧
        t.leaseOwner = some lease'.ownerId := by
  induction k, hjk using Nat.le_induction with
  | base =>
      intro t ht hid
      obtain ⟨u, state, hclaim, hlease⟩ := h.claimed hg hgave
      have hrow := (store init (history.take (j + 1))).agentTask_unique ht hclaim.row_mem
        (hid.trans (by rw [hlease]; rfl))
      exact ⟨j, g, lease, now, Nat.le_refl j, hg, hgave, by rw [hrow]; rfl⟩
  | succ k hjk ih =>
      intro t ht hid
      cases h.step k with
      | same eq => exact ih t (eq ▸ ht) hid
      | @claimed u owner now state hclaim hgave' =>
          obtain ⟨f, hf, hgave'⟩ := hgave'
          obtain ⟨ts, hts, heq⟩ := hclaim.frame
          rw [heq] at ht
          change t ∈ ts.rows at ht
          rw [hts, Db.mem_put_agentTask _ hclaim.mem] at ht
          rcases ht with rfl | ⟨ht, -⟩
          · exact ⟨k, f, _, now, Nat.le_of_lt hjk, hf, hgave', rfl⟩
          · exact ih t ht hid
      | @updated u _ _ _ _ _ _ hupdated =>
          have hmem := (leasedTask_some hupdated.leased).1
          obtain ⟨_, _, log, us, ts, -, -, -, hts, heq⟩ := hupdated.frame
          rw [heq] at ht
          change t ∈ ts.rows at ht
          rw [hts, Db.mem_put_agentTask _ hmem] at ht
          rcases ht with rfl | ⟨ht, -⟩
          · exact ih u hmem hid
          · exact ih t ht hid

end LeaseHistory

/-! ### Updates that were recorded -/

section Known

variable {lease : AgentTaskLease} {report : AgentTaskUpdate} {txNow now : Time}
  {fresh : Nat → Uuid}

theorem recordAgentTaskUpdateWithOutcome_unleased
    (h : leasedTask db lease (pgTime txNow) = none) :
    (recordAgentTaskUpdateWithOutcome env lease report txNow now fresh).runTx db =
      (.error .invalidAgentTask, db) := by
  have hexec : (recordAgentTaskUpdateWithOutcome env lease report txNow now fresh).exec db =
      .error .invalidAgentTask := by
    rw [recordAgentTaskUpdateWithOutcome]
    refine (Prog.exec_bind_of_ok rfl).trans ((Prog.exec_bind_of_ok rfl).trans ?_)
    refine Prog.exec_bind_of_error ?_
    dsimp only
    rw [h]
    rfl
  simp only [Prog.runTx, hexec]

/-- An update whose id is known is compared with the event it was recorded as. -/
theorem recordAgentTaskUpdateWithOutcome_known {row : AgentTaskUpdateRow} {e : RoomEvent}
    (hleased : leasedTask db lease (pgTime txNow) = some t)
    (hknown : findUpdate db t.taskId report.updateId = some row)
    (hevents : eventsById db row.eventIds = [e]) :
    (recordAgentTaskUpdateWithOutcome env lease report txNow now fresh).runTx db =
      ((normalizedAgentTaskUpdatePayload t report.payload).bind fun payload =>
        if isMatchingAgentTaskUpdate [e] report payload then
          .ok { taskId := t.taskId, events := [e], duplicate := true }
        else .error .conflictingDuplicate, db) := by
  have htask : (Prog.orFail (leasedTask db lease (pgTime txNow)) StoreError.invalidAgentTask :
      Tx StoreError AgentTaskRecord).exec db = .ok (t, db) := by
    rw [hleased]
    rfl
  rw [Prog.runTx, recordAgentTaskUpdateWithOutcome, Prog.exec_bind_of_ok rfl,
    Prog.exec_bind_of_ok rfl, Prog.exec_bind_of_ok htask, Prog.exec_bind_of_ok rfl]
  cases hpayload : normalizedAgentTaskUpdatePayload t report.payload with
  | error error => rfl
  | ok payload =>
      rw [Prog.exec_bind_of_ok rfl, Prog.exec_bind_of_ok rfl]
      rw [findUpdate] at hknown
      simp only [hknown]
      rw [Prog.exec_bind_of_ok rfl]
      simp only [hevents]
      cases hmatch : isMatchingAgentTaskUpdate [e] report payload with
      | false =>
          simp only [Except.bind, hmatch]
          rfl
      | true =>
          simp only [Except.bind, hmatch]
          rfl

end Known

/-- How an update was recorded. -/
structure RecordOf (db : Db) (task : Uuid) (report : AgentTaskUpdate) (e : RoomEvent) : Prop where
  row : ∃ row ∈ db.agentTaskUpdates.rows, row.taskId = task ∧ row.updateId = report.updateId ∧
    eventsById db row.eventIds = [e]
  eventType : e.eventType = report.eventType
  occurredAt : pgTime e.occurredAt = pgTime report.occurredAt
  payload : ∃ t ∈ db.agentTasks.rows, t.taskId = task ∧
    normalizedAgentTaskUpdatePayload t report.payload = .ok e.payload

theorem UpdatedTask.recordOf {lease : AgentTaskLease} {txNow : Time} {report : AgentTaskUpdate}
    {state : AgentTaskState} {payload : Json} {e : RoomEvent}
    (h : UpdatedTask env db db' t lease txNow report state payload e) :
    RecordOf db' lease.taskId report e := by
  obtain ⟨hmem, hid, -⟩ := leasedTask_some h.leased
  obtain ⟨requestId, eventId, log, us, ts, -, happended, hus, hts, rfl⟩ := h.frame
  have hrow := happended.row
  refine ⟨⟨⟨t.taskId, report.updateId, [e.eventId]⟩, ?_, hid, rfl, ?_⟩, ?_, ?_, ?_⟩
  · change _ ∈ us.rows
    simp [hus]
  · -- no other event has the id
    have hothers : db.roomEvents.rows.filter (fun x => [e.eventId].contains x.eventId) = [] := by
      refine List.filter_eq_nil_iff.mpr fun x hx hxid => ?_
      have hclash := happended.fresh x hx
      simp_all [roomEventConstraints]
    change bySequence (log.rows.filter _) = _
    rw [happended.rows, List.filter_append, hothers]
    simp [bySequence]
  · rw [hrow]
    rfl
  · rw [hrow]
    exact pgTime_pgTime _
  · refine ⟨{ t with state := state, updatedAt := pgTime report.occurredAt }, ?_, hid, ?_⟩
    · change _ ∈ ts.rows
      rw [hts, db.mem_put_agentTask hmem]
      exact .inl rfl
    · rw [hrow]
      exact h.normalized

theorem RecordOf.later {task : Uuid} {report : AgentTaskUpdate} {e : RoomEvent}
    (h : RecordOf db task report e) (hlater : Later db db') : RecordOf db' task report e := by
  obtain ⟨row, hrow, htask, hupdate, hevents⟩ := h.row
  obtain ⟨t, ht, hid, hpayload⟩ := h.payload
  obtain ⟨hrow', hsame⟩ := hlater.kept.known row hrow
  obtain ⟨t', ht', hidentity⟩ := hlater.named.exists_mem ht
  refine ⟨⟨row, hrow', htask, hupdate, hsame.trans hevents⟩, h.eventType, h.occurredAt, t', ht',
    ?_, ?_⟩
  · exact (eq_of_identity AgentTaskRecord.taskId (fun _ => rfl) hidentity).trans hid
  · rw [← hpayload]
    exact eq_of_identity (normalizedAgentTaskUpdatePayload · report.payload) (fun _ => rfl)
      hidentity

/-- Another report says the same about the task: the same kind of event, the
same time to the microsecond, and the same payload once the fields of the task
are filled in. -/
def SameReport (t : AgentTaskRecord) (report other : AgentTaskUpdate) : Prop :=
  other.eventType = report.eventType ∧ pgTime other.occurredAt = pgTime report.occurredAt ∧
    normalizedAgentTaskUpdatePayload t other.payload =
      normalizedAgentTaskUpdatePayload t report.payload

theorem RecordOf.resubmitted {report other : AgentTaskUpdate} {e : RoomEvent}
    {lease : AgentTaskLease} {txNow now : Time} {fresh : Nat → Uuid}
    (h : RecordOf db lease.taskId report e) (hleased : leasedTask db lease (pgTime txNow) = some t)
    (hid : other.updateId = report.updateId) :
    ∃ result, (recordAgentTaskUpdateWithOutcome env lease other txNow now fresh).runTx db =
        (result, db) ∧
      (SameReport t report other → result = .ok ⟨lease.taskId, [e], true⟩) ∧
      (¬ SameReport t report other → ∃ error, result = .error error) := by
  obtain ⟨hmem, htask, -⟩ := leasedTask_some hleased
  obtain ⟨row, hrow, hrowTask, hrowUpdate, hevents⟩ := h.row
  obtain ⟨u, hu, huid, hpayload⟩ := h.payload
  obtain rfl : u = t := db.agentTask_unique hu hmem (huid.trans htask.symm)
  have hfind : findUpdate db u.taskId other.updateId = some row := by
    refine find?_eq_some_of_unique hrow (by simp [hrowTask, hrowUpdate, htask, hid])
      fun x hx hxrow => ?_
    simp only [Bool.and_eq_true, decide_eq_true_eq] at hxrow
    refine eq_of_clash hx hrow ?_ ?_ <;>
      simp [agentTaskUpdateConstraints, hxrow, hrowTask, hrowUpdate, htask, hid]
  have hmatch : ∀ payload, isMatchingAgentTaskUpdate [e] other payload = true ↔
      report.eventType = other.eventType ∧ e.payload = payload ∧
        pgTime report.occurredAt = pgTime other.occurredAt := by
    intro payload
    simp only [isMatchingAgentTaskUpdate, h.eventType, h.occurredAt, Bool.and_eq_true,
      decide_eq_true_eq, and_assoc]
  refine ⟨_, recordAgentTaskUpdateWithOutcome_known hleased hfind hevents, ?_, ?_⟩
  · rintro ⟨htype, htime, hsame⟩
    rw [hsame, hpayload, ← htask]
    exact if_pos ((hmatch _).mpr ⟨htype.symm, rfl, htime.symm⟩)
  · intro hdiffer
    cases hother : normalizedAgentTaskUpdatePayload u other.payload with
    | error error => exact ⟨error, rfl⟩
    | ok payload =>
        refine ⟨_, if_neg fun hsame => hdiffer ?_⟩
        obtain ⟨htype, rfl, htime⟩ := (hmatch _).mp hsame
        exact ⟨htype.symm, htime.symm, hother.trans hpayload.symm⟩

/-! ### The discipline of leases -/

/-- The lease was given out, and the call at `j` gave out another one on the
same task. -/
def Superseded (history : List LeaseEntry) (lease : AgentTaskLease) (j : Nat) : Prop :=
  ∃ i f g lease' now now', i < j ∧ history[i]? = some f ∧ history[j]? = some g ∧
    GaveLease f lease now ∧ GaveLease g lease' now' ∧ lease'.taskId = lease.taskId

/-- No two leases have the same token. -/
def FreshTokens (history : List LeaseEntry) : Prop :=
  ∀ (i j : Nat) f g lease lease' now now', history[i]? = some f → history[j]? = some g →
    GaveLease f lease now → GaveLease g lease' now' → lease'.ownerId = lease.ownerId → i = j

structure LeasesExclusive (init : Db) (history : List LeaseEntry) : Prop where
  /-- A live lease is never stolen. -/
  expired : ∀ (i j : Nat) f g lease lease' now now', i < j → history[i]? = some f →
    history[j]? = some g → GaveLease f lease now → GaveLease g lease' now' →
      lease'.taskId = lease.taskId → lease.expiresAt ≤ now'
  /-- Under a lease that was superseded no update is recorded. -/
  update : ∀ lease j, Superseded history lease j → ∀ k report txNow now fresh began result after,
    j < k → history[k]? = some ⟨.update lease report txNow now fresh, began, result, after⟩ →
      result = .error .invalidAgentTask ∧ after = store init (history.take k)
  context : ∀ lease j, Superseded history lease j → ∀ (k : Nat) txNow began result after,
    j < began → history[k]? = some ⟨.context lease txNow, began, result, after⟩ →
      result = .ok none
  /-- Nor does its token stand for a lease. -/
  lookup : FreshTokens history → ∀ lease j, Superseded history lease j →
    ∀ (k : Nat) now began result after, j < began →
      history[k]? = some ⟨.lookup lease.taskId lease.ownerId now, began, result, after⟩ →
        result = .ok none
  /-- Under the live lease the update that was recorded gets the same answer,
  and another one with its id is refused. -/
  resubmitted : ∀ (i k : Nat) f lease report e, i < k → history[i]? = some f →
    RecordedUpdate f lease report e → ∀ lease' other txNow now fresh began result after t,
      history[k]? = some ⟨.update lease' other txNow now fresh, began, result, after⟩ →
      lease'.taskId = lease.taskId → other.updateId = report.updateId →
      leasedTask (store init (history.take k)) lease' (pgTime txNow) = some t →
        after = store init (history.take k) ∧
        (SameReport t report other → result = .ok ⟨lease.taskId, [e], true⟩) ∧
        (¬ SameReport t report other → ∃ error, result = .error error)

namespace LeaseHistory

variable {init : Db} {history : List LeaseEntry}

theorem recordOf (h : LeaseHistory env init history) {i : Nat} {f : LeaseEntry}
    {lease : AgentTaskLease} {report : AgentTaskUpdate} {e : RoomEvent}
    (hf : history[i]? = some f) (hrecorded : RecordedUpdate f lease report e) :
    RecordOf (store init (history.take (i + 1))) lease.taskId report e := by
  have hspec := h.serial i f hf
  rw [store_take_succ init hf]
  obtain @⟨_, _, txNow, now, fresh, _, _, _, _⟩ := hrecorded
  have hexec := Prog.runTx_ok
    (p := recordAgentTaskUpdateWithOutcome env lease report txNow now fresh)
    (congrArg Prod.fst hspec)
  rw [congrArg Prod.snd hspec] at hexec
  obtain ⟨_, hrollback, -⟩ | hcommit := hexec
  · obtain ⟨_, _, -, hending, -⟩ | ⟨_, _, _, _, -, hending⟩ :=
      recordAgentTaskUpdateWithOutcome_ok hrollback <;> cases hending
  · obtain ⟨_, _, -, hending, -⟩ | ⟨_, _, _, _, hupdated, hending⟩ :=
      recordAgentTaskUpdateWithOutcome_ok hcommit
    · cases hending
    · cases hending
      exact hupdated.recordOf

theorem lookup_superseded (h : LeaseHistory env init history) (hfresh : FreshTokens history)
    {lease : AgentTaskLease} {j k : Nat} (hsuper : Superseded history lease j) (hjk : j < k)
    (now : Time) :
    matchingLiveLease (store init (history.take k)) lease.taskId lease.ownerId now = none := by
  obtain ⟨i, f, g, lease', _, _, hij, hf, hg, hfirst, hsecond, hid⟩ := hsuper
  unfold matchingLiveLease
  cases hfound : (store init (history.take k)).agentTasks.rows.find? fun t =>
    t.taskId = lease.taskId with
  | none => rfl
  | some t =>
      have htask : t.taskId = lease.taskId := by simpa using List.find?_some hfound
      obtain ⟨m, f', last, _, hjm, hf', hlast, howner⟩ := h.owner_of_row hg hsecond hjk t
        (List.mem_of_find?_eq_some hfound) (htask.trans hid.symm)
      have hne : last.ownerId ≠ lease.ownerId := fun hsame => by
        have := hfresh i m f f' lease last _ _ hf hf' hfirst hlast hsame
        omega
      rw [Option.bind_some]
      cases hexpires : t.leaseExpiresAt with
      | none => rfl
      | some x => simp [howner, hne]

theorem take_take_of_le {k m : Nat} (h : m ≤ (history.take k).length) :
    (history.take k).take m = history.take m := by
  rw [List.length_take] at h
  rw [List.take_take, Nat.min_eq_left (by omega)]

theorem exclusive (h : LeaseHistory env init history) : LeasesExclusive init history where
  expired i j f g lease lease' now now' hij hf hg hfirst hsecond hid :=
    Int.le_trans (h.expired hij hf hg hfirst hsecond hid) (pgTime_le now')
  update lease j hsuper k report txNow now fresh began result after hjk hk := by
    obtain ⟨i, f, g, lease', _, _, hij, hf, hg, hfirst, hsecond, hid⟩ := hsuper
    have hnone := h.superseded hij hf hg hfirst hsecond hid hjk (pgTime txNow)
    have hspec : _ = (result, after) := h.serial k _ hk
    rw [recordAgentTaskUpdateWithOutcome_unleased hnone] at hspec
    cases hspec
    exact ⟨rfl, rfl⟩
  context lease j hsuper k txNow began result after hjk hk := by
    obtain ⟨i, f, g, lease', _, _, hij, hf, hg, hfirst, hsecond, hid⟩ := hsuper
    obtain ⟨-, m, n, hbegan, hmn, hn, hresult⟩ := h.serial k _ hk
    rw [take_take_of_le (Nat.le_trans hmn hn), h.superseded hij hf hg hfirst hsecond hid
      (Nat.lt_of_lt_of_le hjk hbegan)] at hresult
    exact hresult
  lookup hfresh lease j hsuper k now began result after hjk hk := by
    obtain ⟨-, m, hbegan, hm, hresult⟩ := h.serial k _ hk
    rw [take_take_of_le hm, h.lookup_superseded hfresh hsuper
      (Nat.lt_of_lt_of_le hjk hbegan)] at hresult
    exact hresult
  resubmitted i k f lease report e hik hf hrecorded lease' other txNow now fresh began result after
      t hk hid hupdate hleased := by
    have hrecord := (h.recordOf hf hrecorded).later (h.later hik)
    rw [← hid] at hrecord
    obtain ⟨result', hran, hsame, hdiffer⟩ := hrecord.resubmitted hleased hupdate
    have hspec : _ = (result, after) := h.serial k _ hk
    rw [hran] at hspec
    cases hspec
    exact ⟨rfl, hid ▸ hsame, hdiffer⟩

end LeaseHistory

/-- Whatever the workers do side by side, from any state of the gateway. -/
theorem leases_exclusive (env : Env) (ops : List Op) (acts : List (Locking.Act LeaseCall)) :
    LeasesExclusive ((gateway env).run ops).db
      ((workers env ((gateway env).run ops).db).run acts).history :=
  LeaseHistory.exclusive
    ⟨gateway_updatesLogged ops, workers_serial (gateway_updatesLogged ops) acts⟩

/-! ### A different body that is no different report

The worker sends its update again, now with the id of the task in the payload. -/

def LeaseEntry.outcome : LeaseEntry → Option (Except StoreError AgentTaskUpdateResult)
  | ⟨.update .., _, result, _⟩ => some result
  | _ => none

def sampleReport : AgentTaskUpdate where
  updateId := 50
  eventType := .agentTaskProgressed
  payload := .obj [("phase", "working"), ("text", "Reading the room.")]
  occurredAt := seconds 120

def sampleResend : AgentTaskUpdate :=
  { sampleReport with
    payload := .obj [("phase", "working"), ("taskId", (30 : Uuid)), ("text", "Reading the room.")] }

/-- The three calls one after the other. -/
def sampleCalls : List (Locking.Act LeaseCall) :=
  [.start (.claimOldest referenceAgentId 40 (seconds 100))] ++ List.replicate 8 (.step 0 ()) ++
    [.start (.update sampleLease sampleReport (seconds 120) (seconds 120)
      fun n => .ofNat (60 + n))] ++ List.replicate 12 (.step 1 ()) ++
    [.start (.update sampleLease sampleResend (seconds 130) (seconds 130)
      fun n => .ofNat (70 + n))] ++ List.replicate 12 (.step 2 ())

def sampleHistory : List LeaseEntry :=
  ((workers sampleEnv ((gateway sampleEnv).run [sampleAskLater]).db).run sampleCalls).history

/-- The second update has the id of the first and another payload, and it is
answered like the first. -/
theorem resubmitted_with_another_payload :
    sampleResend.updateId = sampleReport.updateId ∧ sampleResend.payload ≠ sampleReport.payload ∧
      ∃ e ∈ (store ((gateway sampleEnv).run [sampleAskLater]).db sampleHistory).roomEvents.rows,
        sampleHistory.map LeaseEntry.outcome =
          [none, some (.ok ⟨30, [e], false⟩), some (.ok ⟨30, [e], true⟩)] := by
  decide +kernel

end RoomGateway
