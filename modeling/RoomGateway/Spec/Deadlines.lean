import RoomGateway.Spec.Acceptance

/-!
The times of a turn. A reservation fixes when the turn was issued, when it is due
and how long its requester is authorized, a claim adds the lease; the deadline
comes before the end of the lease and the lease does not outlast the
authorization, whichever policies were in force at the two.
-/

namespace RoomGateway

open Table

variable {env : Env} {t : ConversationTask} {c : AgentConversation}

/-! ### Instants -/

theorem pgTime_mono {a b : Time} (h : a ≤ b) : pgTime a ≤ pgTime b :=
  Int.mul_le_mul_of_nonneg_right (Int.ediv_le_ediv (by decide) h) (by decide)

theorem pgTime_add_seconds (t n : Int) : pgTime (t + seconds n) = pgTime t + seconds n := by
  change (t + n * 1000000000) / 1000 * 1000 = (t / 1000 * 1000 + n * 1000000000 : Int)
  omega

theorem seconds_add (m n : Int) : seconds (m + n) = seconds m + seconds n := Int.add_mul m n _

theorem seconds_le {m n : Int} (h : m ≤ n) : seconds m ≤ seconds n :=
  Int.mul_le_mul_of_nonneg_right h (by decide)

theorem lt_add_seconds (t : Time) {n : Int} (h : 1 ≤ n) : t < t + seconds n :=
  Int.lt_add_of_pos_right t (Int.lt_of_lt_of_le (by decide) (seconds_le h))

/-- What a policy that is in force keeps to. -/
theorem deadlines_of_validate {policy : ConversationPolicy} (h : policy.validate = .ok ()) :
    1 ≤ policy.turnDeadlineSeconds ∧ policy.turnDeadlineSeconds ≤ 180 ∧
      1 ≤ policy.interruptGraceSeconds := by
  unfold ConversationPolicy.validate at h
  split_ifs at h with hlimits
  all_goals
    simp only [Bool.or_eq_true, not_or, Bool.not_eq_true', Bool.not_eq_false, Bool.and_eq_true,
      decide_eq_true_eq] at hlimits
    exact ⟨hlimits.1.2.1, hlimits.1.2.2, hlimits.2.1⟩

/-! ### One task -/

/-- The times of a task are in order. -/
structure TimesOrdered (t : ConversationTask) : Prop where
  issued : t.issuedAt < t.expiresAt
  deadline : t.expiresAt ≤ t.issuedAt + seconds 180
  grace : t.expiresAt + seconds 1 ≤ t.authorizationExpiresAt
  lease : ∀ x ∈ t.leaseExpiresAt, t.expiresAt < x ∧ x ≤ t.authorizationExpiresAt
  leased : t.state = .running → t.leaseExpiresAt.isSome = true

/-- The `CHECK`s of the table on these columns. -/
def timesChecked (t : ConversationTask) : Bool :=
  t.issuedAt < t.expiresAt && t.expiresAt ≤ t.authorizationExpiresAt &&
    t.expiresAt ≤ t.issuedAt + seconds 180 &&
    (t.leaseOwner.isSome == t.leaseToken.isSome) &&
    (t.leaseOwner.isSome == t.leaseExpiresAt.isSome)

/-- Those on the other columns. -/
def otherwiseChecked (t : ConversationTask) : Bool :=
  safeRange 1 t.generation && safeRange 1 t.contextRevision && shortText t.policyRevision &&
    t.leaseOwner.all ownerText && t.frozenInput.isObject && t.sourceManifest.isArray &&
    safeRange 0 t.lastUpdateOrdinal

/-- The checks on the times make no difference to a row that passes them. -/
theorem check_of_timesChecked (h : timesChecked t = true) :
    conversationTaskConstraints.check t = otherwiseChecked t := by
  simp only [timesChecked, Bool.and_eq_true] at h
  obtain ⟨⟨⟨⟨hissued, hauthorized⟩, hdeadline⟩, htoken⟩, hexpiry⟩ := h
  simp only [conversationTaskConstraints, hissued, hauthorized, hdeadline, htoken, hexpiry,
    otherwiseChecked, Bool.and_true]

/-- A lease that has run out belongs to a turn that is overdue. -/
theorem TimesOrdered.overdue (h : TimesOrdered t) (hrunning : t.state = .running) {now : Time}
    (hexpired : t.leaseExpiresAt.all (· ≤ now) = true) : t.expiresAt ≤ now := by
  obtain ⟨x, hx⟩ := Option.isSome_iff_exists.mp (h.leased hrunning)
  rw [hx, Option.all_some, decide_eq_true_eq] at hexpired
  exact Int.le_trans (Int.le_of_lt (h.lease x hx).1) hexpired

theorem authorizeConversationTurn_ok {actor : Actor} {requested now minimum expiry : Time}
    (h : authorizeConversationTurn actor requested now minimum = .ok expiry) :
    ∃ token, fromTimestamp actor.expiresAt = some token ∧ expiry = min requested token ∧
      now + minimum ≤ expiry := by
  unfold authorizeConversationTurn at h
  split_ifs at h
  cases htoken : fromTimestamp actor.expiresAt with
  | none => simp [htoken] at h
  | some token =>
      rw [htoken] at h
      dsimp only at h
      split_ifs at h with hshort
      cases h
      exact ⟨token, rfl, rfl, Int.not_lt.mp hshort⟩

section Reserved

variable {policy : ConversationPolicy} {actor : Actor} {request : Json} {requestedExpiry : Time}
  {clock : Nat → Time} {turn : TurnRequest} {taskId trigger : Uuid} {target : TurnTarget}
  {settings context frozen accepted : Json} {revision : Int}

/-- The row of a turn that was admitted. -/
theorem Admitted.timesOrdered (hvalid : policy.validate = .ok ())
    (h : Admitted env policy actor request requestedExpiry clock turn) :
    TimesOrdered (reservedTask policy actor turn taskId target settings context frozen accepted
      trigger revision) := by
  obtain ⟨hlow, hhigh, hgrace⟩ := deadlines_of_validate hvalid
  obtain ⟨token, -, -, hremaining⟩ := authorizeConversationTurn_ok h.authorized
  have hdeadline : pgTime (turn.now + seconds policy.turnDeadlineSeconds) =
      pgTime turn.now + seconds policy.turnDeadlineSeconds := pgTime_add_seconds _ _
  refine ⟨?_, ?_, ?_, nofun, nofun⟩
  · change pgTime turn.now < pgTime (turn.now + _)
    rw [hdeadline]
    exact lt_add_seconds _ hlow
  · change pgTime (turn.now + _) ≤ pgTime turn.now + seconds 180
    rw [hdeadline]
    exact Int.add_le_add_left (seconds_le hhigh) _
  · calc pgTime (turn.now + seconds policy.turnDeadlineSeconds) + seconds 1
        ≤ pgTime turn.now + seconds policy.turnDeadlineSeconds +
            seconds policy.interruptGraceSeconds := by
          rw [hdeadline]
          exact Int.add_le_add_left (seconds_le hgrace) _
      _ = pgTime (turn.now + turnMinimum policy) := by
          rw [turnMinimum, pgTime_add_seconds, seconds_add, Int.add_assoc]
      _ ≤ pgTime turn.authorizationExpiresAt := pgTime_mono hremaining

theorem Admitted.authorization_le
    (h : Admitted env policy actor request requestedExpiry clock turn) : ∃ token,
      fromTimestamp actor.expiresAt = some token ∧
        pgTime turn.authorizationExpiresAt ≤ min requestedExpiry token := by
  obtain ⟨token, htoken, hexpiry, -⟩ := authorizeConversationTurn_ok h.authorized
  exact ⟨token, htoken, hexpiry ▸ pgTime_le _⟩

end Reserved

/-- The row of a task that is claimed. -/
theorem TimesOrdered.claimed (h : TimesOrdered t) (hsealed : Sealed env t)
    {policy : ConversationPolicy} (hvalid : policy.validate = .ok ()) (owner : String)
    (token : Uuid) (txNow : Time) :
    TimesOrdered (claimedTask t owner token (claimExpiry policy t) txNow) := by
  obtain ⟨-, -, hgrace⟩ := deadlines_of_validate hvalid
  have hstored : pgTime (claimExpiry policy t) = claimExpiry policy t := by
    refine pgTime_of_dvd ?_
    rcases min_choice (t.expiresAt + seconds policy.interruptGraceSeconds) t.authorizationExpiresAt
      with hmin | hmin
    · rw [claimExpiry, hmin]
      exact Int.dvd_add hsealed.expiresAt (dvd_seconds _)
    · rw [claimExpiry, hmin]
      exact hsealed.authorizationExpiresAt
  have hafter : t.expiresAt < claimExpiry policy t := by
    rw [claimExpiry, lt_min_iff]
    exact ⟨lt_add_seconds _ hgrace, Int.lt_of_lt_of_le (lt_add_seconds _ (by decide)) h.grace⟩
  refine ⟨h.issued, h.deadline, h.grace, ?_, fun _ => rfl⟩
  intro x hx
  obtain rfl : pgTime (claimExpiry policy t) = x := Option.some.inj hx
  rw [hstored]
  exact ⟨hafter, min_le_right _ _⟩

theorem TimesOrdered.checked (h : TimesOrdered t)
    (howner : t.leaseOwner.isSome = t.leaseToken.isSome)
    (hexpiry : t.leaseOwner.isSome = t.leaseExpiresAt.isSome) : timesChecked t = true := by
  have hauthorized : t.expiresAt ≤ t.authorizationExpiresAt :=
    Int.le_trans (Int.le_of_lt (lt_add_seconds _ (by decide))) h.grace
  simp [timesChecked, h.issued, h.deadline, hauthorized, howner, ← hexpiry]

/-! ### Runs -/

/-- The policies in force are valid when a turn is reserved and when one is
claimed. -/
def Op.PolicyValid : Op → Prop
  | .reserve policy .. => policy.validate = .ok ()
  | .claimSelect policy .. => policy.validate = .ok ()
  | _ => True

instance (op : Op) : Decidable op.PolicyValid := by
  cases op <;> unfold Op.PolicyValid <;> infer_instance

/-- The task of a reservation: its authorization ends with what was requested and
with the token, if not before. -/
structure Granted (r : Reservation) (t : ConversationTask) : Prop where
  accepted : t.acceptedTurn = r.accepted
  requester : t.requesterId = r.actor.id
  authorization : ∃ token, fromTimestamp r.actor.expiresAt = some token ∧
    t.authorizationExpiresAt ≤ min r.requestedExpiry token

theorem Granted.of_origin {r : Reservation} {t t' : ConversationTask} (h : Granted r t)
    (horigin : t'.origin = t.origin) : Granted r t' where
  accepted := (eq_of_origin ConversationTask.acceptedTurn (fun _ => rfl) horigin).trans h.accepted
  requester := (eq_of_origin ConversationTask.requesterId (fun _ => rfl) horigin).trans h.requester
  authorization := by
    rw [eq_of_origin ConversationTask.authorizationExpiresAt (fun _ => rfl) horigin]
    exact h.authorization

/-- What holds of a state and of the reservations that led to it. -/
structure Timed (env : Env) (s : Sys) (reservations : List Reservation) : Prop where
  sealed : ∀ t ∈ s.db.conversationTasks.rows, Sealed env t
  granted : List.Forall₂ Granted reservations s.db.conversationTasks.rows
  ordered : ∀ t ∈ s.db.conversationTasks.rows, TimesOrdered t
  pending : ∀ p ∈ s.claiming, p.policy.validate = .ok ()

theorem pending_next {s : Sys} {op : Op} (hop : op.PolicyValid)
    (h : ∀ p ∈ s.claiming, p.policy.validate = .ok ()) :
    ∀ p ∈ ((gateway env).next s op).claiming, p.policy.validate = .ok () := by
  cases op with
  | claimSelect policy owner txNow =>
      change ∀ p ∈ (s.claimSelect policy owner txNow).1.claiming, _
      unfold Sys.claimSelect
      split
      · exact h
      · exact h
      · split
        · exact h
        · rintro p hp
          cases hp
          exact hop
  | claimFinish now fresh =>
      change ∀ p ∈ (s.claimFinish env now fresh).1.claiming, _
      unfold Sys.claimFinish
      split
      · exact h
      · nofun
  | claimAbort => nofun
  | _ => exact h

theorem TaskCarried.timesOrdered {s : Sys} {op : Op} {t t' : ConversationTask}
    (hcarried : TaskCarried s op t t') (hsealed : Sealed env t)
    (hpending : ∀ p ∈ s.claiming, p.policy.validate = .ok ()) (h : TimesOrdered t) :
    TimesOrdered t' := by
  cases hcarried with
  | kept horigin hlease hrunning =>
      have hissued := eq_of_origin ConversationTask.issuedAt (fun _ => rfl) horigin
      have hexpires := eq_of_origin ConversationTask.expiresAt (fun _ => rfl) horigin
      have hauthorization :=
        eq_of_origin ConversationTask.authorizationExpiresAt (fun _ => rfl) horigin
      obtain ⟨issued, deadline, grace, lease, leased⟩ := h
      refine ⟨?_, ?_, ?_, ?_, fun hstate => ?_⟩
      · rwa [hissued, hexpires]
      · rwa [hissued, hexpires]
      · rwa [hexpires, hauthorization]
      · rwa [hlease, hexpires, hauthorization]
      · rw [hlease]
        exact leased (hrunning hstate)
  | @claimed p now fresh _ hclaiming eq =>
      rw [eq]
      exact h.claimed hsealed (hpending p hclaiming) p.owner fresh p.txNow

theorem ReservedTurn.granted {db db' : Db} {policy : ConversationPolicy} {actor : Actor}
    {request : Json} {requestedExpiry : Time} {clock : Nat → Time} {turn : TurnRequest}
    {prompt : RoomEvent} {base : Int} {items : List ContextItem} {context : Json}
    (r : ReservedTurn env db db' policy actor turn t c prompt base items context)
    (hadmitted : Admitted env policy actor request requestedExpiry clock turn) :
    Granted ⟨policy, actor, request, requestedExpiry, t.acceptedTurn⟩ t := by
  obtain ⟨_, _, _, _, ht⟩ := r.task
  refine ⟨rfl, by rw [ht]; rfl, ?_⟩
  rw [ht]
  exact hadmitted.authorization_le

theorem Timed.next {s : Sys} {reservations : List Reservation} (h : Timed env s reservations)
    {op : Op} (hop : op.PolicyValid) :
    Timed env ((gateway env).next s op) (reservations ++ acceptedReservations env s op) := by
  have hsealed := (gateway_effect s op).sealed h.sealed
  have hpending : ∀ p ∈ ((gateway env).next s op).claiming, p.policy.validate = .ok () :=
    pending_next hop h.pending
  cases gateway_acceptance env s op with
  | accepted op_eq entry admitted reserved _ =>
      rw [op_eq] at hop
      rw [entry]
      refine ⟨hsealed, ?_, ?_, hpending⟩
      · rw [reserved.tasks]
        exact List.rel_append h.granted (.cons (reserved.granted admitted) .nil)
      · intro x hx
        rw [reserved.tasks, List.mem_append, List.mem_singleton] at hx
        rcases hx with hx | rfl
        · exact h.ordered x hx
        · obtain ⟨_, _, _, _, ht⟩ := reserved.task
          rw [ht]
          exact admitted.timesOrdered hop
  | other entry carried =>
      rw [entry, List.append_nil]
      refine ⟨hsealed, ?_, ?_, hpending⟩
      · exact forall₂_comp (fun _ _ _ hgranted hcarried => hgranted.of_origin hcarried.origin)
          h.granted carried.tasks
      · intro x hx
        obtain ⟨t, ht, hcarried⟩ := exists_of_forall₂ carried.tasks hx
        exact hcarried.timesOrdered (h.sealed t ht) h.pending (h.ordered t ht)

/-- What is claimed of the times, of a run and of the rows that are written. -/
structure TimesHold (env : Env) (s : Sys) (reservations : List Reservation) : Prop where
  /-- The tasks are those of the reservations, in order. -/
  granted : List.Forall₂ Granted reservations s.db.conversationTasks.rows
  ordered : ∀ t ∈ s.db.conversationTasks.rows, TimesOrdered t
  /-- A running task's lease has not run out before its deadline. -/
  overdue : ∀ t ∈ s.db.conversationTasks.rows, t.state = .running → ∀ now,
    t.leaseExpiresAt.all (· ≤ now) = true → t.expiresAt ≤ now
  /-- The row of a turn that is admitted passes the checks on its times. -/
  inserts : ∀ policy actor request requestedExpiry clock turn db,
    policy.validate = .ok () →
    (admitTurn env policy actor request requestedExpiry clock).exec s.db = .ok (turn, db) →
    ∀ taskId target settings context frozen accepted trigger revision,
      conversationTaskConstraints.check (reservedTask policy actor turn taskId target settings
          context frozen accepted trigger revision) =
        otherwiseChecked (reservedTask policy actor turn taskId target settings context frozen
          accepted trigger revision)
  /-- So does the row of a task that is claimed; no other update writes these
  columns. -/
  claims : ∀ t ∈ s.db.conversationTasks.rows, ∀ policy, policy.validate = .ok () →
    ∀ owner token txNow,
      conversationTaskConstraints.check (claimedTask t owner token (claimExpiry policy t) txNow) =
        otherwiseChecked (claimedTask t owner token (claimExpiry policy t) txNow)

/-- In every run under valid policies, the times of every task are in order. -/
theorem times_hold (env : Env) (ops : List Op) (h : ∀ op ∈ ops, op.PolicyValid) :
    TimesHold env ((gateway env).run ops)
      ((gateway env).collect (acceptedReservations env) (gateway env).init ops) := by
  have htimed : Timed env ((gateway env).run ops)
      ((gateway env).collect (acceptedReservations env) (gateway env).init ops) :=
    Machine.collect_invariant_of_forall (P := Timed env)
      ⟨by simp [gateway], .nil, by simp [gateway], by simp [gateway]⟩
      (fun _ _ _ hop h => h.next hop) h
  obtain ⟨hsealed, hgranted, hordered, -⟩ := htimed
  refine ⟨hgranted, hordered, fun t ht hrunning now => (hordered t ht).overdue hrunning, ?_, ?_⟩
  · intro policy actor request requestedExpiry clock turn db hvalid hadmit taskId target settings
      context frozen accepted trigger revision
    obtain ⟨-, hadmitted⟩ := admitTurn_ok hadmit
    exact check_of_timesChecked ((hadmitted.timesOrdered hvalid).checked rfl rfl)
  · intro t ht policy hvalid owner token txNow
    have hclaimed := (hordered t ht).claimed (hsealed t ht) hvalid owner token txNow
    exact check_of_timesChecked (hclaimed.checked rfl rfl)

/-- A turn is reserved, handed out, and still running. -/
theorem times_hold_sample :
    ((gateway sampleEnv).run sampleTurn).db.conversationTasks.rows.map
        (fun t => (t.state, t.issuedAt, t.expiresAt, t.leaseExpiresAt, t.authorizationExpiresAt)) =
      [(.running, seconds 100, seconds 280, some (seconds 285), seconds 1000)] ∧
    TimesHold sampleEnv ((gateway sampleEnv).run sampleTurn)
      ((gateway sampleEnv).collect (acceptedReservations sampleEnv) (gateway sampleEnv).init
        sampleTurn) :=
  ⟨by decide +kernel, times_hold sampleEnv sampleTurn (by decide +kernel)⟩

end RoomGateway
