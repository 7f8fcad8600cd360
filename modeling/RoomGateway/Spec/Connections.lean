import Mathlib.Algebra.BigOperators.Ring.Finset
import Mathlib.Data.Set.Finite.Basic
import RoomGateway.Model.Connections

/-!
When requests that are issued together can lock one another out. All who wait
hold at most one connection, and whoever holds a lock and waits is a first
`chat.send` that wants another one. So a deadlock takes as many requests as the
pool has connections, each of them in a room with a first `chat.send`; and where
there are that many, there is a run into one.
-/

namespace RoomGateway

open Resources (World)

variable {ι : Type} (hash : Uuid → Int)

/-- No requests have locked one another out, and if some are left, one of them can
go on without waiting. -/
def Flowing [Fintype ι] (size : Nat) (threads : ι → Handling) : Prop :=
  (∀ S, ¬ (poolSystem hash size).Deadlock threads S) ∧
    ((∃ i, (threads i).stage ≠ .finished) →
      ∃ i, (threads i).stage ≠ .finished ∧ (poolSystem hash size).Ready threads i)

/-- A `chat.send` that the ledger has not answered. -/
def IssuedRequest.isFirstChat (answered : List (Uuid × Uuid)) (call : IssuedRequest) : Bool :=
  call.sendsChat && !call.key.any answered.contains

/-- The requests of the rooms in which a first `chat.send` is among the requests. -/
def crowd [Fintype ι] (answered : List (Uuid × Uuid)) (calls : ι → IssuedRequest) : Finset ι :=
  Finset.univ.filter fun i => (calls i).transacts ∧
    ∃ j, (calls j).isFirstChat answered ∧ (calls j).lock hash = (calls i).lock hash

theorem transacts_of_firstChat {answered : List (Uuid × Uuid)} {call : IssuedRequest}
    (h : call.isFirstChat answered = true) : call.transacts = true := by
  simp only [IssuedRequest.isFirstChat, IssuedRequest.sendsChat, Bool.and_eq_true] at h
  cases hrequest : call.request <;> simp_all [IssuedRequest.transacts, ValidatedRequest.governed]

/-- What a request is at before anything was given to it. -/
theorem start_cases (call : IssuedRequest) :
    call.start = .reads 2 ∨ call.start = .finished ∨
      call.start = .start ∧ call.transacts = true := by
  unfold IssuedRequest.start
  split
  · exact .inl rfl
  · split
    · exact .inr (.inr ⟨rfl, ‹_›⟩)
    · exact .inr (.inl rfl)

theorem start_of_transacts {call : IssuedRequest} (h : call.transacts = true) :
    call.start = .start := by
  unfold IssuedRequest.start
  split
  · rename_i hjoin
    simp [IssuedRequest.transacts, hjoin] at h
  · rw [if_pos h]

theorem lock_of_transacts {call : IssuedRequest} (h : call.transacts = true) :
    ∃ key, call.lock hash = some (.lock key) := by
  cases hrequest : call.request <;>
    simp_all [IssuedRequest.transacts, IssuedRequest.lock, ValidatedRequest.roomId]

variable {hash} in
theorem mem_crowd [Fintype ι] {answered : List (Uuid × Uuid)} {calls : ι → IssuedRequest} {i : ι} :
    i ∈ crowd hash answered calls ↔ (calls i).transacts = true ∧
      ∃ j, (calls j).isFirstChat answered = true ∧
        (calls j).lock hash = (calls i).lock hash := by
  simp [crowd]

/-! ### No deadlock without a crowd -/

/-- What the stage of a request says about it. -/
structure Handled (answered : List (Uuid × Uuid)) (call : IssuedRequest) (h : Handling) : Prop where
  ofCall : h.call = call
  transacts : h.stage = .start ∨ h.stage = .begun → call.transacts = true
  firstChat : h.stage = .snapshot → call.isFirstChat answered = true

theorem handled_start (answered : List (Uuid × Uuid)) (call : IssuedRequest) :
    Handled answered call ⟨call, call.start⟩ := by
  rcases start_cases call with h | h | ⟨h, htransacts⟩
  · exact ⟨rfl, by simp [h], by simp [h]⟩
  · exact ⟨rfl, by simp [h], by simp [h]⟩
  · exact ⟨rfl, fun _ => htransacts, by simp [h]⟩

theorem Handled.move {answered now : List (Uuid × Uuid)} {call : IssuedRequest} {h : Handling}
    (hh : Handled answered call h) (hnow : answered ⊆ now) (goesOn : Bool) :
    answered ⊆ (h.move now goesOn).1 ∧ Handled answered call (h.move now goesOn).2 := by
  obtain ⟨stageCall, stage⟩ := h
  obtain rfl : stageCall = call := hh.ofCall
  -- Only two moves lead to a stage that says something: the connection of the
  -- transaction is given, and the ledger has no answer.
  have plain (stage : Stage) (h1 : stage ≠ .start) (h2 : stage ≠ .begun)
      (h3 : stage ≠ .snapshot) : Handled answered stageCall ⟨stageCall, stage⟩ :=
    ⟨rfl, by simp [h1, h2], by simp [h3]⟩
  cases stage with
  | reads left => exact ⟨hnow, plain _ nofun nofun nofun⟩
  | reading left =>
      cases left with
      | zero => exact ⟨hnow, plain _ nofun nofun nofun⟩
      | succ left =>
          cases goesOn
          · exact ⟨hnow, plain _ nofun nofun nofun⟩
          · exact ⟨hnow, plain _ nofun nofun nofun⟩
  | start => exact ⟨hnow, rfl, fun _ => hh.transacts (.inl rfl), nofun⟩
  | begun => exact ⟨hnow, plain _ nofun nofun nofun⟩
  | locked =>
      simp only [Handling.move]
      split
      · exact ⟨hnow, plain _ nofun nofun nofun⟩
      · rename_i hanswer
        split
        · rename_i hchat
          refine ⟨hnow, rfl, nofun, fun _ => ?_⟩
          simp only [IssuedRequest.isFirstChat, hchat, Bool.true_and, Bool.not_eq_true']
          cases hkey : stageCall.key with
          | none => rfl
          | some key =>
              simp only [hkey, Option.any_some, List.contains_iff_mem] at hanswer ⊢
              simpa using fun hmem => hanswer (hnow hmem)
        · exact ⟨hnow, plain _ nofun nofun nofun⟩
  | snapshot => exact ⟨hnow, plain _ nofun nofun nofun⟩
  | replaying =>
      cases goesOn
      · exact ⟨hnow, plain _ nofun nofun nofun⟩
      · exact ⟨hnow, plain _ nofun nofun nofun⟩
  | performing =>
      cases goesOn
      · exact ⟨hnow, plain _ nofun nofun nofun⟩
      · exact ⟨List.subset_append_of_subset_left _ hnow, plain _ nofun nofun nofun⟩
  | finished => exact ⟨hnow, plain _ nofun nofun nofun⟩

theorem handling_handled [Fintype ι] [DecidableEq ι] (size : Nat) (answered : List (Uuid × Uuid))
    (calls : ι → IssuedRequest) (acts : List (ι × Bool)) (i : ι) :
    Handled answered (calls i) (((handling hash size answered calls).run acts).threads i) :=
  (Resources.run_invariant (I := fun now : List (Uuid × Uuid) => answered ⊆ now)
    (P := fun i h => Handled answered (calls i) h) (List.Subset.refl answered)
    (fun i => handled_start answered (calls i))
    (fun _ _ _ goesOn hnow hh => hh.move hnow goesOn) acts).2 i

section Deadlock

variable {hash} {size : Nat} {answered : List (Uuid × Uuid)} {calls : ι → IssuedRequest}
  {threads : ι → Handling} {S : Finset ι}

theorem exists_lock {call : IssuedRequest} {r : Resource} (h : call.lock hash = some r) :
    ∃ key, r = .lock key := by
  simp only [IssuedRequest.lock, Option.map_eq_some_iff] at h
  obtain ⟨room, -, rfl⟩ := h
  exact ⟨_, rfl⟩

/-- Who holds a lock and waits is after another connection. -/
theorem snapshot_of_waits {h : Handling} {r : Resource} (hwants : h.wants hash = some r)
    (hlock : h.stage.holdsLock = true) : h.stage = .snapshot := by
  cases hstage : h.stage <;> simp_all [Handling.wants, Stage.holdsLock]

/-- A lock that the waiting threads hold is held by a first `chat.send`. -/
theorem exists_firstChat (hh : ∀ i, Handled answered (calls i) (threads i))
    (hdead : (poolSystem hash size).Deadlock threads S) {key : Int}
    (hheld : 1 ≤ (poolSystem hash size).held threads S (.lock key)) :
    ∃ j ∈ S, (threads j).stage = .snapshot ∧ (calls j).isFirstChat answered = true ∧
      (calls j).lock hash = some (.lock key) := by
  obtain ⟨j, hj, hpos⟩ : ∃ j ∈ S, 0 < (threads j).holds hash (.lock key) := by
    by_contra hnone
    push Not at hnone
    have : (poolSystem hash size).held threads S (.lock key) = 0 :=
      Finset.sum_eq_zero fun j hj => Nat.le_zero.mp (hnone j hj)
    omega
  simp only [Handling.holds] at hpos
  split at hpos
  · rename_i hlock
    simp only [Bool.and_eq_true, decide_eq_true_eq] at hlock
    obtain ⟨r, hr, -⟩ := hdead.2 j hj
    have hstage := snapshot_of_waits hr hlock.1
    exact ⟨j, hj, hstage, (hh j).firstChat hstage, (hh j).ofCall ▸ hlock.2⟩
  · exact absurd hpos (Nat.lt_irrefl 0)

/-- Some thread of a deadlock waits for a connection, so the threads hold them all. -/
theorem connections_held (hh : ∀ i, Handled answered (calls i) (threads i))
    (hdead : (poolSystem hash size).Deadlock threads S) :
    size ≤ (poolSystem hash size).held threads S .connection := by
  obtain ⟨i, hi⟩ := hdead.1
  obtain ⟨r, -, hle⟩ := hdead.2 i hi
  cases r with
  | connection => exact hle
  | lock key =>
      obtain ⟨j, hj, hstage, -⟩ := exists_firstChat hh hdead hle
      obtain ⟨r, hr, hle⟩ := hdead.2 j hj
      obtain rfl : Resource.connection = r := by
        simpa [poolSystem, Handling.wants, hstage] using hr
      exact hle

variable [Fintype ι] [DecidableEq ι]

/-- Who waits has at most one connection, and one only in a room with a first
`chat.send`. -/
theorem connections_le_crowd (hh : ∀ i, Handled answered (calls i) (threads i))
    (hdead : (poolSystem hash size).Deadlock threads S) {i : ι} (hi : i ∈ S) :
    (threads i).holds hash .connection ≤ if i ∈ crowd hash answered calls then 1 else 0 := by
  obtain ⟨r, hr, hle⟩ := hdead.2 i hi
  have hwants : (threads i).wants hash = some r := hr
  cases hstage : (threads i).stage with
  | begun =>
      rw [Handling.wants, hstage, (hh i).ofCall] at hwants
      obtain ⟨key, rfl⟩ := exists_lock hwants
      obtain ⟨j, -, -, hchat, hlock⟩ := exists_firstChat hh hdead hle
      rw [if_pos (mem_crowd.mpr
        ⟨(hh i).transacts (.inr hstage), j, hchat, hlock.trans hwants.symm⟩)]
      simp [Handling.holds, hstage, Stage.connections]
  | snapshot =>
      have hchat := (hh i).firstChat hstage
      rw [if_pos (mem_crowd.mpr ⟨transacts_of_firstChat hchat, i, hchat, rfl⟩)]
      simp [Handling.holds, hstage, Stage.connections]
  | _ => simp_all [Handling.wants, Handling.holds, Stage.connections]

theorem size_le_crowd (hh : ∀ i, Handled answered (calls i) (threads i))
    (hdead : (poolSystem hash size).Deadlock threads S) :
    size ≤ (crowd hash answered calls).card :=
  calc size ≤ ∑ i ∈ S, (threads i).holds hash .connection := connections_held hh hdead
    _ ≤ ∑ i ∈ S, if i ∈ crowd hash answered calls then 1 else 0 :=
        Finset.sum_le_sum fun i hi => connections_le_crowd hh hdead hi
    _ ≤ ∑ i, if i ∈ crowd hash answered calls then 1 else 0 :=
        Finset.sum_le_sum_of_subset (Finset.subset_univ S)
    _ = (crowd hash answered calls).card := by simp

end Deadlock

/-! ### A run into a deadlock -/

/-- As many requests as there are connections. Those of `leaders` are first
`chat.send`s, one for each of the rooms. -/
structure Jam (size : Nat) (answered : List (Uuid × Uuid)) (calls : ι → IssuedRequest)
    (leaders all : Finset ι) : Prop where
  subset : leaders ⊆ all
  card : all.card = size
  firstChat : ∀ j ∈ leaders, (calls j).isFirstChat answered = true
  distinct : ∀ i ∈ leaders, ∀ j ∈ leaders, (calls i).lock hash = (calls j).lock hash → i = j
  transacts : ∀ i ∈ all, (calls i).transacts = true
  led : ∀ i ∈ all, ∃ j ∈ leaders, (calls j).lock hash = (calls i).lock hash

/-- The requests of `P` hold a connection each, and the leaders among them the lock
of their room; the others have not begun. -/
def jammed [DecidableEq ι] (answered : List (Uuid × Uuid)) (calls : ι → IssuedRequest)
    (leaders P : Finset ι) : World ι (List (Uuid × Uuid)) Handling :=
  ⟨answered, fun i => ⟨calls i,
    if i ∈ P then if i ∈ leaders then .snapshot else .begun else (calls i).start⟩⟩

section Jam

variable {hash} {size : Nat} {answered : List (Uuid × Uuid)} {calls : ι → IssuedRequest}
  {leaders all P : Finset ι}

theorem exists_jam [Fintype ι] (h : size ≤ (crowd hash answered calls).card) :
    ∃ leaders all, Jam hash size answered calls leaders all := by
  let lock (i : ι) : Option Resource := (calls i).lock hash
  have hsurj : Set.SurjOn lock {j | (calls j).isFirstChat answered = true}
      ((crowd hash answered calls).image lock) := by
    intro key hkey
    obtain ⟨i, hi, rfl⟩ := Finset.mem_image.mp (Finset.mem_coe.mp hkey)
    obtain ⟨-, j, hj, hlock⟩ := mem_crowd.mp hi
    exact ⟨j, hj, hlock⟩
  -- One first `chat.send` for each lock of the crowd.
  obtain ⟨leaders, hchat, hinj, himage⟩ :=
    Finset.exists_subset_injOn_image_eq_of_surjOn _ _ hsurj
  have hcrowd : leaders ⊆ crowd hash answered calls := fun j hj =>
    mem_crowd.mpr ⟨transacts_of_firstChat (hchat hj), j, hchat hj, rfl⟩
  rcases Nat.le_total size leaders.card with hmany | hfew
  · obtain ⟨all, hall, hcard⟩ := Finset.exists_subset_card_eq hmany
    exact ⟨all, all, Finset.Subset.refl _, hcard, fun j hj => hchat (hall hj),
      fun i hi j hj heq => hinj (hall hi) (hall hj) heq,
      fun i hi => transacts_of_firstChat (hchat (hall hi)), fun i hi => ⟨i, hi, rfl⟩⟩
  · obtain ⟨all, hsub, hall, hcard⟩ := Finset.exists_subsuperset_card_eq hcrowd hfew h
    refine ⟨leaders, all, hsub, hcard, fun j hj => hchat hj,
      fun i hi j hj heq => hinj hi hj heq,
      fun i hi => (mem_crowd.mp (hall hi)).1, fun i hi => ?_⟩
    have hkey : lock i ∈ leaders.image lock := himage ▸ Finset.mem_image_of_mem lock (hall hi)
    exact Finset.mem_image.mp hkey

/-- What was not begun holds nothing. -/
theorem holds_start (call : IssuedRequest) (r : Resource) :
    Handling.holds hash ⟨call, call.start⟩ r = 0 := by
  rcases start_cases call with h | h | ⟨h, -⟩ <;> rw [h] <;> cases r <;> rfl

variable [DecidableEq ι]

/-- Before the last leader, a lock is held by the leader of its room only. -/
theorem holds_jammed_lock {i : ι} {key : Int}
    (h : i ∈ P → i ∈ leaders → (calls i).lock hash ≠ some (.lock key)) :
    Handling.holds hash ((jammed answered calls leaders P).threads i) (.lock key) = 0 := by
  by_cases hP : i ∈ P
  · by_cases hL : i ∈ leaders
    · simp [jammed, hP, hL, Handling.holds, h hP hL]
    · simp [jammed, hP, hL, Handling.holds, Stage.holdsLock]
  · simpa [jammed, hP] using holds_start (calls i) (.lock key)

theorem held_connections (P T : Finset ι) :
    (poolSystem hash size).held (jammed answered calls leaders P).threads T .connection =
      (T ∩ P).card := by
  have hholds (i : ι) : Handling.holds hash ((jammed answered calls leaders P).threads i)
      .connection = if i ∈ P then 1 else 0 := by
    by_cases hP : i ∈ P
    · by_cases hL : i ∈ leaders <;>
        simp [jammed, hP, hL, Handling.holds, Stage.connections]
    · simpa [jammed, hP] using holds_start (calls i) .connection
  simp only [Resources.held, poolSystem, hholds]
  rw [← Finset.card_filter, Finset.filter_mem_eq_inter]

theorem update_jammed (P : Finset ι) (a : ι) :
    Function.update (jammed answered calls leaders P).threads a
        ⟨calls a, if a ∈ leaders then .snapshot else .begun⟩ =
      (jammed answered calls leaders (insert a P)).threads := by
  funext i
  rcases eq_or_ne i a with rfl | hi
  · simp [jammed]
  · simp [jammed, hi]

theorem Jam.deadlock (h : Jam hash size answered calls leaders all) (hsize : 0 < size) :
    (poolSystem hash size).Deadlock (jammed answered calls leaders all).threads all := by
  refine ⟨Finset.card_pos.mp (h.card.symm ▸ hsize), fun i hi => ?_⟩
  by_cases hL : i ∈ leaders
  · refine ⟨.connection, by simp [jammed, hi, hL, poolSystem, Handling.wants], ?_⟩
    rw [held_connections, Finset.inter_self, h.card]
    exact Nat.le_refl size
  · obtain ⟨j, hj, hlock⟩ := h.led i hi
    obtain ⟨key, hkey⟩ := lock_of_transacts hash (h.transacts i hi)
    refine ⟨.lock key, by simpa [jammed, hi, hL, poolSystem, Handling.wants] using hkey, ?_⟩
    have hholds : (poolSystem hash size).holds ((jammed answered calls leaders all).threads j)
        (.lock key) = 1 := by
      simp [poolSystem, jammed, h.subset hj, hj, Handling.holds, Stage.holdsLock, hlock, hkey]
    exact hholds.symm.le.trans (Resources.holds_le_held (h.subset hj) (Resource.lock key))

variable [Fintype ι]

/-- The next request is given its connection. -/
theorem next_begun (hcard : P.card < size) {a : ι} (haP : a ∉ P)
    (ha : (calls a).transacts = true) :
    (handling hash size answered calls).next (jammed answered calls leaders P) (a, true) =
      ⟨answered, Function.update (jammed answered calls leaders P).threads a
        ⟨calls a, .begun⟩⟩ := by
  have hstart : (jammed answered calls leaders P).threads a = ⟨calls a, .start⟩ := by
    simp [jammed, haP, start_of_transacts ha]
  have hready : (poolSystem hash size).Ready (jammed answered calls leaders P).threads a := by
    intro r hr
    obtain rfl : Resource.connection = r := by
      simpa [poolSystem, Handling.wants, hstart] using hr
    change (poolSystem hash size).held _ _ _ < size
    rwa [held_connections, Finset.univ_inter]
  rw [handling, Resources.next_of_ready hready, hstart]
  rfl

/-- A request that leads nobody then waits for the lock. -/
theorem reach_follower (hcard : P.card < size) {a : ι} (haP : a ∉ P) (ha : a ∉ leaders)
    (htransacts : (calls a).transacts = true) :
    (handling hash size answered calls).runFrom (jammed answered calls leaders P) [(a, true)] =
      jammed answered calls leaders (insert a P) := by
  rw [Machine.runFrom_cons, Machine.runFrom_nil, next_begun hcard haP htransacts]
  have hthreads : Function.update (jammed answered calls leaders P).threads a ⟨calls a, .begun⟩ =
      (jammed answered calls leaders (insert a P)).threads := by
    rw [← update_jammed, if_neg ha]
  rw [hthreads]
  rfl

/-- A leader whose lock nobody holds takes it, finds no answer, and waits for
another connection. -/
theorem reach_leader (hcard : P.card < size) {a : ι} (haP : a ∉ P) (ha : a ∈ leaders)
    (htransacts : (calls a).transacts = true) (hchat : (calls a).isFirstChat answered = true)
    (hlock : ∀ i ∈ P, i ∈ leaders → (calls i).lock hash ≠ (calls a).lock hash) :
    (handling hash size answered calls).runFrom (jammed answered calls leaders P)
        [(a, true), (a, true), (a, true)] =
      jammed answered calls leaders (insert a P) := by
  have hbegun : (poolSystem hash size).Ready
      (Function.update (jammed answered calls leaders P).threads a ⟨calls a, .begun⟩) a := by
    intro r hr
    replace hr : (calls a).lock hash = some r := by
      simpa [poolSystem, Handling.wants] using hr
    obtain ⟨key, rfl⟩ := exists_lock hr
    change (poolSystem hash size).held _ _ _ < 1
    rw [Nat.lt_one_iff]
    refine Finset.sum_eq_zero fun i _ => ?_
    rcases eq_or_ne i a with rfl | hi
    · simp [poolSystem, Handling.holds, Stage.holdsLock]
    · rw [Function.update_of_ne hi]
      exact holds_jammed_lock fun hP hL => hr ▸ hlock i hP hL
  have hthreads : Function.update (jammed answered calls leaders P).threads a
      ⟨calls a, .snapshot⟩ = (jammed answered calls leaders (insert a P)).threads := by
    rw [← update_jammed, if_pos ha]
  simp only [IssuedRequest.isFirstChat, Bool.and_eq_true, Bool.not_eq_true'] at hchat
  -- Once the lock is taken, nothing has to be waited for.
  have hlocked : (poolSystem hash size).Ready
      (Function.update (jammed answered calls leaders P).threads a ⟨calls a, .locked⟩) a := by
    intro r hr
    simp [poolSystem, Handling.wants] at hr
  rw [Machine.runFrom_cons, next_begun hcard haP htransacts, Machine.runFrom_cons,
    handling, Resources.next_of_ready hbegun]
  simp only [Function.update_self, Function.update_idem, poolSystem, Handling.move]
  rw [Machine.runFrom_cons, Machine.runFrom_nil, Resources.next_of_ready hlocked]
  simp only [Function.update_self, Function.update_idem, Handling.move, hchat, hthreads,
    Bool.false_eq_true, ↓reduceIte]
  rfl

/-- First the leaders, then the others, as long as there are connections. -/
theorem Jam.reachable (h : Jam hash size answered calls leaders all) :
    ∃ acts, (handling hash size answered calls).run acts =
      jammed answered calls leaders all := by
  have hleaders : ∀ P ⊆ leaders, ∃ acts, (handling hash size answered calls).run acts =
      jammed answered calls leaders P := by
    intro P
    induction P using Finset.induction_on with
    | empty =>
        exact fun _ => ⟨[], by simp [Machine.run, jammed, handling, Resources.machine, issued]⟩
    | insert a P ha ih =>
        intro hsub
        obtain ⟨haL, hP⟩ := Finset.insert_subset_iff.mp hsub
        obtain ⟨acts, hacts⟩ := ih hP
        have hcard : P.card < size := h.card ▸ Finset.card_lt_card
          ⟨hP.trans h.subset, fun hall => ha (hall (h.subset haL))⟩
        refine ⟨acts ++ [(a, true), (a, true), (a, true)], ?_⟩
        rw [Machine.run_append, hacts]
        refine reach_leader hcard ha haL (h.transacts a (h.subset haL)) (h.firstChat a haL) ?_
        exact fun i hi hiL heq => ha (h.distinct i hiL a haL heq ▸ hi)
  have hothers : ∀ P ⊆ all \ leaders, ∃ acts, (handling hash size answered calls).run acts =
      jammed answered calls leaders (leaders ∪ P) := by
    intro P
    induction P using Finset.induction_on with
    | empty => exact fun _ => by simpa using hleaders leaders (Finset.Subset.refl _)
    | insert a P ha ih =>
        intro hsub
        obtain ⟨haO, hP⟩ := Finset.insert_subset_iff.mp hsub
        obtain ⟨haAll, haL⟩ := Finset.mem_sdiff.mp haO
        obtain ⟨acts, hacts⟩ := ih hP
        have haP : a ∉ leaders ∪ P := by simp [ha, haL]
        have hsubset : leaders ∪ P ⊆ all :=
          Finset.union_subset h.subset (hP.trans Finset.sdiff_subset)
        have hcard : (leaders ∪ P).card < size := h.card ▸ Finset.card_lt_card
          ⟨hsubset, fun hall => haP (hall haAll)⟩
        refine ⟨acts ++ [(a, true)], ?_⟩
        rw [Machine.run_append, hacts, reach_follower hcard haP haL (h.transacts a haAll),
          Finset.union_insert]
  have := hothers (all \ leaders) (Finset.Subset.refl _)
  rwa [Finset.union_sdiff_of_subset h.subset] at this

/-- Where the crowd has as many requests as the pool connections, some of them can
lock one another out. -/
theorem exists_deadlock (hsize : 0 < size) (h : size ≤ (crowd hash answered calls).card) :
    ∃ acts S, (poolSystem hash size).Deadlock
      ((handling hash size answered calls).run acts).threads S := by
  obtain ⟨leaders, all, hjam⟩ := exists_jam h
  obtain ⟨acts, hacts⟩ := hjam.reachable
  exact ⟨acts, all, hacts ▸ hjam.deadlock hsize⟩

end Jam

/-- In every run of requests that are issued together nobody is locked out, and
some request can always go on, exactly when fewer requests than the pool has
connections are in rooms with a first `chat.send`. -/
theorem requests_flow_iff [Fintype ι] [DecidableEq ι] {size : Nat} (hsize : 0 < size)
    (answered : List (Uuid × Uuid)) (calls : ι → IssuedRequest) :
    (∀ acts, Flowing hash size ((handling hash size answered calls).run acts).threads) ↔
      (crowd hash answered calls).card < size := by
  constructor
  · intro hflow
    by_contra hcrowd
    obtain ⟨acts, S, hdead⟩ := exists_deadlock hsize (Nat.not_lt.mp hcrowd)
    exact (hflow acts).1 S hdead
  · intro hcrowd acts
    have hnone : ∀ S, ¬ (poolSystem hash size).Deadlock
        ((handling hash size answered calls).run acts).threads S := by
      intro S hdead
      have := size_le_crowd (fun i => handling_handled hash size answered calls acts i) hdead
      omega
    refine ⟨hnone, fun hleft => ?_⟩
    refine Resources.exists_ready hnone (fun h => h.stage = .finished) ?_ hleft
    rintro ⟨call, stage⟩ r rfl
    cases r <;> rfl

/-- First `chat.send`s, each in a room of its own. -/
def sampleSends (count : Nat) (i : Fin count) : IssuedRequest where
  actor := ⟨7, .human, "Maya Chen", 1000⟩
  request := .chatSend
    { id := "chat"
      contractVersion := "n2n.room.v1"
      requestId := .ofNat i
      roomId := .ofNat i
      occurredAt := seconds 0
      text := "hello" }

/-- The identifier itself as the hash of a room. -/
def sampleHash (room : Uuid) : Int := room.val.val

/-- Two messages in two rooms take the two connections of a pool, and then each
waits for another one for ever. -/
theorem two_chats_lock_out :
    ∃ acts S, (poolSystem sampleHash 2).Deadlock
        ((handling sampleHash 2 [] (sampleSends 2)).run acts).threads S ∧
      ∀ later, ∀ i ∈ S,
        (((handling sampleHash 2 [] (sampleSends 2)).run (acts ++ later)).threads i).stage ≠
          .finished := by
  have hcrowd : 2 ≤ (crowd sampleHash [] (sampleSends 2)).card := by
    have hall : Finset.univ ⊆ crowd sampleHash [] (sampleSends 2) := fun i _ =>
      mem_crowd.mpr ⟨rfl, i, rfl, rfl⟩
    exact Finset.card_le_card hall
  obtain ⟨acts, S, hdead⟩ := exists_deadlock (by decide) hcrowd
  refine ⟨acts, S, hdead, fun later i hi hfinished => ?_⟩
  have hstays : ((handling sampleHash 2 [] (sampleSends 2)).run (acts ++ later)).threads i =
      ((handling sampleHash 2 [] (sampleSends 2)).run acts).threads i := by
    rw [Machine.run_append]
    exact hdead.runFrom later hi
  obtain ⟨r, hr, -⟩ := hdead.2 i hi
  rw [hstays] at hfinished
  simp [poolSystem, Handling.wants, hfinished] at hr

theorem nine_chats_flow :
    0 < 10 ∧ ∀ (hash : Uuid → Int) (acts : List (Fin 9 × Bool)),
      Flowing hash 10 ((handling hash 10 [] (sampleSends 9)).run acts).threads := by
  refine ⟨by decide, fun hash => (requests_flow_iff hash (by decide) [] (sampleSends 9)).mpr ?_⟩
  exact Nat.lt_of_le_of_lt (Finset.card_le_univ _) (by decide)

end RoomGateway
