import Mathlib.Algebra.Order.BigOperators.Group.Finset
import Mathlib.Data.Fintype.Basic
import RoomGateway.Lib.Machine

/-!
Threads that wait for shared resources. Of each resource there is a number of
units; a thread that wants one waits until one is free and keeps it until a
later move returns it. A set of threads is in deadlock when each of them waits
for a resource all of whose units the set itself holds. Such a set stays where
it is (`Deadlock.runFrom`), and where there is none, some thread can go on
(`exists_ready`).
-/

namespace RoomGateway

/-- `σ` is what the threads share besides the resources, `χ` what a move may
depend on besides its thread. -/
structure Resources (σ τ ρ χ : Type) where
  capacity : ρ → Nat
  /-- The resource that a thread has to be given before its next move. -/
  wants : τ → Option ρ
  holds : τ → ρ → Nat
  move : σ → τ → χ → σ × τ

namespace Resources

structure World (ι σ τ : Type) where
  shared : σ
  threads : ι → τ

variable {ι σ τ ρ χ : Type} (sys : Resources σ τ ρ χ)

/-- What a set of threads holds of a resource. -/
def held (threads : ι → τ) (S : Finset ι) (r : ρ) : Nat := ∑ i ∈ S, sys.holds (threads i) r

/-- Each thread of the set waits for a resource that the set has taken whole. -/
def Deadlock (threads : ι → τ) (S : Finset ι) : Prop :=
  S.Nonempty ∧ ∀ i ∈ S, ∃ r ∈ sys.wants (threads i), sys.capacity r ≤ sys.held threads S r

variable {sys}

theorem held_mono {threads : ι → τ} {S T : Finset ι} (h : S ⊆ T) (r : ρ) :
    sys.held threads S r ≤ sys.held threads T r :=
  Finset.sum_le_sum_of_subset h

theorem holds_le_held {threads : ι → τ} {S : Finset ι} {i : ι} (hi : i ∈ S) (r : ρ) :
    sys.holds (threads i) r ≤ sys.held threads S r :=
  Finset.single_le_sum (f := fun i => sys.holds (threads i) r) (fun _ _ => Nat.zero_le _) hi

theorem held_congr {threads threads' : ι → τ} {S : Finset ι}
    (h : ∀ i ∈ S, threads i = threads' i) (r : ρ) :
    sys.held threads S r = sys.held threads' S r :=
  Finset.sum_congr rfl fun i hi => by rw [h i hi]

theorem Deadlock.congr {threads threads' : ι → τ} {S : Finset ι}
    (h : ∀ i ∈ S, threads i = threads' i) (hdead : sys.Deadlock threads S) :
    sys.Deadlock threads' S := by
  refine ⟨hdead.1, fun i hi => ?_⟩
  obtain ⟨r, hr, hle⟩ := hdead.2 i hi
  exact ⟨r, h i hi ▸ hr, held_congr h r ▸ hle⟩

variable [Fintype ι] (sys)

def Free (threads : ι → τ) (r : ρ) : Prop := sys.held threads Finset.univ r < sys.capacity r

instance (threads : ι → τ) (r : ρ) : Decidable (sys.Free threads r) :=
  inferInstanceAs (Decidable (_ < _))

/-- A thread that waits for nothing, or for something that is free. -/
def Ready (threads : ι → τ) (i : ι) : Prop := ∀ r ∈ sys.wants (threads i), sys.Free threads r

instance (threads : ι → τ) (i : ι) : Decidable (sys.Ready threads i) :=
  inferInstanceAs (Decidable (∀ r ∈ sys.wants (threads i), _))

variable {sys}

theorem Deadlock.not_ready {threads : ι → τ} {S : Finset ι} (h : sys.Deadlock threads S) {i : ι}
    (hi : i ∈ S) : ¬ sys.Ready threads i := by
  intro hready
  obtain ⟨r, hr, hle⟩ := h.2 i hi
  have hfree : sys.held threads Finset.univ r < sys.capacity r := hready r hr
  have hmono : sys.held threads S r ≤ sys.held threads Finset.univ r :=
    held_mono (Finset.subset_univ S) r
  omega

/-- Threads that wait only for what is taken, and that between them hold all that
is taken, are in deadlock. -/
theorem exists_ready {threads : ι → τ} (h : ∀ S, ¬ sys.Deadlock threads S) (ended : τ → Prop)
    (hended : ∀ t r, ended t → sys.holds t r = 0) (hsome : ∃ i, ¬ ended (threads i)) :
    ∃ i, ¬ ended (threads i) ∧ sys.Ready threads i := by
  classical
  by_contra hnone
  push Not at hnone
  let waiting : Finset ι := Finset.univ.filter fun i => ¬ ended (threads i)
  have hall (r : ρ) : sys.held threads waiting r = sys.held threads Finset.univ r := by
    refine Finset.sum_subset (Finset.subset_univ _) fun i _ hi => hended _ _ ?_
    simpa [waiting] using hi
  refine h waiting ⟨?_, fun i hi => ?_⟩
  · obtain ⟨i, hi⟩ := hsome
    exact ⟨i, by simpa [waiting] using hi⟩
  · have hwait := hnone i (by simpa [waiting] using hi)
    simp only [Ready, not_forall] at hwait
    obtain ⟨r, hr, hfree⟩ := hwait
    exact ⟨r, hr, hall r ▸ Nat.not_lt.mp hfree⟩

/-! ### Runs -/

variable [DecidableEq ι] (sys)

/-- The thread at `act.1` makes its next move, if it does not have to wait. -/
def step (w : World ι σ τ) (act : ι × χ) : World ι σ τ × Unit :=
  if sys.Ready w.threads act.1 then
    let next := sys.move w.shared (w.threads act.1) act.2
    (⟨next.1, Function.update w.threads act.1 next.2⟩, ())
  else (w, ())

def machine (init : World ι σ τ) : Machine (World ι σ τ) (ι × χ) Unit where
  init := init
  step := sys.step

variable {sys} {init : World ι σ τ}

theorem next_of_ready {w : World ι σ τ} {i : ι} (h : sys.Ready w.threads i) (c : χ) :
    (sys.machine init).next w (i, c) =
      ⟨(sys.move w.shared (w.threads i) c).1,
        Function.update w.threads i (sys.move w.shared (w.threads i) c).2⟩ := by
  simp only [Machine.next, machine, step, if_pos h]

/-- A property of what is shared and one of each thread, kept by the moves. -/
theorem run_invariant {I : σ → Prop} {P : ι → τ → Prop} (hI : I init.shared)
    (hP : ∀ i, P i (init.threads i))
    (move : ∀ i s t c, I s → P i t → I (sys.move s t c).1 ∧ P i (sys.move s t c).2)
    (acts : List (ι × χ)) :
    I ((sys.machine init).run acts).shared ∧
      ∀ i, P i (((sys.machine init).run acts).threads i) := by
  refine Machine.run_invariant
    (P := fun w : World ι σ τ => I w.shared ∧ ∀ i, P i (w.threads i)) ⟨hI, hP⟩ ?_ acts
  rintro w ⟨i, c⟩ ⟨hw, hthreads⟩
  by_cases hready : sys.Ready w.threads i
  · rw [next_of_ready hready]
    obtain ⟨hs, ht⟩ := move i _ _ c hw (hthreads i)
    refine ⟨hs, fun j => ?_⟩
    rcases eq_or_ne j i with rfl | hj
    · simpa using ht
    · simpa [Function.update_of_ne hj] using hthreads j
  · simpa [Machine.next, machine, step, if_neg hready] using And.intro hw hthreads

/-- Threads in deadlock wait for ever. -/
theorem Deadlock.runFrom {w : World ι σ τ} {S : Finset ι} (h : sys.Deadlock w.threads S)
    (acts : List (ι × χ)) {i : ι} (hi : i ∈ S) :
    ((sys.machine init).runFrom w acts).threads i = w.threads i := by
  have key : sys.Deadlock ((sys.machine init).runFrom w acts).threads S ∧
      ∀ i ∈ S, ((sys.machine init).runFrom w acts).threads i = w.threads i := by
    refine Machine.runFrom_invariant
      (P := fun v : World ι σ τ => sys.Deadlock v.threads S ∧ ∀ i ∈ S, v.threads i = w.threads i)
      ?_ ⟨h, fun _ _ => rfl⟩ acts
    rintro v ⟨j, c⟩ ⟨hdead, hsame⟩
    by_cases hready : sys.Ready v.threads j
    · rw [next_of_ready hready]
      have hj : j ∉ S := fun hj => hdead.not_ready hj hready
      have hkeep (i : ι) (hi : i ∈ S) (t : τ) : Function.update v.threads j t i = v.threads i :=
        Function.update_of_ne (ne_of_mem_of_not_mem hi hj) _ _
      exact ⟨hdead.congr fun i hi => (hkeep i hi _).symm,
        fun i hi => (hkeep i hi _).trans (hsame i hi)⟩
    · simpa [Machine.next, machine, step, if_neg hready] using And.intro hdead hsame
  exact key.2 i hi

end Resources

end RoomGateway
