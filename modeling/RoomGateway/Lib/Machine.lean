import Mathlib.Data.List.Basic

/-!
Machines that take one input at a time, and the rules by which a property of
every run follows from a property of one step: for the states reached
(`run_invariant`), for the runs whose steps all meet a condition
(`runFrom_invariant_of_guard`), for a state together with what the steps before it
left behind (`collect_invariant`), for what the steps leave behind
(`forall_collect_iff`, `forall_collect_of_guard`), and for how a state relates to
the later ones (`runFrom_trans`).
-/

namespace RoomGateway

universe u v w

structure Machine (σ : Type u) (ι : Type v) (ο : Type w) where
  init : σ
  step : σ → ι → σ × ο

namespace Machine

variable {σ : Type u} {ι : Type v} {ο : Type w} {β : Type*} (m : Machine σ ι ο)

def next (s : σ) (i : ι) : σ := (m.step s i).1

def out (s : σ) (i : ι) : ο := (m.step s i).2

def runFrom (s : σ) (inputs : List ι) : σ := inputs.foldl m.next s

def run (inputs : List ι) : σ := m.runFrom m.init inputs

@[simp] theorem runFrom_nil (s : σ) : m.runFrom s [] = s := rfl

@[simp] theorem runFrom_cons (s : σ) (i : ι) (inputs : List ι) :
    m.runFrom s (i :: inputs) = m.runFrom (m.next s i) inputs := rfl

theorem runFrom_append (s : σ) (first second : List ι) :
    m.runFrom s (first ++ second) = m.runFrom (m.runFrom s first) second :=
  List.foldl_append

theorem run_append (first second : List ι) :
    m.run (first ++ second) = m.runFrom (m.run first) second :=
  m.runFrom_append m.init first second

/-- Every input of a run meets a condition in the state it is given in. -/
def Guarded (guard : σ → ι → Prop) : σ → List ι → Prop
  | _, [] => True
  | s, i :: inputs => guard s i ∧ Guarded guard (m.next s i) inputs

instance decidableGuarded {guard : σ → ι → Prop} [∀ s i, Decidable (guard s i)] :
    (s : σ) → (inputs : List ι) → Decidable (m.Guarded guard s inputs)
  | _, [] => .isTrue trivial
  | s, i :: inputs =>
      @instDecidableAnd (guard s i) (m.Guarded guard (m.next s i) inputs) inferInstance
        (decidableGuarded (m.next s i) inputs)

/-- What the steps of a run leave behind, in order. -/
def collect (f : σ → ι → List β) : σ → List ι → List β
  | _, [] => []
  | s, i :: inputs => f s i ++ collect f (m.next s i) inputs

theorem collect_append (f : σ → ι → List β) (s : σ) (first second : List ι) :
    m.collect f s (first ++ second) =
      m.collect f s first ++ m.collect f (m.runFrom s first) second := by
  induction first generalizing s with
  | nil => rfl
  | cons i first ih => simp [collect, ih]

/-- Whatever was collected was left behind by some step. -/
theorem mem_collect {f : σ → ι → List β} {s : σ} {inputs : List ι} {b : β}
    (h : b ∈ m.collect f s inputs) :
    ∃ first i rest, inputs = first ++ i :: rest ∧ b ∈ f (m.runFrom s first) i := by
  induction inputs generalizing s with
  | nil => cases h
  | cons i inputs ih =>
      rcases List.mem_append.mp h with h | h
      · exact ⟨[], i, inputs, rfl, h⟩
      · obtain ⟨first, j, rest, rfl, hb⟩ := ih h
        exact ⟨i :: first, j, rest, rfl, hb⟩

section Rules

variable {m}

theorem runFrom_invariant {P : σ → Prop} (step : ∀ s i, P s → P (m.next s i)) {s : σ}
    (h : P s) (inputs : List ι) : P (m.runFrom s inputs) := by
  induction inputs generalizing s with
  | nil => exact h
  | cons i inputs ih => exact ih (step s i h)

theorem run_invariant {P : σ → Prop} (init : P m.init) (step : ∀ s i, P s → P (m.next s i))
    (inputs : List ι) : P (m.run inputs) :=
  runFrom_invariant step init inputs

theorem runFrom_invariant_of_guard {P : σ → Prop} {guard : σ → ι → Prop}
    (step : ∀ s i, guard s i → P s → P (m.next s i)) {s : σ} (h : P s) {inputs : List ι}
    (hguard : m.Guarded guard s inputs) : P (m.runFrom s inputs) := by
  induction inputs generalizing s with
  | nil => exact h
  | cons i inputs ih => exact ih (step s i hguard.1 h) hguard.2

theorem guarded_append {guard : σ → ι → Prop} {s : σ} {first second : List ι} :
    m.Guarded guard s (first ++ second) ↔
      m.Guarded guard s first ∧ m.Guarded guard (m.runFrom s first) second := by
  induction first generalizing s with
  | nil => simp [Guarded]
  | cons i first ih => simp [Guarded, ih, and_assoc]

/-- A state and what was collected on the way to it, when all inputs meet a
condition. -/
theorem collect_invariant_of_forall {P : σ → List β → Prop} {f : σ → ι → List β}
    {guard : ι → Prop} (init : P m.init [])
    (step : ∀ s acc i, guard i → P s acc → P (m.next s i) (acc ++ f s i)) {inputs : List ι}
    (h : ∀ i ∈ inputs, guard i) : P (m.run inputs) (m.collect f m.init inputs) := by
  have key : ∀ (inputs : List ι) (s : σ) (acc : List β), (∀ i ∈ inputs, guard i) → P s acc →
      P (m.runFrom s inputs) (acc ++ m.collect f s inputs) := by
    intro inputs
    induction inputs with
    | nil =>
        intro s acc _ h
        simpa [collect] using h
    | cons i inputs ih =>
        intro s acc hinputs h
        obtain ⟨hi, hinputs⟩ := List.forall_mem_cons.mp hinputs
        have := ih _ _ hinputs (step s acc i hi h)
        simpa [collect, List.append_assoc] using this
  simpa [run] using key inputs m.init [] h init

/-- A state and what was collected on the way to it. -/
theorem collect_invariant {P : σ → List β → Prop} {f : σ → ι → List β} (init : P m.init [])
    (step : ∀ s acc i, P s acc → P (m.next s i) (acc ++ f s i)) (inputs : List ι) :
    P (m.run inputs) (m.collect f m.init inputs) :=
  have hall : ∀ i ∈ inputs, (fun _ : ι => True) i := fun _ _ => trivial
  collect_invariant_of_forall init (fun s acc i _ => step s acc i) hall

/-- What the steps of a run leave behind is in order exactly if each step meets
the condition under which it leaves nothing else. -/
theorem forall_collect_iff {P : σ → Prop} {Q : β → Prop} {guard : σ → ι → Prop}
    {f : σ → ι → List β} (keep : ∀ s i, P s → P (m.next s i))
    (step : ∀ s i, P s → ((∀ b ∈ f s i, Q b) ↔ guard s i)) {s : σ} (h : P s) (inputs : List ι) :
    (∀ b ∈ m.collect f s inputs, Q b) ↔ m.Guarded guard s inputs := by
  induction inputs generalizing s with
  | nil => simp [collect, Guarded]
  | cons i inputs ih =>
      simp only [collect, List.mem_append, or_imp, forall_and, Guarded]
      rw [step s i h, ih (keep s i h)]

/-- What the steps of a run leave behind, when each step meets a condition. -/
theorem forall_collect_of_guard {P : σ → Prop} {Q : β → Prop} {guard : σ → ι → Prop}
    {f : σ → ι → List β} (keep : ∀ s i, guard s i → P s → P (m.next s i))
    (step : ∀ s i, guard s i → P s → ∀ b ∈ f s i, Q b) {s : σ} (h : P s) {inputs : List ι}
    (hguard : m.Guarded guard s inputs) : ∀ b ∈ m.collect f s inputs, Q b := by
  induction inputs generalizing s with
  | nil => simp [collect]
  | cons i inputs ih =>
      intro b hb
      rcases List.mem_append.mp hb with hb | hb
      · exact step s i hguard.1 h b hb
      · exact ih (keep s i hguard.1 h) hguard.2 b hb

/-- A preorder that every step respects holds between a state and any state it
leads to. -/
theorem runFrom_trans {R : σ → σ → Prop} {P : σ → Prop} {guard : σ → ι → Prop}
    (refl : ∀ s, R s s) (trans : ∀ a b c, R a b → R b c → R a c)
    (keep : ∀ s i, guard s i → P s → P (m.next s i))
    (step : ∀ s i, guard s i → P s → R s (m.next s i)) {s : σ} (h : P s) {inputs : List ι}
    (hguard : m.Guarded guard s inputs) : R s (m.runFrom s inputs) := by
  induction inputs generalizing s with
  | nil => exact refl s
  | cons i inputs ih =>
      exact trans _ _ _ (step s i hguard.1 h) (ih (keep s i hguard.1 h) hguard.2)

theorem guarded_true (s : σ) (inputs : List ι) : m.Guarded (fun _ _ => True) s inputs := by
  induction inputs generalizing s with
  | nil => trivial
  | cons i inputs ih => exact ⟨trivial, ih _⟩

end Rules

end Machine

end RoomGateway
