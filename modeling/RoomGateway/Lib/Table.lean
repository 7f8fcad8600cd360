import Mathlib.Data.List.Forall2
import Mathlib.Data.List.Pairwise

/-!
Tables of rows under declared constraints. A `Constraints ρ` says which rows
may be stored at all (`check`) and which two rows may not be stored together
(`clash`: primary keys and unique indexes). A `Table` carries the proof that
its rows obey both, so that a state with two rows under one key cannot be
built; a write that would break a constraint has no result.
-/

namespace RoomGateway

structure Constraints (ρ : Type) where
  check : ρ → Bool
  clash : ρ → ρ → Bool

@[ext] structure Table {ρ : Type} (c : Constraints ρ) where
  rows : List ρ
  checked : ∀ r ∈ rows, c.check r = true
  unique : rows.Pairwise (fun a b => c.clash a b = false)

namespace Table

variable {ρ : Type} {c : Constraints ρ}

/-- Change the rows that a condition selects, leave the others. -/
def alter (p : ρ → Bool) (f : ρ → ρ) (r : ρ) : ρ := if p r then f r else r

def empty : Table c := ⟨[], by simp, List.Pairwise.nil⟩

instance : Inhabited (Table c) := ⟨empty⟩

def insert (r : ρ) (t : Table c) : Option (Table c) :=
  if h : c.check r = true ∧ ∀ x ∈ t.rows, c.clash x r = false then
    some
      { rows := t.rows ++ [r]
        checked := by
          intro x hx
          rcases List.mem_append.mp hx with hx | hx
          · exact t.checked x hx
          · rw [List.mem_singleton.mp hx]
            exact h.1
        unique := by
          rw [List.pairwise_append]
          refine ⟨t.unique, List.pairwise_singleton _ _, ?_⟩
          intro a ha b hb
          rw [List.mem_singleton.mp hb]
          exact h.2 a ha }
  else none

def update (p : ρ → Bool) (f : ρ → ρ) (t : Table c) : Option (Table c) :=
  if h : (∀ r ∈ t.rows.map (alter p f), c.check r = true) ∧
      (t.rows.map (alter p f)).Pairwise (fun a b => c.clash a b = false) then
    some { rows := t.rows.map (alter p f), checked := h.1, unique := h.2 }
  else none

def delete (p : ρ → Bool) (t : Table c) : Table c where
  rows := t.rows.filter (fun r => !p r)
  checked := fun r hr => t.checked r (List.mem_filter.mp hr).1
  unique := t.unique.filter _

/-- Insert unless a stored row already has the key. -/
def insertOrIgnore (same : ρ → Bool) (r : ρ) (t : Table c) : Option (Table c) :=
  if t.rows.any same then some t else t.insert r

@[simp] theorem rows_empty : (empty : Table c).rows = [] := rfl

theorem rows_insert {r : ρ} {t t' : Table c} (h : t.insert r = some t') :
    t'.rows = t.rows ++ [r] := by
  unfold insert at h
  split at h
  · rw [← Option.some.inj h]
  · exact absurd h (by simp)

theorem check_insert {r : ρ} {t t' : Table c} (h : t.insert r = some t') : c.check r = true := by
  unfold insert at h
  split at h
  · rename_i hc
    exact hc.1
  · exact absurd h (by simp)

theorem clash_insert {r : ρ} {t t' : Table c} (h : t.insert r = some t') :
    ∀ x ∈ t.rows, c.clash x r = false := by
  unfold insert at h
  split at h
  · rename_i hc
    exact hc.2
  · exact absurd h (by simp)

/-- A row that fits beside the others is stored. -/
theorem exists_insert {r : ρ} {t : Table c} (hcheck : c.check r = true)
    (hclash : ∀ x ∈ t.rows, c.clash x r = false) : ∃ t', t.insert r = some t' :=
  ⟨_, dif_pos ⟨hcheck, hclash⟩⟩

/-- A change that keeps to the constraints is made. -/
theorem exists_update {p : ρ → Bool} {f : ρ → ρ} {t : Table c}
    (hcheck : ∀ r ∈ t.rows, p r = true → c.check (f r) = true)
    (hclash : ∀ a ∈ t.rows, ∀ b ∈ t.rows, c.clash a b = false →
      c.clash (alter p f a) (alter p f b) = false) :
    ∃ t', t.update p f = some t' := by
  refine ⟨_, dif_pos ⟨fun r hr => ?_, ?_⟩⟩
  · obtain ⟨x, hx, rfl⟩ := List.mem_map.mp hr
    unfold alter
    split
    · next hp => exact hcheck x hx hp
    · exact t.checked x hx
  · rw [List.pairwise_map]
    exact t.unique.imp_of_mem fun ha hb h => hclash _ ha _ hb h

theorem rows_update {p : ρ → Bool} {f : ρ → ρ} {t t' : Table c} (h : t.update p f = some t') :
    t'.rows = t.rows.map (alter p f) := by
  unfold update at h
  split at h
  · rw [← Option.some.inj h]
  · exact absurd h (by simp)

@[simp] theorem alter_of_pos {p : ρ → Bool} {f : ρ → ρ} {r : ρ} (h : p r = true) :
    alter p f r = f r := by simp [alter, h]

@[simp] theorem alter_of_neg {p : ρ → Bool} {f : ρ → ρ} {r : ρ} (h : p r = false) :
    alter p f r = r := by simp [alter, h]

theorem mem_map_alter {p : ρ → Bool} {f : ρ → ρ} {rows : List ρ} {r : ρ} :
    r ∈ rows.map (alter p f) ↔
      (∃ x ∈ rows, p x = true ∧ r = f x) ∨ (r ∈ rows ∧ p r = false) := by
  constructor
  · intro h
    obtain ⟨x, hx, rfl⟩ := List.mem_map.mp h
    cases hp : p x with
    | true => exact .inl ⟨x, hx, hp, by simp [hp]⟩
    | false => exact .inr ⟨by simpa [hp] using hx, by simp [hp]⟩
  · rintro (⟨x, hx, hp, rfl⟩ | ⟨hr, hp⟩)
    · exact List.mem_map.mpr ⟨x, hx, by simp [hp]⟩
    · exact List.mem_map.mpr ⟨r, hr, by simp [hp]⟩

/-! ### Rewriting one row

The rows that meet a key condition are one row, so a run of alterations under
that condition, or under narrower ones, amounts to putting one row in its
place. -/

/-- Put a row in the place of every row that meets a condition. -/
def put (p : ρ → Bool) (new : ρ) (rows : List ρ) : List ρ := rows.map (alter p fun _ => new)

theorem mem_put {p : ρ → Bool} {old new x : ρ} {rows : List ρ} (hold : old ∈ rows)
    (hp : p old = true) : x ∈ put p new rows ↔ x = new ∨ (x ∈ rows ∧ p x = false) := by
  rw [put, mem_map_alter]
  constructor
  · rintro (⟨y, -, -, rfl⟩ | h)
    · exact .inl rfl
    · exact .inr h
  · rintro (rfl | h)
    · exact .inl ⟨old, hold, hp, rfl⟩
    · exact .inr h

theorem map_alter_eq_put {p q : ρ → Bool} {f : ρ → ρ} {old : ρ} {rows : List ρ}
    (huniq : ∀ r ∈ rows, p r = true → r = old) (hq : ∀ r, q r = true → p r = true) :
    rows.map (alter q f) = put p (alter q f old) rows := by
  apply List.map_congr_left
  intro r hr
  cases hp : p r with
  | true => rw [alter_of_pos hp, huniq r hr hp]
  | false =>
      have hqr : q r = false := by
        cases hqr : q r with
        | true => exact absurd (hq r hqr) (by simp [hp])
        | false => rfl
      rw [alter_of_neg hp, alter_of_neg hqr]

theorem map_alter_put {p q : ρ → Bool} {f : ρ → ρ} {new : ρ} {rows : List ρ}
    (hq : ∀ r, q r = true → p r = true) :
    (put p new rows).map (alter q f) = put p (alter q f new) rows := by
  rw [put, put, List.map_map]
  apply List.map_congr_left
  intro r _
  cases hp : p r with
  | true => simp [hp]
  | false =>
      have hqr : q r = false := by
        cases hqr : q r with
        | true => exact absurd (hq r hqr) (by simp [hp])
        | false => rfl
      simp [hp, hqr]

/-- What the new row has in common with the old one stays. -/
theorem map_put {β : Type} {p : ρ → Bool} {old new : ρ} {rows : List ρ} {f : ρ → β}
    (huniq : ∀ r ∈ rows, p r = true → r = old) (hf : f new = f old) :
    (put p new rows).map f = rows.map f := by
  rw [put, List.map_map]
  apply List.map_congr_left
  intro r hr
  cases hp : p r with
  | true => rw [Function.comp_apply, alter_of_pos hp, hf, huniq r hr hp]
  | false => rw [Function.comp_apply, alter_of_neg hp]

/-- Rows that neither the old nor the new row is among. -/
theorem filter_put {p q : ρ → Bool} {new : ρ} {rows : List ρ} (hp : ∀ r, p r = true → q r = false)
    (hnew : q new = false) : (put p new rows).filter q = rows.filter q := by
  induction rows with
  | nil => rfl
  | cons r rows ih =>
      rw [put, List.map_cons, List.filter_cons, List.filter_cons]
      cases hpr : p r with
      | true =>
          rw [alter_of_pos hpr, hnew, hp r hpr]
          exact ih
      | false =>
          rw [alter_of_neg hpr]
          exact congrArg (fun l => if q r = true then r :: l else l) ih

theorem put_self {p : ρ → Bool} {old : ρ} {rows : List ρ}
    (huniq : ∀ r ∈ rows, p r = true → r = old) : put p old rows = rows := by
  have hid : put p old rows = rows.map id := by
    apply List.map_congr_left
    intro r hr
    cases hp : p r with
    | true => rw [alter_of_pos hp, huniq r hr hp, id]
    | false => rw [alter_of_neg hp, id]
  rw [hid, List.map_id]

/-- Two stored rows that clash, in either order, are the same row. -/
theorem eq_of_clash {t : Table c} {a b : ρ} (ha : a ∈ t.rows) (hb : b ∈ t.rows)
    (hab : c.clash a b = true) (hba : c.clash b a = true) : a = b := by
  obtain ⟨i, hi, rfl⟩ := List.getElem_of_mem ha
  obtain ⟨j, hj, rfl⟩ := List.getElem_of_mem hb
  have hpair := List.pairwise_iff_getElem.mp t.unique
  rcases Nat.lt_trichotomy i j with hij | rfl | hij
  · rw [hpair i j hi hj hij] at hab
    exact absurd hab (by simp)
  · rfl
  · rw [hpair j i hj hi hij] at hba
    exact absurd hba (by simp)

/-- A lookup finds the one row that meets its condition. -/
theorem find?_eq_some_of_unique {rows : List ρ} {p : ρ → Bool} {r : ρ} (hr : r ∈ rows)
    (hp : p r = true) (huniq : ∀ x ∈ rows, p x = true → x = r) : rows.find? p = some r := by
  cases hfind : rows.find? p with
  | none => exact absurd hp (List.find?_eq_none.mp hfind r hr)
  | some x =>
      rw [huniq x (List.mem_of_find?_eq_some hfind) (List.find?_some hfind)]

/-! ### Rows that come from rows -/

section Related

variable {ρ' ρ'' : Type} {R : ρ → ρ' → Prop} {S : ρ' → ρ'' → Prop} {T : ρ → ρ'' → Prop}

/-- Relations that compose do so row by row. -/
theorem forall₂_comp {l : List ρ} {m : List ρ'} {n : List ρ''}
    (h : ∀ a b c, R a b → S b c → T a c) (hl : List.Forall₂ R l m) (hm : List.Forall₂ S m n) :
    List.Forall₂ T l n := by
  induction hl generalizing n with
  | nil =>
      cases hm
      exact .nil
  | cons hab _ ih =>
      obtain _ | ⟨hbc, hm⟩ := hm
      exact .cons (h _ _ _ hab hbc) (ih hm)

theorem exists_of_forall₂ {l : List ρ} {m : List ρ'} (h : List.Forall₂ R l m)
    {b : ρ'} (hb : b ∈ m) :
    ∃ a ∈ l, R a b := by
  induction h with
  | nil => cases hb
  | cons hab _ ih =>
      rcases List.mem_cons.mp hb with rfl | hb
      · exact ⟨_, List.mem_cons_self, hab⟩
      · obtain ⟨a, ha, hab⟩ := ih hb
        exact ⟨a, List.mem_cons_of_mem _ ha, hab⟩

theorem forall₂_put {R : ρ → ρ → Prop} (refl : ∀ r, R r r) {p : ρ → Bool} {new : ρ} {rows : List ρ}
    (h : ∀ r ∈ rows, p r = true → R r new) : List.Forall₂ R rows (put p new rows) := by
  refine List.forall₂_map_right_iff.mpr (List.forall₂_same.mpr fun r hr => ?_)
  cases hp : p r with
  | true =>
      rw [alter_of_pos hp]
      exact h r hr hp
  | false =>
      rw [alter_of_neg hp]
      exact refl r

end Related

end Table

end RoomGateway
