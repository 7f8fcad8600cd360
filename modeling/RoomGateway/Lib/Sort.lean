import Mathlib.Data.List.Sort
import Mathlib.Data.Prod.Lex

/-!
Sorting by a key that tells the elements apart. Such a list has one sorted
order, so what it is sorted from does not matter, and a list that is already in
order is found again from any rearrangement of it.
-/

namespace RoomGateway

variable {α κ : Type} [LinearOrder κ]

/-- In increasing order of the key, no key twice. -/
def Ascending (key : α → κ) (l : List α) : Prop := l.Pairwise fun a b => key a < key b

/-- Sort by the key. -/
def sortOn (key : α → κ) (l : List α) : List α := l.insertionSort fun a b => key a ≤ key b

variable {key : α → κ} {l sorted : List α}

theorem mem_sortOn {a : α} : a ∈ sortOn key l ↔ a ∈ l := List.mem_insertionSort _

theorem sortOn_perm (key : α → κ) (l : List α) : (sortOn key l).Perm l :=
  List.perm_insertionSort _ l

instance sortOnTrans : IsTrans α fun a b => key a ≤ key b := ⟨fun _ _ _ => le_trans⟩

instance sortOnTotal : Std.Total fun a b : α => key a ≤ key b := ⟨fun _ _ => le_total _ _⟩

theorem sortOn_sorted (key : α → κ) (l : List α) :
    (sortOn key l).Pairwise fun a b => key a ≤ key b :=
  List.pairwise_insertionSort _ l

/-- `ORDER BY f ASC, g ASC`. -/
theorem insertionSort_pair {β γ : Type} [LinearOrder β] [LinearOrder γ] (f : α → β) (g : α → γ)
    (l : List α) :
    (l.insertionSort fun a b => f a < f b ∨ (f a = f b ∧ g a ≤ g b)) =
      sortOn (fun a => toLex (f a, g a)) l := by
  have horder : ∀ a b : α, (f a < f b ∨ (f a = f b ∧ g a ≤ g b)) =
      (toLex (f a, g a) ≤ toLex (f b, g b)) :=
    fun a b => propext (Prod.Lex.toLex_le_toLex (x := (f a, g a)) (y := (f b, g b))).symm
  unfold sortOn
  congr! 1
  exact funext₂ horder

namespace Ascending

theorem nodup (h : Ascending key l) : l.Nodup :=
  h.imp fun hab heq => absurd hab (by rw [heq]; exact lt_irrefl _)

theorem eq_of_key_eq (h : Ascending key l) {a b : α} (ha : a ∈ l) (hb : b ∈ l)
    (hkey : key a = key b) : a = b := by
  obtain ⟨i, hi, rfl⟩ := List.getElem_of_mem ha
  obtain ⟨j, hj, rfl⟩ := List.getElem_of_mem hb
  have hpair := List.pairwise_iff_getElem.mp h
  rcases Nat.lt_trichotomy i j with hij | rfl | hij
  · exact absurd hkey (hpair i j hi hj hij).ne
  · rfl
  · exact absurd hkey (hpair j i hj hi hij).ne'

/-- A list in order is found again from any rearrangement of it. -/
theorem sortOn_eq (h : Ascending key sorted) (hperm : l.Perm sorted) : sortOn key l = sorted := by
  refine List.Perm.eq_of_pairwise (fun a b ha hb hab hba => ?_) (sortOn_sorted key l)
    (h.imp fun hab => hab.le) ((sortOn_perm key l).trans hperm)
  exact h.eq_of_key_eq (hperm.subset (mem_sortOn.mp ha)) hb (le_antisymm hab hba)

/-- Two lists in order with the same elements are one list. -/
theorem eq_of_mem_iff {l' : List α} (h : Ascending key l) (h' : Ascending key l')
    (hmem : ∀ a, a ∈ l ↔ a ∈ l') : l = l' := by
  have hperm : l.Perm l' := (List.perm_ext_iff_of_nodup h.nodup h'.nodup).mpr hmem
  refine hperm.eq_of_pairwise (fun a b ha hb hab hba => ?_) h h'
  exact absurd hab (lt_asymm hba)

/-- The element with the largest key is the last one. -/
theorem getLast?_eq (h : Ascending key l) {a : α} (ha : a ∈ l) (hmax : ∀ b ∈ l, key b ≤ key a) :
    l.getLast? = some a := by
  obtain ⟨before, after, rfl⟩ := List.append_of_mem ha
  cases after with
  | nil => simp
  | cons b after =>
      have hlt : key a < key b :=
        (List.pairwise_cons.mp (List.pairwise_append.mp h).2.1).1 b List.mem_cons_self
      exact absurd (hmax b (by simp)) (not_le.mpr hlt)

/-- No key is past the last one. -/
theorem le_getLast (h : Ascending key l) {a : α} (ha : a ∈ l) {d : κ} :
    key a ≤ (l.getLast?.map key).getD d := by
  obtain ⟨before, after, rfl⟩ := List.append_of_mem ha
  cases hlast : after.getLast? with
  | none => simp [List.getLast?_eq_none_iff.mp hlast]
  | some b =>
      have hb : b ∈ after := List.mem_of_getLast? hlast
      have hlt : key a < key b := (List.pairwise_cons.mp (List.pairwise_append.mp h).2.1).1 b hb
      simp [List.getLast?_append, List.getLast?_cons, hlast, hlt.le]

theorem append {l' : List α} (h : Ascending key l) (h' : Ascending key l')
    (hlt : ∀ a ∈ l, ∀ b ∈ l', key a < key b) : Ascending key (l ++ l') :=
  List.pairwise_append.mpr ⟨h, h', hlt⟩

theorem filter (h : Ascending key l) (p : α → Bool) : Ascending key (l.filter p) :=
  List.Pairwise.filter p h

end Ascending

/-- A list whose keys are all different is in order once it is sorted. -/
theorem ascending_sortOn (hnodup : (l.map key).Nodup) : Ascending key (sortOn key l) := by
  have hkeys : ((sortOn key l).map key).Nodup :=
    ((sortOn_perm key l).map key).nodup_iff.mpr hnodup
  exact (sortOn_sorted key l).imp₂ (fun a b hle hne => lt_of_le_of_ne hle hne)
    (List.pairwise_map.mp hkeys)

end RoomGateway
