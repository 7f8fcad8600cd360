import Mathlib.Data.List.Nodup
import Mathlib.Data.List.Perm.Basic

/-!
Lists as maps: every element has a key, and putting an element replaces the one
that had its key. Two such lists with the same element at every key are
rearrangements of each other, whatever they were put together from.
-/

namespace RoomGateway.Keyed

variable {α κ : Type} [DecidableEq κ] (key : α → κ)

/-- Put an element, in the place of the one with its key if there is one. -/
def put (l : List α) (a : α) : List α :=
  if l.any (key · = key a) then l.map fun b => if key b = key a then a else b else l ++ [a]

/-- The element at a key. -/
def at? (l : List α) (k : κ) : Option α := l.find? (key · = k)

variable {key} {l l' : List α} {a : α}

theorem mem_of_at? {k : κ} (h : at? key l k = some a) : a ∈ l ∧ key a = k :=
  ⟨List.mem_of_find?_eq_some h, by simpa using List.find?_some h⟩

theorem at?_eq_none_iff {k : κ} : at? key l k = none ↔ ∀ a ∈ l, key a ≠ k := by
  simp [at?, List.find?_eq_none]

theorem at?_append (l l' : List α) (k : κ) :
    at? key (l ++ l') k = (at? key l k).or (at? key l' k) :=
  List.find?_append

theorem at?_replace (l : List α) (a : α) (k : κ) :
    at? key (l.map fun b => if key b = key a then a else b) k =
      if key a = k then (at? key l k).map fun _ => a else at? key l k := by
  induction l with
  | nil => simp [at?]
  | cons b l ih =>
      rw [at?] at ih ⊢
      rw [List.map_cons, List.find?_cons, at?, List.find?_cons]
      by_cases hkey : key b = key a
      · by_cases hk : key a = k
        · simp [hkey, hk]
        · simpa [hkey, hk, at?] using ih
      · by_cases hb : key b = k
        · have hk : key a ≠ k := fun h => hkey (hb.trans h.symm)
          rw [if_neg hkey, if_neg hk, decide_eq_true hb]
        · simpa [hkey, hb, at?] using ih

theorem at?_put (l : List α) (a : α) (k : κ) :
    at? key (put key l a) k = if key a = k then some a else at? key l k := by
  unfold put
  split
  · next hany =>
      obtain ⟨b, hb, hkey⟩ := List.any_eq_true.mp hany
      rw [at?_replace]
      split
      · next hk =>
          cases hfound : at? key l k with
          | none =>
              exact absurd ((of_decide_eq_true hkey).trans hk) (at?_eq_none_iff.mp hfound b hb)
          | some _ => rfl
      · rfl
  · next hnone =>
      rw [at?_append]
      split
      · next hk =>
          have hfree : at? key l k = none := by
            refine at?_eq_none_iff.mpr fun b hb hbk => hnone (List.any_eq_true.mpr ⟨b, hb, ?_⟩)
            exact decide_eq_true (hbk.trans hk.symm)
          rw [hfree, Option.none_or]
          simp [at?, hk]
      · next hk => simp [at?, hk]

/-- Dropping a key leaves the others. -/
theorem at?_drop (l : List α) (dropped k : κ) :
    at? key (l.filter fun a => key a ≠ dropped) k = if k = dropped then none else at? key l k := by
  rw [at?, List.find?_filter]
  by_cases hk : k = dropped
  · rw [if_pos hk, List.find?_eq_none]
    intro a _
    simp only [ne_eq, decide_not, Bool.not_eq_true', decide_eq_false_iff_not,
      decide_eq_true_eq, not_and]
    exact fun hne heq => hne (heq.trans hk)
  · rw [if_neg hk, at?]
    congr 1
    funext a
    by_cases ha : key a = k
    · simp [ha, hk]
    · simp [ha]

theorem length_put (l : List α) (a : α) : (put key l a).length ≤ l.length + 1 := by
  unfold put
  split_ifs
  · rw [List.length_map]
    omega
  · exact Nat.le_of_eq List.length_append

theorem nodup_put (h : (l.map key).Nodup) (a : α) : ((put key l a).map key).Nodup := by
  unfold put
  split
  · have hsame : (l.map fun b => if key b = key a then a else b).map key = l.map key := by
      rw [List.map_map]
      refine List.map_congr_left fun b _ => ?_
      simp only [Function.comp_apply]
      split
      · next hkey => exact hkey.symm
      · rfl
    rwa [hsame]
  · next hnone =>
      rw [List.map_append, List.nodup_append]
      refine ⟨h, List.nodup_singleton _, fun k hk k' hk' heq => ?_⟩
      obtain ⟨b, hb, rfl⟩ := List.mem_map.mp hk
      exact hnone (List.any_eq_true.mpr
        ⟨b, hb, decide_eq_true (heq.trans (List.mem_singleton.mp hk'))⟩)

/-- Of several elements of one key, the one put last stays. -/
theorem at?_foldl_put (items l : List α) (k : κ) :
    at? key (items.foldl (put key) l) k = (at? key items.reverse k).or (at? key l k) := by
  induction items generalizing l with
  | nil => simp [at?]
  | cons a items ih =>
      rw [List.foldl_cons, ih, List.reverse_cons, at?_append, Option.or_assoc, at?_put]
      congr 1
      by_cases hk : key a = k <;> simp [at?, hk]

theorem nodup_foldl_put (h : (l.map key).Nodup) (items : List α) :
    ((items.foldl (put key) l).map key).Nodup := by
  induction items generalizing l with
  | nil => exact h
  | cons a items ih => exact ih (nodup_put h a)

theorem mem_iff_at? (h : (l.map key).Nodup) : a ∈ l ↔ at? key l (key a) = some a := by
  constructor
  · intro ha
    cases hfound : at? key l (key a) with
    | none => exact absurd rfl (at?_eq_none_iff.mp hfound a ha)
    | some b =>
        obtain ⟨hb, hkey⟩ := mem_of_at? hfound
        rw [List.inj_on_of_nodup_map h hb ha hkey]
  · exact fun hfound => (mem_of_at? hfound).1

theorem perm_of_at?_eq (h : (l.map key).Nodup) (h' : (l'.map key).Nodup)
    (hsame : ∀ k, at? key l k = at? key l' k) : l.Perm l' := by
  refine (List.perm_ext_iff_of_nodup h.of_map h'.of_map).mpr fun a => ?_
  rw [mem_iff_at? h, mem_iff_at? h', hsame]

theorem at?_perm (h : (l.map key).Nodup) (hperm : l.Perm l') (k : κ) :
    at? key l k = at? key l' k := by
  have h' : (l'.map key).Nodup := (hperm.map key).nodup_iff.mp h
  refine Option.ext fun a => ?_
  constructor
  · intro hfound
    obtain ⟨ha, rfl⟩ := mem_of_at? hfound
    exact (mem_iff_at? h').mp (hperm.mem_iff.mp ha)
  · intro hfound
    obtain ⟨ha, rfl⟩ := mem_of_at? hfound
    exact (mem_iff_at? h).mp (hperm.mem_iff.mpr ha)

end RoomGateway.Keyed
