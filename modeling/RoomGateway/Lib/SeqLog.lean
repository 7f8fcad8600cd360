import Mathlib.Data.List.Basic
import Mathlib.Data.List.Range
import Mathlib.Order.Basic

/-!
Logs that number their entries separately for each key: an entry is appended
under one more than the largest number its key has. Such a log only grows, a
new entry comes after every older one of its key, and the entries of a key are
numbered 1, 2, 3 in the order they were appended.
-/

namespace RoomGateway.SeqLog

variable {ε κ : Type} [DecidableEq κ] (key : ε → κ) (num : ε → Int)

/-- The entries of one key, oldest first. -/
def ofKey (rows : List ε) (k : κ) : List ε := rows.filter fun e => key e = k

/-- The number the next entry of a key gets. -/
def next (rows : List ε) (k : κ) : Int := (((ofKey key rows k).map num).max?).getD 0 + 1

/-- The numbers from 1 to `n`. -/
def countTo (n : Nat) : List Int := (List.range n).map fun i : Nat => (i : Int) + 1

/-- The entries of every key are numbered 1, 2, 3 and so on, oldest first. -/
def Numbered (rows : List ε) : Prop := ∀ k, (ofKey key rows k).map num =
  countTo (ofKey key rows k).length

/-- The second log is the first with entries appended. -/
inductive Extends (rows : List ε) : List ε → Prop where
  | refl : Extends rows rows
  | append {rows' : List ε} {e : ε} (h : Extends rows rows')
      (hnum : num e = next key num rows' (key e)) : Extends rows (rows' ++ [e])

variable {key num} {a b c rows : List ε}

theorem lt_next {e : ε} (he : e ∈ rows) : num e < next key num rows (key e) := by
  have hmem : num e ∈ (ofKey key rows (key e)).map num :=
    List.mem_map.mpr ⟨e, List.mem_filter.mpr ⟨he, by simp⟩, rfl⟩
  unfold next
  cases hmax : ((ofKey key rows (key e)).map num).max? with
  | none =>
      rw [List.max?_eq_none_iff] at hmax
      rw [hmax] at hmem
      exact absurd hmem List.not_mem_nil
  | some m =>
      have := (List.max?_eq_some_iff.mp hmax).2 _ hmem
      simp only [Option.getD_some]
      omega

namespace Extends

theorem trans (hab : Extends key num a b) (hbc : Extends key num b c) : Extends key num a c := by
  induction hbc with
  | refl => exact hab
  | append _ hnum ih => exact .append ih hnum

theorem single {e : ε} (hnum : num e = next key num rows (key e)) :
    Extends key num rows (rows ++ [e]) := .append .refl hnum

theorem exists_append (h : Extends key num a b) : ∃ new, b = a ++ new := by
  induction h with
  | refl => exact ⟨[], (List.append_nil a).symm⟩
  | @append rows' e _ _ ih =>
      obtain ⟨new, rfl⟩ := ih
      exact ⟨new ++ [e], by rw [List.append_assoc]⟩

theorem mem (h : Extends key num a b) {e : ε} (he : e ∈ a) : e ∈ b := by
  obtain ⟨new, rfl⟩ := h.exists_append
  exact List.mem_append_left new he

/-- The entries that were appended under one key are numbered upwards. -/
theorem pairwise_new (h : Extends key num a b) :
    ∃ new, b = a ++ new ∧ new.Pairwise fun x y => key x = key y → num x < num y := by
  induction h with
  | refl => exact ⟨[], (List.append_nil a).symm, .nil⟩
  | @append rows' e _ hnum ih =>
      obtain ⟨new, rfl, hnew⟩ := ih
      refine ⟨new ++ [e], List.append_assoc .., ?_⟩
      refine List.pairwise_append.mpr ⟨hnew, List.pairwise_singleton _ _, ?_⟩
      intro x hx y hy hkey
      rw [List.mem_singleton] at hy
      subst hy
      have hlt : num x < next key num (a ++ new) (key x) := lt_next (List.mem_append_right a hx)
      rw [hkey] at hlt
      omega

theorem append_singleton {new : List ε} {e : ε}
    (h : Extends key num a (a ++ (new ++ [e]))) :
    Extends key num a (a ++ new) ∧ num e = next key num (a ++ new) (key e) := by
  generalize hb : a ++ (new ++ [e]) = b at h
  cases h with
  | refl =>
      have := congrArg List.length hb
      simp at this
  | @append rows' x h hnum =>
      rw [← List.append_assoc] at hb
      obtain ⟨rfl, hx⟩ := List.append_inj' hb rfl
      obtain rfl := List.singleton_inj.mp hx
      exact ⟨h, hnum⟩

end Extends

/-! ### Numbering -/

theorem ofKey_append (k : κ) (e : ε) : ofKey key (rows ++ [e]) k =
    if key e = k then ofKey key rows k ++ [e] else ofKey key rows k := by
  unfold ofKey
  split <;> simp_all

/-- Rewriting entries in place keeps the numbers of a key. -/
theorem map_num_ofKey {f : ε → ε} (hf : ∀ e ∈ rows, key (f e) = key e ∧ num (f e) = num e)
    (k : κ) : (ofKey key (rows.map f) k).map num = (ofKey key rows k).map num := by
  have hkeep : ofKey key (rows.map f) k = (ofKey key rows k).map f := by
    rw [ofKey, List.filter_map, ofKey]
    congr 1
    apply List.filter_congr
    intro e he
    simp [(hf e he).1]
  rw [hkeep, List.map_map]
  apply List.map_congr_left
  intro e he
  exact (hf e (List.mem_filter.mp he).1).2

theorem next_map {f : ε → ε} (hf : ∀ e ∈ rows, key (f e) = key e ∧ num (f e) = num e) (k : κ) :
    next key num (rows.map f) k = next key num rows k := by
  rw [next, next, map_num_ofKey hf]

theorem next_append (k : κ) (e : ε) (hnum : num e = next key num rows (key e)) :
    next key num (rows ++ [e]) k = next key num rows k + if key e = k then 1 else 0 := by
  rw [next, ofKey_append]
  split
  · next hk =>
      have hmax : ((ofKey key rows k ++ [e]).map num).max? = some (num e) := by
        refine List.max?_eq_some_iff.mpr ⟨by simp, ?_⟩
        intro x hx
        rw [List.map_append, List.mem_append] at hx
        rcases hx with hx | hx
        · obtain ⟨y, hy, rfl⟩ := List.mem_map.mp hx
          obtain ⟨hy, hkey⟩ := List.mem_filter.mp hy
          have hlt : num y < next key num rows (key y) := lt_next hy
          rw [of_decide_eq_true hkey, ← hk, ← hnum] at hlt
          omega
        · simp at hx
          omega
      rw [hmax, Option.getD_some, hnum, hk]
  · rw [next]
    omega

theorem Extends.next_le (h : Extends key num a b) (k : κ) :
    next key num a k ≤ next key num b k := by
  induction h with
  | refl => exact Int.le_refl _
  | @append rows' e _ hnum ih =>
      rw [next_append k e hnum]
      split <;> omega

/-- What is selected from the entries below the next number does not change as
the log grows. -/
theorem Extends.filter_below (h : Extends key num a b) {k : κ} {p : ε → Bool}
    (hp : ∀ e, p e = true → key e = k ∧ num e < next key num a k) : b.filter p = a.filter p := by
  induction h with
  | refl => rfl
  | @append rows' e h hnum ih =>
      have he : p e = false := by
        by_contra hpe
        obtain ⟨rfl, hlt⟩ := hp e (by simpa using hpe)
        have := h.next_le (key e)
        omega
      rw [List.filter_append, ih]
      simp [he]

/-- In particular what is selected from those up to an existing one. -/
theorem Extends.filter_eq (h : Extends key num a b) {x : ε} (hx : x ∈ a) {p : ε → Bool}
    (hp : ∀ e, p e = true → key e = key x ∧ num e ≤ num x) : b.filter p = a.filter p := by
  refine h.filter_below (k := key x) fun e he => ?_
  have hlt : num x < next key num a (key x) := lt_next hx
  obtain ⟨hkey, hle⟩ := hp e he
  exact ⟨hkey, by omega⟩

/-- Entries of other keys do not move a key's next number. -/
theorem next_append_other {new rest : List ε} {k : κ} (h : ∀ e ∈ new, key e ≠ k) :
    next key num (a ++ new ++ rest) k = next key num (a ++ rest) k := by
  have hnone : new.filter (fun e => key e = k) = [] :=
    List.filter_eq_nil_iff.mpr fun e he => by simp [h e he]
  simp only [next, ofKey, List.filter_append, hnone, List.append_nil]

/-- Two runs of entries under different keys can follow each other. -/
theorem Extends.after_other {new new' : List ε} (h : Extends key num a (a ++ new'))
    (hkeys : ∀ x ∈ new, ∀ y ∈ new', key x ≠ key y) :
    Extends key num (a ++ new) (a ++ new ++ new') := by
  induction new' using List.reverseRecOn with
  | nil =>
      rw [List.append_nil]
      exact .refl
  | append_singleton new' e ih =>
      obtain ⟨hinit, hnum⟩ := h.append_singleton
      have hrest := ih hinit fun x hx y hy => hkeys x hx y (List.mem_append_left _ hy)
      rw [← List.append_assoc]
      refine .append hrest ?_
      rw [hnum, next_append_other fun x hx => hkeys x hx e (by simp)]

/-- Entries of one key take consecutive numbers. -/
theorem Extends.consecutive {new : List ε} {k : κ} (h : Extends key num a (a ++ new))
    (hkey : ∀ e ∈ new, key e = k) :
    new.map num = (List.range new.length).map (fun i : Nat => next key num a k + i) ∧
      next key num (a ++ new) k = next key num a k + new.length := by
  induction new using List.reverseRecOn with
  | nil => simp
  | append_singleton new e ih =>
      obtain ⟨hinit, hnum⟩ := h.append_singleton
      obtain ⟨hmap, hnext⟩ := ih hinit fun x hx => hkey x (List.mem_append_left _ hx)
      have hk : key e = k := hkey e (by simp)
      constructor
      · rw [List.map_append, hmap, List.length_append, List.length_singleton, List.range_succ,
          List.map_append]
        simp [hnum, hk, hnext]
      · rw [← List.append_assoc, next_append k e hnum, hnext, if_pos hk]
        simp only [List.length_append, List.length_singleton]
        omega

theorem countTo_succ (n : Nat) : countTo (n + 1) = countTo n ++ [(n : Int) + 1] := by
  simp [countTo, List.range_succ]

theorem mem_countTo {n : Nat} {i : Int} : i ∈ countTo n ↔ 1 ≤ i ∧ i ≤ n := by
  unfold countTo
  rw [List.mem_map]
  constructor
  · rintro ⟨j, hj, rfl⟩
    have := List.mem_range.mp hj
    omega
  · intro hi
    exact ⟨i.toNat - 1, List.mem_range.mpr (by omega), by omega⟩

theorem max?_countTo (n : Nat) : (countTo n).max?.getD 0 = n := by
  cases n with
  | zero => rfl
  | succ n =>
      have hmax : (countTo (n + 1)).max? = some ((n : Int) + 1) := by
        refine List.max?_eq_some_iff.mpr ⟨mem_countTo.mpr (by omega), ?_⟩
        intro x hx
        have := mem_countTo.mp hx
        omega
      rw [hmax]
      simp

namespace Numbered

theorem nil : Numbered key num [] := fun _ => rfl

theorem next_eq (h : Numbered key num rows) (k : κ) :
    next key num rows k = (ofKey key rows k).length + 1 := by
  rw [next, h k, max?_countTo]

theorem append (h : Numbered key num rows) {e : ε} (hnum : num e = next key num rows (key e)) :
    Numbered key num (rows ++ [e]) := by
  intro k
  rw [ofKey_append]
  split
  · next hk =>
      rw [List.map_append, List.length_append, List.length_singleton, countTo_succ, h k,
        List.map_singleton, hnum, hk, h.next_eq]
  · exact h k

/-- Rewriting entries in place keeps the numbering. -/
theorem map (h : Numbered key num rows) {f : ε → ε}
    (hf : ∀ e ∈ rows, key (f e) = key e ∧ num (f e) = num e) :
    Numbered key num (rows.map f) := by
  intro k
  have hlen : (ofKey key (rows.map f) k).length = (ofKey key rows k).length := by
    rw [← List.length_map num, map_num_ofKey hf, List.length_map]
  rw [map_num_ofKey hf, hlen]
  exact h k

theorem of_extends (ha : Numbered key num a) (h : Extends key num a b) : Numbered key num b := by
  induction h with
  | refl => exact ha
  | append _ hnum ih => exact ih.append hnum

/-- Every number from 1 to the last is taken. -/
theorem exists_num (h : Numbered key num rows) {k : κ} {n : Int} (hpos : 1 ≤ n)
    (hle : n < next key num rows k) : ∃ e ∈ rows, key e = k ∧ num e = n := by
  have hmem : n ∈ (ofKey key rows k).map num := by
    rw [h k]
    rw [h.next_eq] at hle
    exact mem_countTo.mpr (by omega)
  obtain ⟨e, he, rfl⟩ := List.mem_map.mp hmem
  obtain ⟨he, hk⟩ := List.mem_filter.mp he
  exact ⟨e, he, by simpa using hk, rfl⟩

theorem pos (h : Numbered key num rows) {e : ε} (he : e ∈ rows) : 1 ≤ num e := by
  have hmem : num e ∈ (ofKey key rows (key e)).map num :=
    List.mem_map.mpr ⟨e, List.mem_filter.mpr ⟨he, by simp⟩, rfl⟩
  rw [h (key e)] at hmem
  exact (mem_countTo.mp hmem).1

/-- The entries of a key are in increasing order. -/
theorem sorted (h : Numbered key num rows) (k : κ) :
    (ofKey key rows k).Pairwise fun x y => num x < num y := by
  have hsorted : ((ofKey key rows k).map num).Pairwise (· < ·) := by
    rw [h k, countTo, List.pairwise_map]
    exact List.pairwise_lt_range.imp fun hab => by omega
  exact List.pairwise_map.mp hsorted

end Numbered

end RoomGateway.SeqLog
