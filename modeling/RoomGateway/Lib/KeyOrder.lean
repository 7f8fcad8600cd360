import Mathlib.Data.List.Sort
import Mathlib.Data.String.Basic
import RoomGateway.Lib.Json

/-!
JSON values up to the order of their keys: what a store keeps that does not keep
the order in which fields were written. Two values are the same in this sense if
sorting the keys of both, at every depth, gives one value.
-/

namespace RoomGateway

namespace Json

/-- Fields by key. -/
abbrev byKey {α : Type} (a b : String × α) : Prop := a.1 ≤ b.1

instance {α : Type} : Std.Total (@byKey α) := ⟨fun a b => le_total a.1 b.1⟩

instance {α : Type} : IsTrans (String × α) byKey := ⟨fun _ _ _ hab hbc => le_trans hab hbc⟩

mutual

def sortKeys : Json → Json
  | .null => .null
  | .bool b => .bool b
  | .num n => .num n
  | .str s => .str s
  | .arr items => .arr (sortItems items)
  | .obj fields => .obj ((sortFields fields).insertionSort byKey)

def sortItems : List Json → List Json
  | [] => []
  | item :: items => sortKeys item :: sortItems items

def sortFields : List (String × Json) → List (String × Json)
  | [] => []
  | (key, value) :: fields => (key, sortKeys value) :: sortFields fields

end

/-- Leave a field out. -/
def erase : Json → String → Json
  | .obj fields, key => .obj (fields.filter (·.1 ≠ key))
  | value, _ => value

theorem sortFields_eq_map (fields : List (String × Json)) :
    sortFields fields = fields.map fun f => (f.1, f.2.sortKeys) := by
  induction fields with
  | nil => rfl
  | cons f fields ih => rw [sortFields, ih, List.map_cons]

/-! ### Fields -/

section Fields

variable {key : String}

theorem lookup_orderedInsert (f : String × Json) (fields : List (String × Json)) :
    lookup (fields.orderedInsert byKey f) key = lookup (f :: fields) key := by
  induction fields with
  | nil => rfl
  | cons g fields ih =>
      rw [List.orderedInsert]
      split_ifs with hle
      · rfl
      · -- the keys differ, so either may come first
        have hne : f.1 ≠ g.1 := fun h => hle (le_of_eq h)
        rw [lookup_cons, ih, lookup_cons, lookup_cons, lookup_cons]
        by_cases hg : g.1 = key
        · rw [if_pos hg, if_neg (fun hf => hne (hf.trans hg.symm)), if_pos hg]
        · rw [if_neg hg, if_neg hg]

theorem lookup_insertionSort (fields : List (String × Json)) :
    lookup (fields.insertionSort byKey) key = lookup fields key := by
  induction fields with
  | nil => rfl
  | cons f fields ih =>
      rw [List.insertionSort_cons, lookup_orderedInsert, lookup_cons, lookup_cons, ih]

theorem lookup_sortFields (fields : List (String × Json)) :
    lookup (sortFields fields) key = (lookup fields key).map sortKeys := by
  induction fields with
  | nil => simp [sortFields]
  | cons f fields ih =>
      rw [sortFields, lookup_cons, lookup_cons, ih]
      split_ifs
      · rfl
      · rfl

theorem get?_sortKeys (value : Json) : value.sortKeys.get? key = (value.get? key).map sortKeys := by
  cases value with
  | obj fields =>
      rw [sortKeys, get?_obj, get?_obj, lookup_insertionSort, lookup_sortFields]
  | null => rfl
  | bool _ => rfl
  | num _ => rfl
  | str _ => rfl
  | arr _ => rfl

theorem getElem_sortKeys (value : Json) : value.sortKeys[key] = value[key].sortKeys := by
  rw [getElem_eq, getElem_eq, field, field, get?_sortKeys]
  cases value.get? key with
  | none => rfl
  | some x => rfl

end Fields

theorem eq_str_of_sortKeys {value : Json} {s : String} (h : value.sortKeys = .str s) :
    value = .str s := by
  cases value with
  | str t => exact h
  | null => cases h
  | bool _ => cases h
  | num _ => cases h
  | arr _ =>
      rw [sortKeys] at h
      cases h
  | obj _ =>
      rw [sortKeys] at h
      cases h

/-! ### Leaving a field out -/

theorem filter_orderedInsert {α : Type} (p : String × α → Bool) (f : String × α)
    {fields : List (String × α)} (hsorted : fields.Pairwise byKey) :
    (fields.orderedInsert byKey f).filter p =
      if p f then (fields.filter p).orderedInsert byKey f else fields.filter p := by
  induction fields with
  | nil => by_cases hf : p f <;> simp [hf]
  | cons g fields ih =>
      obtain ⟨hg, hsorted⟩ := List.pairwise_cons.mp hsorted
      rw [List.orderedInsert]
      split_ifs with hle hf hf
      · -- what remains of the list still comes after `f`
        rw [List.filter_cons_of_pos hf]
        have hall : ∀ b ∈ (g :: fields).filter p, byKey f b := by
          intro b hb
          rcases List.mem_cons.mp (List.mem_of_mem_filter hb) with rfl | hb
          · exact hle
          · exact le_trans hle (hg b hb)
        cases hrest : (g :: fields).filter p with
        | nil => rfl
        | cons b rest =>
            rw [List.orderedInsert, if_pos (hall b (hrest ▸ List.mem_cons_self))]
      · rw [List.filter_cons_of_neg hf]
      · rw [List.filter_cons, ih hsorted, if_pos hf, List.filter_cons]
        split_ifs
        · rw [List.orderedInsert, if_neg hle]
        · rfl
      · rw [List.filter_cons, ih hsorted, if_neg hf, List.filter_cons]

theorem filter_insertionSort {α : Type} (p : String × α → Bool) (fields : List (String × α)) :
    (fields.insertionSort byKey).filter p = (fields.filter p).insertionSort byKey := by
  induction fields with
  | nil => rfl
  | cons f fields ih =>
      rw [List.insertionSort_cons, filter_orderedInsert p f (List.pairwise_insertionSort _ _), ih,
        List.filter_cons]
      split_ifs
      · rfl
      · rfl

theorem sortKeys_erase (value : Json) (key : String) :
    (value.erase key).sortKeys = value.sortKeys.erase key := by
  cases value with
  | obj fields =>
      rw [erase, sortKeys, sortKeys, erase, filter_insertionSort, sortFields_eq_map,
        sortFields_eq_map, List.filter_map]
      rfl
  | null => rfl
  | bool _ => rfl
  | num _ => rfl
  | str _ => rfl
  | arr _ => rfl

/-- A field that was added can be taken away again. -/
theorem erase_set {fields : List (String × Json)} {key : String} (value : Json)
    (h : ∀ f ∈ fields, f.1 ≠ key) : ((Json.obj fields).set key value).erase key = .obj fields := by
  have hfilter : (setField fields key value).filter (·.1 ≠ key) = fields := by
    induction fields with
    | nil => simp [setField]
    | cons f fields ih =>
        have hf : f.1 ≠ key := h f List.mem_cons_self
        have hrest := List.filter_eq_self.mpr fun g hg =>
          decide_eq_true (h g (List.mem_cons_of_mem f hg))
        rw [setField, if_neg hf]
        split_ifs
        · rw [List.filter_cons_of_neg (by simp), List.filter_cons_of_pos (by simpa using hf), hrest]
        · rw [List.filter_cons_of_pos (by simpa using hf),
            ih fun g hg => h g (List.mem_cons_of_mem f hg)]
  rw [set, erase, hfilter]

end Json

end RoomGateway
