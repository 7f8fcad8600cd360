import Mathlib.Data.List.Basic
import Mathlib.Tactic.Ring

/-!
JSON values as the gateway's code sees them: a tree with the usual six
constructors, read by key. Indexing a value by a key it does not have gives
`null`, which is what lets code read a path of keys without a check at every
step. An object is the list of its fields; the fields of a parsed object are
listed by key, so that two parsed values are equal exactly when the lists are.
-/

namespace RoomGateway

/-- A JSON number: an integer, or anything else by its decimal text. -/
inductive Number where
  | int (n : Int)
  | float (repr : String)
  deriving DecidableEq, Repr

inductive Json where
  | null
  | bool (b : Bool)
  | num (n : Number)
  | str (s : String)
  | arr (items : List Json)
  | obj (fields : List (String × Json))
  deriving Repr, Inhabited

namespace Json

/-! ### Equality -/

mutual

def beq : Json → Json → Bool
  | .null, .null => true
  | .bool a, .bool b => a == b
  | .num a, .num b => decide (a = b)
  | .str a, .str b => a == b
  | .arr xs, .arr ys => beqItems xs ys
  | .obj fs, .obj gs => beqFields fs gs
  | _, _ => false

def beqItems : List Json → List Json → Bool
  | [], [] => true
  | x :: xs, y :: ys => beq x y && beqItems xs ys
  | _, _ => false

def beqFields : List (String × Json) → List (String × Json) → Bool
  | [], [] => true
  | (k, x) :: fs, (l, y) :: gs => k == l && beq x y && beqFields fs gs
  | _, _ => false

end

mutual

theorem beq_iff : ∀ a b : Json, beq a b = true ↔ a = b
  | .null, b => by cases b <;> simp [beq]
  | .bool _, b => by cases b <;> simp [beq]
  | .num _, b => by cases b <;> simp [beq]
  | .str _, b => by cases b <;> simp [beq]
  | .arr xs, b => by cases b <;> simp [beq, beqItems_iff xs]
  | .obj fs, b => by cases b <;> simp [beq, beqFields_iff fs]

theorem beqItems_iff : ∀ xs ys : List Json, beqItems xs ys = true ↔ xs = ys
  | [], ys => by cases ys <;> simp [beqItems]
  | x :: xs, ys => by cases ys <;> simp [beqItems, beq_iff x, beqItems_iff xs]

theorem beqFields_iff : ∀ fs gs : List (String × Json), beqFields fs gs = true ↔ fs = gs
  | [], gs => by cases gs <;> simp [beqFields]
  | (k, x) :: fs, gs => by
      cases gs with
      | nil => simp [beqFields]
      | cons g gs =>
          obtain ⟨l, y⟩ := g
          simp [beqFields, beq_iff x, beqFields_iff fs]

end

instance : DecidableEq Json := fun a b => decidable_of_iff _ (beq_iff a b)

/-- Induction over the items of an array and the fields of an object. -/
@[elab_as_elim]
theorem memInduction {P : Json → Prop} (null : P .null) (bool : ∀ b, P (.bool b))
    (num : ∀ n, P (.num n)) (str : ∀ s, P (.str s))
    (arr : ∀ items, (∀ x ∈ items, P x) → P (.arr items))
    (obj : ∀ fields, (∀ f ∈ fields, P f.2) → P (.obj fields)) : ∀ value, P value
  | .null => null
  | .bool b => bool b
  | .num n => num n
  | .str s => str s
  | .arr items => arr items fun x _ => memInduction null bool num str arr obj x
  | .obj fields => obj fields fun f _ => memInduction null bool num str arr obj f.2
decreasing_by
  · have := List.sizeOf_lt_of_mem ‹x ∈ items›
    simp only [Json.arr.sizeOf_spec]
    omega
  · have := List.sizeOf_lt_of_mem ‹f ∈ fields›
    have : sizeOf f.2 < sizeOf f := by
      obtain ⟨key, value⟩ := f
      simp only [Prod.mk.sizeOf_spec]
      omega
    simp only [Json.obj.sizeOf_spec]
    omega

/-- A value occurs in another: it is the value, or occurs in an item or field. -/
inductive Within (x : Json) : Json → Prop
  | here : Within x x
  | item {items : List Json} {y : Json} (hy : y ∈ items) (h : Within x y) : Within x (.arr items)
  | field {fields : List (String × Json)} {f : String × Json} (hf : f ∈ fields)
      (h : Within x f.2) : Within x (.obj fields)

/-- A value as an ordered map holds it: in every object the keys increase. -/
def Ordered (value : Json) : Prop :=
  ∀ fields, (Json.obj fields).Within value → (fields.map Prod.fst).Pairwise (· < ·)

theorem ordered_obj {fields : List (String × Json)} : (Json.obj fields).Ordered ↔
    (fields.map Prod.fst).Pairwise (· < ·) ∧ ∀ f ∈ fields, f.2.Ordered := by
  constructor
  · exact fun h => ⟨h fields .here, fun f hf parts hparts => h parts (.field hf hparts)⟩
  · rintro ⟨hkeys, hfields⟩ parts hparts
    cases hparts with
    | here => exact hkeys
    | field hf hparts => exact hfields _ hf parts hparts

theorem ordered_arr {items : List Json} : (Json.arr items).Ordered ↔ ∀ x ∈ items, x.Ordered := by
  constructor
  · exact fun h x hx fields hfields => h fields (.item hx hfields)
  · intro h fields hfields
    cases hfields with
    | item hy hfields => exact h _ hy fields hfields

theorem ordered_null : Json.null.Ordered := fun _ h => by cases h

theorem ordered_str (s : String) : (Json.str s).Ordered := fun _ h => by cases h

/-! ### Reading -/

def lookup : List (String × Json) → String → Option Json
  | [], _ => none
  | (k, v) :: fields, key => if k = key then some v else lookup fields key

/-- The field of an object, if the value is an object and has it. -/
def get? : Json → String → Option Json
  | .obj fields, key => lookup fields key
  | _, _ => none

/-- The names of the fields. -/
def keys : Json → List String
  | .obj fields => fields.map (·.1)
  | _ => []

/-- Indexing: `null` where there is no such field. -/
def field (value : Json) (key : String) : Json := (value.get? key).getD .null

instance : GetElem Json String Json (fun _ _ => True) where
  getElem value key _ := value.field key

theorem getElem_eq (value : Json) (key : String) (h : True) :
    getElem value key h = value.field key := rfl

-- The equations of `lookup` are not proved by `rfl` itself, which would let a simplifier (and then
-- the kernel) take them for definitional and compare names by unfolding them.
@[simp] theorem lookup_nil (key : String) : lookup [] key = none := by rw [lookup]

@[simp] theorem lookup_cons (k key : String) (v : Json) (fields : List (String × Json)) :
    lookup ((k, v) :: fields) key = if k = key then some v else lookup fields key := by
  rw [lookup]

@[simp] theorem get?_obj (fields : List (String × Json)) (key : String) :
    (Json.obj fields).get? key = lookup fields key := by
  rw [get?]

@[simp] theorem getElem_obj (fields : List (String × Json)) (key : String) (h : True) :
    getElem (Json.obj fields) key h = (lookup fields key).getD .null := by
  rw [getElem_eq, field, get?_obj]

theorem mem_of_lookup {fields : List (String × Json)} {key : String} {x : Json}
    (h : lookup fields key = some x) : (key, x) ∈ fields := by
  induction fields with
  | nil => simp at h
  | cons f fields ih =>
      obtain ⟨k, v⟩ := f
      rw [lookup_cons] at h
      split_ifs at h with hk
      · rw [hk, Option.some.inj h]
        exact List.mem_cons_self
      · exact List.mem_cons_of_mem _ (ih h)

theorem Ordered.getElem {value : Json} (h : value.Ordered) (key : String) :
    value[key].Ordered := by
  cases value with
  | obj fields =>
      rw [getElem_obj]
      cases hget : lookup fields key with
      | none => exact ordered_null
      | some x => exact (ordered_obj.mp h).2 _ (mem_of_lookup hget)
  | _ => exact ordered_null

theorem lookup_of_mem {fields : List (String × Json)} (hnodup : (fields.map Prod.fst).Nodup)
    {f : String × Json} (hf : f ∈ fields) : lookup fields f.1 = some f.2 := by
  induction fields with
  | nil => cases hf
  | cons g fields ih =>
      rw [List.map_cons, List.nodup_cons] at hnodup
      rw [lookup]
      rcases List.mem_cons.mp hf with rfl | hf
      · rw [if_pos rfl]
      · have hne : g.1 ≠ f.1 := fun heq => hnodup.1 (heq ▸ List.mem_map_of_mem hf)
        rw [if_neg hne, ih hnodup.2 hf]

theorem mem_keys {value : Json} {key : String} :
    key ∈ value.keys ↔ (value.get? key).isSome = true := by
  cases value with
  | obj fields =>
      change key ∈ fields.map (·.1) ↔ (lookup fields key).isSome = true
      induction fields with
      | nil => simp
      | cons f fields ih =>
          obtain ⟨k, v⟩ := f
          by_cases hk : k = key
          · simp [hk]
          · simp only [List.map_cons, List.mem_cons, Ne.symm hk, false_or, lookup_cons, if_neg hk]
            exact ih
  | _ => simp [keys, get?]

def isNull : Json → Bool
  | .null => true
  | _ => false

def isObject : Json → Bool
  | .obj _ => true
  | _ => false

def isArray : Json → Bool
  | .arr _ => true
  | _ => false

def asStr : Json → Option String
  | .str s => some s
  | _ => none

def asArray : Json → Option (List Json)
  | .arr items => some items
  | _ => none

/-- The value as a signed 64-bit integer, when it is one. -/
def asI64 : Json → Option Int
  | .num (.int n) => if -2 ^ 63 ≤ n ∧ n < 2 ^ 63 then some n else none
  | _ => none

@[simp] theorem asStr_str (s : String) : (Json.str s).asStr = some s := rfl

theorem eq_str_of_asStr {value : Json} {s : String} (h : value.asStr = some s) :
    value = .str s := by
  cases value <;> simp_all [asStr]

@[simp] theorem asArray_arr (items : List Json) : (Json.arr items).asArray = some items := rfl

/-! ### Building -/

def ofInt (n : Int) : Json := .num (.int n)

theorem eq_of_asI64_ofInt {n m : Int} (h : (ofInt n).asI64 = some m) : m = n := by
  simp only [ofInt, asI64] at h
  split_ifs at h
  exact (Option.some.inj h).symm

instance : Coe String Json := ⟨Json.str⟩
instance : Coe Int Json := ⟨Json.ofInt⟩

/-- Assign a field, in its place by key. -/
def setField : List (String × Json) → String → Json → List (String × Json)
  | [], key, value => [(key, value)]
  | (k, v) :: fields, key, value =>
      if k = key then (k, value) :: fields
      else if key < k then (key, value) :: (k, v) :: fields
      else (k, v) :: setField fields key value

/-- Assignment to a field of an object; any other value stays as it is. -/
def set : Json → String → Json → Json
  | .obj fields, key, value => .obj (setField fields key value)
  | other, _, _ => other

theorem lookup_setField (fields : List (String × Json)) (key other : String) (value : Json) :
    lookup (setField fields key value) other =
      if key = other then some value else lookup fields other := by
  induction fields with
  | nil => rfl
  | cons f fields ih =>
      obtain ⟨k, v⟩ := f
      by_cases hk : k = key
      · subst hk
        by_cases ho : k = other <;> simp [setField, ho]
      · by_cases hlt : key < k
        · simp [setField, hk, hlt]
        · by_cases ho : k = other
          · subst ho
            simp [setField, hk, hlt, Ne.symm hk]
          · simp [setField, hk, hlt, ho, ih]

/-- An assignment leaves the other fields alone. -/
theorem mem_setField {fields : List (String × Json)} {key : String} {x : Json} {f : String × Json}
    (h : f ∈ setField fields key x) : f ∈ fields ∨ f = (key, x) := by
  induction fields with
  | nil =>
      rw [setField, List.mem_singleton] at h
      exact .inr h
  | cons g fields ih =>
      rw [setField] at h
      split_ifs at h with hkey hbefore
      · rcases List.mem_cons.mp h with rfl | h
        · exact .inr (by rw [hkey])
        · exact .inl (List.mem_cons_of_mem g h)
      · rcases List.mem_cons.mp h with rfl | h
        · exact .inr rfl
        · exact .inl h
      · rcases List.mem_cons.mp h with rfl | h
        · exact .inl List.mem_cons_self
        · exact (ih h).imp_left (List.mem_cons_of_mem g)

theorem getElem_set_self (fields : List (String × Json)) (key : String) (x : Json) :
    ((Json.obj fields).set key x)[key] = x := by
  change (lookup (setField fields key x) key).getD .null = x
  rw [lookup_setField, if_pos rfl, Option.getD_some]

theorem getElem_set_of_ne {key other : String} (h : key ≠ other) (value x : Json) :
    (value.set key x)[other] = value[other] := by
  cases value with
  | obj fields =>
      change (lookup (setField fields key x) other).getD .null = (lookup fields other).getD .null
      rw [lookup_setField, if_neg h]
  | _ => rfl

theorem get?_set_of_ne {key other : String} (h : key ≠ other) (value x : Json) :
    (value.set key x).get? other = value.get? other := by
  cases value with
  | obj fields =>
      change lookup (setField fields key x) other = lookup fields other
      rw [lookup_setField, if_neg h]
  | _ => rfl

theorem get?_set_self {value : Json} (h : value.isObject = true) (key : String) (x : Json) :
    (value.set key x).get? key = some x := by
  cases value with
  | obj fields =>
      change lookup (setField fields key x) key = some x
      rw [lookup_setField, if_pos rfl]
  | _ => cases h

@[simp] theorem isObject_set (value : Json) (key : String) (x : Json) :
    (value.set key x).isObject = value.isObject := by
  cases value <;> rfl

/-- Assign several fields, one after the other. -/
def setAll (value : Json) (fields : List (String × Json)) : Json :=
  fields.foldl (fun object f => object.set f.1 f.2) value

theorem get?_setAll_of_ne {fields : List (String × Json)} {key : String}
    (h : ∀ f ∈ fields, f.1 ≠ key) (value : Json) :
    (value.setAll fields).get? key = value.get? key := by
  induction fields generalizing value with
  | nil => rfl
  | cons f fields ih =>
      rw [setAll, List.foldl_cons]
      refine (ih (fun g hg => h g (List.mem_cons_of_mem f hg)) _).trans ?_
      exact get?_set_of_ne (h f List.mem_cons_self) value f.2

/-- Each of the fields has the value it was assigned. -/
theorem get?_setAll {fields : List (String × Json)} (hkeys : (fields.map (·.1)).Nodup)
    {value : Json} (hobject : value.isObject = true) {f : String × Json} (hf : f ∈ fields) :
    (value.setAll fields).get? f.1 = some f.2 := by
  induction fields generalizing value with
  | nil => exact absurd hf List.not_mem_nil
  | cons g fields ih =>
      rw [List.map_cons, List.nodup_cons] at hkeys
      rw [setAll, List.foldl_cons]
      rcases List.mem_cons.mp hf with rfl | hf
      · refine (get?_setAll_of_ne (fun x hx heq => hkeys.1 ?_) _).trans (get?_set_self hobject _ _)
        exact heq ▸ List.mem_map_of_mem hx
      · exact ih hkeys.2 (by rw [isObject_set, hobject]) hf

end Json

end RoomGateway
