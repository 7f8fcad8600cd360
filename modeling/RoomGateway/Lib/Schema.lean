import RoomGateway.Lib.Json

/-!
JSON Schema as predicates on values: one definition for each keyword that the
contracts use, and a schema is the conjunction of its keywords. A reference is
the definition it refers to. A keyword accepts every value of another type than
the one it is about, as in the specification.
-/

namespace RoomGateway

abbrev Schema := Json → Bool

/-- What a validator brings along: the value of a number that is not written as
an integer, if it is a whole number, and the formats it checks. -/
structure Formats where
  whole : String → Option Int
  dateTime : String → Bool
  uri : String → Bool

namespace Schema

/-! ### Keywords -/

section Keywords

variable (formats : Formats)

def anything : Schema := fun _ => true

/-- The keywords of one schema object, and `allOf`. -/
def all (schemas : List Schema) : Schema := fun value => schemas.all (· value)

/-- `anyOf`. -/
def any (schemas : List Schema) : Schema := fun value => schemas.any (· value)

/-- `oneOf`: exactly one. -/
def one (schemas : List Schema) : Schema := fun value => (schemas.filter (· value)).length = 1

/-- `not`. -/
def no (schema : Schema) : Schema := fun value => !schema value

/-- `if`, `then` and `else`. -/
def branch (test yes other : Schema) : Schema := fun value =>
  if test value then yes value else other value

def object : Schema := Json.isObject

def array : Schema := Json.isArray

def string : Schema := fun value => value.asStr.isSome

def null : Schema := Json.isNull

/-- The value of a whole number. -/
def wholeNumber : Json → Option Int
  | .num (.int n) => some n
  | .num (.float text) => formats.whole text
  | _ => none

def integer : Schema := fun value => (wholeNumber formats value).isSome

def minimum (n : Int) : Schema := fun value => (wholeNumber formats value).all (n ≤ ·)

def maximum (n : Int) : Schema := fun value => (wholeNumber formats value).all (· ≤ n)

def const (expected : Json) : Schema := fun value => value = expected

def enum (names : List String) : Schema := fun value => names.any fun name => value = .str name

def minLength (n : Nat) : Schema := fun value => value.asStr.all (n ≤ ·.length)

def maxLength (n : Nat) : Schema := fun value => value.asStr.all (·.length ≤ n)

/-- `pattern` and `format`. -/
def text (accepts : String → Bool) : Schema := fun value => value.asStr.all accepts

def items (schema : Schema) : Schema := fun value => value.asArray.all (·.all schema)

def minItems (n : Nat) : Schema := fun value => value.asArray.all (n ≤ ·.length)

def maxItems (n : Nat) : Schema := fun value => value.asArray.all (·.length ≤ n)

def uniqueItems : Schema := fun value => value.asArray.all fun items => decide items.Nodup

def properties (fields : List (String × Schema)) : Schema := fun value =>
  fields.all fun field => (value.get? field.1).all field.2

def required (names : List String) : Schema := fun value =>
  !value.isObject || names.all fun name => (value.get? name).isSome

/-- `additionalProperties: false`, and `unevaluatedProperties: false` where the
names of the properties that are evaluated are the same for every value. -/
def closed (names : List String) : Schema := fun value =>
  value.keys.all names.contains

/-- `dependentRequired`. -/
def dependentRequired (names : List (String × List String)) : Schema := fun value =>
  names.all fun name => (value.get? name.1).isNone ||
    name.2.all fun other => (value.get? other).isSome

end Keywords

/-! ### Common shapes -/

/-- An object with some fields, of which `names` are required, and no others. -/
def record (fields : List (String × Schema)) (names : List String) : Schema :=
  all [object, properties fields, required names, closed (fields.map (·.1))]

/-- An object with some fields, of which `names` are required. -/
def openRecord (fields : List (String × Schema)) (names : List String) : Schema :=
  all [object, properties fields, required names]

/-- A text of a length between the bounds. -/
def textBetween (lower upper : Nat) : Schema := all [string, minLength lower, maxLength upper]

def nonEmptyText : Schema := all [string, minLength 1]

def textOf (accepts : String → Bool) : Schema := all [string, text accepts]

def integerFrom (formats : Formats) (n : Int) : Schema := all [integer formats, minimum formats n]

def integerBetween (formats : Formats) (lower upper : Int) : Schema :=
  all [integer formats, minimum formats lower, maximum formats upper]

/-! ### Reading a schema off -/

section Rules

variable {value : Json} {key : String}

@[simp] theorem all_nil (value : Json) : all [] value = true := rfl

@[simp] theorem all_cons (schema : Schema) (schemas : List Schema) (value : Json) :
    all (schema :: schemas) value = (schema value && all schemas value) := by
  simp [all]

theorem all_iff {schemas : List Schema} :
    all schemas value = true ↔ ∀ schema ∈ schemas, schema value = true :=
  List.all_eq_true

@[simp] theorem properties_nil (value : Json) : properties [] value = true := rfl

@[simp] theorem properties_cons (key : String) (schema : Schema) (fields : List (String × Schema))
    (value : Json) : properties ((key, schema) :: fields) value =
      ((value.get? key).all schema && properties fields value) := by
  simp [properties]

@[simp] theorem required_obj (names : List String) (fields : List (String × Json)) :
    required names (.obj fields) = names.all fun name => (Json.lookup fields name).isSome := by
  simp [required, Json.isObject]

@[simp] theorem closed_obj (names : List String) (fields : List (String × Json)) :
    closed names (.obj fields) = fields.all fun field => names.contains field.1 := by
  simp [closed, Json.keys, List.all_map, Function.comp_def]

@[simp] theorem object_obj (fields : List (String × Json)) : object (.obj fields) = true := rfl

@[simp] theorem array_arr (items : List Json) : array (.arr items) = true := rfl

@[simp] theorem enum_str (names : List String) (name : String) :
    enum names (.str name) = names.contains name := by
  rw [Bool.eq_iff_iff]
  simp [enum]

@[simp] theorem const_eq (expected value : Json) :
    const expected value = decide (value = expected) := rfl

@[simp] theorem textOf_str (accepts : String → Bool) (s : String) :
    textOf accepts (.str s) = accepts s := by
  simp [textOf, string, text]

@[simp] theorem textBetween_str (lower upper : Nat) (s : String) :
    textBetween lower upper (.str s) =
      (decide (lower ≤ s.length) && decide (s.length ≤ upper)) := by
  simp [textBetween, string, minLength, maxLength]

@[simp] theorem nonEmptyText_str (s : String) : nonEmptyText (.str s) = decide (1 ≤ s.length) := by
  simp [nonEmptyText, string, minLength]

@[simp] theorem items_arr (schema : Schema) (values : List Json) :
    items schema (.arr values) = values.all schema := rfl

@[simp] theorem minItems_arr (n : Nat) (values : List Json) :
    minItems n (.arr values) = decide (n ≤ values.length) := rfl

@[simp] theorem maxItems_arr (n : Nat) (values : List Json) :
    maxItems n (.arr values) = decide (values.length ≤ n) := rfl

@[simp] theorem uniqueItems_arr (values : List Json) :
    uniqueItems (.arr values) = decide values.Nodup := rfl

theorem exists_of_one {schemas : List Schema} (h : one schemas value = true) :
    ∃ schema ∈ schemas, schema value = true := by
  have hpos : 0 < (schemas.filter (· value)).length := by
    have : (schemas.filter (· value)).length = 1 := by simpa [one] using h
    omega
  obtain ⟨schema, hmem⟩ := List.exists_mem_of_length_pos hpos
  exact ⟨schema, (List.mem_filter.mp hmem).1, (List.mem_filter.mp hmem).2⟩

theorem properties_field {fields : List (String × Schema)} {schema : Schema} {x : Json}
    (h : properties fields value = true) (hfield : (key, schema) ∈ fields)
    (hget : value.get? key = some x) : schema x = true := by
  have := List.all_eq_true.mp h _ hfield
  rwa [hget, Option.all_some] at this

section Record

variable {fields : List (String × Schema)} {names : List String} {schema : Schema}

theorem record_required (h : record fields names value = true) (hname : key ∈ names) :
    value.get? key = some value[key] := by
  simp only [record, all_cons, all_nil, Bool.and_true, Bool.and_eq_true] at h
  obtain ⟨hobject, -, hrequired, -⟩ := h
  have hsome : (value.get? key).isSome = true := by
    simp only [required, show value.isObject = true from hobject, Bool.not_true, Bool.false_or,
      List.all_eq_true] at hrequired
    exact hrequired key hname
  obtain ⟨x, hx⟩ := Option.isSome_iff_exists.mp hsome
  rw [Json.getElem_eq, Json.field, hx, Option.getD_some]

theorem record_field (h : record fields names value = true) (hfield : (key, schema) ∈ fields)
    (hname : key ∈ names) : schema value[key] = true := by
  have hproperties : properties fields value = true := by
    simp only [record, all_cons, Bool.and_eq_true] at h
    exact h.2.1
  exact properties_field hproperties hfield (record_required h hname)

/-- A record has no field without a schema. -/
theorem record_keys (h : record fields names value = true) (hkey : key ∈ value.keys) :
    key ∈ fields.map (·.1) := by
  simp only [record, all_cons, all_nil, Bool.and_true, Bool.and_eq_true] at h
  simpa using List.all_eq_true.mp h.2.2.2 key hkey

theorem openRecord_required (h : openRecord fields names value = true) (hname : key ∈ names) :
    (value.get? key).isSome = true := by
  simp only [openRecord, all_cons, all_nil, Bool.and_true, Bool.and_eq_true] at h
  obtain ⟨hobject, -, hrequired⟩ := h
  simp only [required, show value.isObject = true from hobject, Bool.not_true, Bool.false_or,
    List.all_eq_true] at hrequired
  exact hrequired key hname

/-- A record stays one when a field is added that it has a schema for. -/
theorem record_set {x : Json} (key : String) (h : record fields names value = true)
    (hx : schema x = true)
    (hnew : ∀ f ∈ fields, f.1 ≠ key) :
    record (fields ++ [(key, schema)]) (names ++ [key]) (value.set key x) = true := by
  simp only [record, all_cons, all_nil, Bool.and_true, Bool.and_eq_true] at h ⊢
  obtain ⟨hobject, hproperties, hrequired, hclosed⟩ := h
  obtain ⟨parts, rfl⟩ : ∃ parts, value = .obj parts := by
    cases value with
    | obj parts => exact ⟨parts, rfl⟩
    | _ => cases hobject
  have hget : ∀ other, ((Json.obj parts).set key x).get? other =
      if key = other then some x else (Json.obj parts).get? other := by
    intro other
    rw [Json.set, Json.get?_obj, Json.get?_obj, Json.lookup_setField]
  refine ⟨rfl, ?_, ?_, ?_⟩
  · rw [properties, List.all_eq_true] at hproperties ⊢
    intro f hf
    rw [hget]
    rcases List.mem_append.mp hf with hf | hf
    · rw [if_neg (hnew f hf).symm]
      exact hproperties f hf
    · rw [List.mem_singleton.mp hf, if_pos rfl]
      exact hx
  · rw [required, Json.set, Json.isObject, Bool.not_true, Bool.false_or, List.all_eq_true]
    rw [required, Json.isObject, Bool.not_true, Bool.false_or, List.all_eq_true] at hrequired
    intro name hname
    have := hget name
    rw [Json.set] at this
    rw [this]
    split_ifs with hkey
    · rfl
    · rcases List.mem_append.mp hname with hname | hname
      · exact hrequired name hname
      · exact absurd (List.mem_singleton.mp hname).symm hkey
  · rw [closed, List.all_eq_true] at hclosed ⊢
    intro other hother
    rw [Json.mem_keys, hget] at hother
    rw [List.map_append, List.contains_iff_mem, List.mem_append]
    split_ifs at hother with hkey
    · exact .inr (by simp [hkey])
    · have hmem := hclosed other (Json.mem_keys.mpr hother)
      rw [List.contains_iff_mem] at hmem
      exact .inl hmem

/-- A record stays one when a field gets another value that its schema allows. -/
theorem record_assign {x : Json} (h : record fields names value = true)
    (hkey : key ∈ fields.map (·.1)) (hx : ∀ f ∈ fields, f.1 = key → f.2 x = true) :
    record fields names (value.set key x) = true := by
  simp only [record, all_cons, all_nil, Bool.and_true, Bool.and_eq_true] at h ⊢
  obtain ⟨hobject, hproperties, hrequired, hclosed⟩ := h
  have hget : ∀ other, (value.set key x).get? other =
      if key = other then some x else value.get? other := by
    intro other
    split_ifs with hother
    · rw [← hother, Json.get?_set_self hobject]
    · exact Json.get?_set_of_ne hother value x
  refine ⟨?_, ?_, ?_, ?_⟩
  · rw [object, Json.isObject_set]
    exact hobject
  · rw [properties, List.all_eq_true] at hproperties ⊢
    intro f hf
    rw [hget]
    split_ifs with hother
    · exact hx f hf hother.symm
    · exact hproperties f hf
  · simp only [required, Json.isObject_set, show value.isObject = true from hobject, Bool.not_true,
      Bool.false_or, List.all_eq_true] at hrequired ⊢
    intro name hname
    rw [hget]
    split_ifs
    · rfl
    · exact hrequired name hname
  · rw [closed, List.all_eq_true] at hclosed ⊢
    intro other hother
    rw [Json.mem_keys, hget] at hother
    split_ifs at hother with hother'
    · rw [← hother', List.contains_iff_mem]
      exact hkey
    · exact hclosed other (Json.mem_keys.mpr hother)

/-- The order of the fields and of the names does not matter. -/
theorem record_perm {fields' : List (String × Schema)} {names' : List String}
    (h : record fields names value = true) (hfields : fields'.Perm fields)
    (hnames : names'.Perm names) : record fields' names' value = true := by
  simp only [record, all_cons, all_nil, Bool.and_true, Bool.and_eq_true] at h ⊢
  obtain ⟨hobject, hproperties, hrequired, hclosed⟩ := h
  refine ⟨hobject, ?_, ?_, ?_⟩
  · rw [properties, hfields.all_eq]
    exact hproperties
  · rw [required, hnames.all_eq]
    exact hrequired
  · rw [closed, List.all_eq_true] at hclosed ⊢
    intro other hother
    have hmem := hclosed other hother
    rw [List.contains_iff_mem] at hmem ⊢
    exact (hfields.map _).mem_iff.mpr hmem

/-- What depends on other fields does not change with a field. -/
theorem dependentRequired_set {names : List (String × List String)} {x : Json}
    (h : dependentRequired names value = true)
    (hother : ∀ name ∈ names, name.1 ≠ key ∧ ∀ other ∈ name.2, other ≠ key) :
    dependentRequired names (value.set key x) = true := by
  rw [dependentRequired, List.all_eq_true] at h ⊢
  intro name hname
  obtain ⟨hne, hothers⟩ := hother name hname
  have hall : (name.2.all fun other => ((value.set key x).get? other).isSome) =
      name.2.all fun other => (value.get? other).isSome := by
    rw [Bool.eq_iff_iff, List.all_eq_true, List.all_eq_true]
    refine forall₂_congr fun other ho => ?_
    rw [Json.get?_set_of_ne (hothers other ho).symm]
  rw [Json.get?_set_of_ne hne.symm, hall]
  exact h name hname

end Record

theorem eq_str_of_enum {names : List String} (h : enum names value = true) :
    ∃ name ∈ names, value = .str name := by
  simpa [enum] using h

theorem eq_str_of_string (h : string value = true) : ∃ s, value = .str s := by
  cases value with
  | str s => exact ⟨s, rfl⟩
  | _ => cases h

theorem eq_str_of_textBetween {lower upper : Nat} (h : textBetween lower upper value = true) :
    ∃ s, value = .str s ∧ lower ≤ s.length := by
  simp only [textBetween, all_cons, Bool.and_eq_true] at h
  obtain ⟨s, rfl⟩ := eq_str_of_string h.1
  exact ⟨s, rfl, by simpa [minLength] using h.2.1⟩

theorem eq_arr_of_array (h : array value = true) : ∃ items, value = .arr items := by
  cases value with
  | arr items => exact ⟨items, rfl⟩
  | _ => cases h

theorem fields_of_record {fields : List (String × Schema)} {names : List String}
    (h : record fields names value = true) :
    ∃ parts, value = .obj parts ∧ (parts.all fun f => (fields.map (·.1)).contains f.1) = true := by
  simp only [record, all_cons, all_nil, Bool.and_true, Bool.and_eq_true] at h
  obtain ⟨hobject, -, -, hclosed⟩ := h
  cases value with
  | obj parts => exact ⟨parts, rfl, by rwa [closed_obj] at hclosed⟩
  | _ => cases hobject

/-- An ordered record whose fields are all required is given by their values. -/
theorem eq_obj_of_record {fields : List (String × Schema)} {names : List String}
    (sorted : List String) (h : record fields names value = true) (hordered : value.Ordered)
    (hsorted : sorted.Pairwise (· < ·)) (hnames : ∀ key ∈ sorted, key ∈ names)
    (hfields : ∀ f ∈ fields, f.1 ∈ sorted) :
    value = .obj (sorted.map fun key => (key, value[key])) := by
  obtain ⟨parts, rfl, hclosed⟩ := fields_of_record h
  have hincreasing := (Json.ordered_obj.mp hordered).1
  have hnodup : ∀ {keys : List String}, keys.Pairwise (· < ·) → keys.Nodup :=
    fun hkeys => List.Pairwise.imp String.ne_of_lt hkeys
  have hkeys : parts.map Prod.fst = sorted := by
    refine ((List.perm_ext_iff_of_nodup (hnodup hincreasing) (hnodup hsorted)).mpr
      fun key => ⟨fun hkey => ?_, fun hkey => ?_⟩).eq_of_pairwise
        (fun a b _ _ hab hba => absurd hba (String.lt_asymm hab))
        hincreasing hsorted
    · obtain ⟨f, hf, rfl⟩ := List.mem_map.mp hkey
      have hmem := List.all_eq_true.mp hclosed f hf
      rw [List.contains_iff_mem] at hmem
      obtain ⟨g, hg, heq⟩ := List.mem_map.mp hmem
      exact heq ▸ hfields g hg
    · have hget := record_required h (hnames key hkey)
      exact Json.mem_keys.mpr (by rw [hget]; rfl)
  rw [← hkeys, List.map_map]
  congr 1
  conv_lhs => rw [← List.map_id parts]
  refine List.map_congr_left fun f hf => ?_
  rw [Function.comp_apply, Json.getElem_obj, Json.lookup_of_mem (hnodup hincreasing) hf]
  rfl

/-- Exactly one of two. -/
theorem one_pair (a b : Schema) (value : Json) : one [a, b] value = (a value ^^ b value) := by
  cases ha : a value <;> cases hb : b value <;> simp [one, ha, hb]

end Rules

end Schema

end RoomGateway
