import Mathlib.Data.String.Basic
import RoomGateway.Lib.Loops
import RoomGateway.Model.StrictJson

/-!
What strict parsing accepts: the documents that can be read in one way only. No
object anywhere repeats a key and every number is an integer of 64 bits; what is
read is then what an ordinary parser reads.
-/

namespace RoomGateway

/-! ### Numbers -/

namespace NumberLiteral

/-- The integer that the digits stand for. -/
def integer (literal : NumberLiteral) : Int :=
  if literal.negative then -literal.whole else literal.whole

/-- An integer of 64 bits that is written as one; there is no negative zero. -/
structure Integral (literal : NumberLiteral) : Prop where
  fraction : literal.fraction = none
  exponent : literal.exponent = none
  signed : literal.negative = true → literal.whole ≠ 0
  lower : -2 ^ 63 ≤ literal.integer
  upper : literal.integer < 2 ^ 64

/-- What a negative number of 64 bits comes to. -/
theorem toInt_neg_ofNat {n : Nat} (h : n < 2 ^ 64) :
    (-(BitVec.ofNat 64 n)).toInt =
      if n = 0 then 0 else if n ≤ 2 ^ 63 then -(n : Int) else 2 ^ 64 - (n : Int) := by
  rw [BitVec.toInt_eq_toNat_cond, BitVec.toNat_neg, BitVec.toNat_ofNat]
  split_ifs <;> omega

theorem not_integral_of_decimal {literal : NumberLiteral}
    (h : (literal.fraction.isSome || literal.exponent.isSome) = true) : ¬ literal.Integral := by
  intro hintegral
  rw [hintegral.fraction, hintegral.exponent] at h
  cases h

theorem eq_of_classify (literal : NumberLiteral) {other : NumberLiteral}
    (h : literal.classify = .f64 other) : other = literal := by
  unfold classify at h
  dsimp only at h
  split_ifs at h <;> exact (ParserNumber.f64.inj h).symm

/-- A number is read as an integer exactly if it is written as one. -/
theorem classify_iff (literal : NumberLiteral) :
    literal.classify ≠ .f64 literal ↔ literal.Integral := by
  by_cases hdecimal : (literal.fraction.isSome || literal.exponent.isSome) = true
  · refine iff_of_false (not_not.mpr ?_) (not_integral_of_decimal hdecimal)
    rw [classify, hdecimal, Bool.true_or, if_pos rfl]
  · obtain ⟨hfraction, hexponent⟩ : literal.fraction = none ∧ literal.exponent = none := by
      simpa using hdecimal
    rw [classify, hfraction, hexponent]
    simp only [Option.isSome_none, Bool.false_or, decide_eq_true_eq]
    by_cases hbig : 2 ^ 64 ≤ literal.whole
    · rw [if_pos hbig]
      refine iff_of_false (not_not.mpr rfl) fun h => ?_
      have hlower := h.lower
      have hupper := h.upper
      unfold integer at hlower hupper
      split_ifs at hlower hupper <;> omega
    · rw [if_neg hbig]
      cases hsign : literal.negative with
      | false =>
          have hinteger : literal.integer = literal.whole := by simp [integer, hsign]
          exact iff_of_true nofun ⟨hfraction, hexponent, by simp [hsign], by omega, by omega⟩
      | true =>
          have hinteger : literal.integer = -literal.whole := by simp [integer, hsign]
          simp only [Bool.not_true, Bool.false_eq_true, if_false, toInt_neg_ofNat (not_le.mp hbig)]
          by_cases hzero : literal.whole = 0
          · rw [if_pos hzero, if_pos le_rfl]
            exact iff_of_false (not_not.mpr rfl) fun h => h.signed hsign hzero
          · rw [if_neg hzero]
            by_cases hrange : literal.whole ≤ 2 ^ 63
            · rw [if_pos hrange, if_neg (by omega)]
              exact iff_of_true nofun ⟨hfraction, hexponent, fun _ => hzero, by omega, by omega⟩
            · rw [if_neg hrange, if_pos (by omega)]
              refine iff_of_false (not_not.mpr rfl) fun h => ?_
              have hlower := h.lower
              omega

end NumberLiteral

/-! ### Trees -/

namespace Token

variable {floatText : NumberLiteral → String}

/-- A tree occurs in another. -/
inductive Within (x : Token) : Token → Prop
  | here : Within x x
  | item {items : List Token} {y : Token} (hy : y ∈ items) (h : Within x y) : Within x (.seq items)
  | entry {entries : List (String × Token)} {e : String × Token} (he : e ∈ entries)
      (h : Within x e.2) : Within x (.map entries)

/-- A document that can be read in one way only. -/
structure Strict (tree : Token) : Prop where
  keys : ∀ entries, (Token.map entries).Within tree → (entries.map Prod.fst).Nodup
  numbers : ∀ literal, (Token.number literal).Within tree → literal.classify ≠ .f64 literal

theorem strict_seq {items : List Token} : (Token.seq items).Strict ↔ ∀ x ∈ items, x.Strict := by
  constructor
  · exact fun h x hx => ⟨fun entries hin => h.keys entries (.item hx hin),
      fun literal hin => h.numbers literal (.item hx hin)⟩
  · intro h
    constructor
    · intro entries hin
      cases hin with
      | item hy hin => exact (h _ hy).keys entries hin
    · intro literal hin
      cases hin with
      | item hy hin => exact (h _ hy).numbers literal hin

theorem strict_map {entries : List (String × Token)} : (Token.map entries).Strict ↔
    (entries.map Prod.fst).Nodup ∧ ∀ e ∈ entries, e.2.Strict := by
  constructor
  · exact fun h => ⟨h.keys entries .here, fun e he =>
      ⟨fun entries hin => h.keys entries (.entry he hin),
        fun literal hin => h.numbers literal (.entry he hin)⟩⟩
  · rintro ⟨hkeys, h⟩
    constructor
    · intro entries hin
      cases hin with
      | here => exact hkeys
      | entry he hin => exact (h _ he).keys entries hin
    · intro literal hin
      cases hin with
      | entry he hin => exact (h _ he).numbers literal hin

theorem strict_number {literal : NumberLiteral} :
    (Token.number literal).Strict ↔ literal.classify ≠ .f64 literal := by
  constructor
  · exact fun h => h.numbers literal .here
  · intro h
    constructor
    · intro entries hin
      cases hin
    · intro other hin
      cases hin
      exact h

/-- A value that is read without a look inside. -/
theorem ok_iff_of_leaf {tree : Token} {v w : Json} (hstrict : tree.Strict) :
    (Except.ok w : Except String Json) = .ok v ↔ tree.Strict ∧ v = w :=
  ⟨fun h => ⟨hstrict, (Except.ok.inj h).symm⟩, fun h => by rw [h.2]⟩

mutual

/-- The strict visitor accepts the strict trees and reads what the other reads. -/
theorem strictValue_ok {v : Json} : (tree : Token) →
    (tree.strictValue = .ok v ↔ tree.Strict ∧ v = tree.value floatText)
  | .null => by
      rw [strictValue, value]
      exact ok_iff_of_leaf ⟨nofun, nofun⟩
  | .bool b => by
      rw [strictValue, value]
      exact ok_iff_of_leaf ⟨nofun, nofun⟩
  | .text s => by
      rw [strictValue, value]
      exact ok_iff_of_leaf ⟨nofun, nofun⟩
  | .number literal => by
      rw [strictValue, value, strict_number]
      cases hclass : literal.classify with
      | f64 other =>
          obtain rfl := literal.eq_of_classify hclass
          exact ⟨nofun, fun h => absurd rfl h.1⟩
      | u64 n => exact ⟨fun h => ⟨nofun, (Except.ok.inj h).symm⟩, fun h => by rw [h.2]⟩
      | i64 n => exact ⟨fun h => ⟨nofun, (Except.ok.inj h).symm⟩, fun h => by rw [h.2]⟩
  | .seq items => by
      rw [strictValue, value, Loops.map_ok, strict_seq]
      constructor
      · rintro ⟨values, hvalues, rfl⟩
        obtain ⟨hitems, rfl⟩ := (visitSeq_ok items).mp hvalues
        exact ⟨hitems, rfl⟩
      · rintro ⟨hitems, rfl⟩
        exact ⟨_, (visitSeq_ok items).mpr ⟨hitems, rfl⟩, rfl⟩
  | .map entries => by
      rw [strictValue, value, Loops.map_ok, strict_map]
      constructor
      · rintro ⟨values, hvalues, rfl⟩
        obtain ⟨hentries, hkeys, -, rfl⟩ := (visitMap_ok entries).mp hvalues
        exact ⟨⟨hkeys, hentries⟩, rfl⟩
      · rintro ⟨⟨hkeys, hentries⟩, rfl⟩
        exact ⟨_, (visitMap_ok entries).mpr ⟨hentries, hkeys, fun _ _ => rfl, rfl⟩, rfl⟩

theorem visitSeq_ok {values out : List Json} : (items : List Token) →
    (visitSeq items values = .ok out ↔
      (∀ x ∈ items, x.Strict) ∧ out = visitValues floatText items values)
  | [] => by
      rw [visitSeq, visitValues]
      exact ⟨fun h => ⟨by simp, (Except.ok.inj h).symm⟩, fun h => by rw [h.2]⟩
  | item :: items => by
      rw [visitSeq, visitValues, Loops.bind_ok, List.forall_mem_cons]
      constructor
      · rintro ⟨v, hv, hrest⟩
        obtain ⟨hitem, rfl⟩ := (strictValue_ok item).mp hv
        obtain ⟨hitems, hout⟩ := (visitSeq_ok items).mp hrest
        exact ⟨⟨hitem, hitems⟩, hout⟩
      · rintro ⟨⟨hitem, hitems⟩, hout⟩
        exact ⟨_, (strictValue_ok item).mpr ⟨hitem, rfl⟩,
          (visitSeq_ok items).mpr ⟨hitems, hout⟩⟩

theorem visitMap_ok {values out : List (String × Json)} : (entries : List (String × Token)) →
    (visitMap entries values = .ok out ↔
      (∀ e ∈ entries, e.2.Strict) ∧ (entries.map Prod.fst).Nodup ∧
        (∀ e ∈ entries, Json.lookup values e.1 = none) ∧
        out = visitEntries floatText entries values)
  | [] => by
      rw [visitMap, visitEntries]
      exact ⟨fun h => ⟨by simp, by simp, by simp, (Except.ok.inj h).symm⟩, fun h => by rw [h.2.2.2]⟩
  | (key, token) :: entries => by
      have hlookup : ∀ (v : Json) (e : String × Token),
          Json.lookup (Json.setField values key v) e.1 = none ↔
            key ≠ e.1 ∧ Json.lookup values e.1 = none := by
        intro v e
        rw [Json.lookup_setField]
        split_ifs with heq
        · simp [heq]
        · simp [heq]
      rw [visitMap, visitEntries]
      simp only [List.forall_mem_cons, List.map_cons, List.nodup_cons]
      constructor
      · intro h
        split_ifs at h with hseen
        obtain ⟨v, hv, hrest⟩ := Loops.bind_ok.mp h
        obtain ⟨htoken, rfl⟩ := (strictValue_ok token).mp hv
        obtain ⟨hentries, hkeys, hnew, hout⟩ := (visitMap_ok entries).mp hrest
        refine ⟨⟨htoken, hentries⟩, ⟨fun hmem => ?_, hkeys⟩, ⟨by simpa using hseen, fun e he => ?_⟩,
          hout⟩
        · obtain ⟨e, he, heq⟩ := List.mem_map.mp hmem
          exact ((hlookup _ e).mp (hnew e he)).1 heq.symm
        · exact ((hlookup _ e).mp (hnew e he)).2
      · rintro ⟨⟨htoken, hentries⟩, ⟨hkey, hkeys⟩, ⟨hseen, hnew⟩, hout⟩
        rw [if_neg (by simp [hseen])]
        refine Loops.bind_ok.mpr ⟨_, (strictValue_ok token).mpr ⟨htoken, rfl⟩,
          (visitMap_ok entries).mpr ⟨hentries, hkeys, fun e he => ?_, hout⟩⟩
        exact (hlookup _ e).mpr ⟨fun heq => hkey (heq ▸ List.mem_map_of_mem he), hnew e he⟩

end

/-! ### What is read is ordered -/

theorem pairwise_setField {fields : List (String × Json)} (key : String) (v : Json)
    (h : (fields.map Prod.fst).Pairwise (· < ·)) :
    ((Json.setField fields key v).map Prod.fst).Pairwise (· < ·) := by
  induction fields with
  | nil => simp [Json.setField]
  | cons f fields ih =>
      obtain ⟨k, x⟩ := f
      rw [List.map_cons, List.pairwise_cons] at h
      rw [Json.setField]
      split_ifs with hkey hbefore
      · rw [List.map_cons, List.pairwise_cons]
        exact h
      · rw [List.map_cons, List.map_cons, List.pairwise_cons, List.pairwise_cons,
          List.forall_mem_cons]
        exact ⟨⟨hbefore, fun k' hk' => hbefore.trans (h.1 k' hk')⟩, h⟩
      · rw [List.map_cons, List.pairwise_cons]
        refine ⟨fun k' hk' => ?_, ih h.2⟩
        -- the keys that follow are those that were there and the new one
        have hmem : k' ∈ (Json.obj (Json.setField fields key v)).keys := hk'
        rw [Json.mem_keys, Json.get?_obj, Json.lookup_setField] at hmem
        split_ifs at hmem with hnew
        · rw [← hnew]
          exact lt_of_le_of_ne (not_lt.mp hbefore) hkey
        · have hold : k' ∈ (Json.obj fields).keys := Json.mem_keys.mpr hmem
          exact h.1 k' hold

mutual

theorem ordered_value : (tree : Token) → (tree.value floatText).Ordered
  | .null => by
      rw [value]
      exact Json.ordered_null
  | .bool b => by
      rw [value]
      exact nofun
  | .text s => by
      rw [value]
      exact Json.ordered_str s
  | .number literal => by
      rw [value]
      cases literal.classify with
      | f64 literal => exact nofun
      | u64 n => exact nofun
      | i64 n => exact nofun
  | .seq items => by
      rw [value, Json.ordered_arr]
      exact ordered_visitValues items nofun
  | .map entries => by
      rw [value]
      exact ordered_visitEntries entries (Json.ordered_obj.mpr ⟨.nil, nofun⟩)

theorem ordered_visitValues {values : List Json} : (items : List Token) →
    (∀ v ∈ values, v.Ordered) → ∀ v ∈ visitValues floatText items values, v.Ordered
  | [], h => by
      rw [visitValues]
      exact h
  | item :: items, h => by
      rw [visitValues]
      refine ordered_visitValues items ?_
      rw [List.forall_mem_append, List.forall_mem_singleton]
      exact ⟨h, ordered_value item⟩

theorem ordered_visitEntries {values : List (String × Json)} : (entries : List (String × Token)) →
    (Json.obj values).Ordered → (Json.obj (visitEntries floatText entries values)).Ordered
  | [], h => by
      rw [visitEntries]
      exact h
  | (key, token) :: entries, h => by
      rw [visitEntries]
      refine ordered_visitEntries entries ?_
      obtain ⟨hkeys, hvalues⟩ := Json.ordered_obj.mp h
      refine Json.ordered_obj.mpr ⟨pairwise_setField key _ hkeys, fun f hf => ?_⟩
      rcases Json.mem_setField hf with hf | hf
      · exact hvalues f hf
      · rw [hf]
        exact ordered_value token

end

end Token

/-- Strict parsing accepts a document if the ordinary parser does, no object in
it repeats a key and every number in it is read as an integer; and then it reads
what the ordinary parser reads. The numbers that are read as integers are those
written without a fraction and an exponent that 64 bits hold, but not the negative
zero. -/
theorem strict_json (floatText : NumberLiteral → String) (tokenize : Tokenizer)
    (bytes : List UInt8) :
    (∀ v, parseStrictJson tokenize bytes = .ok v ↔
      parseJson floatText tokenize bytes = some v ∧
        ∃ tree, tokenize bytes = some tree ∧ tree.Strict) ∧
    ∀ literal : NumberLiteral, literal.classify ≠ .f64 literal ↔ literal.Integral := by
  refine ⟨fun v => ?_, NumberLiteral.classify_iff⟩
  unfold parseStrictJson parseJson
  cases tokenize bytes with
  | none => exact ⟨nofun, nofun⟩
  | some tree =>
      have hread : tree.strictValue = .ok v ↔ tree.Strict ∧ v = tree.value floatText :=
        Token.strictValue_ok tree
      dsimp only
      rw [Loops.mapError_ok, hread]
      constructor
      · rintro ⟨hstrict, rfl⟩
        exact ⟨rfl, tree, rfl, hstrict⟩
      · rintro ⟨hvalue, other, hother, hstrict⟩
        obtain rfl := Option.some.inj hother
        exact ⟨hstrict, (Option.some.inj hvalue).symm⟩

/-- A parsed value has its keys in order. -/
theorem ordered_of_parse {tokenize : Tokenizer} {bytes : List UInt8} {v : Json}
    (h : parseStrictJson tokenize bytes = .ok v) : v.Ordered := by
  unfold parseStrictJson at h
  cases htree : tokenize bytes with
  | none =>
      rw [htree] at h
      cases h
  | some tree =>
      rw [htree] at h
      have hread : tree.Strict ∧ v = tree.value fun _ => "" :=
        (Token.strictValue_ok tree).mp (Loops.mapError_ok.mp h)
      rw [hread.2]
      exact Token.ordered_value tree

end RoomGateway
