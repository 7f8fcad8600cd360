import Mathlib.Tactic.Ring
import RoomGateway.Lib.Fresh
import RoomGateway.Lib.Json

/-!
128-bit identifiers and their text. `Uuid.text` is the hyphenated lower-case
form every writer produces; `Uuid.parse` accepts that form, the plain 32-digit
form, the braced form and the `urn:uuid:` form, with digits of either case.
-/

namespace RoomGateway

structure Uuid where
  val : Fin (2 ^ 128)
  deriving DecidableEq, Repr

namespace Uuid

def ofNat (n : Nat) : Uuid := ⟨Fin.ofNat (2 ^ 128) n⟩

instance (n : Nat) : OfNat Uuid n := ⟨ofNat n⟩

instance : Inhabited Uuid := ⟨0⟩

instance : LE Uuid := ⟨fun a b => a.val ≤ b.val⟩

instance (a b : Uuid) : Decidable (a ≤ b) := inferInstanceAs (Decidable (a.val ≤ b.val))

theorem le_antisymm {a b : Uuid} (hab : a ≤ b) (hba : b ≤ a) : a = b := by
  cases a
  cases b
  exact congrArg Uuid.mk (Fin.le_antisymm hab hba)

theorem le_trans {a b c : Uuid} (hab : a ≤ b) (hbc : b ≤ c) : a ≤ c :=
  Fin.le_trans hab hbc

theorem le_total (a b : Uuid) : a ≤ b ∨ b ≤ a := Fin.le_total a.val b.val

instance : LinearOrder Uuid where
  le_refl a := Fin.le_refl a.val
  le_trans _ _ _ := le_trans
  le_antisymm _ _ := le_antisymm
  le_total := le_total
  toDecidableLE := inferInstance

/-! ### Hexadecimal digits -/

def hexDigit (d : Nat) : Char :=
  if d < 10 then Char.ofNat (48 + d) else Char.ofNat (87 + d)

/-- The last `width` hexadecimal digits of a number, most significant first. -/
def hexDigits : Nat → Nat → List Char
  | 0, _ => []
  | width + 1, n => hexDigits width (n / 16) ++ [hexDigit (n % 16)]

def hexValue (c : Char) : Option Nat :=
  if '0' ≤ c ∧ c ≤ '9' then some (c.toNat - 48)
  else if 'a' ≤ c ∧ c ≤ 'f' then some (c.toNat - 87)
  else if 'A' ≤ c ∧ c ≤ 'F' then some (c.toNat - 55)
  else none

def parseHex (digits : List Char) : Option Nat :=
  digits.foldlM (fun acc c => (hexValue c).map (acc * 16 + ·)) 0

theorem hexValue_hexDigit (d : Nat) (h : d < 16) : hexValue (hexDigit d) = some d := by
  have key : ∀ d : Fin 16, hexValue (hexDigit d.val) = some d.val := by decide
  exact key ⟨d, h⟩

@[simp] theorem hexDigits_length (width n : Nat) : (hexDigits width n).length = width := by
  induction width generalizing n with
  | zero => rfl
  | succ width ih => simp [hexDigits, ih]

theorem parseHex_hexDigits (width n : Nat) :
    parseHex (hexDigits width n) = some (n % 16 ^ width) := by
  induction width generalizing n with
  | zero => simp [hexDigits, parseHex, Nat.mod_one]
  | succ width ih =>
      have hlast : n % 16 < 16 := Nat.mod_lt _ (by norm_num)
      have hsplit : n / 16 % 16 ^ width * 16 + n % 16 = n % 16 ^ (width + 1) := by
        rw [pow_succ, Nat.mul_comm (16 ^ width) 16, Nat.mod_mul]
        ring
      simp only [parseHex] at ih
      simp [hexDigits, parseHex, List.foldlM_append, ih, hexValue_hexDigit _ hlast, hsplit]

theorem eq_hexDigit_of_mem {width n : Nat} {c : Char} (h : c ∈ hexDigits width n) :
    ∃ d : Fin 16, c = hexDigit d.val := by
  induction width generalizing n with
  | zero => cases h
  | succ width ih =>
      rcases List.mem_append.mp h with h | h
      · exact ih h
      · exact ⟨⟨n % 16, Nat.mod_lt _ (by norm_num)⟩, List.mem_singleton.mp h⟩

/-- The digits are written in lower case. -/
theorem hexDigits_lower {width n : Nat} {c : Char} (h : c ∈ hexDigits width n) :
    (c.isLower || c.isDigit) = true := by
  have key : ∀ d : Fin 16, ((hexDigit d.val).isLower || (hexDigit d.val).isDigit) = true := by
    decide
  obtain ⟨d, rfl⟩ := eq_hexDigit_of_mem h
  exact key d

/-! ### The hyphenated form -/

/-- Cut a list into groups of the given widths, joined by hyphens. -/
def joinGroups : List Nat → List Char → List Char
  | [], _ => []
  | [n], digits => digits.take n
  | n :: m :: ns, digits => digits.take n ++ '-' :: joinGroups (m :: ns) (digits.drop n)

def splitGroups : List Nat → List Char → Option (List Char)
  | [], text => if text.isEmpty then some [] else none
  | [n], text => if text.length = n then some text else none
  | n :: m :: ns, text =>
      match text.drop n with
      | '-' :: rest => (splitGroups (m :: ns) rest).map (text.take n ++ ·)
      | _ => none

theorem splitGroups_joinGroups (ns : List Nat) (digits : List Char)
    (hlen : digits.length = ns.sum) : splitGroups ns (joinGroups ns digits) = some digits := by
  induction ns generalizing digits with
  | nil =>
      have hnil : digits = [] := by simpa using hlen
      simp [joinGroups, splitGroups, hnil]
  | cons n ns ih =>
      cases ns with
      | nil =>
          have hn : digits.length = n := by simpa using hlen
          simp [joinGroups, splitGroups, ← hn]
      | cons m ns =>
          have hn : n ≤ digits.length := by
            rw [hlen]
            simp
          have htake : (digits.take n).length = n := by simp [hn]
          have hdrop : (joinGroups (n :: m :: ns) digits).drop n =
              '-' :: joinGroups (m :: ns) (digits.drop n) := by
            simp [joinGroups, htake]
          have hfirst : (joinGroups (n :: m :: ns) digits).take n = digits.take n := by
            simp [joinGroups, htake]
          have hrest := ih (digits.drop n) (by simp [hlen])
          simp [splitGroups, hdrop, hfirst, hrest]

/-- Dropping the hyphens again. -/
theorem filter_joinGroups {keep : Char → Bool} (hdash : keep '-' = false) (ns : List Nat)
    (digits : List Char) (hlen : digits.length = ns.sum) (hkeep : ∀ c ∈ digits, keep c = true) :
    (joinGroups ns digits).filter keep = digits := by
  induction ns generalizing digits with
  | nil =>
      have hnil : digits = [] := by simpa using hlen
      simp [joinGroups, hnil]
  | cons n ns ih =>
      have hfirst : (digits.take n).filter keep = digits.take n :=
        List.filter_eq_self.mpr fun c hc => hkeep c (List.mem_of_mem_take hc)
      cases ns with
      | nil =>
          have hn : digits.length = n := by simpa using hlen
          simpa [joinGroups, ← hn] using hkeep
      | cons m ns =>
          have hrest := ih (digits.drop n) (by simp [hlen])
            fun c hc => hkeep c (List.mem_of_mem_drop hc)
          rw [joinGroups, List.filter_append, hfirst, List.filter_cons_of_neg (by simp [hdash]),
            hrest, List.take_append_drop]

/-- Widths of the five groups of the hyphenated form. -/
def groups : List Nat := [8, 4, 4, 4, 12]

def text (u : Uuid) : String := String.ofList (joinGroups groups (hexDigits 32 u.val))

def ofDigits (digits : List Char) : Option Uuid :=
  (parseHex digits).map (fun n => ⟨Fin.ofNat (2 ^ 128) n⟩)

def parseHyphenated (chars : List Char) : Option Uuid :=
  (splitGroups groups chars).bind ofDigits

def parse (s : String) : Option Uuid :=
  let chars := s.toList
  if chars.length = 32 then ofDigits chars
  else if chars.length = 36 then parseHyphenated chars
  else if chars.length = 38 ∧ chars.head? = some '\x7b' ∧ chars.getLast? = some '\x7d' then
    parseHyphenated chars.tail.dropLast
  else if chars.length = 45 ∧ "urn:uuid:".toList.isPrefixOf chars then
    parseHyphenated (chars.drop 9)
  else none

theorem length_text (u : Uuid) : u.text.toList.length = 36 := by
  simp [text, groups, joinGroups]

/-- A text has hyphens and digits only. -/
theorem mem_text {u : Uuid} {c : Char} (h : c ∈ u.text.toList) :
    c = '-' ∨ ∃ d : Fin 16, c = hexDigit d.val := by
  have hgroups : ∀ (ns : List Nat) (digits : List Char), c ∈ joinGroups ns digits →
      c = '-' ∨ c ∈ digits := by
    intro ns
    induction ns with
    | nil =>
        intro digits h
        cases h
    | cons n ns ih =>
        intro digits h
        cases ns with
        | nil => exact .inr (List.mem_of_mem_take h)
        | cons m ns =>
            rw [joinGroups, List.mem_append, List.mem_cons] at h
            rcases h with h | h | h
            · exact .inr (List.mem_of_mem_take h)
            · exact .inl h
            · exact (ih _ h).imp_right List.mem_of_mem_drop
  rw [text, String.toList_ofList] at h
  exact (hgroups _ _ h).imp_right eq_hexDigit_of_mem

theorem ofDigits_hexDigits (u : Uuid) : ofDigits (hexDigits 32 u.val) = some u := by
  have hval : (u.val : Nat) % 16 ^ 32 = u.val :=
    Nat.mod_eq_of_lt (u.val.isLt.trans_le (by norm_num))
  rw [ofDigits, parseHex_hexDigits, hval, Option.map_some, Fin.ofNat_val_eq_self]

@[simp] theorem parseHyphenated_text (u : Uuid) : parseHyphenated u.text.toList = some u := by
  have hsplit : splitGroups groups u.text.toList = some (hexDigits 32 u.val) := by
    rw [text, String.toList_ofList]
    exact splitGroups_joinGroups _ _ (by simp [groups])
  simp [parseHyphenated, hsplit, ofDigits_hexDigits]

@[simp] theorem parse_text (u : Uuid) : parse u.text = some u := by
  simp [parse, length_text u]

theorem text_injective {u v : Uuid} (h : u.text = v.text) : u = v := by
  have hparse : parse u.text = parse v.text := congrArg parse h
  simpa using hparse

theorem filter_text {keep : Char → Bool} (hdash : keep '-' = false)
    (hkeep : ∀ c, (c.isLower || c.isDigit) = true → keep c = true) (u : Uuid) :
    u.text.toList.filter keep = hexDigits 32 u.val := by
  rw [text, String.toList_ofList]
  exact filter_joinGroups hdash _ _ (by simp [groups]) fun c hc => hkeep c (hexDigits_lower hc)

theorem hexDigits_injective {u v : Uuid} (h : hexDigits 32 u.val = hexDigits 32 v.val) : u = v := by
  have hdigits := congrArg ofDigits h
  rwa [ofDigits_hexDigits, ofDigits_hexDigits, Option.some.injEq] at hdigits

/-- No list short of all identifiers has all of them. -/
theorem exists_not_mem {ids : List Uuid} (h : ids.length < 2 ^ 128) : ∃ u, u ∉ ids := by
  have hinjective : Function.Injective Uuid.mk := fun a b heq => congrArg Uuid.val heq
  obtain ⟨n, hn⟩ := Fresh.exists_not_mem hinjective (by rwa [Fintype.card_fin])
  exact ⟨_, hn⟩

end Uuid

instance : Coe Uuid Json := ⟨fun u => Json.str u.text⟩

end RoomGateway
