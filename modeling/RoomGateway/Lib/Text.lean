import Mathlib.Data.List.DropRight
import Mathlib.Tactic.Ring

/-!
The string operations of the source on lists of characters. White space is
the Unicode property, as for the source's strings.
-/

namespace RoomGateway.Text

/-! ### Letters and digits of ASCII -/

theorem isUpper_iff {c : Char} : c.isUpper = true ↔ 65 ≤ c.toNat ∧ c.toNat ≤ 90 := by
  have heq : c.isUpper = decide (c.val ≥ 'A'.val ∧ c.val ≤ 'Z'.val) := rfl
  rw [heq, decide_eq_true_eq]
  exact and_congr UInt32.le_iff_toNat_le UInt32.le_iff_toNat_le

theorem isLower_iff {c : Char} : c.isLower = true ↔ 97 ≤ c.toNat ∧ c.toNat ≤ 122 := by
  have heq : c.isLower = (decide (c.val ≥ 'a'.val) && decide (c.val ≤ 'z'.val)) := rfl
  rw [heq, Bool.and_eq_true, decide_eq_true_eq, decide_eq_true_eq]
  exact and_congr UInt32.le_iff_toNat_le UInt32.le_iff_toNat_le

theorem isDigit_iff {c : Char} : c.isDigit = true ↔ 48 ≤ c.toNat ∧ c.toNat ≤ 57 := by
  have heq : c.isDigit = (decide (c.val ≥ '0'.val) && decide (c.val ≤ '9'.val)) := rfl
  rw [heq, Bool.and_eq_true, decide_eq_true_eq, decide_eq_true_eq]
  exact and_congr UInt32.le_iff_toNat_le UInt32.le_iff_toNat_le

theorem isAlphanum_eq (c : Char) : c.isAlphanum = (c.isUpper || c.isLower || c.isDigit) := rfl

theorem toLower_of_not_isUpper {c : Char} (h : c.isUpper = false) : c.toLower = c := by
  have hrange : ¬ (c.val ≥ 'A'.val ∧ c.val ≤ 'Z'.val) := by
    rw [← Bool.not_eq_true, isUpper_iff] at h
    exact fun hval => h ⟨UInt32.le_iff_toNat_le.mp hval.1, UInt32.le_iff_toNat_le.mp hval.2⟩
  exact dif_neg hrange

theorem isUpper_toLower (c : Char) : c.toLower.isUpper = false := by
  by_cases hupper : c.isUpper = true
  · rw [isUpper_iff] at hupper
    have hval : c.toLower.val = c.val + 32 := by
      have hrange : c.val ≥ 'A'.val ∧ c.val ≤ 'Z'.val :=
        ⟨UInt32.le_iff_toNat_le.mpr hupper.1, UInt32.le_iff_toNat_le.mpr hupper.2⟩
      exact congrArg Char.val (dif_pos hrange)
    have hcode : c.toLower.toNat = (c.toNat + 32) % 4294967296 := by
      rw [Char.toNat, hval, UInt32.toNat_add]
      rfl
    rw [← Bool.not_eq_true, isUpper_iff, hcode]
    omega
  · rw [Bool.not_eq_true] at hupper
    rwa [toLower_of_not_isUpper hupper]

/-! ### White space -/

def isWhitespace (c : Char) : Bool :=
  let n := c.toNat
  (9 ≤ n && n ≤ 13) || n == 0x20 || n == 0x85 || n == 0xA0 || n == 0x1680 ||
    (0x2000 ≤ n && n ≤ 0x200A) || n == 0x2028 || n == 0x2029 || n == 0x202F || n == 0x205F ||
    n == 0x3000

def trimStart (s : List Char) : List Char := s.dropWhile isWhitespace

def trimEnd (s : List Char) : List Char := (s.reverse.dropWhile isWhitespace).reverse

def trim (s : List Char) : List Char := trimEnd (trimStart s)

section Trim

variable {s a b : List Char}

/-- White space only. -/
def Blank (s : List Char) : Prop := ∀ c ∈ s, isWhitespace c = true

theorem trimStart_blank (h : Blank s) : trimStart s = [] := List.dropWhile_eq_nil_iff.mpr h

theorem trimStart_append_left (h : Blank a) (s : List Char) : trimStart (a ++ s) = trimStart s :=
  List.dropWhile_append_of_pos h

theorem trimEnd_append_right (h : Blank b) (s : List Char) : trimEnd (s ++ b) = trimEnd s := by
  rw [trimEnd, List.reverse_append, List.dropWhile_append_of_pos (by simpa [Blank] using h)]
  rfl

theorem trimStart_append_cons {c : Char} (h : isWhitespace c = false) (a b : List Char) :
    trimStart (a ++ c :: b) = trimStart a ++ c :: b := by
  induction a with
  | nil => rw [List.nil_append, trimStart, List.dropWhile_cons_of_neg (by simp [h])]; rfl
  | cons d a ih =>
      unfold trimStart at ih ⊢
      rw [List.cons_append, List.dropWhile_cons, List.dropWhile_cons]
      split_ifs
      · exact ih
      · rfl

theorem trimEnd_append_cons {c : Char} (h : isWhitespace c = false) (a b : List Char) :
    trimEnd (a ++ c :: b) = a ++ c :: trimEnd b := by
  have hrev : (a ++ c :: b).reverse = b.reverse ++ c :: a.reverse := by simp
  rw [trimEnd, hrev, ← trimStart, trimStart_append_cons h]
  simp [trimEnd, trimStart]

theorem trim_pad (ha : Blank a) (hb : Blank b) (s : List Char) : trim (a ++ s ++ b) = trim s := by
  rw [trim, List.append_assoc, trimStart_append_left ha, trim]
  by_cases hs : Blank s
  · rw [trimStart_append_left hs, trimStart_blank hb, trimStart_blank hs]
  · obtain ⟨c, hc, hspace⟩ : ∃ c ∈ s, isWhitespace c = false := by
      simpa [Blank] using hs
    obtain ⟨x, y, rfl⟩ := List.append_of_mem hc
    rw [List.append_assoc, List.cons_append, trimStart_append_cons hspace,
      trimStart_append_cons hspace, ← List.cons_append, ← List.append_assoc,
      trimEnd_append_right hb]

theorem trim_trimStart (s : List Char) : trim (trimStart s) = trim s := by
  have htwice : trimStart (trimStart s) = trimStart s := List.dropWhile_idempotent _ s
  rw [trim, htwice, trim]

theorem trim_trimEnd (s : List Char) : trim (trimEnd s) = trim s := by
  have hend : s = trimEnd s ++ (s.reverse.takeWhile isWhitespace).reverse := by
    rw [trimEnd, ← List.reverse_append, List.takeWhile_append_dropWhile, List.reverse_reverse]
  have hblank : Blank (s.reverse.takeWhile isWhitespace).reverse :=
    fun c hc => List.mem_takeWhile_imp (List.mem_reverse.mp hc)
  have hnil : Blank [] := nofun
  have hpad := trim_pad hnil hblank (trimEnd s)
  rw [List.nil_append, ← hend] at hpad
  exact hpad.symm

theorem trim_trim (s : List Char) : trim (trim s) = trim s := by
  conv_lhs => rw [trim.eq_1 s, trim_trimEnd, trim_trimStart]

end Trim

/-- The pieces between the separators, at least one. -/
def split (sep : Char) : List Char → List (List Char)
  | [] => [[]]
  | c :: rest =>
      if c = sep then [] :: split sep rest
      else
        match split sep rest with
        | [] => [[c]]
        | piece :: pieces => (c :: piece) :: pieces

theorem split_ne_nil (sep : Char) (s : List Char) : split sep s ≠ [] := by
  cases s with
  | nil => simp [split]
  | cons c rest =>
      unfold split
      split
      · simp
      · split <;> simp

theorem split_append (sep : Char) (a b : List Char) :
    split sep (a ++ sep :: b) = split sep a ++ split sep b := by
  induction a with
  | nil => simp [split]
  | cons c a ih =>
      rw [List.cons_append, split, split, ih]
      split_ifs with hc
      · rfl
      · obtain ⟨piece, pieces, hsplit⟩ := List.exists_cons_of_ne_nil (split_ne_nil sep a)
        rw [hsplit]
        rfl

theorem split_of_not_mem {sep : Char} {s : List Char} (h : sep ∉ s) : split sep s = [s] := by
  induction s with
  | nil => rfl
  | cons c rest ih =>
      rw [List.mem_cons, not_or] at h
      rw [split, if_neg (Ne.symm h.1), ih h.2]

/-- What was joined with separators is split at them. -/
theorem split_joined {sep : Char} {s : List Char} (hs : sep ∉ s) {pieces : List (List Char)}
    (hpieces : ∀ p ∈ pieces, sep ∉ p) :
    split sep (s ++ pieces.flatMap (sep :: ·)) = s :: pieces := by
  induction pieces generalizing s with
  | nil => rw [List.flatMap_nil, List.append_nil, split_of_not_mem hs]
  | cons p pieces ih =>
      rw [List.forall_mem_cons] at hpieces
      rw [List.flatMap_cons, List.cons_append, split_append, split_of_not_mem hs,
        ih hpieces.1 hpieces.2]
      rfl

/-- A text without separators that follows goes to the last piece. -/
theorem split_append_of_not_mem {sep : Char} {t : List Char} (ht : sep ∉ t) (s : List Char) :
    ∃ init last, split sep s = init ++ [last] ∧ split sep (s ++ t) = init ++ [last ++ t] := by
  induction s with
  | nil => exact ⟨[], [], rfl, split_of_not_mem ht⟩
  | cons c s ih =>
      obtain ⟨init, last, hs, hst⟩ := ih
      rw [List.cons_append, split, split, hs, hst]
      split_ifs
      · exact ⟨[] :: init, last, rfl, rfl⟩
      · cases init with
        | nil => exact ⟨[], c :: last, rfl, rfl⟩
        | cons p init => exact ⟨(c :: p) :: init, last, rfl, rfl⟩

/-- What stands before and after the first separator. -/
def splitOnce (sep : Char) : List Char → Option (List Char × List Char)
  | [] => none
  | c :: rest =>
      if c = sep then some ([], rest)
      else (splitOnce sep rest).map fun parts => (c :: parts.1, parts.2)

theorem splitOnce_of_not_mem {sep : Char} {s : List Char} (h : sep ∉ s) :
    splitOnce sep s = none := by
  induction s with
  | nil => rfl
  | cons c s ih =>
      rw [List.mem_cons, not_or] at h
      rw [splitOnce, if_neg (Ne.symm h.1), ih h.2]
      rfl

theorem splitOnce_append {sep : Char} {s : List Char} (h : sep ∉ s) (t : List Char) :
    splitOnce sep (s ++ sep :: t) = some (s, t) := by
  induction s with
  | nil => rw [List.nil_append, splitOnce, if_pos rfl]
  | cons c s ih =>
      rw [List.mem_cons, not_or] at h
      rw [List.cons_append, splitOnce, if_neg (Ne.symm h.1), ih h.2]
      rfl

def stripPrefix (pre s : List Char) : Option (List Char) :=
  if pre.isPrefixOf s then some (s.drop pre.length) else none

/-- A line without the carriage return that ends it. -/
def dropCarriageReturn (line : List Char) : List Char :=
  if line.getLast? = some '\r' then line.dropLast else line

/-- The lines of a text; a final line break opens no further line. -/
def lines (s : List Char) : List (List Char) :=
  let pieces := split '\n' s
  let pieces := if pieces.getLast? = some [] then pieces.dropLast else pieces
  -- only a piece that a line feed ended loses its carriage return
  if s.getLast? = some '\n' then pieces.map dropCarriageReturn
  else pieces.dropLast.map dropCarriageReturn ++ pieces.getLast?.toList

/-- Reading the lines of a text is reading what stands between its line feeds, for
a reader that overlooks a carriage return at the end and reads nothing from an
empty line. -/
theorem mapM_lines {ε β : Type} {f : List Char → Except ε (Option β)}
    (hreturn : ∀ line, f (dropCarriageReturn line) = f line) (hempty : f [] = .ok none)
    (s : List Char) :
    ((lines s).mapM f).map (·.filterMap id) = ((split '\n' s).mapM f).map (·.filterMap id) := by
  have hmap : ∀ ls : List (List Char), (ls.map dropCarriageReturn).mapM f = ls.mapM f := by
    intro ls
    rw [List.mapM_map]
    congr 1
    exact funext hreturn
  have hpieces : ∀ pieces : List (List Char),
      (if s.getLast? = some '\n' then pieces.map dropCarriageReturn
        else pieces.dropLast.map dropCarriageReturn ++ pieces.getLast?.toList).mapM f =
        pieces.mapM f := by
    intro pieces
    split_ifs
    · exact hmap pieces
    · have hwhole : pieces.dropLast ++ pieces.getLast?.toList = pieces := by
        rcases List.eq_nil_or_concat pieces with rfl | ⟨init, last, rfl⟩ <;> simp
      rw [List.mapM_append, hmap, ← List.mapM_append, hwhole]
  unfold lines
  dsimp only
  rw [hpieces]
  split_ifs with hlast
  · -- the last piece is empty
    obtain ⟨init, hinit⟩ : ∃ init, split '\n' s = init ++ [[]] :=
      List.getLast?_eq_some_iff.mp hlast
    rw [hinit, List.dropLast_concat, List.mapM_append]
    cases init.mapM f with
    | error e => rfl
    | ok read =>
        have hone : [([] : List Char)].mapM f = .ok [none] := by
          simp [hempty]
        rw [hone]
        change Except.ok _ = Except.ok ((read ++ [none]).filterMap id)
        simp
  · rfl

/-- Remove the first occurrence of a pattern. -/
def removeFirst (pattern : List Char) : List Char → List Char
  | [] => []
  | c :: rest =>
      if pattern.isPrefixOf (c :: rest) then (c :: rest).drop pattern.length
      else c :: removeFirst pattern rest

theorem removeFirst_append {pattern : List Char} (h : pattern ≠ []) (s : List Char) :
    removeFirst pattern (pattern ++ s) = s := by
  obtain ⟨c, rest, rfl⟩ := List.exists_cons_of_ne_nil h
  have hfirst : (c :: rest).isPrefixOf (c :: (rest ++ s)) = true :=
    List.isPrefixOf_iff_prefix.mpr ⟨s, rfl⟩
  rw [List.cons_append, removeFirst, if_pos hfirst, ← List.cons_append, List.drop_left]

/-- The length of the UTF-8 encoding. -/
def byteLength (s : List Char) : Nat := (s.map Char.utf8Size).sum

/-! ### Marked beginnings -/

/-- Of two texts that one text continues by the same mark and tag, one is the
other or continues it in the same way. -/
theorem tagged_of_tagged {s a tag t : List Char} {mark : Char} (hs : s ++ mark :: tag <+: t)
    (ha : a ++ mark :: tag <+: t) (hmark : mark ∉ tag) (hle : s.length ≤ a.length) :
    s = a ∨ s ++ mark :: tag <+: a := by
  obtain ⟨rest, rfl⟩ : s <+: a := List.prefix_of_prefix_length_le
    ((List.prefix_append ..).trans hs) ((List.prefix_append ..).trans ha) hle
  have hboth : s ++ mark :: tag <+: s ++ (rest ++ mark :: tag) :=
    List.prefix_of_prefix_length_le hs (by simpa using ha) (by simp)
  rw [List.prefix_append_right_inj] at hboth
  cases rest with
  | nil => exact .inl (List.append_nil s).symm
  | cons c rest =>
      rw [List.cons_append, List.cons_prefix_cons] at hboth
      obtain ⟨rfl, htag⟩ := hboth
      right
      rw [List.prefix_append_right_inj, List.cons_prefix_cons]
      refine ⟨rfl, List.prefix_of_prefix_length_le htag (List.prefix_append ..) ?_⟩
      -- a tag that reached beyond the rest would have the mark in it
      by_contra hlong
      have hfirst : rest ++ [mark] <+: rest ++ mark :: tag := ⟨tag, by simp⟩
      have hmarked : rest ++ [mark] <+: tag := by
        refine List.prefix_of_prefix_length_le hfirst htag ?_
        rw [List.length_append, List.length_singleton]
        omega
      exact hmark (hmarked.subset (by simp))

end RoomGateway.Text
