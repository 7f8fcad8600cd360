import Mathlib.Data.List.Chain
import Mathlib.Data.Prod.Lex
import Mathlib.Data.String.Basic
import RoomGateway.Lib.Sort
import RoomGateway.Model.RoomContract
import RoomGateway.Spec.Mentions
import RoomGateway.Spec.Record

/-!
The tokens under which participants are mentioned. The assignment is found
again from two parts: the participants that are called by their names, and the
others, in the order of name and id, each served with a token that is still
free. Both parts are the same for every order of the participants, so the
token of a participant is too.
-/

namespace RoomGateway

variable {env : Env} {p : RoomParticipant} {t : String}

/-! ### Token texts -/

def tokenChar (c : Char) : Bool := c.isLower || c.isDigit

/-- What a token is between its hyphens. -/
def tokenPart (part : List Char) : Bool := !part.isEmpty && part.all tokenChar

theorem isTokenText_eq (text : String) :
    isTokenText text = (Text.split '-' text.toList).all tokenPart := rfl

theorem not_tokenChar_dash : tokenChar '-' = false := by decide

theorem dash_not_mem {part : List Char} (h : part.all tokenChar = true) : '-' ∉ part := by
  intro hmem
  exact absurd (List.all_eq_true.mp h _ hmem) (by simp [not_tokenChar_dash])

theorem isTokenText_part {part : List Char} (h : tokenPart part = true) :
    isTokenText (String.ofList part) = true := by
  have hall : part.all tokenChar = true := (Bool.and_eq_true_iff.mp h).2
  rw [isTokenText_eq, String.toList_ofList, Text.split_of_not_mem (dash_not_mem hall)]
  simpa using h

theorem isTokenText_append {a b : String} (ha : isTokenText a = true) (hb : isTokenText b = true) :
    isTokenText (a ++ "-" ++ b) = true := by
  rw [isTokenText_eq] at *
  have hchars : (a ++ "-" ++ b).toList = a.toList ++ '-' :: b.toList := by simp
  rw [hchars, Text.split_append, List.all_append, ha, hb]
  rfl

theorem isTokenText_number (n : Nat) : isTokenText (toString n) = true := by
  have hdigits : (toString n) = String.ofList (Nat.toDigits 10 n) := rfl
  rw [hdigits]
  refine isTokenText_part (Bool.and_eq_true_iff.mpr ⟨?_, ?_⟩)
  · simp [Nat.toDigits_ne_nil]
  · rw [List.all_eq_true]
    intro c hc
    simp [tokenChar, Nat.isDigit_of_mem_toDigits (by decide) (by decide) hc]

/-! ### Names -/

/-- What the conversion of characters to lower case is known to do. -/
structure Env.Lowercases (env : Env) : Prop where
  fixed : ∀ c, tokenChar c = true → env.toLowercase c = [c]
  lower : ∀ c, ∀ d ∈ env.toLowercase c, d.isUpper = false

/-- The text of a slug in the making: token characters, and hyphens that do not
follow one another. -/
structure Tidy (s : List Char) : Prop where
  chars : ∀ c ∈ s, tokenChar c = true ∨ c = '-'
  single : s.IsChain fun a b => a = '-' → b ≠ '-'

theorem Tidy.pushSlug {s : List Char} (h : Tidy s) {c : Char} (hc : c.isUpper = false) :
    Tidy (pushSlug s c) := by
  unfold RoomGateway.pushSlug
  split_ifs with halnum hlast
  · have hchar : tokenChar c = true := by
      simpa [isAsciiAlphanumeric, Text.isAlphanum_eq, hc, tokenChar] using halnum
    refine ⟨fun d hd => ?_, List.isChain_append.mpr ⟨h.single, .singleton c, ?_⟩⟩
    · rcases List.mem_append.mp hd with hd | hd
      · exact h.chars d hd
      · exact .inl (List.mem_singleton.mp hd ▸ hchar)
    · rintro a - b hb - rfl
      obtain rfl : c = '-' := by simpa using hb
      exact absurd hchar (by decide)
  · refine ⟨fun d hd => ?_, List.isChain_append.mpr ⟨h.single, .singleton '-', ?_⟩⟩
    · rcases List.mem_append.mp hd with hd | hd
      · exact h.chars d hd
      · exact .inr (List.mem_singleton.mp hd)
    · rintro a ha b - rfl
      exact absurd ha hlast
  · exact h

theorem Tidy.sub {s t : List Char} (h : Tidy s) (hsub : t <:+: s) : Tidy t :=
  ⟨fun c hc => h.chars c (hsub.subset hc), List.IsChain.infix h.single hsub⟩

theorem trimDashes_sub (s : List Char) : trimDashes s <:+: s := by
  have hfront : s.dropWhile (· = '-') <:+ s := List.dropWhile_suffix _
  have hback : ((s.dropWhile (· = '-')).reverse.dropWhile (· = '-')).reverse <+:
      s.dropWhile (· = '-') := by
    rw [← List.reverse_suffix, List.reverse_reverse]
    exact List.dropWhile_suffix _
  exact hback.isInfix.trans hfront.isInfix

theorem head?_dropWhile_dash (s : List Char) : (s.dropWhile (· = '-')).head? ≠ some '-' := by
  intro h
  have := List.head?_dropWhile_not (fun c => decide (c = '-')) s
  rw [h] at this
  simp at this

theorem getLast?_trimDashes (s : List Char) : (trimDashes s).getLast? ≠ some '-' := by
  unfold trimDashes
  rw [List.getLast?_reverse]
  exact head?_dropWhile_dash _

theorem head?_trimDashes (s : List Char) : (trimDashes s).head? ≠ some '-' := by
  intro h
  obtain ⟨rest, hrest⟩ : trimDashes s <+: s.dropWhile (· = '-') := by
    rw [trimDashes, ← List.reverse_suffix, List.reverse_reverse]
    exact List.dropWhile_suffix _
  refine head?_dropWhile_dash s ?_
  rw [← hrest, List.head?_append, h]
  rfl

/-- A tidy text with no hyphen at either end is a token. -/
theorem Tidy.tokenParts : ∀ {s : List Char}, Tidy s → s ≠ [] → s.head? ≠ some '-' →
    s.getLast? ≠ some '-' → (Text.split '-' s).all tokenPart = true
  | [], _, hne, _, _ => absurd rfl hne
  | [c], h, _, hhead, _ => by
      have hc : tokenChar c = true := (h.chars c List.mem_cons_self).resolve_right
        (by simpa using hhead)
      have hdash : '-' ∉ [c] := dash_not_mem (by simpa using hc)
      rw [Text.split_of_not_mem hdash]
      simpa [tokenPart] using hc
  | c :: d :: rest, h, _, hhead, hlast => by
      have hc : tokenChar c = true := (h.chars c List.mem_cons_self).resolve_right
        (by simpa using hhead)
      have hcd : c ≠ '-' := by simpa using hhead
      by_cases hd : d = '-'
      · subst hd
        obtain ⟨e, rest, rfl⟩ : ∃ e rest', rest = e :: rest' := by
          refine List.exists_cons_of_ne_nil ?_
          rintro rfl
          exact hlast rfl
        have htidy : Tidy (e :: rest) := h.sub ⟨[c, '-'], [], by simp⟩
        have hnext : e ≠ '-' :=
          (List.isChain_cons_cons.mp (List.isChain_cons_cons.mp h.single).2).1 rfl
        have ih := htidy.tokenParts (by simp) (by simpa using hnext) (by simpa using hlast)
        have hsplit : Text.split '-' (c :: '-' :: e :: rest) =
            [c] :: Text.split '-' (e :: rest) := by
          rw [Text.split, if_neg hcd, Text.split, if_pos rfl]
        rw [hsplit, List.all_cons, ih]
        simpa [tokenPart] using hc
      · have htidy : Tidy (d :: rest) := h.sub ⟨[c], [], by simp⟩
        have ih := htidy.tokenParts (by simp) (by simpa using hd) (by simpa using hlast)
        obtain ⟨piece, pieces, hpieces⟩ :=
          List.exists_cons_of_ne_nil (Text.split_ne_nil '-' (d :: rest))
        rw [Text.split, if_neg hcd, hpieces]
        rw [hpieces, List.all_cons, Bool.and_eq_true] at ih
        simp only [List.all_cons, Bool.and_eq_true]
        refine ⟨?_, ih.2⟩
        have hpiece := ih.1
        simp only [tokenPart, Bool.and_eq_true] at hpiece ⊢
        simpa [hc] using hpiece.2

theorem Tidy.foldl_pushSlug {s characters : List Char} (h : Tidy s)
    (hlower : ∀ c ∈ characters, c.isUpper = false) :
    Tidy (characters.foldl RoomGateway.pushSlug s) := by
  induction characters generalizing s with
  | nil => exact h
  | cons c characters ih =>
      rw [List.forall_mem_cons] at hlower
      exact ih (h.pushSlug hlower.1) hlower.2

theorem isTokenText_name (hlower : env.Lowercases) (displayName : String) :
    isTokenText (normalizedParticipantName env displayName) = true := by
  unfold normalizedParticipantName
  dsimp only
  split_ifs with hempty
  · decide
  · have htidy : Tidy ((((env.nfkd displayName).filter (!isCombiningMark ·)).flatMap
        env.toLowercase).foldl pushSlug []) := by
      refine Tidy.foldl_pushSlug ⟨by simp, .nil⟩ fun c hc => ?_
      obtain ⟨d, -, hd⟩ := List.mem_flatMap.mp hc
      exact hlower.lower d c hd
    rw [isTokenText_eq, String.toList_ofList]
    exact (htidy.sub (trimDashes_sub _)).tokenParts (by simpa using hempty) (head?_trimDashes _)
      (getLast?_trimDashes _)

theorem participantIdToken_eq (hlower : env.Lowercases) (id : Uuid) :
    participantIdToken env id = String.ofList (Uuid.hexDigits 32 id.val) := by
  have hdigits : id.text.toList.filter isAsciiAlphanumeric = Uuid.hexDigits 32 id.val := by
    refine Uuid.filter_text (by decide) (fun c hc => ?_) id
    rcases Bool.or_eq_true_iff.mp hc with hc | hc <;>
      simp [isAsciiAlphanumeric, Text.isAlphanum_eq, hc]
  have hsame : (Uuid.hexDigits 32 id.val).flatMap env.toLowercase = Uuid.hexDigits 32 id.val := by
    have hsingle : (Uuid.hexDigits 32 id.val).flatMap env.toLowercase =
        (Uuid.hexDigits 32 id.val).flatMap fun c => [c] := by
      refine List.flatMap_congr fun c hc => hlower.fixed c (Uuid.hexDigits_lower hc)
    rw [hsingle, List.flatMap_singleton']
  have hne : (Uuid.hexDigits 32 id.val).isEmpty = false := by
    rw [List.isEmpty_eq_false_iff_exists_mem]
    refine List.exists_mem_of_length_pos ?_
    simp
  unfold participantIdToken
  dsimp only
  rw [hdigits, hsame, hne]
  rfl

/-! ### Free tokens -/

/-- The search for a length ends by its own condition, not for lack of fuel. -/
theorem growLength_stops {free : Nat → Bool} {most fuel length : Nat} (h : most ≤ length + fuel)
    (hlt : growLength free most fuel length < most) :
    free (growLength free most fuel length) = true := by
  induction fuel generalizing length with
  | zero =>
      rw [growLength] at hlt
      omega
  | succ fuel ih =>
      unfold growLength at hlt ⊢
      split_ifs at hlt ⊢ with hgrow
      · exact ih (by omega) hlt
      · simp only [Bool.and_eq_true, decide_eq_true_eq, Bool.not_eq_true', not_and] at hgrow
        simpa using hgrow hlt

theorem le_growLength (free : Nat → Bool) (most fuel length : Nat) :
    length ≤ growLength free most fuel length := by
  induction fuel generalizing length with
  | zero => exact Nat.le_refl _
  | succ fuel ih =>
      unfold growLength
      split_ifs
      · exact Nat.le_of_succ_le (ih (length + 1))
      · exact Nat.le_refl _

def numbered (base : String) (number : Nat) : String := base ++ "-" ++ toString number

theorem numbered_injective (base : String) : Function.Injective (numbered base) := by
  intro a b h
  have htext : toString a = toString b := by
    simpa [numbered, ← String.toList_inj] using h
  have hdigits : Nat.toDigits 10 a = Nat.toDigits 10 b := String.ofList_inj.mp htext
  have hvalue := congrArg (Nat.ofDigitChars 10 · 0) hdigits
  simpa [Nat.ofDigitChars_toDigits] using hvalue

theorem numberedToken_shape (occupied : List String) (base : String) (fuel number : Nat) :
    ∃ n, numberedToken occupied base fuel number = numbered base n := by
  induction fuel generalizing number with
  | zero => exact ⟨number, rfl⟩
  | succ fuel ih =>
      unfold numberedToken
      dsimp only
      split_ifs
      · exact ih (number + 1)
      · exact ⟨number, rfl⟩

theorem numberedToken_free_of {occupied : List String} {base : String} {fuel number : Nat}
    (h : ∃ i ≤ fuel, numbered base (number + i) ∉ occupied) :
    numberedToken occupied base fuel number ∉ occupied := by
  induction fuel generalizing number with
  | zero =>
      obtain ⟨i, hi, hfree⟩ := h
      obtain rfl : i = 0 := Nat.le_zero.mp hi
      exact hfree
  | succ fuel ih =>
      unfold numberedToken
      dsimp only
      split_ifs with htaken
      · refine ih ?_
        obtain ⟨i, hi, hfree⟩ := h
        cases i with
        | zero => exact absurd (List.contains_iff_mem.mp htaken) hfree
        | succ i => exact ⟨i, Nat.le_of_succ_le_succ hi, by rwa [Nat.add_right_comm, Nat.add_assoc]⟩
      · simpa using htaken

/-- The numbers do not run out before a free one is found. -/
theorem numberedToken_free (occupied : List String) (base : String) (number : Nat) :
    numberedToken occupied base occupied.length number ∉ occupied := by
  have hinjective : Function.Injective fun i : Fin (occupied.length + 1) =>
      numbered base (number + i) := by
    intro a b h
    exact Fin.ext (Nat.add_left_cancel (numbered_injective base h))
  have hmore : occupied.length < Fintype.card (Fin (occupied.length + 1)) := by simp
  obtain ⟨i, hi⟩ := Fresh.exists_not_mem hinjective hmore
  exact numberedToken_free_of ⟨i, Nat.le_of_lt_succ i.2, hi⟩

/-- The token has a suffix of the id, or all of the id and a number. -/
theorem disambiguatedToken_shape (occupied : List String) (length : Nat) (d : Disambiguated) :
    (∃ n, min length d.idToken.length ≤ n ∧
      disambiguatedToken occupied length d = suffixed d.name d.idToken n) ∨
    ∃ n, disambiguatedToken occupied length d = numbered (d.name ++ "-" ++ d.idToken) n := by
  unfold disambiguatedToken
  dsimp only
  split_ifs
  · exact .inr (numberedToken_shape ..)
  · exact .inl ⟨_, le_growLength _ _ _ _, rfl⟩

theorem disambiguatedToken_free (occupied : List String) (length : Nat) (d : Disambiguated) :
    disambiguatedToken occupied length d ∉ occupied := by
  unfold disambiguatedToken
  dsimp only
  split_ifs with htaken
  · exact numberedToken_free _ _ _
  · simpa using htaken

theorem numberedToken_congr {occupied occupied' : List String}
    (h : ∀ t, t ∈ occupied ↔ t ∈ occupied') (base : String) (fuel number : Nat) :
    numberedToken occupied base fuel number = numberedToken occupied' base fuel number := by
  have hcontains : ∀ t, occupied.contains t = occupied'.contains t := by
    intro t
    rw [Bool.eq_iff_iff, List.contains_iff_mem, List.contains_iff_mem, h]
  induction fuel generalizing number with
  | zero => rfl
  | succ fuel ih => rw [numberedToken, numberedToken, hcontains, ih]

theorem disambiguatedToken_congr {occupied occupied' : List String}
    (h : Fresh.SameTaken occupied occupied') (length : Nat) (d : Disambiguated) :
    disambiguatedToken occupied length d = disambiguatedToken occupied' length d := by
  have hcontains : ∀ t, occupied.contains t = occupied'.contains t := by
    intro t
    rw [Bool.eq_iff_iff, List.contains_iff_mem, List.contains_iff_mem, h.2]
  unfold disambiguatedToken
  simp only [hcontains, h.1, numberedToken_congr h.2]

theorem suffixLength_congr {occupied occupied' : List String}
    (h : ∀ t, t ∈ occupied ↔ t ∈ occupied') (group : List Disambiguated) :
    suffixLength occupied group = suffixLength occupied' group := by
  have hcontains : ∀ t, occupied.contains t = occupied'.contains t := by
    intro t
    rw [Bool.eq_iff_iff, List.contains_iff_mem, List.contains_iff_mem, h]
  have hfree : suffixesFree occupied group = suffixesFree occupied' group := by
    funext length
    simp only [suffixesFree, hcontains]
  unfold suffixLength
  rw [hfree]

theorem assigned_eq (lengthOf : String → Nat) (ds : List Disambiguated) (occupied : List String)
    (assigned : List (Nat × String)) :
    (ds.foldl (assignToken lengthOf) (occupied, assigned)).2 =
      ((ds.map (·.index)).zip (Fresh.assign
        (fun taken d => disambiguatedToken taken (lengthOf d.name) d) occupied ds)).reverse ++
        assigned := by
  induction ds generalizing occupied assigned with
  | nil => rfl
  | cons d ds ih =>
      rw [List.foldl_cons, assignToken, ih]
      simp [Fresh.assign]

/-! ### The assignment -/

section Assignment

variable (env) (ps : List RoomParticipant)

def slugOf (p : RoomParticipant) : String := normalizedParticipantName env p.displayName

/-- Whether a participant's name alone does not tell it apart. -/
def needsSuffix (p : RoomParticipant) : Bool :=
  !pinnedCodex p && (slugOf env p = "codex-agent" || mentionAliases.contains (slugOf env p) ||
    (ps.map (slugOf env)).count (slugOf env p) > 1)

/-- The tokens that are taken before any suffix is chosen. -/
def reservedTokens : List String :=
  (ps.filter (!needsSuffix env ps ·)).map (slugOf env) ++ "codex-agent" :: mentionAliases

def plainToken (p : RoomParticipant) : String :=
  if pinnedCodex p then "codex-agent" else slugOf env p

/-- A participant that needs a suffix, at a place of the list. -/
def disambiguatedAt (p : RoomParticipant) (index : Nat) : Disambiguated :=
  ⟨index, slugOf env p, participantIdToken env p.id⟩

/-- Participants that need a suffix are served in this order. -/
def servedKey (p : RoomParticipant) : String ×ₗ String :=
  toLex (slugOf env p, participantIdToken env p.id)

def servedInOrder : List RoomParticipant := sortOn (servedKey env) (ps.filter (needsSuffix env ps))

/-- The length at which suffixes tell the participants of one name apart. -/
def suffixLengthOf (name : String) : Nat :=
  suffixLength (reservedTokens env ps)
    (((servedInOrder env ps).map (disambiguatedAt env · 0)).filter (·.name = name))

def suffixToken (taken : List String) (p : RoomParticipant) : String :=
  disambiguatedToken taken (suffixLengthOf env ps (slugOf env p)) (disambiguatedAt env p 0)

def suffixTokens : List String :=
  Fresh.assign (suffixToken env ps) (reservedTokens env ps) (servedInOrder env ps)

/-- The assignment: who is served with a suffix, and who is called by name. -/
def tokenPairs : List (RoomParticipant × String) :=
  (servedInOrder env ps).zip (suffixTokens env ps) ++
    (ps.filter (!needsSuffix env ps ·)).map fun p => (p, plainToken env p)

end Assignment

theorem disambiguatedAt_name (p : RoomParticipant) (index : Nat) :
    (disambiguatedAt env p index).name = slugOf env p := by
  rw [disambiguatedAt]

theorem disambiguatedAt_idToken (p : RoomParticipant) (index : Nat) :
    (disambiguatedAt env p index).idToken = participantIdToken env p.id := by
  rw [disambiguatedAt]

/-- No two of the participants have the same place in the order. -/
theorem servedKey_injective (hlower : env.Lowercases) {p q : RoomParticipant}
    (h : servedKey env p = servedKey env q) : p.id = q.id := by
  simp only [servedKey, EmbeddingLike.apply_eq_iff_eq, Prod.mk.injEq] at h
  have htokens := h.2
  rw [participantIdToken_eq hlower, participantIdToken_eq hlower, String.ofList_inj] at htokens
  exact Uuid.hexDigits_injective htokens

section

variable {ps qs : List RoomParticipant}

theorem needsSuffix_perm (h : ps.Perm qs) : needsSuffix env ps = needsSuffix env qs := by
  funext p
  simp only [needsSuffix, (h.map (slugOf env)).count_eq]

theorem reservedTokens_perm (h : ps.Perm qs) :
    (reservedTokens env ps).Perm (reservedTokens env qs) := by
  unfold reservedTokens
  rw [needsSuffix_perm h]
  exact ((h.filter _).map _).append_right _

theorem servedInOrder_perm (hlower : env.Lowercases) (hdistinct : (ps.map (·.id)).Nodup)
    (h : ps.Perm qs) : servedInOrder env ps = servedInOrder env qs := by
  have hkeys : ((qs.filter (needsSuffix env qs)).map (servedKey env)).Nodup := by
    have hids : ((qs.filter (needsSuffix env qs)).map (·.id)).Nodup :=
      ((h.map (·.id)).nodup_iff.mp hdistinct).sublist (List.filter_sublist.map _)
    refine List.pairwise_map.mpr ((List.pairwise_map.mp hids).imp fun hne heq => ?_)
    exact hne (servedKey_injective hlower heq)
  refine (ascending_sortOn hkeys).sortOn_eq ?_
  rw [needsSuffix_perm h]
  exact (h.filter _).trans (sortOn_perm _ _).symm

/-- The assignment is the same for every order of the participants. -/
theorem tokenPairs_perm (hlower : env.Lowercases) (hdistinct : (ps.map (·.id)).Nodup)
    (h : ps.Perm qs) : (tokenPairs env ps).Perm (tokenPairs env qs) := by
  have hreserved : (reservedTokens env ps).Perm (reservedTokens env qs) := reservedTokens_perm h
  have hserved := servedInOrder_perm hlower hdistinct h
  have hlength : suffixLengthOf env ps = suffixLengthOf env qs := by
    funext name
    unfold suffixLengthOf
    rw [hserved, suffixLength_congr fun _ => hreserved.mem_iff]
  have hchosen : suffixTokens env ps = suffixTokens env qs := by
    rw [suffixTokens, suffixTokens, hserved]
    refine Fresh.assign_congr (fun taken taken' p _ hsame => ?_) (.of_perm hreserved)
    unfold suffixToken
    rw [hlength, disambiguatedToken_congr hsame]
  unfold tokenPairs
  rw [hchosen, hserved, needsSuffix_perm h]
  exact ((h.filter _).map _).append_left _

/-! The places of the participants in the list, which the source keeps. -/

/-- The participants that need a suffix with their places, in the order in which
they are served. -/
def servedAt (env : Env) (ps : List RoomParticipant) : List (RoomParticipant × Nat) :=
  (ps.zipIdx.filter (needsSuffix env ps ·.1)).insertionSort fun a b =>
    (disambiguatedAt env a.1 a.2).before (disambiguatedAt env b.1 b.2)

theorem participantMentionTokens_eq (env : Env) (ps : List RoomParticipant) :
    participantMentionTokens env ps = (List.range ps.length).map fun i =>
      (((((servedAt env ps).map fun y => disambiguatedAt env y.1 y.2).foldl
        (assignToken fun name => suffixLength (reservedTokens env ps)
          (((servedAt env ps).map fun y => disambiguatedAt env y.1 y.2).filter (·.name = name)))
        (reservedTokens env ps, (ps.zipIdx.filter (!needsSuffix env ps ·.1)).map fun y =>
          (y.2, plainToken env y.1))).2.lookup i).getD "participant") := by
  have hnamed : ps.zip (ps.map fun p => normalizedParticipantName env p.displayName) =
      ps.map fun p => (p, slugOf env p) := List.map_prod_left_eq_zip.symm
  have hserved : ((ps.zipIdx.filter (needsSuffix env ps ·.1)).map fun y =>
      disambiguatedAt env y.1 y.2).insertionSort (fun a b => a.before b) =
        (servedAt env ps).map fun y => disambiguatedAt env y.1 y.2 := by
    refine (List.map_insertionSort (fun a b : RoomParticipant × Nat =>
      (disambiguatedAt env a.1 a.2).before (disambiguatedAt env b.1 b.2) = true) _ _ _ ?_).symm
    exact fun a _ b _ => Iff.rfl
  rw [← hserved]
  unfold participantMentionTokens
  simp only [hnamed, List.zipIdx_map, List.filter_map, List.map_map]
  rfl

theorem before_iff (hlower : env.Lowercases) (hdistinct : (ps.map (·.id)).Nodup)
    {a b : RoomParticipant × Nat} (ha : a ∈ ps.zipIdx) (hb : b ∈ ps.zipIdx) :
    (disambiguatedAt env a.1 a.2).before (disambiguatedAt env b.1 b.2) = true ↔
      servedKey env a.1 ≤ servedKey env b.1 := by
  have hsame : servedKey env a.1 = servedKey env b.1 → a.2 = b.2 := by
    intro hkey
    have hid : a.1.id = b.1.id := servedKey_injective hlower hkey
    obtain ⟨ha', haeq⟩ := List.mem_zipIdx' ha
    obtain ⟨hb', hbeq⟩ := List.mem_zipIdx' hb
    have hplacea : a.2 < (ps.map (·.id)).length := by simpa using ha'
    have hplaceb : b.2 < (ps.map (·.id)).length := by simpa using hb'
    have hget : (ps.map (·.id))[a.2] = (ps.map (·.id))[b.2] := by
      simpa [← haeq, ← hbeq] using hid
    exact hdistinct.getElem_inj_iff.mp hget
  simp only [servedKey, EmbeddingLike.apply_eq_iff_eq, Prod.mk.injEq] at hsame
  simp only [Disambiguated.before, Bool.or_eq_true, Bool.and_eq_true, decide_eq_true_eq]
  simp only [disambiguatedAt, servedKey, Prod.Lex.toLex_le_toLex]
  refine or_congr_right (and_congr_right fun hname => ?_)
  rw [le_iff_lt_or_eq (a := participantIdToken env a.1.id)]
  refine or_congr_right ?_
  constructor
  · exact fun h => h.1
  · exact fun h => ⟨h, (hsame ⟨hname, h⟩).le⟩

theorem filter_zipIdx_fst (keep : RoomParticipant → Bool) :
    (ps.zipIdx.filter (keep ·.1)).map Prod.fst = ps.filter keep := by
  have hfst := List.filter_map (f := Prod.fst) (p := keep) (l := ps.zipIdx)
  rw [List.zipIdx_map_fst] at hfst
  exact hfst.symm

theorem servedAt_fst (hlower : env.Lowercases) (hdistinct : (ps.map (·.id)).Nodup) :
    (servedAt env ps).map Prod.fst = servedInOrder env ps := by
  have hmap := List.map_insertionSort (fun a b : RoomParticipant × Nat =>
    (disambiguatedAt env a.1 a.2).before (disambiguatedAt env b.1 b.2) = true)
    (fun a b => servedKey env a ≤ servedKey env b) Prod.fst
    (ps.zipIdx.filter (needsSuffix env ps ·.1)) fun a ha b hb =>
      before_iff hlower hdistinct (List.mem_of_mem_filter ha) (List.mem_of_mem_filter hb)
  rw [servedAt, hmap, filter_zipIdx_fst]
  rfl

/-- The places of the participants do not matter to the length. -/
theorem suffixLength_places (occupied : List String) (served : List (RoomParticipant × Nat))
    (name : String) :
    suffixLength occupied
        ((served.map fun y => disambiguatedAt env y.1 y.2).filter (·.name = name)) =
      suffixLength occupied
        (((served.map Prod.fst).map (disambiguatedAt env · 0)).filter (·.name = name)) := by
  have hfree : ∀ group : List (RoomParticipant × Nat),
      suffixesFree occupied (group.map fun y => disambiguatedAt env y.1 y.2) =
        suffixesFree occupied (group.map fun y => disambiguatedAt env y.1 0) := by
    intro group
    funext length
    simp only [suffixesFree, List.map_map, List.all_map]
    rfl
  simp only [List.map_map, List.filter_map, suffixLength, hfree]
  rfl

theorem assigned_places (hlower : env.Lowercases) (hdistinct : (ps.map (·.id)).Nodup) :
    Fresh.assign (fun taken d => disambiguatedToken taken (suffixLength (reservedTokens env ps)
        (((servedAt env ps).map fun y => disambiguatedAt env y.1 y.2).filter (·.name = d.name))) d)
        (reservedTokens env ps) ((servedAt env ps).map fun y => disambiguatedAt env y.1 y.2) =
      suffixTokens env ps := by
  rw [suffixTokens, ← servedAt_fst hlower hdistinct, Fresh.assign_map, Fresh.assign_map]
  refine Fresh.assign_congr (fun taken taken' y _ hsame => ?_) (.of_perm (.refl _))
  rw [suffixLength_places, servedAt_fst hlower hdistinct, disambiguatedToken_congr hsame]
  rfl

/-- The tokens that the source computes are the assignment. -/
theorem participantMentionTokens_perm (hlower : env.Lowercases)
    (hdistinct : (ps.map (·.id)).Nodup) :
    (ps.zip (participantMentionTokens env ps)).Perm (tokenPairs env ps) := by
  -- the pairs of the assignment, with the places that the source looks up
  let pairs : List ((RoomParticipant × Nat) × String) :=
    ((servedAt env ps).zip (suffixTokens env ps)).reverse ++
      (ps.zipIdx.filter (!needsSuffix env ps ·.1)).map fun y => (y, plainToken env y.1)
  have hlength : (servedAt env ps).length = (suffixTokens env ps).length := by
    rw [suffixTokens, Fresh.length_assign, ← servedAt_fst hlower hdistinct, List.length_map]
  have hfst : (pairs.map Prod.fst).Perm ps.zipIdx := by
    have hserved : (((servedAt env ps).zip (suffixTokens env ps)).reverse.map Prod.fst).Perm
        (ps.zipIdx.filter (needsSuffix env ps ·.1)) := by
      rw [List.map_reverse, List.map_fst_zip hlength.le]
      exact (List.reverse_perm _).trans (List.perm_insertionSort _ _)
    rw [List.map_append, List.map_map]
    refine (hserved.append (List.Perm.of_eq (List.map_id _))).trans ?_
    exact List.filter_append_perm _ _
  have hplaces : (ps.zipIdx.map Prod.snd).Nodup := by
    rw [List.zipIdx_map_snd]
    exact List.nodup_range'
  have hlookup := Fresh.lookup_perm "participant" hfst hplaces
  have hassigned : (((servedAt env ps).map fun y => disambiguatedAt env y.1 y.2).map (·.index)).zip
      (suffixTokens env ps) = ((servedAt env ps).zip (suffixTokens env ps)).map fun m =>
        (m.1.2, m.2) := by
    rw [List.map_map, List.zip_map_left]
    rfl
  have hzip : ps.zip (participantMentionTokens env ps) = ps.zipIdx.map fun y =>
      (y.1, ((pairs.map fun m => (m.1.2, m.2)).lookup y.2).getD "participant") := by
    rw [participantMentionTokens_eq, assigned_eq, assigned_places hlower hdistinct, hassigned,
      List.zip_map_right, List.range_eq_range', ← List.zipIdx_eq_zip_range', List.map_append,
      List.map_reverse, List.map_map]
    rfl
  have hpairs : (pairs.map fun m => (m.1.1, m.2)).Perm (tokenPairs env ps) := by
    have hserved : ((servedAt env ps).zip (suffixTokens env ps)).map (fun m => (m.1.1, m.2)) =
        (servedInOrder env ps).zip (suffixTokens env ps) := by
      rw [← servedAt_fst hlower hdistinct, List.zip_map_left]
      rfl
    rw [List.map_append, List.map_reverse, hserved, List.map_map, tokenPairs,
      ← filter_zipIdx_fst (!needsSuffix env ps ·), List.map_map]
    exact (List.reverse_perm _).append_right _
  rw [hzip]
  refine List.Perm.trans ?_ hpairs
  have hfinal := hlookup.map fun m => (m.1.1, m.2)
  rwa [List.map_map] at hfinal

/-! ### What the tokens are -/

theorem needsSuffix_of_same {p q : RoomParticipant} (hp : p ∈ ps) (hq : q ∈ ps) (hne : p ≠ q)
    (hsame : slugOf env p = slugOf env q) (hpinned : pinnedCodex p = false) :
    needsSuffix env ps p = true := by
  have hcount : 1 < (ps.map (slugOf env)).count (slugOf env p) := by
    rw [List.count_eq_length_filter, List.filter_map, List.length_map]
    have hmem : ∀ r ∈ ps, slugOf env r = slugOf env p →
        r ∈ ps.filter ((· == slugOf env p) ∘ slugOf env) := by
      intro r hr hslug
      exact List.mem_filter.mpr ⟨hr, by simp [hslug]⟩
    have hp' := hmem p hp rfl
    have hq' := hmem q hq hsame.symm
    revert hp' hq'
    cases ps.filter ((· == slugOf env p) ∘ slugOf env) with
    | nil =>
        intro hp'
        cases hp'
    | cons r rest =>
        cases rest with
        | nil =>
            intro hp' hq'
            exact absurd ((List.mem_singleton.mp hp').trans (List.mem_singleton.mp hq').symm) hne
        | cons r' rest => simp
  simp [needsSuffix, hpinned, hcount]

theorem plainToken_mem (hp : p ∈ ps) (hplain : needsSuffix env ps p = false) :
    plainToken env p ∈ reservedTokens env ps := by
  unfold plainToken reservedTokens
  split_ifs
  · simp
  · refine List.mem_append_left _ (List.mem_map_of_mem (List.mem_filter.mpr ⟨hp, ?_⟩))
    simp [hplain]

theorem plainToken_injective (hdistinct : (ps.map (·.id)).Nodup) {p q : RoomParticipant}
    (hp : p ∈ ps.filter (!needsSuffix env ps ·)) (hq : q ∈ ps.filter (!needsSuffix env ps ·))
    (hsame : plainToken env p = plainToken env q) : p = q := by
  obtain ⟨hp, hplainp⟩ := List.mem_filter.mp hp
  obtain ⟨hq, hplainq⟩ := List.mem_filter.mp hq
  rw [Bool.not_eq_true'] at hplainp hplainq
  have hcodex : ∀ {r}, needsSuffix env ps r = false → pinnedCodex r = false →
      slugOf env r ≠ "codex-agent" := by
    intro r hplain hpinned hslug
    simp [needsSuffix, hpinned, hslug] at hplain
  unfold plainToken at hsame
  by_contra hne
  split_ifs at hsame with hpinp hpinq hpinq
  · -- the pinned agent is one participant
    simp only [pinnedCodex, Bool.and_eq_true, decide_eq_true_eq] at hpinp hpinq
    exact hne (List.inj_on_of_nodup_map hdistinct hp hq (hpinp.1.trans hpinq.1.symm))
  · exact hcodex hplainq (by simpa using hpinq) hsame.symm
  · exact hcodex hplainp (by simpa using hpinp) hsame
  · rw [needsSuffix_of_same hp hq hne hsame (by simpa using hpinp)] at hplainp
    cases hplainp

theorem suffixTokens_fresh :
    (suffixTokens env ps).Nodup ∧ ∀ t ∈ reservedTokens env ps, t ∉ suffixTokens env ps :=
  Fresh.assign_fresh fun taken _ => disambiguatedToken_free taken _ _

/-- The token is one with a suffix, or the participant's own name. -/
theorem mem_tokenPairs (h : (p, t) ∈ tokenPairs env ps) :
    (p ∈ servedInOrder env ps ∧ t ∈ suffixTokens env ps ∧ ∃ taken, t = suffixToken env ps taken p) ∨
      p ∈ ps ∧ needsSuffix env ps p = false ∧ t = plainToken env p := by
  rcases List.mem_append.mp h with h | h
  · exact .inl ⟨(List.of_mem_zip h).1, (List.of_mem_zip h).2, Fresh.mem_zip_assign h⟩
  · obtain ⟨q, hq, heq⟩ := List.mem_map.mp h
    cases heq
    obtain ⟨hmem, hplain⟩ := List.mem_filter.mp hq
    exact .inr ⟨hmem, by simpa using hplain, rfl⟩

theorem tokenPairs_distinct (hdistinct : (ps.map (·.id)).Nodup) :
    ((tokenPairs env ps).map Prod.snd).Nodup := by
  have hplain : ((ps.filter (!needsSuffix env ps ·)).map (plainToken env)).Nodup :=
    List.Nodup.map_on (fun p hp q hq => plainToken_injective hdistinct hp hq)
      ((List.Nodup.of_map _ hdistinct).filter _)
  have hzip : ((servedInOrder env ps).zip (suffixTokens env ps)).map Prod.snd =
      suffixTokens env ps := List.map_snd_zip (by rw [suffixTokens, Fresh.length_assign])
  rw [tokenPairs, List.map_append, hzip, List.map_map, List.nodup_append']
  refine ⟨suffixTokens_fresh.1, hplain, fun t ht hmem => ?_⟩
  obtain ⟨p, hp, rfl⟩ := List.mem_map.mp hmem
  obtain ⟨hp, hplain⟩ := List.mem_filter.mp hp
  exact suffixTokens_fresh.2 _ (plainToken_mem hp (by simpa using hplain)) ht

theorem token_not_alias (h : (p, t) ∈ tokenPairs env ps) :
    t ∉ mentionAliases := by
  intro halias
  rcases mem_tokenPairs h with ⟨-, hsuffix, -⟩ | ⟨-, hplain, rfl⟩
  · exact suffixTokens_fresh.2 t
      (List.mem_append_right _ (List.mem_cons_of_mem _ halias)) hsuffix
  · unfold plainToken at halias
    split_ifs at halias with hpinned
    · exact absurd halias (by decide)
    · simp [needsSuffix, hpinned, halias] at hplain

theorem token_codex (h : (p, t) ∈ tokenPairs env ps) (hcodex : t = "codex-agent")
    : pinnedCodex p = true := by
  rcases mem_tokenPairs h with ⟨-, hsuffix, -⟩ | ⟨-, hplain, rfl⟩
  · exact absurd hsuffix (suffixTokens_fresh.2 t (by simp [reservedTokens, hcodex]))
  · by_contra hpinned
    rw [plainToken, if_neg hpinned] at hcodex
    simp [needsSuffix, hpinned, hcodex] at hplain

theorem isTokenText_suffixed {name idToken : String} {length : Nat}
    (hname : isTokenText name = true) (hid : tokenPart idToken.toList = true)
    (hlength : 0 < length) : isTokenText (suffixed name idToken length) = true := by
  refine isTokenText_append hname (isTokenText_part ?_)
  simp only [tokenPart, Bool.and_eq_true, List.all_eq_true] at hid ⊢
  refine ⟨?_, fun c hc => hid.2 c (List.mem_of_mem_take hc)⟩
  simpa [Nat.pos_iff_ne_zero.mp hlength] using hid.1

theorem isTokenText_disambiguated {taken : List String} {length : Nat} {d : Disambiguated}
    (hname : isTokenText d.name = true) (hid : tokenPart d.idToken.toList = true)
    (hlength : 0 < length) : isTokenText (disambiguatedToken taken length d) = true := by
  have hnonempty : 0 < d.idToken.length := by
    simp only [tokenPart, Bool.and_eq_true, Bool.not_eq_true', List.isEmpty_eq_false_iff] at hid
    exact List.length_pos_of_ne_nil hid.1
  rcases disambiguatedToken_shape taken length d with ⟨n, hn, heq⟩ | ⟨n, heq⟩
  · rw [heq]
    exact isTokenText_suffixed hname hid (by omega)
  · rw [heq]
    refine isTokenText_append (isTokenText_append hname ?_) (isTokenText_number n)
    simpa using isTokenText_part hid

theorem tokenPart_idToken (hlower : env.Lowercases) (id : Uuid) :
    tokenPart (participantIdToken env id).toList = true := by
  rw [participantIdToken_eq hlower, String.toList_ofList, tokenPart, Bool.and_eq_true,
    List.all_eq_true]
  refine ⟨?_, fun c hc => Uuid.hexDigits_lower hc⟩
  rw [Bool.not_eq_true', List.isEmpty_eq_false_iff]
  refine List.ne_nil_of_length_pos ?_
  simp

theorem length_idToken (hlower : env.Lowercases) (id : Uuid) :
    (participantIdToken env id).length = 32 := by
  rw [participantIdToken_eq hlower, String.length_ofList, Uuid.hexDigits_length]

theorem suffixLengthOf_ge (hlower : env.Lowercases) (hp : p ∈ servedInOrder env ps)
    : 8 ≤ suffixLengthOf env ps (slugOf env p) := by
  let group := ((servedInOrder env ps).map (disambiguatedAt env · 0)).filter
    (·.name = slugOf env p)
  have hgroup : disambiguatedAt env p 0 ∈ group :=
    List.mem_filter.mpr ⟨List.mem_map_of_mem hp, decide_eq_true rfl⟩
  have hlength : (disambiguatedAt env p 0).idToken.length = 32 := by
    rw [disambiguatedAt_idToken, length_idToken hlower]
  have hmost : 32 ≤ (group.map (·.idToken.length)).max?.getD 0 :=
    List.le_max?_getD_of_mem (List.mem_map.mpr ⟨_, hgroup, hlength⟩)
  have hstart : min 8 ((group.map (·.idToken.length)).max?.getD 0) ≤
      suffixLengthOf env ps (slugOf env p) := le_growLength _ _ _ _
  omega

theorem isTokenText_token (hlower : env.Lowercases) (h : (p, t) ∈ tokenPairs env ps)
    : isTokenText t = true := by
  rcases mem_tokenPairs h with ⟨hp, -, taken, rfl⟩ | ⟨-, -, rfl⟩
  · refine isTokenText_disambiguated ?_ ?_ (Nat.lt_of_lt_of_le (by decide)
      (suffixLengthOf_ge hlower hp))
    · rw [disambiguatedAt_name, slugOf]
      exact isTokenText_name hlower p.displayName
    · rw [disambiguatedAt_idToken]
      exact tokenPart_idToken hlower p.id
  · unfold plainToken
    split_ifs
    · decide
    · exact isTokenText_name hlower _

/-- A text begins with a slug and eight digits of an id. -/
def Tagged (env : Env) (id : Uuid) (slug text : String) : Prop :=
  (suffixed slug (participantIdToken env id) 8).toList <+: text.toList

/-- A token is the slug of the name, or begins with it and digits of the id. -/
theorem token_shape (hlower : env.Lowercases) (h : (p, t) ∈ tokenPairs env ps)
    (hpinned : pinnedCodex p = false) :
    t = slugOf env p ∨ Tagged env p.id (slugOf env p) t := by
  rcases mem_tokenPairs h with ⟨hp, -, taken, rfl⟩ | ⟨-, -, rfl⟩
  · refine .inr ?_
    have hlong := suffixLengthOf_ge hlower hp
    have hid := length_idToken hlower p.id
    unfold suffixToken
    rcases disambiguatedToken_shape taken (suffixLengthOf env ps (slugOf env p))
      (disambiguatedAt env p 0) with ⟨n, hn, heq⟩ | ⟨n, heq⟩
    · rw [heq, disambiguatedAt_idToken, disambiguatedAt_name]
      rw [disambiguatedAt_idToken, hid] at hn
      have htake : (participantIdToken env p.id).toList.take 8 <+:
          (participantIdToken env p.id).toList.take n := List.take_prefix_take_left (by omega)
      simpa [Tagged, suffixed] using htake
    · rw [heq, disambiguatedAt_idToken, disambiguatedAt_name]
      have htake := (List.take_prefix 8 (participantIdToken env p.id).toList).trans
        (List.prefix_append _ ('-' :: (toString n).toList))
      simpa [Tagged, suffixed, numbered] using htake
  · exact .inl (if_neg (by simp [hpinned]))

theorem tagged_or_tagged (hlower : env.Lowercases) {id : Uuid} {slug other t : String}
    (h : Tagged env id slug t) (hother : Tagged env id other t)
    (hle : slug.toList.length ≤ other.toList.length) : slug = other ∨ Tagged env id slug other := by
  have hdash : '-' ∉ (participantIdToken env id).toList.take 8 := fun hmem =>
    dash_not_mem (Bool.and_eq_true_iff.mp (tokenPart_idToken hlower id)).2
      (List.mem_of_mem_take hmem)
  have hform : ∀ s : String, (suffixed s (participantIdToken env id) 8).toList =
      s.toList ++ '-' :: (participantIdToken env id).toList.take 8 := by
    simp [suffixed]
  unfold Tagged at *
  rw [hform] at *
  exact (Text.tagged_of_tagged h hother hdash hle).imp_left String.toList_inj.mp

/-- A participant that has one token under two names has one slug, or the slugs
differ by digits of its id. -/
theorem slug_of_same_token (hlower : env.Lowercases) {p q : RoomParticipant}
    (hp : (p, t) ∈ tokenPairs env ps) (hq : (q, t) ∈ tokenPairs env qs) (hid : q.id = p.id)
    (hpinnedp : pinnedCodex p = false) (hpinnedq : pinnedCodex q = false) :
    slugOf env p = slugOf env q ∨ Tagged env p.id (slugOf env p) (slugOf env q) ∨
      Tagged env p.id (slugOf env q) (slugOf env p) := by
  have hq := token_shape hlower hq hpinnedq
  rw [hid] at hq
  rcases token_shape hlower hp hpinnedp with rfl | hp
  · exact hq.imp_right .inr
  · rcases hq with rfl | hq
    · exact .inr (.inl hp)
    · rcases le_total (slugOf env p).toList.length (slugOf env q).toList.length with hle | hle
      · exact (tagged_or_tagged hlower hp hq hle).imp_right .inl
      · exact (tagged_or_tagged hlower hq hp hle).imp Eq.symm .inr

/-- Participants that are renamed without a change of their slugs keep their
tokens. -/
theorem participantMentionTokens_map {f : RoomParticipant → RoomParticipant}
    (hid : ∀ p, (f p).id = p.id) (hslug : ∀ p, slugOf env (f p) = slugOf env p)
    (hpinned : ∀ p, pinnedCodex (f p) = pinnedCodex p) :
    participantMentionTokens env (ps.map f) = participantMentionTokens env ps := by
  have hnames : (ps.map f).map (fun p => normalizedParticipantName env p.displayName) =
      ps.map fun p => normalizedParticipantName env p.displayName := by
    rw [List.map_map]
    exact List.map_congr_left fun p _ => hslug p
  unfold participantMentionTokens
  rw [hnames]
  simp only [List.zip_map_left, List.zipIdx_map, List.filter_map, List.map_map, List.length_map,
    Function.comp_def, Prod.map_fst, Prod.map_snd, hid, hpinned, id_eq]

end

/-! ### The tokens of a roster -/

theorem knownTokens_perm (hlower : env.Lowercases) (roster : Roster) :
    (knownTokens env roster.participants).Perm
      ((tokenPairs env roster.participants).map fun m => (m.1.id, m.2)) := by
  rw [knownTokens, List.zip_map_left]
  exact (participantMentionTokens_perm hlower roster.distinct).map _

theorem length_participantMentionTokens (ps : List RoomParticipant) :
    (participantMentionTokens env ps).length = ps.length := by
  rw [participantMentionTokens_eq, List.length_map, List.length_range]

theorem knownTokens_ids (ps : List RoomParticipant) :
    (knownTokens env ps).map Prod.fst = ps.map (·.id) := by
  rw [knownTokens, List.map_fst_zip]
  rw [List.length_map, length_participantMentionTokens]

theorem Roster.nodup_known (roster : Roster) :
    ((knownTokens env roster.participants).map Prod.fst).Nodup := by
  rw [knownTokens_ids]
  exact roster.distinct

theorem Roster.token_iff (hlower : env.Lowercases) (roster : Roster) {id : Uuid} :
    roster.token env id = some t ↔
      ∃ p, (p, t) ∈ tokenPairs env roster.participants ∧ p.id = id := by
  rw [Roster.token, Fresh.lookup_iff_mem roster.nodup_known,
    (knownTokens_perm hlower roster).mem_iff]
  constructor
  · intro h
    obtain ⟨⟨p, t⟩, hm, heq⟩ := List.mem_map.mp h
    cases heq
    exact ⟨p, hm, rfl⟩
  · rintro ⟨p, hm, rfl⟩
    exact List.mem_map_of_mem (f := fun m : RoomParticipant × String => (m.1.id, m.2)) hm

theorem mem_of_mem_tokenPairs (hlower : env.Lowercases) (roster : Roster)
    (h : (p, t) ∈ tokenPairs env roster.participants) :
    p ∈ roster.participants :=
  (List.of_mem_zip
    ((participantMentionTokens_perm hlower roster.distinct).mem_iff.mpr h)).1

theorem Roster.eq_of_id (roster : Roster) {p q : RoomParticipant} (hp : p ∈ roster.participants)
    (hq : q ∈ roster.participants) (hid : p.id = q.id) : p = q :=
  List.inj_on_of_nodup_map roster.distinct hp hq hid

/-- The tokens, place by place. -/
theorem Roster.tokens_listed (roster : Roster) :
    (participantMentionTokens env roster.participants).map some =
      roster.participants.map fun p => roster.token env p.id := by
  refine List.ext_getElem (by simp [length_participantMentionTokens]) fun i hi hi' => ?_
  rw [List.getElem_map, List.getElem_map, Roster.token]
  have hlength : i < (knownTokens env roster.participants).length := by
    simpa [knownTokens, length_participantMentionTokens] using hi'
  have hmem := List.getElem_mem hlength
  symm
  refine Fresh.lookup_of_mem roster.nodup_known ?_
  simpa [knownTokens] using hmem

theorem Roster.exists_token (roster : Roster) (hp : p ∈ roster.participants)
    : ∃ t, roster.token env p.id = some t := by
  have hmem : roster.token env p.id ∈
      (participantMentionTokens env roster.participants).map some := by
    rw [roster.tokens_listed]
    exact List.mem_map_of_mem (f := fun p : RoomParticipant => roster.token env p.id) hp
  obtain ⟨t, -, ht⟩ := List.mem_map.mp hmem
  exact ⟨t, ht.symm⟩

/-- The tokens under which a roster's participants are mentioned. -/
structure TokensAssigned (env : Env) (roster : Roster) : Prop where
  /-- The two searches of the source end by their own conditions. -/
  lengthSearch : ∀ free most start, growLength free most most start < most →
    free (growLength free most most start) = true
  numberSearch : ∀ occupied base, numberedToken occupied base occupied.length 2 ∉ occupied
  listed : (participantMentionTokens env roster.participants).map some =
    roster.participants.map fun p => roster.token env p.id
  distinct : (participantMentionTokens env roster.participants).Nodup
  notAlias : ∀ t ∈ participantMentionTokens env roster.participants, t ∉ mentionAliases
  codex : ∀ p ∈ roster.participants, roster.token env p.id = some "codex-agent" →
    pinnedCodex p = true
  form : ∀ t ∈ participantMentionTokens env roster.participants, isTokenText t = true
  /-- So everybody can be mentioned, and a token means one participant. -/
  mentionable : ∀ p ∈ roster.participants, ∃ t,
    validateMentions env roster.participants [.participant p.id t] = .ok ()
  unambiguous : ∀ p ∈ roster.participants, ∀ q ∈ roster.participants, ∀ t,
    validateMentions env roster.participants [.participant p.id t] = .ok () →
      validateMentions env roster.participants [.participant q.id t] = .ok () → p = q
  /-- The order of the list does not matter. -/
  order : ∀ other : Roster, other.participants.Perm roster.participants →
    other.token env = roster.token env

theorem validateMentions_single (roster : Roster) {id : Uuid} :
    validateMentions env roster.participants [.participant id t] = .ok () ↔
      roster.token env id = some t := by
  rw [roster.validateMentions_iff, MentionsCanonical]
  constructor
  · exact fun h => h.1 id t List.mem_cons_self
  · intro h
    refine ⟨fun id' t' hmem => ?_, by simp⟩
    cases List.mem_singleton.mp hmem
    exact h

theorem Roster.token_perm (hlower : env.Lowercases) {roster other : Roster}
    (h : other.participants.Perm roster.participants) : other.token env = roster.token env := by
  funext id
  refine Option.ext fun t => ?_
  rw [roster.token_iff hlower, other.token_iff hlower]
  exact exists_congr fun p => and_congr_left fun _ =>
    (tokenPairs_perm hlower other.distinct h).mem_iff

theorem tokens_assigned (hlower : env.Lowercases) (roster : Roster) :
    TokensAssigned env roster := by
  have hperm := participantMentionTokens_perm hlower roster.distinct
  have hsnd : (roster.participants.zip (participantMentionTokens env roster.participants)).map
      Prod.snd = participantMentionTokens env roster.participants :=
    List.map_snd_zip (length_participantMentionTokens _).le
  have hpair : ∀ t ∈ participantMentionTokens env roster.participants,
      ∃ p, (p, t) ∈ tokenPairs env roster.participants := by
    intro t ht
    rw [← hsnd] at ht
    obtain ⟨⟨p, t⟩, hm, rfl⟩ := List.mem_map.mp ht
    exact ⟨p, hperm.mem_iff.mp hm⟩
  have hdistinct : (participantMentionTokens env roster.participants).Nodup := by
    rw [← hsnd]
    exact (hperm.map Prod.snd).nodup_iff.mpr (tokenPairs_distinct roster.distinct)
  have hlisted : (roster.participants.map fun p => roster.token env p.id).Nodup := by
    rw [← roster.tokens_listed]
    exact hdistinct.map (Option.some_injective String)
  exact {
    lengthSearch := fun free most start => growLength_stops (by omega)
    numberSearch := fun occupied base => numberedToken_free occupied base 2
    listed := roster.tokens_listed
    distinct := hdistinct
    notAlias := fun t ht => token_not_alias (hpair t ht).choose_spec
    codex := by
      intro p hp h
      obtain ⟨q, hm, hid⟩ := (roster.token_iff hlower).mp h
      obtain rfl := roster.eq_of_id (mem_of_mem_tokenPairs hlower roster hm) hp hid
      exact token_codex hm rfl
    form := fun t ht => isTokenText_token hlower (hpair t ht).choose_spec
    mentionable := by
      intro p hp
      simp only [validateMentions_single]
      exact roster.exists_token hp
    unambiguous := by
      intro p hp q hq t hpt hqt
      rw [validateMentions_single] at hpt hqt
      exact List.inj_on_of_nodup_map hlisted hp hq (hpt.trans hqt.symm)
    order := fun _ h => Roster.token_perm hlower h }

theorem sampleEnv_lowercases : sampleEnv.Lowercases where
  fixed c hc := by
    have hupper : c.isUpper = false := by
      rw [← Bool.not_eq_true, Text.isUpper_iff]
      simp only [tokenChar, Bool.or_eq_true, Text.isLower_iff, Text.isDigit_iff] at hc
      omega
    exact congrArg (fun d => [d]) (Text.toLower_of_not_isUpper hupper)
  lower c d hd := by
    obtain rfl : d = c.toLower := List.mem_singleton.mp hd
    exact Text.isUpper_toLower c

/-- Two people of one name, and one called like the pinned agent. -/
def sampleRoster : Roster where
  participants := [⟨7, .human, "Maya Chen", true⟩, ⟨8, .human, "maya chen", false⟩,
    ⟨9, .human, "Codex Agent", true⟩, codexParticipant]
  distinct := by decide

theorem tokens_assigned_sample : TokensAssigned sampleEnv sampleRoster :=
  tokens_assigned sampleEnv_lowercases sampleRoster

end RoomGateway
