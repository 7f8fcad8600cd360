import RoomGateway.Lib.KeyOrder
import RoomGateway.Lib.Loops
import RoomGateway.Lib.Reading
import RoomGateway.Model.Context

/-!
The canonical text of a context. It does not depend on the order of the keys,
and it can be read back: the text of a value tells where it ends and what the
value is, so that two values with one text are one value.
-/

namespace RoomGateway

open Reading

/-! ### The order of the keys -/

theorem compactFields_eq_map (fields : List (String × Json)) :
    compactFields fields = fields.map fun f => (f.1, compact f.2) := by
  induction fields with
  | nil => rfl
  | cons f fields ih => rw [compactFields, ih, List.map_cons]

theorem canonicalFields_eq_all (fields : List (String × Json)) :
    canonicalFields fields =
      fields.all fun f => f.1.toList.all (·.toNat < 128) && canonical f.2 := by
  induction fields with
  | nil => rfl
  | cons f fields ih => rw [canonicalFields, ih, List.all_cons]

/-- The texts of sorted fields are the texts of the fields, sorted. -/
theorem compactFields_insertionSort (fields : List (String × Json)) :
    compactFields (fields.insertionSort Json.byKey) =
      (compactFields fields).insertionSort Json.byKey := by
  rw [compactFields_eq_map, compactFields_eq_map]
  exact List.map_insertionSort _ _ _ _ fun _ _ _ _ => Iff.rfl

mutual

theorem compact_sortKeys : (value : Json) → compact value.sortKeys = compact value
  | .null => rfl
  | .bool _ => rfl
  | .num _ => rfl
  | .str _ => rfl
  | .arr items => by rw [Json.sortKeys, compact, compact, compactItems_sortItems items]
  | .obj fields => by
      have hsorted : ((compactFields fields).insertionSort Json.byKey).insertionSort Json.byKey =
          (compactFields fields).insertionSort Json.byKey :=
        (List.pairwise_insertionSort _ _).insertionSort_eq
      rw [Json.sortKeys, compact, compact, compactFields_insertionSort,
        compactFields_sortFields fields, hsorted]

theorem compactItems_sortItems : (items : List Json) →
    compactItems (Json.sortItems items) = compactItems items
  | [] => rfl
  | item :: items => by
      rw [Json.sortItems, compactItems, compactItems, compact_sortKeys item,
        compactItems_sortItems items]

theorem compactFields_sortFields : (fields : List (String × Json)) →
    compactFields (Json.sortFields fields) = compactFields fields
  | [] => rfl
  | (key, value) :: fields => by
      rw [Json.sortFields, compactFields, compactFields, compact_sortKeys value,
        compactFields_sortFields fields]

end

mutual

theorem canonical_sortKeys : (value : Json) → canonical value.sortKeys = canonical value
  | .null => rfl
  | .bool _ => rfl
  | .num _ => rfl
  | .str _ => rfl
  | .arr items => by rw [Json.sortKeys, canonical, canonical, canonicalItems_sortItems items]
  | .obj fields => by
      rw [Json.sortKeys, canonical, canonical, ← canonicalFields_sortFields fields,
        canonicalFields_eq_all, canonicalFields_eq_all]
      exact (List.perm_insertionSort _ _).all_eq

theorem canonicalItems_sortItems : (items : List Json) →
    canonicalItems (Json.sortItems items) = canonicalItems items
  | [] => rfl
  | item :: items => by
      rw [Json.sortItems, canonicalItems, canonicalItems, canonical_sortKeys item,
        canonicalItems_sortItems items]

theorem canonicalFields_sortFields : (fields : List (String × Json)) →
    canonicalFields (Json.sortFields fields) = canonicalFields fields
  | [] => rfl
  | (key, value) :: fields => by
      rw [Json.sortFields, canonicalFields, canonicalFields, canonical_sortKeys value,
        canonicalFields_sortFields fields]

end

theorem canonicalContextBytes_sortKeys (value : Json) :
    canonicalContextBytes value.sortKeys = canonicalContextBytes value := by
  rw [canonicalContextBytes, canonical_sortKeys, compact_sortKeys, canonicalContextBytes]

/-! ### What can be written -/

def SafeNumber : Number → Prop
  | .int n => 0 ≤ n ∧ n ≤ maxSafeInteger
  | .float _ => False

/-- What keeps a value from being written, at the value itself. -/
inductive Unwritable : Json → Prop
  | number {n : Number} (h : ¬ SafeNumber n) : Unwritable (.num n)
  | key {fields : List (String × Json)} {f : String × Json} {c : Char} (hf : f ∈ fields)
      (hc : c ∈ f.1.toList) (h : 128 ≤ c.toNat) : Unwritable (.obj fields)

theorem canonicalItems_eq_all (items : List Json) : canonicalItems items = items.all canonical := by
  induction items with
  | nil => rfl
  | cons item items ih => rw [canonicalItems, ih, List.all_cons]

theorem canonical_iff (value : Json) :
    canonical value = true ↔ ∀ x : Json, x.Within value → ¬ Unwritable x := by
  induction value using Json.memInduction with
  | null =>
      refine iff_of_true rfl fun x hx => ?_
      cases hx
      rintro ⟨⟩
  | bool b =>
      refine iff_of_true rfl fun x hx => ?_
      cases hx
      rintro ⟨⟩
  | str s =>
      refine iff_of_true rfl fun x hx => ?_
      cases hx
      rintro ⟨⟩
  | num n =>
      have hsafe : canonical (.num n) = true ↔ SafeNumber n := by
        cases n <;> simp [canonical, SafeNumber]
      rw [hsafe]
      constructor
      · rintro h x ⟨⟩ ⟨hlarge⟩
        exact hlarge h
      · intro h
        by_contra hlarge
        exact h _ .here (.number hlarge)
  | arr items ih =>
      rw [canonical, canonicalItems_eq_all, List.all_eq_true]
      constructor
      · rintro h x (⟨⟩ | ⟨hy, hx⟩)
        · rintro ⟨⟩
        · exact (ih _ hy).mp (h _ hy) x hx
      · exact fun h y hy => (ih y hy).mpr fun x hx => h x (.item hy hx)
  | obj fields ih =>
      rw [canonical, canonicalFields_eq_all, List.all_eq_true]
      constructor
      · intro h x hx
        cases hx with
        | here =>
            intro hbad
            cases hbad with
            | key hf hc hlarge =>
                have hfield := h _ hf
                rw [Bool.and_eq_true, List.all_eq_true] at hfield
                exact absurd (of_decide_eq_true (hfield.1 _ hc)) (by omega)
        | field hf hx =>
            have hfield := h _ hf
            rw [Bool.and_eq_true] at hfield
            exact (ih _ hf).mp hfield.2 x hx
      · intro h f hf
        rw [Bool.and_eq_true, List.all_eq_true]
        refine ⟨fun c hc => decide_eq_true ?_, (ih f hf).mpr fun x hx => h x (.field hf hx)⟩
        by_contra hlarge
        exact h _ .here (.key hf hc (by omega))

/-! ### Reading a text -/

/-- Read one character of a string literal. -/
def readChar : List Char → Option (Char × List Char)
  | '\\' :: 'n' :: rest => some ('\n', rest)
  | '\\' :: 'r' :: rest => some ('\r', rest)
  | '\\' :: 't' :: rest => some ('\t', rest)
  | '\\' :: 'b' :: rest => some (Char.ofNat 8, rest)
  | '\\' :: 'f' :: rest => some (Char.ofNat 12, rest)
  | '\\' :: 'u' :: _ :: _ :: high :: low :: rest =>
      ((List.range 32).find? fun n =>
        Nat.digitChar (n / 16) = high && Nat.digitChar (n % 16) = low).map fun n =>
          (Char.ofNat n, rest)
  | '\\' :: c :: rest => some (c, rest)
  | c :: rest => some (c, rest)
  | [] => none

/-- A control character is found again from its two digits. -/
theorem find_control : ∀ n < 32, ((List.range 32).find? fun m =>
    Nat.digitChar (m / 16) = Nat.digitChar (n / 16) &&
      Nat.digitChar (m % 16) = Nat.digitChar (n % 16)) = some n := by
  decide

theorem readChar_escapeChar (c : Char) (rest : List Char) :
    readChar (escapeChar c ++ rest) = some (c, rest) := by
  have hchar : Char.ofNat c.toNat = c := Char.ofNat_toNat c
  unfold escapeChar
  split_ifs with hquote hslash hn hr ht h8 h12 hcontrol
  · rw [hquote]
    rfl
  · rw [hslash]
    rfl
  · rw [hn]
    rfl
  · rw [hr]
    rfl
  · rw [ht]
    rfl
  · rw [← hchar, h8]
    rfl
  · rw [← hchar, h12]
    rfl
  · simp only [List.cons_append, List.nil_append, readChar, find_control _ hcontrol,
      Option.map_some, hchar]
  · -- the character stands for itself, and it is not the mark of an escape
    rw [List.singleton_append]
    unfold readChar
    split <;> simp_all

theorem escapeChar_open (c : Char) (r s : List Char) : escapeChar c ++ r ≠ '"' :: s := by
  unfold escapeChar
  split_ifs with hquote <;> simp [hquote]

theorem quote_read {a b : String} {r s : List Char} (h : quote a ++ r = quote b ++ s) :
    a = b ∧ r = s := by
  rw [quote, quote] at h
  simp only [List.cons_append, List.append_assoc, List.nil_append] at h
  obtain ⟨hall, hrest⟩ :=
    flatMap_read (fun c _ d _ => told_of_reader readChar readChar_escapeChar c d)
    (fun c _ => escapeChar_open c) (fun _ _ => trivial) (List.cons.inj h).2
  exact ⟨String.toList_inj.mp (List.forall₂_eq_eq_eq ▸ hall), hrest⟩

/-- Every number in the value is a natural number. -/
def Natural (value : Json) : Prop := ∀ n, (Json.num n).Within value → ∃ k : Nat, n = .int k

theorem Natural.item {items : List Json} {x : Json} (h : Natural (.arr items)) (hx : x ∈ items) :
    Natural x :=
  fun n hn => h n (.item hx hn)

theorem Natural.field {fields : List (String × Json)} {f : String × Json}
    (h : Natural (.obj fields)) (hf : f ∈ fields) : Natural f.2 :=
  fun n hn => h n (.field hf hn)

/-- The text of a number ends where its digits end. -/
def Stop (rest : List Char) : Prop := ∀ c ∈ rest.head?, c.isDigit = false

theorem compact_nat (k : Nat) : compact (.num (.int k)) = Nat.toDigits 10 k := by
  change (Nat.repr k).toList = _
  rw [Nat.repr_eq_ofList_toDigits, String.toList_ofList]

theorem digits_told (m k : Nat) : Told Stop (Nat.toDigits 10) Eq m k := by
  refine told_of_class (fun k c hc => ?_) (fun a b h => ?_) m k
  · exact Nat.isDigit_of_mem_toDigits (by decide) (by decide) hc
  · have hvalue := congrArg (Nat.ofDigitChars 10 · 0) h
    simpa [Nat.ofDigitChars_toDigits] using hvalue

/-- What the first character of a text tells about the value. -/
def kindOf (c : Char) : Char := if c.isDigit then '0' else if c = 'f' then 't' else c

def kind : Json → Char
  | .null => 'n'
  | .bool _ => 't'
  | .num _ => '0'
  | .str _ => '"'
  | .arr _ => '['
  | .obj _ => Char.ofNat 123

theorem compact_kind {value : Json} (h : Natural value) :
    ∃ c text, compact value = c :: text ∧ kindOf c = kind value := by
  cases value with
  | null => exact ⟨'n', _, rfl, by decide⟩
  | bool b => cases b <;> exact ⟨_, _, rfl, by decide⟩
  | num n =>
      obtain ⟨k, rfl⟩ := h n .here
      obtain ⟨c, text, hc⟩ := List.exists_cons_of_ne_nil
        (Nat.toDigits_ne_nil : Nat.toDigits 10 k ≠ [])
      refine ⟨c, text, (compact_nat k).trans hc, ?_⟩
      have hdigit : c.isDigit = true :=
        Nat.isDigit_of_mem_toDigits (by decide) (by decide) (hc ▸ List.mem_cons_self)
      simp [kindOf, hdigit, kind]
  | str s => exact ⟨'"', _, rfl, rfl⟩
  | arr items => exact ⟨'[', _, by rw [compact]; rfl, rfl⟩
  | obj fields => exact ⟨Char.ofNat 123, _, by rw [compact]; rfl, rfl⟩

theorem kind_eq {u v : Json} {r s : List Char} (hu : Natural u) (hv : Natural v)
    (h : compact u ++ r = compact v ++ s) : kind u = kind v := by
  obtain ⟨c, t, hc, hkind⟩ := compact_kind hu
  obtain ⟨d, t', hd, hkind'⟩ := compact_kind hv
  rw [hc, hd] at h
  rw [← hkind, ← hkind', (List.cons.inj h).1]

theorem compact_open {value : Json} (h : Natural value) {c : Char} (hc : ∀ v, kindOf c ≠ kind v)
    (r s : List Char) : compact value ++ r ≠ c :: s := by
  obtain ⟨d, t, hd, hkind⟩ := compact_kind h
  rw [hd]
  intro heq
  exact hc value ((List.cons.inj heq).1 ▸ hkind)

theorem joinCommas_map {α : Type} (enc : α → List Char) (l : List α) :
    joinCommas (l.map enc) = joined enc ',' l := by
  have hcons : ∀ (a : α) (l : List α),
      joinCommas ((a :: l).map enc) = enc a ++ l.flatMap fun b => ',' :: enc b := by
    intro a l
    induction l generalizing a with
    | nil => simp [joinCommas]
    | cons b l ih =>
        rw [List.map_cons, List.map_cons, joinCommas, List.flatMap_cons]
        · rw [← List.map_cons, ih b]
          simp
        · simp
  cases l with
  | nil => rfl
  | cons a l => exact hcons a l

theorem compactItems_eq_map (items : List Json) : compactItems items = items.map compact := by
  induction items with
  | nil => rfl
  | cons item items ih => rw [compactItems, ih, List.map_cons]

theorem sortItems_eq_map (items : List Json) : Json.sortItems items = items.map Json.sortKeys := by
  induction items with
  | nil => rfl
  | cons item items ih => rw [Json.sortItems, ih, List.map_cons]

/-- Sorting the fields and then the values is sorting the values and then the fields. -/
theorem sortKeys_obj (fields : List (String × Json)) : (Json.obj fields).sortKeys =
    .obj ((fields.insertionSort Json.byKey).map fun f => (f.1, f.2.sortKeys)) := by
  rw [Json.sortKeys, Json.sortFields_eq_map]
  congr 1
  symm
  exact List.map_insertionSort _ _ _ _ fun _ _ _ _ => Iff.rfl

/-- The text of a field. -/
def compactField (f : String × Json) : List Char := quote f.1 ++ ':' :: compact f.2

theorem compact_obj (fields : List (String × Json)) : compact (.obj fields) =
    Char.ofNat 123 :: joined compactField ',' (fields.insertionSort Json.byKey) ++
      [Char.ofNat 125] := by
  rw [compact, ← joinCommas_map]
  change Char.ofNat 123 :: joinCommas
    (((compactFields fields).insertionSort Json.byKey).map _) ++ _ = _
  rw [← compactFields_insertionSort, compactFields_eq_map, List.map_map]
  rfl

theorem compact_arr (items : List Json) :
    compact (.arr items) = '[' :: joined compact ',' items ++ [']'] := by
  rw [compact, compactItems_eq_map, joinCommas_map]

theorem stop_comma (r : List Char) : Stop (',' :: r) := by
  rintro _ ⟨⟩
  rfl

theorem stop_bracket (r : List Char) : Stop (']' :: r) := by
  rintro _ ⟨⟩
  rfl

theorem stop_brace (r : List Char) : Stop (Char.ofNat 125 :: r) := by
  rintro _ ⟨⟩
  rfl

/-- The text of a value tells the value, up to the order of the keys. -/
theorem compact_told {u : Json} (hu : Natural u) {v : Json} (hv : Natural v) :
    Told Stop compact (fun u v => u.sortKeys = v.sortKeys) u v := by
  induction u using Json.memInduction generalizing v with
  | null =>
      intro r s hr hs h
      have hkind := kind_eq hu hv h
      cases v with
      | null => exact ⟨rfl, List.append_cancel_left h⟩
      | _ => simp [kind] at hkind
  | bool b =>
      intro r s hr hs h
      have hkind := kind_eq hu hv h
      cases v with
      | bool b' => cases b <;> cases b' <;> simp_all [compact]
      | _ => simp [kind] at hkind
  | num n =>
      intro r s hr hs h
      have hkind := kind_eq hu hv h
      cases v with
      | num n' =>
          obtain ⟨k, rfl⟩ := hu n .here
          obtain ⟨k', rfl⟩ := hv n' .here
          rw [compact_nat, compact_nat] at h
          obtain ⟨rfl, hrest⟩ := digits_told k k' r s hr hs h
          exact ⟨rfl, hrest⟩
      | _ => simp [kind] at hkind
  | str t =>
      intro r s hr hs h
      have hkind := kind_eq hu hv h
      cases v with
      | str t' =>
          obtain ⟨rfl, hrest⟩ := quote_read h
          exact ⟨rfl, hrest⟩
      | _ => simp [kind] at hkind
  | arr items ih =>
      intro r s hr hs h
      have hkind := kind_eq hu hv h
      cases v with
      | arr items' =>
          rw [compact_arr, compact_arr] at h
          simp only [List.cons_append, List.append_assoc, List.nil_append] at h
          have htold : ∀ a ∈ items, ∀ b ∈ items',
              Told Stop compact (fun u v => u.sortKeys = v.sortKeys) a b :=
            fun a ha b hb => ih a ha (hu.item ha) (hv.item hb)
          have hopen : ∀ a, a ∈ items ∨ a ∈ items' → ∀ r s, compact a ++ r ≠ ']' :: s := by
            intro a ha
            refine compact_open (ha.elim hu.item hv.item) fun v => ?_
            cases v <;> simp [kindOf, kind]
          obtain ⟨hall, hrest⟩ := joined_read (by decide)
            (fun r => ⟨stop_comma r, stop_bracket r⟩) htold hopen (List.cons.inj h).2
          refine ⟨?_, hrest⟩
          change (Json.arr items).sortKeys = (Json.arr items').sortKeys
          rw [Json.sortKeys, Json.sortKeys, sortItems_eq_map, sortItems_eq_map,
            Loops.map_eq_of_forall₂ hall]
      | _ => simp [kind] at hkind
  | obj fields ih =>
      intro r s hr hs h
      have hkind := kind_eq hu hv h
      cases v with
      | obj fields' =>
          rw [compact_obj, compact_obj] at h
          simp only [List.cons_append, List.append_assoc, List.nil_append] at h
          have htold : ∀ f ∈ fields.insertionSort Json.byKey,
              ∀ g ∈ fields'.insertionSort Json.byKey, Told Stop compactField
                (fun f g => (f.1, f.2.sortKeys) = (g.1, g.2.sortKeys)) f g := by
            intro f hf g hg r s hr hs h
            rw [compactField, compactField, List.append_assoc, List.append_assoc] at h
            obtain ⟨hkey, hvalue⟩ := quote_read h
            rw [List.mem_insertionSort] at hf hg
            obtain ⟨hsame, hrest⟩ := ih f hf (hu.field hf) (hv.field hg) r s hr hs
              (List.cons.inj hvalue).2
            exact ⟨Prod.ext hkey hsame, hrest⟩
          have hopen : ∀ (f : String × Json) r s, compactField f ++ r ≠ Char.ofNat 125 :: s := by
            intro f r s h
            exact absurd (List.cons.inj h).1 (by decide)
          obtain ⟨hall, hrest⟩ := joined_read (by decide)
            (fun r => ⟨stop_comma r, stop_brace r⟩) htold (fun f _ => hopen f) (List.cons.inj h).2
          refine ⟨?_, hrest⟩
          change (Json.obj fields).sortKeys = (Json.obj fields').sortKeys
          rw [sortKeys_obj, sortKeys_obj, Loops.map_eq_of_forall₂ hall]
      | _ => simp [kind] at hkind

/-! ### The canonical form -/

theorem natural_of_canonical {value : Json} (h : canonical value = true) : Natural value := by
  intro n hn
  have hsafe : SafeNumber n := by
    by_contra hlarge
    exact (canonical_iff value).mp h _ hn (.number hlarge)
  cases n with
  | int n => exact ⟨n.toNat, by rw [Int.toNat_of_nonneg hsafe.1]⟩
  | float repr => exact hsafe.elim

/-- The bytes that are hashed. -/
def canonicalBytes (value : Json) : Except ConversationError ByteArray :=
  (canonicalContextBytes value).map fun text => (String.ofList text).toUTF8

theorem canonicalBytes_of_canonical {value : Json} (h : canonical value = true) :
    canonicalBytes value = .ok (String.ofList (compact value)).toUTF8 := by
  rw [canonicalBytes, canonicalContextBytes, if_pos h]
  rfl

theorem canonicalBytes_of_not {value : Json} (h : canonical value ≠ true) :
    canonicalBytes value = .error .contextMismatch := by
  rw [canonicalBytes, canonicalContextBytes, if_neg h]
  rfl

theorem canonicalBytes_ok {value : Json} {bytes : ByteArray}
    (h : canonicalBytes value = .ok bytes) :
    canonical value = true ∧ bytes = (String.ofList (compact value)).toUTF8 := by
  by_cases hcanonical : canonical value = true
  · rw [canonicalBytes_of_canonical hcanonical] at h
    exact ⟨hcanonical, (Except.ok.inj h).symm⟩
  · rw [canonicalBytes_of_not hcanonical] at h
    cases h

theorem compact_eq_iff {u v : Json} (hu : Natural u) (hv : Natural v) :
    compact u = compact v ↔ u.sortKeys = v.sortKeys := by
  constructor
  · intro h
    have hstop : Stop [] := by simp [Stop]
    exact (compact_told hu hv [] [] hstop hstop (by rw [h])).1
  · intro h
    rw [← compact_sortKeys u, h, compact_sortKeys v]

/-- The bytes fail to exist exactly if a number or a key cannot be written, and
two values have the same bytes if and only if they are one value up to the order
of their keys. A digest that tells the bytes of two values apart tells the
values apart. -/
theorem canonical_form :
    (∀ value : Json, (canonicalBytes value).isOk = false ↔
      ∃ x : Json, x.Within value ∧ Unwritable x) ∧
    ∀ (u v : Json) (bytes bytes' : ByteArray), canonicalBytes u = .ok bytes →
      canonicalBytes v = .ok bytes' → (bytes = bytes' ↔ u.sortKeys = v.sortKeys) ∧
        ∀ digest : ByteArray → String, (digest bytes = digest bytes' → bytes = bytes') →
          digest bytes = digest bytes' → u.sortKeys = v.sortKeys := by
  constructor
  · intro value
    by_cases h : canonical value = true
    · rw [canonicalBytes_of_canonical h]
      refine iff_of_false Bool.noConfusion ?_
      rintro ⟨x, hx, hbad⟩
      exact (canonical_iff value).mp h x hx hbad
    · rw [canonicalBytes_of_not h]
      refine iff_of_true rfl ?_
      rw [canonical_iff] at h
      simpa only [not_forall, not_not, exists_prop] using h
  · intro u v bytes bytes' hu hv
    obtain ⟨hcanonical, rfl⟩ := canonicalBytes_ok hu
    obtain ⟨hcanonical', rfl⟩ := canonicalBytes_ok hv
    have hsame := compact_eq_iff (natural_of_canonical hcanonical)
      (natural_of_canonical hcanonical')
    have htext : ∀ {a b : List Char},
        (String.ofList a).toUTF8 = (String.ofList b).toUTF8 → a = b :=
      fun h => String.ofList_inj.mp (String.toByteArray_inj.mp h)
    refine ⟨⟨fun h => hsame.mp (htext h), fun h => ?_⟩, fun digest hdigest h => ?_⟩
    · rw [hsame.mpr h]
    · exact hsame.mp (htext (hdigest h))

/-- The order in which the fields were written does not show. -/
theorem canonical_form_sample :
    canonicalBytes (.obj [("title", "Ship it"), ("revision", (2 : Int))]) =
      canonicalBytes (.obj [("revision", (2 : Int)), ("title", "Ship it")]) := by
  have hfirst : canonical (.obj [("title", "Ship it"), ("revision", (2 : Int))]) = true := by decide
  have hsecond : canonical (.obj [("revision", (2 : Int)), ("title", "Ship it")]) =
    true := by decide
  rw [canonicalBytes_of_canonical hfirst, canonicalBytes_of_canonical hsecond]
  refine congrArg Except.ok ((canonical_form.2 _ _ _ _ (canonicalBytes_of_canonical hfirst)
    (canonicalBytes_of_canonical hsecond)).1.mpr ?_)
  decide

end RoomGateway
