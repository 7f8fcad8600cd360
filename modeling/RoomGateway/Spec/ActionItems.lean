import RoomGateway.Lib.Loops
import RoomGateway.Model.Rooms

/-!
Action items are read as they are written. An item is a line of a text and up to
two fields, with white space as one likes; other lines are passed over. A line
with a field that is unknown, empty or there twice makes the whole text fail.
-/

namespace RoomGateway

open Text

/-! ### Fields -/

section Fields

variable {item item' : ActionItem} {name value field : List Char}

theorem colon_not_blank : isWhitespace ':' = false := by decide

theorem parseField_of_no_colon (h : ':' ∉ field) :
    parseField item field = .error .unsupportedField := by
  have htrim : ':' ∉ trim field := by
    intro hmem
    have hstart : ':' ∈ trimStart field :=
      List.mem_reverse.mp ((List.dropWhile_sublist _).subset (List.mem_reverse.mp hmem))
    exact h ((List.dropWhile_sublist _).subset hstart)
  rw [parseField, splitOnce_of_not_mem htrim]

theorem splitOnce_trim (h : ':' ∉ name) :
    splitOnce ':' (trim (name ++ ':' :: value)) = some (trimStart name, trimEnd value) := by
  have hname : ':' ∉ trimStart name := fun hmem => h ((List.dropWhile_sublist _).subset hmem)
  rw [trim, trimStart_append_cons colon_not_blank, trimEnd_append_cons colon_not_blank,
    splitOnce_append hname]

/-- A field gives the item an owner or a due date that it does not have. -/
theorem parseField_ok (h : ':' ∉ name) :
    parseField item (name ++ ':' :: value) = .ok item' ↔ trim value ≠ [] ∧
      (trim name = "owner".toList ∧ item.owner = none ∧
          item' = { item with owner := some (trim value) } ∨
        trim name = "due".toList ∧ item.due = none ∧
          item' = { item with due := some (trim value) }) := by
  have hdistinct : "owner".toList ≠ "due".toList := by decide
  rw [parseField, splitOnce_trim h]
  dsimp only
  rw [trim_trimEnd, trim_trimStart]
  generalize "owner".toList = owner at hdistinct
  generalize "due".toList = due at hdistinct
  by_cases hvalue : trim value = []
  · simp [hvalue]
  · rw [if_neg (by simpa using hvalue)]
    by_cases howner : trim name = owner ∧ item.owner = none
    · rw [if_pos (by simp [howner])]
      constructor
      · exact fun h => ⟨hvalue, .inl ⟨howner.1, howner.2, (Except.ok.inj h).symm⟩⟩
      · rintro ⟨-, ⟨-, -, rfl⟩ | ⟨hname, -⟩⟩
        · rfl
        · exact absurd (howner.1.symm.trans hname) hdistinct
    · rw [if_neg (by simpa using howner)]
      by_cases hdue : trim name = due ∧ item.due = none
      · rw [if_pos (by simp [hdue])]
        constructor
        · exact fun h => ⟨hvalue, .inr ⟨hdue.1, hdue.2, (Except.ok.inj h).symm⟩⟩
        · rintro ⟨-, ⟨hname, -⟩ | ⟨-, -, rfl⟩⟩
          · exact absurd (hname.symm.trans hdue.1) hdistinct
          · rfl
      · rw [if_neg (by simpa using hdue)]
        refine iff_of_false nofun ?_
        rintro ⟨-, ⟨hname, hnone, -⟩ | ⟨hname, hnone, -⟩⟩
        · exact howner ⟨hname, hnone⟩
        · exact hdue ⟨hname, hnone⟩

end Fields

/-! ### Lines -/

theorem parseField_trim (item : ActionItem) (field : List Char) :
    parseField item (trim field) = parseField item field := by
  unfold parseField
  rw [trim_trim]

theorem foldlM_parseField_trim (item : ActionItem) (fields : List (List Char)) :
    (fields.map trim).foldlM parseField item = fields.foldlM parseField item := by
  rw [List.foldlM_map]
  congr 1
  funext item field
  exact parseField_trim item field

/-- A line as it is read: the dash, the text and the fields. -/
def dashed (indent text : List Char) (fields : List (List Char)) : List Char :=
  indent ++ ("- ".toList ++ (text ++ fields.flatMap ('|' :: ·)))

theorem parseLine_dashed {indent text : List Char} {fields : List (List Char)}
    (hindent : Blank indent) (htext : '|' ∉ text) (hfields : ∀ f ∈ fields, '|' ∉ f) :
    parseLine (dashed indent text fields) =
      if (trim text).isEmpty then .error .emptyField
      else (fields.foldlM parseField { text := trim text }).map some := by
  have hstart : trimStart (dashed indent text fields) =
      "- ".toList ++ (text ++ fields.flatMap ('|' :: ·)) := by
    rw [dashed, trimStart_append_left hindent]
    exact trimStart_append_cons (by decide) [] _
  have hstrip : stripPrefix "- ".toList ("- ".toList ++ (text ++ fields.flatMap ('|' :: ·))) =
      some (text ++ fields.flatMap ('|' :: ·)) := by
    rw [stripPrefix, if_pos (by simp), List.drop_left]
  rw [parseLine, hstart, hstrip]
  dsimp only
  rw [split_joined htext hfields]

theorem stripPrefix_dash (c d : Char) (rest : List Char) :
    stripPrefix "- ".toList (c :: d :: rest) = if c = '-' ∧ d = ' ' then some rest else none := by
  have hdash : "- ".toList = ['-', ' '] := by decide
  have hchars : (['-', ' '].isPrefixOf (c :: d :: rest) = true) ↔ c = '-' ∧ d = ' ' := by
    simp [List.isPrefixOf, @eq_comm Char c, @eq_comm Char d]
  rw [stripPrefix, hdash]
  by_cases h : c = '-' ∧ d = ' '
  · rw [if_pos (hchars.mpr h), if_pos h]
    rfl
  · rw [if_neg (fun hdashed => h (hchars.mp hdashed)), if_neg h]

/-- What is read from the pieces of a line that had a dash. -/
def readPieces : List (List Char) → Except ParseError (Option ActionItem)
  | [] => .error .emptyField
  | text :: fields =>
      if (trim text).isEmpty then .error .emptyField
      else (fields.foldlM parseField { text := trim text }).map some

theorem parseLine_eq (line : List Char) : parseLine line =
    match stripPrefix "- ".toList (trimStart line) with
    | none => .ok none
    | some rest => readPieces (split '|' rest) := by
  unfold parseLine
  cases stripPrefix "- ".toList (trimStart line) with
  | none => rfl
  | some rest =>
      dsimp only
      cases split '|' rest <;> rfl

theorem readPieces_trim {pieces pieces' : List (List Char)}
    (h : pieces.map trim = pieces'.map trim) : readPieces pieces = readPieces pieces' := by
  cases pieces with
  | nil =>
      cases pieces' with
      | nil => rfl
      | cons text' fields' => cases h
  | cons text fields =>
      cases pieces' with
      | nil => cases h
      | cons text' fields' =>
          obtain ⟨htext, hfields⟩ := List.cons.inj h
          rw [readPieces, readPieces, htext, ← foldlM_parseField_trim _ fields, hfields,
            foldlM_parseField_trim]

/-- A carriage return at the end of a line does not matter. -/
theorem parseLine_return (s : List Char) : parseLine (s ++ ['\r']) = parseLine s := by
  have hblank : Blank ['\r'] := by
    intro c hc
    rw [List.mem_singleton.mp hc]
    decide
  by_cases hs : Blank s
  · rw [parseLine_eq, parseLine_eq, trimStart_append_left hs, trimStart_blank hblank,
      trimStart_blank hs]
  · obtain ⟨c, hc, hspace⟩ : ∃ c ∈ s, isWhitespace c = false := by
      simpa [Blank] using hs
    obtain ⟨x, y, rfl⟩ := List.append_of_mem hc
    have hstart : trimStart (x ++ c :: y ++ ['\r']) = trimStart (x ++ c :: y) ++ ['\r'] := by
      rw [List.append_assoc, List.cons_append, trimStart_append_cons hspace,
        trimStart_append_cons hspace, List.append_assoc, List.cons_append]
    rw [parseLine_eq, parseLine_eq, hstart]
    generalize trimStart (x ++ c :: y) = t
    rcases t with _ | ⟨d, _ | ⟨e, rest⟩⟩
    · rfl
    · have hone : stripPrefix "- ".toList [d] = none := by
        rw [stripPrefix, if_neg (by simp [List.isPrefixOf])]
      rw [List.cons_append, List.nil_append, stripPrefix_dash, if_neg (by simp), hone]
    · rw [List.cons_append, List.cons_append, stripPrefix_dash, stripPrefix_dash]
      split_ifs
      · obtain ⟨init, last, hrest, hreturn⟩ :=
          split_append_of_not_mem (show '|' ∉ ['\r'] by decide) rest
        dsimp only
        rw [hrest, hreturn]
        refine readPieces_trim ?_
        have hlast := trim_pad (show Blank [] by simp [Blank]) hblank last
        rw [List.map_append, List.map_append, List.map_singleton, List.map_singleton]
        rw [List.nil_append] at hlast
        rw [hlast]
      · rfl

theorem parseLine_dropCarriageReturn (line : List Char) :
    parseLine (dropCarriageReturn line) = parseLine line := by
  unfold dropCarriageReturn
  split_ifs with hlast
  · obtain ⟨init, rfl⟩ := List.getLast?_eq_some_iff.mp hlast
    rw [List.dropLast_concat, parseLine_return]
  · rfl

/-! ### Writing -/

/-- A text as it may be written on a line of its own: not empty, nothing to trim,
no bar and no line feed. (A carriage return alone ends no line.) -/
structure Plain (s : List Char) : Prop where
  nonempty : s ≠ []
  trimmed : trim s = s
  bar : '|' ∉ s
  line : '\n' ∉ s

structure ActionItem.Plain (item : ActionItem) : Prop where
  text : RoomGateway.Plain item.text
  owner : ∀ owner ∈ item.owner, RoomGateway.Plain owner
  due : ∀ due ∈ item.due, RoomGateway.Plain due

/-- White space within a line. -/
structure Spaces (s : List Char) : Prop where
  blank : Blank s
  line : '\n' ∉ s

/-- A text with white space around it. -/
def Padded (s t : List Char) : Prop :=
  ∃ before after, Spaces before ∧ Spaces after ∧ t = before ++ s ++ after

/-- The fields of an item that are there. -/
def ActionItem.fields (item : ActionItem) : List (List Char × List Char) :=
  item.owner.toList.map ("owner".toList, ·) ++ item.due.toList.map ("due".toList, ·)

/-- A name and a value, with a colon and white space as one likes. -/
def WritesField (field : List Char × List Char) (t : List Char) : Prop :=
  ∃ name value, Padded field.1 name ∧ Padded field.2 value ∧ t = name ++ ':' :: value

/-- A line that an item is written as, its fields in either order. -/
def WritesItem (item : ActionItem) (line : List Char) : Prop :=
  ∃ indent text order fields, Spaces indent ∧ Padded item.text text ∧
    (order = item.fields ∨ order = item.fields.reverse) ∧
    List.Forall₂ WritesField order fields ∧ line = dashed indent text fields

/-- A line that is no item. -/
structure Other (line : List Char) : Prop where
  dash : ¬ "- ".toList <+: trimStart line
  line : '\n' ∉ line

/-- Lines of which some are items. -/
inductive WrittenLines : List (List Char) → List ActionItem → Prop
  | nil : WrittenLines [] []
  | item {item : ActionItem} {line : List Char} {lines : List (List Char)} {items : List ActionItem}
      (hplain : item.Plain) (hline : WritesItem item line) (h : WrittenLines lines items) :
      WrittenLines (line :: lines) (item :: items)
  | other {line : List Char} {lines : List (List Char)} {items : List ActionItem}
      (hline : Other line) (h : WrittenLines lines items) : WrittenLines (line :: lines) items

/-- A message to the agent with some lines. -/
def messageOf (lines : List (List Char)) : String :=
  String.ofList ("@action-items".toList ++ lines.flatMap ('\n' :: ·))

/-! ### Reading what was written -/

section Reading

variable {s t : List Char}

theorem Padded.trim_eq (h : Padded s t) : trim t = trim s := by
  obtain ⟨before, after, hbefore, hafter, rfl⟩ := h
  exact trim_pad hbefore.blank hafter.blank s

/-- White space brings no other character in. -/
theorem Padded.not_mem (h : Padded s t) {c : Char} (hc : isWhitespace c = false) (hs : c ∉ s) :
    c ∉ t := by
  obtain ⟨before, after, hbefore, hafter, rfl⟩ := h
  have hblank : ∀ {space : List Char}, Blank space → c ∉ space := by
    intro space hspace hmem
    rw [hspace c hmem] at hc
    cases hc
  simp only [List.mem_append, not_or]
  exact ⟨⟨hblank hbefore.blank, hs⟩, hblank hafter.blank⟩

theorem Padded.line (h : Padded s t) (hs : '\n' ∉ s) : '\n' ∉ t := by
  obtain ⟨before, after, hbefore, hafter, rfl⟩ := h
  simp only [List.mem_append, not_or]
  exact ⟨⟨hbefore.line, hs⟩, hafter.line⟩

/-- What is to be known of the field of a plain item. -/
structure PlainField (field : List Char × List Char) : Prop where
  name : field.1 = "owner".toList ∨ field.1 = "due".toList
  value : Plain field.2

theorem ActionItem.Plain.field {item : ActionItem} (h : item.Plain)
    {field : List Char × List Char} (hfield : field ∈ item.fields) : PlainField field := by
  rcases List.mem_append.mp hfield with hmem | hmem
  · obtain ⟨owner, howner, rfl⟩ := List.mem_map.mp hmem
    exact ⟨.inl rfl, h.owner owner (by simpa using howner)⟩
  · obtain ⟨due, hdue, rfl⟩ := List.mem_map.mp hmem
    exact ⟨.inr rfl, h.due due (by simpa using hdue)⟩

theorem PlainField.clean {field : List Char × List Char} (h : PlainField field) {c : Char}
    (hc : c = ':' ∨ c = '|' ∨ c = '\n') : c ∉ field.1 := by
  rcases h.name with hname | hname <;> rw [hname] <;> rcases hc with rfl | rfl | rfl <;> decide

variable {field : List Char × List Char}

theorem WritesField.bar (h : WritesField field t) (hplain : PlainField field) : '|' ∉ t := by
  obtain ⟨name, value, hname, hvalue, rfl⟩ := h
  have hbar : isWhitespace '|' = false := by decide
  simp only [List.mem_append, List.mem_cons, not_or]
  exact ⟨hname.not_mem hbar (hplain.clean (by simp)), by decide,
    hvalue.not_mem hbar hplain.value.bar⟩

theorem WritesField.line (h : WritesField field t) (hplain : PlainField field) : '\n' ∉ t := by
  obtain ⟨name, value, hname, hvalue, rfl⟩ := h
  simp only [List.mem_append, List.mem_cons, not_or]
  exact ⟨hname.line (hplain.clean (by simp)), by decide, hvalue.line hplain.value.line⟩

/-- A written field is read as what it says. -/
theorem WritesField.parse (h : WritesField field t) (hplain : PlainField field)
    {item item' : ActionItem}
    (hitem : field.1 = "owner".toList ∧ item.owner = none ∧
        item' = { item with owner := some field.2 } ∨
      field.1 = "due".toList ∧ item.due = none ∧ item' = { item with due := some field.2 }) :
    parseField item t = .ok item' := by
  obtain ⟨name, value, hname, hvalue, rfl⟩ := h
  have htrim : trim name = field.1 := by
    rw [hname.trim_eq]
    rcases hplain.name with heq | heq <;> rw [heq] <;> decide
  rw [parseField_ok (hname.not_mem colon_not_blank (hplain.clean (by simp))), htrim,
    hvalue.trim_eq, hplain.value.trimmed]
  exact ⟨hplain.value.nonempty, hitem⟩

theorem foldlM_cons_ok {item item' : ActionItem} {fields : List (List Char)}
    (h : parseField item t = .ok item') :
    (t :: fields).foldlM parseField item = fields.foldlM parseField item' := by
  rw [List.foldlM_cons, h]
  rfl

/-- The fields of an item make it up, in either order. -/
theorem foldlM_fields {item : ActionItem} (hplain : item.Plain)
    {order : List (List Char × List Char)} {fields : List (List Char)}
    (horder : order = item.fields ∨ order = item.fields.reverse)
    (hfields : List.Forall₂ WritesField order fields) :
    fields.foldlM parseField { text := item.text } = .ok item := by
  have hfield : ∀ field ∈ item.fields, PlainField field := fun _ h => hplain.field h
  obtain ⟨text, owner, due⟩ := item
  cases owner with
  | none =>
      cases due with
      | none =>
          obtain rfl : order = [] := by rcases horder with rfl | rfl <;> rfl
          cases hfields
          rfl
      | some due =>
          have hdue := hfield ("due".toList, due) (by simp [ActionItem.fields])
          obtain rfl : order = [("due".toList, due)] := by rcases horder with rfl | rfl <;> rfl
          rcases hfields with _ | ⟨hfirst, _ | _⟩
          exact foldlM_cons_ok (hfirst.parse hdue (.inr ⟨rfl, rfl, rfl⟩))
  | some owner =>
      have howner := hfield ("owner".toList, owner) (by simp [ActionItem.fields])
      cases due with
      | none =>
          obtain rfl : order = [("owner".toList, owner)] := by rcases horder with rfl | rfl <;> rfl
          rcases hfields with _ | ⟨hfirst, _ | _⟩
          exact foldlM_cons_ok (hfirst.parse howner (.inl ⟨rfl, rfl, rfl⟩))
      | some due =>
          have hdue := hfield ("due".toList, due) (by simp [ActionItem.fields])
          rcases horder with rfl | rfl
          · rcases hfields with _ | ⟨hfirst, _ | ⟨hsecond, _ | _⟩⟩
            exact (foldlM_cons_ok (hfirst.parse howner (.inl ⟨rfl, rfl, rfl⟩))).trans
              (foldlM_cons_ok (hsecond.parse hdue (.inr ⟨rfl, rfl, rfl⟩)))
          · rcases hfields with _ | ⟨hfirst, _ | ⟨hsecond, _ | _⟩⟩
            exact (foldlM_cons_ok (hfirst.parse hdue (.inr ⟨rfl, rfl, rfl⟩))).trans
              (foldlM_cons_ok (hsecond.parse howner (.inl ⟨rfl, rfl, rfl⟩)))

theorem ActionItem.Plain.order {item : ActionItem} (h : item.Plain)
    {order : List (List Char × List Char)}
    (horder : order = item.fields ∨ order = item.fields.reverse) :
    ∀ field ∈ order, PlainField field := by
  intro field hfield
  rcases horder with rfl | rfl
  · exact h.field hfield
  · exact h.field (List.mem_reverse.mp hfield)

theorem forall_written {P : List Char → Prop} {order : List (List Char × List Char)}
    {fields : List (List Char)} (hfields : List.Forall₂ WritesField order fields)
    (horder : ∀ field ∈ order, PlainField field)
    (h : ∀ {field t}, WritesField field t → PlainField field → P t) : ∀ t ∈ fields, P t := by
  induction hfields with
  | nil => exact nofun
  | cons hfirst _ ih =>
      rw [List.forall_mem_cons] at horder ⊢
      exact ⟨h hfirst horder.1, ih horder.2⟩

/-- A written item is read back. -/
theorem parseLine_written {item : ActionItem} {line : List Char} (hplain : item.Plain)
    (h : WritesItem item line) : parseLine line = .ok (some item) ∧ '\n' ∉ line := by
  obtain ⟨indent, text, order, fields, hindent, htext, horder, hfields, rfl⟩ := h
  have hbar : isWhitespace '|' = false := by decide
  have hplainFields := hplain.order horder
  constructor
  · rw [parseLine_dashed hindent.blank (htext.not_mem hbar hplain.text.bar)
      (forall_written hfields hplainFields fun h hfield => h.bar hfield), htext.trim_eq,
      hplain.text.trimmed, if_neg (by simpa using hplain.text.nonempty),
      foldlM_fields hplain horder hfields]
    rfl
  · have hlines := forall_written hfields hplainFields fun h hfield => h.line hfield
    simp only [dashed, List.mem_append, List.mem_flatMap, List.mem_cons, not_or, not_exists,
      not_and]
    exact ⟨hindent.line, by decide, htext.line hplain.text.line,
      fun t ht => ⟨by decide, hlines t ht⟩⟩

theorem parseLine_other {line : List Char} (h : Other line) : parseLine line = .ok none := by
  have hnone : stripPrefix "- ".toList (trimStart line) = none := by
    rw [stripPrefix, if_neg (fun hdash => h.dash (List.isPrefixOf_iff_prefix.mp hdash))]
  rw [parseLine_eq, hnone]

theorem WrittenLines.read {lines : List (List Char)} {items : List ActionItem}
    (h : WrittenLines lines items) :
    (∃ found, lines.mapM parseLine = .ok found ∧ found.filterMap id = items) ∧
      ∀ line ∈ lines, '\n' ∉ line := by
  induction h with
  | nil => exact ⟨⟨[], rfl, rfl⟩, nofun⟩
  | @item item _ _ _ hplain hline _ ih =>
      obtain ⟨⟨found, hfound, rfl⟩, hlines⟩ := ih
      obtain ⟨hparse, hnewline⟩ := parseLine_written hplain hline
      refine ⟨⟨some item :: found, ?_, rfl⟩, List.forall_mem_cons.mpr ⟨hnewline, hlines⟩⟩
      rw [List.mapM_cons, hparse, hfound]
      rfl
  | other hline _ ih =>
      obtain ⟨⟨found, hfound, rfl⟩, hlines⟩ := ih
      refine ⟨⟨none :: found, ?_, rfl⟩, List.forall_mem_cons.mpr ⟨hline.line, hlines⟩⟩
      rw [List.mapM_cons, parseLine_other hline, hfound]
      rfl

end Reading

/-- The agent reads the lines that follow its name. -/
theorem extractActionItems_message {lines : List (List Char)} (h : ∀ line ∈ lines, '\n' ∉ line) :
    extractActionItems (messageOf lines) = (lines.mapM parseLine).map (·.filterMap id) := by
  have hempty : parseLine [] = .ok none := by decide
  have hremove : ∀ name rest : List Char, name ≠ [] →
      removeFirst name (String.ofList (name ++ rest)).toList = rest := by
    intro name rest h
    rw [String.toList_ofList, removeFirst_append h]
  have hsource : removeFirst "@action-items".toList (messageOf lines).toList =
      lines.flatMap ('\n' :: ·) := hremove _ _ (by decide)
  rw [extractActionItems, hsource, mapM_lines parseLine_dropCarriageReturn hempty]
  have hsplit := split_joined (show '\n' ∉ [] from nofun) h
  rw [List.nil_append] at hsplit
  rw [hsplit, List.mapM_cons, hempty]
  cases lines.mapM parseLine with
  | error e => rfl
  | ok found => rfl

/-! ### Fields that make a text fail -/

/-- Something is wrong with the fields of a line. -/
inductive Flawed (fields : List (List Char)) : Prop
  | unknown {field : List Char} (hfield : field ∈ fields)
      (h : ∀ name value, field = name ++ ':' :: value → ':' ∉ name →
        trim name ≠ "owner".toList ∧ trim name ≠ "due".toList)
  | empty {name value : List Char} (hfield : name ++ ':' :: value ∈ fields) (hname : ':' ∉ name)
      (hvalue : Blank value)
  | repeated {before between after : List (List Char)} {name value name' value' : List Char}
      (hfields : fields =
        before ++ (name ++ ':' :: value) :: between ++ (name' ++ ':' :: value') :: after)
      (hname : ':' ∉ name) (hname' : ':' ∉ name') (hsame : trim name = trim name')

/-- A field that was accepted. -/
theorem accepted_of_foldlM {fields : List (List Char)} {item item' : ActionItem}
    (h : fields.foldlM parseField item = .ok item') {field : List Char} (hfield : field ∈ fields) :
    ∃ before after, parseField before field = .ok after := by
  induction fields generalizing item with
  | nil => cases hfield
  | cons f fields ih =>
      rw [List.foldlM_cons] at h
      obtain ⟨next, hnext, h⟩ := Loops.bind_ok.mp h
      rcases List.mem_cons.mp hfield with rfl | hfield
      · exact ⟨item, next, hnext⟩
      · exact ih h hfield

theorem exists_colon {field : List Char} {item item' : ActionItem}
    (h : parseField item field = .ok item') :
    ∃ name value, field = name ++ ':' :: value ∧ ':' ∉ name := by
  by_cases hcolon : ':' ∈ field
  · obtain ⟨name, value, rfl, hname⟩ := List.eq_append_cons_of_mem hcolon
    exact ⟨name, value, rfl, hname⟩
  · rw [parseField_of_no_colon hcolon] at h
    cases h

/-- An item keeps what it has. -/
theorem kept_of_foldlM {fields : List (List Char)} {item item' : ActionItem}
    (h : fields.foldlM parseField item = .ok item') :
    (item.owner ≠ none → item'.owner ≠ none) ∧ (item.due ≠ none → item'.due ≠ none) := by
  refine Loops.foldlM_ok (P := fun found : ActionItem =>
    (item.owner ≠ none → found.owner ≠ none) ∧ (item.due ≠ none → found.due ≠ none))
    (fun found field next hfound hparse => ?_) ⟨id, id⟩ h
  obtain ⟨name, value, rfl, hname⟩ := exists_colon hparse
  rcases ((parseField_ok hname).mp hparse).2 with ⟨-, -, rfl⟩ | ⟨-, -, rfl⟩
  · exact ⟨fun _ => by simp, hfound.2⟩
  · exact ⟨hfound.1, fun _ => by simp⟩

theorem foldlM_flawed {fields : List (List Char)} (h : Flawed fields) (item : ActionItem) :
    ∃ e, fields.foldlM parseField item = .error e := by
  cases hresult : fields.foldlM parseField item with
  | error e => exact ⟨e, rfl⟩
  | ok item' =>
      exfalso
      cases h with
      | unknown hfield h =>
          obtain ⟨before, after, hparse⟩ := accepted_of_foldlM hresult hfield
          obtain ⟨name, value, rfl, hname⟩ := exists_colon hparse
          obtain ⟨howner, hdue⟩ := h name value rfl hname
          rcases ((parseField_ok hname).mp hparse).2 with ⟨heq, -⟩ | ⟨heq, -⟩
          · exact howner heq
          · exact hdue heq
      | empty hfield hname hvalue =>
          obtain ⟨before, after, hparse⟩ := accepted_of_foldlM hresult hfield
          refine ((parseField_ok hname).mp hparse).1 ?_
          rw [trim, trimStart_blank hvalue]
          rfl
      | @repeated before between after name value name' value' hfields hname hname' hsame =>
          rw [hfields, List.append_assoc, List.foldlM_append] at hresult
          obtain ⟨first, -, hresult⟩ := Loops.bind_ok.mp hresult
          rw [List.cons_append, List.foldlM_cons] at hresult
          obtain ⟨second, hsecond, hresult⟩ := Loops.bind_ok.mp hresult
          rw [List.foldlM_append] at hresult
          obtain ⟨third, hthird, hresult⟩ := Loops.bind_ok.mp hresult
          rw [List.foldlM_cons] at hresult
          obtain ⟨fourth, hfourth, -⟩ := Loops.bind_ok.mp hresult
          have hdistinct : "owner".toList ≠ "due".toList := by decide
          obtain ⟨howner, hdue⟩ := kept_of_foldlM hthird
          -- the second of the two finds what the first has left
          rcases ((parseField_ok hname).mp hsecond).2 with ⟨heq, -, rfl⟩ | ⟨heq, -, rfl⟩ <;>
            rcases ((parseField_ok hname').mp hfourth).2 with ⟨heq', hnone, -⟩ | ⟨heq', hnone, -⟩
          · exact howner (by simp) hnone
          · exact hdistinct (heq.symm.trans (hsame.trans heq'))
          · exact hdistinct (heq'.symm.trans (hsame.symm.trans heq))
          · exact hdue (by simp) hnone

/-- A line that is written like an item's, with a flaw in its fields. -/
def FlawedLine (line : List Char) : Prop :=
  ∃ indent text fields, Spaces indent ∧ '|' ∉ text ∧ (∀ f ∈ fields, '|' ∉ f) ∧ Flawed fields ∧
    line = dashed indent text fields

theorem parseLine_flawed {line : List Char} (h : FlawedLine line) :
    ∃ e, parseLine line = .error e := by
  obtain ⟨indent, text, fields, hindent, htext, hfields, hflawed, rfl⟩ := h
  rw [parseLine_dashed hindent.blank htext hfields]
  split_ifs
  · exact ⟨_, rfl⟩
  · obtain ⟨e, he⟩ := foldlM_flawed hflawed { text := trim text }
    exact ⟨e, by rw [he]; rfl⟩

theorem mapM_error {lines : List (List Char)} {line : List Char} (hline : line ∈ lines)
    (h : ∃ e, parseLine line = .error e) : ∃ e, lines.mapM parseLine = .error e := by
  induction lines with
  | nil => cases hline
  | cons first lines ih =>
      rw [List.mapM_cons]
      cases hfirst : parseLine first with
      | error e => exact ⟨e, rfl⟩
      | ok found =>
          rcases List.mem_cons.mp hline with rfl | hline
          · obtain ⟨e, he⟩ := h
            rw [hfirst] at he
            cases he
          · obtain ⟨e, he⟩ := ih hline
            exact ⟨e, by rw [he]; rfl⟩

/-- Items that are written in some lines, among any others, are read back in
order, whatever the white space; and a line with a flaw among its fields makes the
text fail. -/
theorem action_items_read_back :
    (∀ (lines : List (List Char)) (items : List ActionItem), WrittenLines lines items →
      extractActionItems (messageOf lines) = .ok items) ∧
    ∀ lines : List (List Char), (∀ line ∈ lines, '\n' ∉ line) → (∃ line ∈ lines, FlawedLine line) →
      ∃ e, extractActionItems (messageOf lines) = .error e := by
  constructor
  · intro lines items h
    obtain ⟨⟨found, hfound, hitems⟩, hlines⟩ := h.read
    rw [extractActionItems_message hlines, hfound]
    exact congrArg Except.ok hitems
  · rintro lines hlines ⟨line, hline, hflawed⟩
    obtain ⟨e, he⟩ := mapM_error hline (parseLine_flawed hflawed)
    exact ⟨e, by rw [extractActionItems_message hlines, he]; rfl⟩

/-! A task with its due date before its owner, a line of thanks, and a task with
two owners. -/

def sampleTaskItem : ActionItem where
  text := "Ship it".toList
  owner := some "Maya".toList
  due := some "Friday".toList

def sampleTaskLine : List Char :=
  dashed "  ".toList "Ship it ".toList [" due: Friday ".toList, " owner: Maya".toList]

def sampleTwoOwners : List Char :=
  dashed [] "Ship it".toList ["owner: Maya".toList, "owner: Noor".toList]

theorem sampleTaskLine_writes : WritesItem sampleTaskItem sampleTaskLine := by
  have hspaces : ∀ n ≤ 2, Spaces (List.replicate n ' ') := by
    intro n _
    refine ⟨fun c hc => ?_, fun hc => ?_⟩
    · rw [List.eq_of_mem_replicate hc]
      decide
    · exact absurd (List.eq_of_mem_replicate hc) (by decide)
  have hnone := hspaces 0 (by decide)
  have hone := hspaces 1 (by decide)
  refine ⟨"  ".toList, "Ship it ".toList, _, _, hspaces 2 le_rfl, ⟨[], [' '], hnone, hone, rfl⟩,
    .inr rfl, .cons ?_ (.cons ?_ .nil), rfl⟩
  · exact ⟨" due".toList, " Friday ".toList, ⟨[' '], [], hone, hnone, rfl⟩,
      ⟨[' '], [' '], hone, hone, rfl⟩, rfl⟩
  · exact ⟨" owner".toList, " Maya".toList, ⟨[' '], [], hone, hnone, rfl⟩,
      ⟨[' '], [], hone, hnone, rfl⟩, rfl⟩

theorem action_items_read_back_sample :
    extractActionItems (messageOf [sampleTaskLine, "Thanks!".toList]) = .ok [sampleTaskItem] ∧
      ∃ e, extractActionItems (messageOf [sampleTaskLine, sampleTwoOwners]) = .error e := by
  have hplain : sampleTaskItem.Plain := by
    refine ⟨⟨by decide, by decide, by decide, by decide⟩, ?_, ?_⟩
    · rintro _ ⟨⟩
      exact ⟨by decide, by decide, by decide, by decide⟩
    · rintro _ ⟨⟩
      exact ⟨by decide, by decide, by decide, by decide⟩
  constructor
  · exact action_items_read_back.1 _ _ (.item hplain sampleTaskLine_writes
      (.other ⟨by decide, by decide⟩ .nil))
  · have hfields : ["owner: Maya".toList, "owner: Noor".toList] =
        [] ++ ("owner".toList ++ ':' :: " Maya".toList) :: [] ++
          ("owner".toList ++ ':' :: " Noor".toList) :: [] := by decide
    have hflawed := Flawed.repeated hfields (by decide) (by decide) rfl
    exact action_items_read_back.2 _ (by decide) ⟨sampleTwoOwners, by simp, [], "Ship it".toList,
      _, ⟨nofun, nofun⟩, by decide, by decide, hflawed, rfl⟩

end RoomGateway
