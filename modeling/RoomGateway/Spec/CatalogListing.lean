import RoomGateway.Spec.CatalogPages

/-!
What the browser is shown and what it may select. A page of the bridge passes
the checks of the endpoint, its cursor included, because it leaves out at least
one model of the catalog it was cut out of. Of the page the endpoint lists the
pairs that the policy allows; over all pages these are the pairs that a turn may
select.
-/

namespace RoomGateway

open Schema Text Reading

variable {env : Env} {policy : ConversationPolicy} {doc model : Json} {cursors : CatalogCursors}
  {limits : List Nat}

/-! ### How long a page is -/

section Size

/-- The length of a value's text. -/
def textSize (value : Json) : Nat := byteLength (compact value)

@[simp] theorem byteLength_nil : byteLength [] = 0 := rfl

@[simp] theorem byteLength_cons (c : Char) (s : List Char) :
    byteLength (c :: s) = c.utf8Size + byteLength s := by
  simp [byteLength]

@[simp] theorem byteLength_append (s t : List Char) :
    byteLength (s ++ t) = byteLength s + byteLength t := by
  simp [byteLength]

theorem byteLength_joined {α : Type} (enc : α → List Char) (l : List α) :
    byteLength (joined enc ',' l) =
      (l.map fun a => byteLength (enc a)).sum + (l.length - 1) := by
  have hrest : ∀ l : List α, byteLength (l.flatMap fun a => ',' :: enc a) =
      (l.map fun a => byteLength (enc a)).sum + l.length := by
    intro l
    induction l with
    | nil => rfl
    | cons a l ih =>
        rw [List.flatMap_cons, byteLength_append, byteLength_cons, ih]
        simp only [List.map_cons, List.sum_cons, List.length_cons]
        have : (',' : Char).utf8Size = 1 := rfl
        omega
  cases l with
  | nil => rfl
  | cons a l =>
      rw [joined, byteLength_append, hrest]
      simp only [List.map_cons, List.sum_cons, List.length_cons]
      omega

theorem textSize_arr (items : List Json) :
    textSize (.arr items) = 2 + (items.map textSize).sum + (items.length - 1) := by
  have hopen : ('[' : Char).utf8Size = 1 := rfl
  have hclose : (']' : Char).utf8Size = 1 := rfl
  rw [textSize, compact_arr]
  simp only [List.cons_append, byteLength_cons, byteLength_append, byteLength_joined,
    byteLength_nil]
  change _ + ((items.map textSize).sum + _ + _) = _
  omega

theorem textSize_obj (fields : List (String × Json)) : textSize (.obj fields) =
    2 + (fields.map fun f => byteLength (quote f.1) + 1 + textSize f.2).sum +
      (fields.length - 1) := by
  have hopen : (Char.ofNat 123).utf8Size = 1 := rfl
  have hclose : (Char.ofNat 125).utf8Size = 1 := rfl
  have hperm := List.perm_insertionSort Json.byKey fields
  have hfield : ∀ f : String × Json, byteLength (compactField f) =
      byteLength (quote f.1) + 1 + textSize f.2 := by
    intro f
    rw [compactField, byteLength_append, byteLength_cons, textSize]
    change _ + (1 + _) = _
    omega
  rw [textSize, compact_obj]
  simp only [List.cons_append, byteLength_cons, byteLength_append, byteLength_joined,
    byteLength_nil, hfield]
  rw [(hperm.map _).sum_nat, hperm.length_eq]
  omega

/-- A text that needs no escapes. -/
theorem byteLength_quote {text : String}
    (h : ∀ c ∈ text.toList, escapeChar c = [c] ∧ c.utf8Size = 1) :
    byteLength (quote text) = text.toList.length + 2 := by
  have hquote : ('"' : Char).utf8Size = 1 := rfl
  have hchars : ∀ chars : List Char, (∀ c ∈ chars, escapeChar c = [c] ∧ c.utf8Size = 1) →
      byteLength (chars.flatMap escapeChar) = chars.length := by
    intro chars h
    induction chars with
    | nil => rfl
    | cons c chars ih =>
        rw [List.forall_mem_cons] at h
        rw [List.flatMap_cons, byteLength_append, h.1.1, ih h.2, byteLength_cons, h.1.2]
        simp only [byteLength_nil, List.length_cons]
        omega
  rw [quote]
  simp only [List.cons_append, byteLength_cons, byteLength_append, byteLength_nil, hchars _ h]
  omega

theorem textSize_uuid (id : Uuid) : textSize (.str id.text) = 38 := by
  have hplain : ∀ c ∈ id.text.toList, escapeChar c = [c] ∧ c.utf8Size = 1 := by
    intro c hc
    have hdigit : ∀ d : Fin 16, escapeChar (Uuid.hexDigit d.val) = [Uuid.hexDigit d.val] ∧
        (Uuid.hexDigit d.val).utf8Size = 1 := by decide
    rcases Uuid.mem_text hc with rfl | ⟨d, rfl⟩
    · decide
    · exact hdigit d
  rw [textSize, compact, byteLength_quote hplain, Uuid.length_text]

/-- A model takes more room than a cursor. -/
theorem le_textSize_model (h : catalogModelSchema model = true) (hordered : model.Ordered) :
    34 ≤ textSize model := by
  have heq := eq_obj_of_record ["defaultReasoningEffort", "displayName", "id",
    "supportedReasoningEfforts"] h hordered (by decide) (by simp) (by simp)
  have hkeys : byteLength (quote "defaultReasoningEffort") = 24 ∧
      byteLength (quote "supportedReasoningEfforts") = 27 := by decide
  rw [heq, textSize_obj]
  simp only [List.map_cons, List.map_nil, List.sum_cons, List.sum_nil]
  omega

/-- A catalog as it is written. -/
def catalogOf (revision : Json) (models : List Json) (cursor : Json) : Json :=
  .obj [("catalogRevision", revision), ("data", .arr models), ("nextCursor", cursor),
    ("profileVersion", profileVersion)]

theorem eq_catalogOf (h : Fits catalogSchema doc) (hordered : doc.Ordered) :
    doc = catalogOf doc["catalogRevision"] (pageModels doc) doc["nextCursor"] := by
  have heq := eq_obj_of_record ["catalogRevision", "data", "nextCursor", "profileVersion"] h.valid
    hordered (by decide) (by simp) (by simp)
  have hversion : const profileVersion doc["profileVersion"] = true :=
    record_field h.valid (by simp) (by simp)
  rw [const_eq, decide_eq_true_eq] at hversion
  rw [catalogOf, ← hversion, ← (pageModels_of_schema h.valid).1]
  exact heq

theorem pageModels_catalogOf (revision cursor : Json) (models : List Json) :
    pageModels (catalogOf revision models cursor) = models := by
  rw [pageModels, catalogOf]
  simp

theorem set_data_catalogOf (revision cursor : Json) (models models' : List Json) :
    (catalogOf revision models cursor).set "data" (.arr models') =
      catalogOf revision models' cursor := by
  rw [catalogOf, Json.set, Json.setField, if_neg (by decide), if_neg (by decide), Json.setField,
    if_pos rfl]
  rfl

theorem set_cursor_catalogOf (revision cursor cursor' : Json) (models : List Json) :
    (catalogOf revision models cursor).set "nextCursor" cursor' =
      catalogOf revision models cursor' := by
  rw [catalogOf, Json.set, Json.setField, if_neg (by decide), if_neg (by decide), Json.setField,
    if_neg (by decide), if_neg (by decide), Json.setField, if_pos rfl]
  rfl

theorem textSize_catalogOf (revision : Json) : ∃ rest, ∀ (models : List Json) (cursor : Json),
    textSize (catalogOf revision models cursor) =
      rest + ((models.map textSize).sum + (models.length - 1)) + textSize cursor := by
  refine ⟨textSize (.obj [("catalogRevision", revision), ("data", .arr []), ("nextCursor", .null),
    ("profileVersion", profileVersion)]) - 4, fun models cursor => ?_⟩
  have hnull : textSize .null = 4 := by decide
  rw [catalogOf, textSize_obj, textSize_obj]
  simp only [List.map_cons, List.map_nil, List.sum_cons, List.sum_nil, textSize_arr,
    List.length_cons, List.length_nil, hnull]
  omega

end Size

/-! ### A page of the bridge passes the checks -/

/-- The page of a catalog between two places, with the cursor that follows it. -/
theorem pageAt_eq (hfits : Fits catalogSchema doc) (hwhole : doc["nextCursor"] = .null)
    (hordered : doc.Ordered) (offset limit : Nat) (fresh : Uuid) :
    CatalogBridge.pageAt doc offset limit fresh =
      catalogOf doc["catalogRevision"] (((pageModels doc).drop offset).take limit)
        (if offset + limit < (pageModels doc).length then .str fresh.text else .null) := by
  have heq := eq_catalogOf hfits hordered
  rw [hwhole] at heq
  generalize doc["catalogRevision"] = revision at heq
  generalize pageModels doc = models at heq
  subst heq
  rw [CatalogBridge.pageAt, CatalogBridge.pageFrom, pageModels_catalogOf, set_data_catalogOf]
  split_ifs
  · rw [set_cursor_catalogOf]
  · rfl

/-- Some model is left out where a cursor is put in. -/
theorem textSize_pageAt_le (hfits : Fits catalogSchema doc) (hwhole : doc["nextCursor"] = .null)
    (hordered : doc.Ordered) (offset limit : Nat) (fresh : Uuid) :
    textSize (CatalogBridge.pageAt doc offset limit fresh) ≤ textSize doc := by
  have hdoc : textSize doc = _ := congrArg textSize (eq_catalogOf hfits hordered)
  have hnull : textSize .null = 4 := by decide
  obtain ⟨hdata, -, hmodels⟩ := pageModels_of_schema hfits.valid
  obtain ⟨rest, hsize⟩ := textSize_catalogOf doc["catalogRevision"]
  rw [pageAt_eq hfits hwhole hordered, hdoc, hwhole, hsize, hsize, hnull]
  have hsplit : ((pageModels doc).map textSize).sum =
      (((pageModels doc).take offset).map textSize).sum +
        ((((pageModels doc).drop offset).take limit).map textSize).sum +
        (((pageModels doc).drop (offset + limit)).map textSize).sum := by
    rw [← List.sum_append, ← List.sum_append, ← List.map_append, ← List.map_append,
      ← List.drop_drop, List.append_assoc, List.take_append_drop, List.take_append_drop]
  have hlength : (((pageModels doc).drop offset).take limit).length ≤ (pageModels doc).length := by
    rw [List.length_take, List.length_drop]
    omega
  split_ifs with hmore
  · have hrest : 34 ≤ (((pageModels doc).drop (offset + limit)).map textSize).sum := by
      obtain ⟨model, rest, hcons⟩ : ∃ model rest,
          (pageModels doc).drop (offset + limit) = model :: rest :=
        List.exists_cons_of_length_pos (by rw [List.length_drop]; omega)
      have hmem : model ∈ pageModels doc :=
        List.mem_of_mem_drop (by rw [hcons]; exact List.mem_cons_self)
      have hmodel : model.Ordered := Json.ordered_arr.mp (hdata ▸ hordered.getElem "data") _ hmem
      have := le_textSize_model (hmodels model hmem) hmodel
      rw [hcons, List.map_cons, List.sum_cons]
      omega
    rw [textSize_uuid]
    omega
  · rw [hnull]
    omega

theorem fits_catalogOf {revision cursor : Json} {models : List Json}
    (hrevision : Fits nameSchema revision) (hmodels : ∀ m ∈ models, Fits catalogModelSchema m)
    (hlength : models.length ≤ 100) (hcursor : Fits (nullable (textBetween 1 256)) cursor) :
    Fits catalogSchema (catalogOf revision models cursor) := by
  constructor
  · have hall : models.all catalogModelSchema = true :=
      List.all_eq_true.mpr fun m hm => (hmodels m hm).valid
    simp [catalogSchema, catalogOf, record, hrevision.valid, hcursor.valid, hall, hlength]
  · have hall : ∀ m ∈ models, safeNumbers m = true := fun m hm => (hmodels m hm).safe
    simp [catalogOf, hrevision.safe, hcursor.safe]
    exact hall

theorem fits_cursor (more : Prop) [Decidable more] (fresh : Uuid) :
    Fits (nullable (textBetween 1 256)) (if more then .str fresh.text else .null) := by
  have hlength : fresh.text.length = 36 := Uuid.length_text fresh
  split_ifs
  · exact ⟨nullable_iff.mpr (.inl (by rw [textBetween_str, hlength]; rfl)), rfl⟩
  · exact ⟨nullable_iff.mpr (.inr rfl), rfl⟩

theorem ValidCatalog.fitsModel (h : ValidCatalog policy doc) (hmodel : model ∈ pageModels doc) :
    Fits catalogModelSchema model := by
  refine ⟨(pageModels_of_schema h.fits.valid).2.2 model hmodel, ?_⟩
  have hsafe := safeNumbers_getElem h.fits.safe "data"
  rw [h.data, safeNumbers_arr, List.all_eq_true] at hsafe
  exact hsafe model hmodel

theorem ValidCatalog.fitsRevision (h : ValidCatalog policy doc) :
    Fits nameSchema doc["catalogRevision"] :=
  ⟨record_field h.fits.valid (by simp) (by simp), safeNumbers_getElem h.fits.safe _⟩

/-- The page passes the endpoint's check. -/
theorem validCatalog_pageAt (h : ValidCatalog policy doc) (hwhole : doc["nextCursor"] = .null)
    (hordered : doc.Ordered) (offset limit : Nat) (fresh : Uuid) :
    ValidCatalog policy (CatalogBridge.pageAt doc offset limit fresh) := by
  have hsublist : (((pageModels doc).drop offset).take limit).Sublist (pageModels doc) :=
    (List.take_sublist _ _).trans (List.drop_sublist _ _)
  have hmodels := CatalogBridge.pageModels_pageAt ⟨h.fits, hwhole⟩ offset limit fresh
  have hsize := textSize_pageAt_le h.fits hwhole hordered offset limit fresh
  have heq := pageAt_eq h.fits hwhole hordered offset limit fresh
  refine ⟨?_, hsize.trans h.size, ?_, ?_, ?_, ?_⟩
  · rw [heq]
    exact fits_catalogOf h.fitsRevision (fun m hm => h.fitsModel (hsublist.subset hm))
      (hsublist.length_le.trans (pageModels_of_schema h.fits.valid).2.1) (fits_cursor _ fresh)
  · rw [heq, catalogOf]
    simp [h.revision]
  · rw [hmodels]
    exact h.distinct.sublist (hsublist.map _)
  · rw [hmodels]
    exact fun m hm => h.efforts m (hsublist.subset hm)
  · rw [hmodels]
    exact fun m hm => h.default m (hsublist.subset hm)

/-! ### What is listed of a model -/

/-- The policy lists each model once. -/
theorem validModels_nodup {earlier : List String} {models : List ConversationModel}
    (h : ConversationPolicy.validModels earlier models = true) :
    (models.map (·.id)).Nodup ∧ ∀ m ∈ models, m.id ∉ earlier := by
  induction models generalizing earlier with
  | nil => simp
  | cons m models ih =>
      rw [ConversationPolicy.validModels, Bool.and_eq_true] at h
      obtain ⟨hmodel, hrest⟩ := h
      obtain ⟨hnodup, hothers⟩ := ih hrest
      have hnew : m.id ∉ earlier := by
        simp only [ConversationPolicy.validModel, Bool.and_eq_true] at hmodel
        simpa using hmodel.1.1.1.1.2
      refine ⟨?_, ?_⟩
      · rw [List.map_cons, List.nodup_cons]
        refine ⟨fun hmem => ?_, hnodup⟩
        obtain ⟨other, hother, heq⟩ := List.mem_map.mp hmem
        exact hothers other hother (by simp [heq])
      · rw [List.forall_mem_cons]
        exact ⟨hnew, fun other hother hmem => hothers other hother (List.mem_cons_of_mem _ hmem)⟩

theorem models_nodup_of_validate (h : policy.validate = .ok ()) (henabled : policy.enabled = true) :
    (policy.models.map (·.id)).Nodup := by
  by_cases hmodels : ConversationPolicy.validModels [] policy.models = true
  · exact (validModels_nodup hmodels).1
  · rw [Bool.not_eq_true] at hmodels
    rw [ConversationPolicy.validate, henabled, hmodels] at h
    simp only [Bool.not_true, Bool.not_false, if_true, Bool.false_eq_true, if_false] at h
    split_ifs at h

/-- The efforts of a model that the policy allows. -/
def offeredEfforts (policy : ConversationPolicy) (model : Json) : List String :=
  (modelEfforts model).filter fun effort => policy.allows (.str (modelId model)) (.str effort)

theorem allows_of_listed {allowed : ConversationModel} {effort : String}
    (hnodup : (policy.models.map (·.id)).Nodup) (hmem : allowed ∈ policy.models) :
    policy.allows (.str allowed.id) (.str effort) = true ↔ effort ∈ allowed.reasoningEfforts := by
  simp only [ConversationPolicy.allows, List.any_eq_true, Bool.and_eq_true, decide_eq_true_eq,
    Json.str.injEq]
  constructor
  · rintro ⟨other, hother, hid, e, he, rfl⟩
    rw [List.inj_on_of_nodup_map hnodup hmem hother hid]
    exact he
  · exact fun he => ⟨allowed, hmem, rfl, effort, he, rfl⟩

/-- A listed model is the catalog's, with the efforts that the policy allows. -/
structure Listed (policy : ConversationPolicy) (model listed : Json) : Prop where
  id : modelId listed = modelId model
  efforts : modelEfforts listed = offeredEfforts policy model
  default : DefaultKnown listed
  fits : Fits catalogModelSchema listed

/-- The effort is one of those that the policy lists for the model. -/
def ConversationModel.hasEffort (allowed : ConversationModel) (id : Json) : Bool :=
  allowed.reasoningEfforts.any fun effort => id = Json.str effort

/-- The model with some of its efforts. -/
def narrowed (allowed : ConversationModel) (model : Json) (kept : List Json) : Json :=
  let model := model.set "supportedReasoningEfforts" (.arr kept)
  if allowed.hasEffort model["defaultReasoningEffort"] then model
  else model.set "defaultReasoningEffort" .null

section Narrowed

variable {allowed : ConversationModel} {kept : List Json}

theorem narrowed_of_ne {key : String} (hefforts : "supportedReasoningEfforts" ≠ key)
    (hdefault : "defaultReasoningEffort" ≠ key) :
    (narrowed allowed model kept)[key] = model[key] := by
  unfold narrowed
  dsimp only
  split_ifs
  · exact Json.getElem_set_of_ne hefforts _ _
  · rw [Json.getElem_set_of_ne hdefault, Json.getElem_set_of_ne hefforts]

theorem narrowed_efforts (hmodel : catalogModelSchema model = true) :
    (narrowed allowed model kept)["supportedReasoningEfforts"] = .arr kept := by
  obtain ⟨parts, rfl, -⟩ := fields_of_record hmodel
  unfold narrowed
  dsimp only
  split_ifs
  · exact Json.getElem_set_self _ _ _
  · rw [Json.getElem_set_of_ne (by decide)]
    exact Json.getElem_set_self _ _ _

theorem narrowed_default (hmodel : catalogModelSchema model = true) :
    (narrowed allowed model kept)["defaultReasoningEffort"] =
      if allowed.hasEffort model["defaultReasoningEffort"] then model["defaultReasoningEffort"]
      else .null := by
  have hsame : (model.set "supportedReasoningEfforts" (.arr kept))["defaultReasoningEffort"] =
      model["defaultReasoningEffort"] := Json.getElem_set_of_ne (by decide) _ _
  obtain ⟨parts, rfl, -⟩ := fields_of_record hmodel
  unfold narrowed
  dsimp only
  rw [hsame]
  split_ifs
  · exact hsame
  · exact Json.getElem_set_self _ _ _

theorem fits_narrowed (hfits : Fits catalogModelSchema model)
    (hkept : ∀ e ∈ kept, Fits catalogEffortSchema e) :
    Fits catalogModelSchema (narrowed allowed model kept) := by
  have hall : kept.all catalogEffortSchema = true :=
    List.all_eq_true.mpr fun e he => (hkept e he).valid
  have hsafe : safeNumbers (.arr kept) = true := by
    rw [safeNumbers_arr, List.all_eq_true]
    exact fun e he => (hkept e he).safe
  have hefforts : Fits catalogModelSchema (model.set "supportedReasoningEfforts" (.arr kept)) :=
    ⟨record_assign hfits.valid (by simp) (by simp [hall]), safeNumbers_set hfits.safe hsafe _⟩
  unfold narrowed
  dsimp only
  split_ifs
  · exact hefforts
  · exact ⟨record_assign hefforts.valid (by simp) (by simp), safeNumbers_set hefforts.safe
      safeNumbers_null _⟩

end Narrowed

theorem listModel_of_find {allowed : ConversationModel} {efforts : List Json}
    (hfind : (policy.models.find? fun allowed => model["id"] = Json.str allowed.id) = some allowed)
    (hmodel : catalogModelSchema model = true)
    (harray : model["supportedReasoningEfforts"] = .arr efforts) :
    listModel policy model =
      if (efforts.filter fun e => allowed.hasEffort e["id"]).isEmpty then none
      else some (narrowed allowed model (efforts.filter fun e => allowed.hasEffort e["id"])) := by
  have hefforts : (narrowed allowed model
      (efforts.filter fun e => allowed.hasEffort e["id"]))["supportedReasoningEfforts"] = _ :=
    narrowed_efforts hmodel
  unfold listModel
  rw [hfind, harray]
  change (if (narrowed allowed model
      (efforts.filter fun e => allowed.hasEffort e["id"]))["supportedReasoningEfforts"].asArray.any
        (!·.isEmpty) = true then
      some (narrowed allowed model (efforts.filter fun e => allowed.hasEffort e["id"])) else none) =
        _
  rw [hefforts, Json.asArray, Option.any_some]
  cases (efforts.filter fun e => allowed.hasEffort e["id"]).isEmpty <;> rfl

theorem listModel_spec (hnodup : (policy.models.map (·.id)).Nodup)
    (hfits : Fits catalogModelSchema model) (hdefault : DefaultKnown model) :
    (listModel policy model = none ∧ offeredEfforts policy model = []) ∨
      ∃ listed, listModel policy model = some listed ∧ Listed policy model listed := by
  have hshape := modelShape_of_schema hfits.valid
  cases hfind : policy.models.find? fun allowed => model["id"] = Json.str allowed.id with
  | none =>
      left
      refine ⟨by rw [listModel, hfind], List.filter_eq_nil_iff.mpr fun effort _ => ?_⟩
      rw [List.find?_eq_none] at hfind
      simp only [ConversationPolicy.allows, List.any_eq_true, Bool.and_eq_true]
      rintro ⟨allowed, hallowed, hid, -⟩
      exact hfind allowed hallowed (by rw [hshape.id]; exact hid)
  | some allowed =>
      have hid : modelId model = allowed.id := by
        have hfound := List.find?_some hfind
        rw [hshape.id] at hfound
        simpa using hfound
      have hallows : ∀ effort, allowed.hasEffort (.str effort) =
          policy.allows (.str (modelId model)) (.str effort) := by
        intro effort
        rw [hid, Bool.eq_iff_iff, allows_of_listed hnodup (List.mem_of_find?_eq_some hfind)]
        simp [ConversationModel.hasEffort]
      obtain ⟨efforts, harray, heach⟩ := hshape.efforts
      have hmodelEfforts : modelEfforts model = efforts.map effortId := by
        rw [modelEfforts, harray]
        rfl
      have hoffered : (efforts.filter fun e => allowed.hasEffort e["id"]).map effortId =
          offeredEfforts policy model := by
        rw [offeredEfforts, hmodelEfforts, List.filter_map]
        congr 1
        refine List.filter_congr fun e he => ?_
        rw [heach e he, hallows]
        rfl
      rw [listModel_of_find hfind hfits.valid harray]
      split_ifs with hempty
      · left
        rw [List.isEmpty_iff] at hempty
        rw [← hoffered, hempty]
        exact ⟨rfl, rfl⟩
      · right
        refine ⟨_, rfl, ?_, ?_, ?_, ?_⟩
        · rw [modelId, narrowed_of_ne (by decide) (by decide)]
          rfl
        · rw [modelEfforts, narrowed_efforts hfits.valid]
          exact hoffered
        · -- an allowed default is one of the efforts that are left
          rw [DefaultKnown, narrowed_default hfits.valid, modelEfforts,
            narrowed_efforts hfits.valid]
          rcases hdefault with hnull | ⟨effort, heffort, hdefault⟩
          · rw [hnull]
            left
            split_ifs <;> rfl
          · rw [hdefault, hallows]
            split_ifs with hallowed
            · right
              refine ⟨effort, ?_, rfl⟩
              change effort ∈ (efforts.filter fun e => allowed.hasEffort e["id"]).map effortId
              rw [hoffered]
              exact List.mem_filter.mpr ⟨heffort, hallowed⟩
            · exact .inl rfl
        · refine fits_narrowed hfits fun e he => ?_
          have hmem := List.mem_of_mem_filter he
          have hschema : all [array, items catalogEffortSchema, minItems 0]
              model["supportedReasoningEfforts"] = true :=
            record_field hfits.valid (by simp) (by simp)
          have hsafe := safeNumbers_getElem hfits.safe "supportedReasoningEfforts"
          rw [harray] at hschema hsafe
          rw [safeNumbers_arr, List.all_eq_true] at hsafe
          simp only [all_cons, items_arr, Bool.and_eq_true, List.all_eq_true] at hschema
          exact ⟨hschema.2.1 e hmem, hsafe e hmem⟩

/-! ### One page of the endpoint -/

theorem page_eq (h : Upstream doc) {cursors : List (String × Resume)} {provider : Option String}
    {limit offset : Nat} {entry : Option Resume}
    (hresume : CatalogBridge.resume cursors codexAgentId provider limit = .ok entry)
    (hoffset : CatalogBridge.offset env.underCatalog entry doc = .ok offset)
    (hbound : offset ≤ (pageModels doc).length) (fresh : Uuid) (first : String) :
    CatalogBridge.page env.underCatalog cursors codexAgentId provider limit (.ok doc) fresh first =
      (.ok (CatalogBridge.pageAt doc offset limit fresh),
        if offset + limit < (pageModels doc).length then rememberCursor first cursors fresh.text
          ⟨CatalogBridge.digest env.underCatalog doc, offset + limit⟩ else cursors) := by
  have hcut : CatalogBridge.cut env.underCatalog limit entry (.ok doc) = _ :=
    CatalogBridge.cut_iff.mpr ⟨doc, offset, rfl, h, hoffset, hbound, rfl⟩
  rw [CatalogBridge.page, hresume]
  dsimp only [CatalogBridge.answer]
  rw [hcut]
  unfold CatalogBridge.after CatalogBridge.pageAt
  split_ifs
  · rfl
  · rfl

/-- The page that the endpoint answers with. -/
def listedPage (policy : ConversationPolicy) (doc : Json) (offset limit : Nat) (fresh : Uuid) :
    Json :=
  catalogOf doc["catalogRevision"]
    ((((pageModels doc).drop offset).take limit).filterMap (listModel policy))
    (if offset + limit < (pageModels doc).length then .str fresh.text else .null)

theorem nextCursor_listedPage (policy : ConversationPolicy) (doc : Json) (offset limit : Nat)
    (fresh : Uuid) : (listedPage policy doc offset limit fresh)["nextCursor"] =
      if offset + limit < (pageModels doc).length then .str fresh.text else .null := by
  rw [listedPage, catalogOf]
  simp

theorem listPage_pageAt (h : ValidCatalog policy doc) (hwhole : doc["nextCursor"] = .null)
    (hordered : doc.Ordered) (offset limit : Nat) (fresh : Uuid) :
    listPage env.underCatalog policy limit (CatalogBridge.pageAt doc offset limit fresh) =
      .ok (listedPage policy doc offset limit fresh) := by
  have hvalid := validCatalog_pageAt h hwhole hordered offset limit fresh
  have hmodels := CatalogBridge.pageModels_pageAt ⟨h.fits, hwhole⟩ offset limit fresh
  have hdata := hvalid.data
  unfold listPage
  refine Loops.bind_ok.mpr ⟨(), validateCatalog_iff.mpr hvalid, ?_⟩
  rw [hdata, hmodels]
  dsimp only [Json.asArray]
  rw [if_neg (by rw [List.length_take]; omega), pageAt_eq h.fits hwhole hordered,
    set_data_catalogOf]
  rfl

/-- The listed page passes the check of what is sent. -/
theorem fits_listedPage (hnodup : (policy.models.map (·.id)).Nodup) (h : ValidCatalog policy doc)
    (offset limit : Nat) (fresh : Uuid) :
    Fits catalogSchema (listedPage policy doc offset limit fresh) := by
  have hsublist : (((pageModels doc).drop offset).take limit).Sublist (pageModels doc) :=
    (List.take_sublist _ _).trans (List.drop_sublist _ _)
  refine fits_catalogOf h.fitsRevision (fun listed hlisted => ?_) ?_ (fits_cursor _ fresh)
  · obtain ⟨model, hmodel, heq⟩ := List.mem_filterMap.mp hlisted
    have hmem := hsublist.subset hmodel
    rcases listModel_spec hnodup (h.fitsModel hmem) (h.default model hmem) with
      ⟨hnone, -⟩ | ⟨other, hother, hspec⟩
    · rw [hnone] at heq
      cases heq
    · rw [hother] at heq
      exact Option.some.inj heq ▸ hspec.fits
  · exact (List.length_filterMap_le _ _).trans
      (hsublist.length_le.trans (pageModels_of_schema h.fits.valid).2.1)

theorem models_eq (hnodup : (policy.models.map (·.id)).Nodup) (h : ValidCatalog policy doc)
    (hwhole : doc["nextCursor"] = .null) (hordered : doc.Ordered) {request : ModelsRequest}
    {provider : Option String} {limit offset : Nat} {entry : Option Resume}
    (hlookup : modelsLookup policy cursors request = .ok (limit, provider))
    (hresume : CatalogBridge.resume cursors.bridge codexAgentId provider limit = .ok entry)
    (hoffset : CatalogBridge.offset env.underCatalog entry doc = .ok offset)
    (hbound : offset ≤ (pageModels doc).length) (fresh : Nat → Uuid) (first : Nat → String) :
    models env.underCatalog policy cursors request (.ok doc) fresh first =
      (.ok (listedPage policy doc offset limit (fresh 1)),
        if offset + limit < (pageModels doc).length then
          ⟨rememberCursor (first 1) cursors.issued (fresh 1).text
              (policy.catalogRevision, (fresh 0).text),
            rememberCursor (first 0) cursors.bridge (fresh 0).text
              ⟨CatalogBridge.digest env.underCatalog doc, offset + limit⟩⟩
        else cursors) := by
  have hlisted : listPage env.underCatalog policy limit _ = _ :=
    listPage_pageAt h hwhole hordered offset limit (fresh 0)
  have hsent := fits_listedPage hnodup h offset limit (fresh 1)
  have hprofile : ∀ page, Fits catalogSchema page →
      validateProfileValue env.underCatalog .catalog page = .ok () :=
    fun _ hfits => validateProfileValue_ok.mpr hfits
  rw [models, hlookup]
  dsimp only
  rw [page_eq ⟨h.fits, hwhole⟩ hresume hoffset hbound]
  dsimp only [Except.bind]
  rw [hlisted]
  dsimp only
  have hcursor := nextCursor_listedPage policy doc offset limit (fresh 0)
  by_cases hmore : offset + limit < (pageModels doc).length
  · rw [if_pos hmore] at hcursor
    have hset : (listedPage policy doc offset limit (fresh 0)).set "nextCursor" (fresh 1) =
        listedPage policy doc offset limit (fresh 1) := by
      unfold listedPage
      rw [set_cursor_catalogOf, if_pos hmore]
    simp only [hcursor, hset, Json.asStr, hprofile _ hsent, Except.map, if_pos hmore]
  · have hsame : listedPage policy doc offset limit (fresh 0) =
        listedPage policy doc offset limit (fresh 1) := by
      unfold listedPage
      rw [if_neg hmore, if_neg hmore]
    rw [if_neg hmore, hsame] at hcursor
    simp only [hcursor, Json.asStr, hsame, hprofile _ hsent, Except.map, if_neg hmore]

/-! ### A browser that follows the cursors -/

/-- A request for a page, as the endpoint reads it. -/
structure Asks (request : ModelsRequest) (limit : Nat) (cursor : Option String) : Prop where
  room : ∃ room : Uuid, request.room = room.text
  agent : request.agent = codexAgentId.text
  params : modelsParams request.params = .ok (limit, cursor)

theorem canonicalUuid_text (id : Uuid) : canonicalUuid id.text = .ok id := by
  rw [canonicalUuid, Uuid.parse_text]
  dsimp only
  rw [if_neg (not_not.mpr rfl)]

theorem modelsParams_limit {params : List (String × String)} {limit : Nat}
    {cursor : Option String} (h : modelsParams params = .ok (limit, cursor)) :
    1 ≤ limit ∧ limit ≤ 100 := by
  unfold modelsParams at h
  cases hfold : params.foldlM modelsParam ([], 100, none) with
  | error e =>
      rw [hfold] at h
      cases h
  | ok state =>
      rw [hfold] at h
      have hstate : 1 ≤ state.2.1 ∧ state.2.1 ≤ 100 := by
        refine Loops.foldlM_ok (P := fun s : List String × Nat × Option String =>
          1 ≤ s.2.1 ∧ s.2.1 ≤ 100) ?_ (by decide) hfold
        rintro ⟨names, limit, cursor⟩ param s' hs hparam
        unfold modelsParam at hparam
        dsimp only at hparam
        split_ifs at hparam with hseen hlimit hcursor htext
        · cases hparse : parseUsize param.2 with
          | none =>
              rw [hparse] at hparam
              cases hparam
          | some n =>
              rw [hparse] at hparam
              dsimp only at hparam
              split_ifs at hparam with hn
              rw [← Except.ok.inj hparam]
              simpa using hn
        · rw [← Except.ok.inj hparam]
          exact hs
      have hresult : state.2 = (limit, cursor) := Except.ok.inj h
      rw [hresult] at hstate
      exact hstate

/-- The bridge's cursor that a cursor of the endpoint stands for. -/
def providerCursor (policy : ConversationPolicy) (cursors : CatalogCursors) (limit : Nat) :
    Option String → Except ConversationError (Nat × Option String)
  | none => .ok (limit, none)
  | some cursor =>
      match findCursor cursors.issued cursor with
      | none => .error .conversationStale
      | some (revision, provider) =>
          if revision ≠ policy.catalogRevision then .error .conversationStale
          else .ok (limit, some provider)

theorem modelsLookup_eq (henabled : policy.enabled = true) (cursors : CatalogCursors)
    {request : ModelsRequest} {limit : Nat} {cursor : Option String}
    (h : Asks request limit cursor) :
    modelsLookup policy cursors request = providerCursor policy cursors limit cursor := by
  obtain ⟨room, hroom⟩ := h.room
  simp only [modelsLookup, hroom, h.agent, h.params, canonicalUuid_text, henabled]
  cases cursor with
  | none => rfl
  | some cursor => rfl

/-- No cursor was evicted. -/
structure Kept (before after : CatalogCursors) : Prop where
  issued : ∀ cursor entry, findCursor before.issued cursor = some entry →
    findCursor after.issued cursor = some entry
  bridge : ∀ cursor entry, findCursor before.bridge cursor = some entry →
    findCursor after.bridge cursor = some entry

/-- The cursor that a browser goes on with. -/
def GoesOn (answers : List (Except ConversationError Json)) (cursor : Option String) : Prop :=
  match answers.getLast? with
  | none => cursor = none
  | some answer => ∃ page next, answer = .ok page ∧ page["nextCursor"] = .str next ∧
      cursor = some next

/-- The pages that a browser asks for, while others ask for theirs. -/
inductive Browse (env : Env) (policy : ConversationPolicy) (doc : Json) :
    CatalogCursors → List Nat → List (Except ConversationError Json) → Prop
  | start (cursors : CatalogCursors) : Browse env policy doc cursors [] []
  | wait {before after : CatalogCursors} {limits : List Nat}
      {answers : List (Except ConversationError Json)}
        (h : Browse env policy doc before limits answers)
      (hkept : Kept before after) : Browse env policy doc after limits answers
  | ask {cursors : CatalogCursors} {limits : List Nat}
      {answers : List (Except ConversationError Json)} {request : ModelsRequest} {limit : Nat}
      {cursor : Option String} (h : Browse env policy doc cursors limits answers)
      (hasks : Asks request limit cursor) (hcursor : GoesOn answers cursor) (fresh : Nat → Uuid)
      (first : Nat → String) :
      Browse env policy doc (models env policy cursors request (.ok doc) fresh first).2
        (limits ++ [limit]) (answers ++
          [(models env policy cursors request (.ok doc) fresh first).1])

/-- Where a browser is: it was shown what the policy allows of the catalog up to
the sum of its limits, and its cursor stands for that place. -/
structure Browsed (env : Env) (policy : ConversationPolicy) (doc : Json) (cursors : CatalogCursors)
    (limits : List Nat) (pages : List Json) : Prop where
  count : pages.length = limits.length
  shown : pages.flatMap pageModels =
    ((pageModels doc).take limits.sum).filterMap (listModel policy)
  steps : limits.length ≤ limits.sum
  ends : limits.length ≤ max 1 (pageModels doc).length
  last : ∀ page ∈ pages.getLast?,
    page["nextCursor"] = .null ∧ (pageModels doc).length ≤ limits.sum ∨
      ∃ next provider, page["nextCursor"] = .str next ∧ limits.sum < (pageModels doc).length ∧
        findCursor cursors.issued next = some (policy.catalogRevision, provider) ∧
        findCursor cursors.bridge provider =
          some ⟨CatalogBridge.digest env doc, limits.sum⟩

theorem Browsed.wait {before after : CatalogCursors} {pages : List Json}
    (h : Browsed env policy doc before limits pages) (hkept : Kept before after) :
    Browsed env policy doc after limits pages :=
  { h with
    last := fun page hpage => (h.last page hpage).imp_right fun
      ⟨next, provider, hnext, hopen, hissued, hbridge⟩ => ⟨next, provider, hnext, hopen,
        hkept.issued _ _ hissued, hkept.bridge _ _ hbridge⟩ }

/-- What the request of a browser that goes on comes to. -/
theorem Browsed.resume (henabled : policy.enabled = true) {pages : List Json}
    (h : Browsed env policy doc cursors limits pages) {request : ModelsRequest} {limit : Nat}
    {cursor : Option String} (hasks : Asks request limit cursor)
    (hcursor : GoesOn (pages.map .ok) cursor) :
    (limits = [] ∨ limits.sum < (pageModels doc).length) ∧
      ∃ provider entry, modelsLookup policy cursors request = .ok (limit, provider) ∧
        CatalogBridge.resume cursors.bridge codexAgentId provider limit = .ok entry ∧
        CatalogBridge.offset env entry doc = .ok limits.sum := by
  have hlimit := modelsParams_limit hasks.params
  rw [modelsLookup_eq henabled cursors hasks]
  unfold GoesOn at hcursor
  rw [List.getLast?_map] at hcursor
  cases hlast : pages.getLast? with
  | none =>
      rw [hlast] at hcursor
      have hempty : limits = [] := by
        rw [List.getLast?_eq_none_iff] at hlast
        have hcount := h.count
        rw [hlast] at hcount
        exact List.length_eq_zero_iff.mp hcount.symm
      subst hempty
      rw [show cursor = none from hcursor]
      exact ⟨.inl rfl, none, none, rfl, resume_first hlimit, rfl⟩
  | some page =>
      rw [hlast] at hcursor
      obtain ⟨page', next, hpage, hnext, rfl⟩ := hcursor
      obtain rfl : page = page' := Except.ok.inj hpage
      rcases h.last page hlast with ⟨hnull, -⟩ | ⟨next', provider, hnext', hopen, hissued, hbridge⟩
      · rw [hnull] at hnext
        cases hnext
      · obtain rfl : next' = next := Json.str.inj (hnext'.symm.trans hnext)
        refine ⟨.inr hopen, some provider, _, ?_, resume_known hlimit hbridge, offset_known rfl⟩
        rw [providerCursor, hissued]
        exact if_neg (not_not.mpr rfl)

theorem findCursor_remember_self {β : Type} (first : String) (cursors : List (String × β))
    (cursor : String) (entry : β) :
    findCursor (rememberCursor first cursors cursor entry) cursor = some entry := by
  rw [findCursor, rememberCursor, Keyed.at?_put, if_pos rfl]
  rfl

/-- One page more. -/
theorem Browsed.page {pages : List Json} (h : Browsed env policy doc cursors limits pages)
    (hopen : limits = [] ∨ limits.sum < (pageModels doc).length) {limit : Nat} (hlimit : 1 ≤ limit)
    (fresh : Nat → Uuid) (first : Nat → String) :
    Browsed env policy doc
      (if limits.sum + limit < (pageModels doc).length then
        ⟨rememberCursor (first 1) cursors.issued (fresh 1).text
            (policy.catalogRevision, (fresh 0).text),
          rememberCursor (first 0) cursors.bridge (fresh 0).text
            ⟨CatalogBridge.digest env doc, limits.sum + limit⟩⟩
      else cursors)
      (limits ++ [limit]) (pages ++ [listedPage policy doc limits.sum limit (fresh 1)]) := by
  have hsum : (limits ++ [limit]).sum = limits.sum + limit := by simp
  refine ⟨by simp [h.count], ?_, ?_, ?_, ?_⟩
  · rw [List.flatMap_append, h.shown, List.flatMap_singleton, listedPage, pageModels_catalogOf,
      hsum, List.take_add, List.filterMap_append]
  · rw [List.length_append, List.length_singleton, hsum]
    exact Nat.add_le_add h.steps hlimit
  · rw [List.length_append, List.length_singleton]
    rcases hopen with rfl | hopen
    · exact le_max_left _ _
    · have hsteps := h.steps
      exact le_max_of_le_right (by omega)
  · intro page hpage
    rw [List.getLast?_concat, Option.mem_some_iff] at hpage
    rw [← hpage, nextCursor_listedPage, hsum]
    split_ifs with hmore
    · exact .inr ⟨_, _, rfl, hmore, findCursor_remember_self _ _ _ _,
        findCursor_remember_self _ _ _ _⟩
    · exact .inl ⟨rfl, not_lt.mp hmore⟩

theorem browse_browsed (hnodup : (policy.models.map (·.id)).Nodup)
    (henabled : policy.enabled = true) (hvalid : ValidCatalog policy doc)
    (hwhole : doc["nextCursor"] = .null) (hordered : doc.Ordered)
    {answers : List (Except ConversationError Json)}
    (h : Browse env.underCatalog policy doc cursors limits answers) :
    ∃ pages : List Json, answers = pages.map .ok ∧
      Browsed env.underCatalog policy doc cursors limits pages := by
  induction h with
  | start cursors => exact ⟨[], rfl, rfl, rfl, by simp, by simp, by simp⟩
  | wait h hkept ih =>
      obtain ⟨pages, hanswers, hbrowsed⟩ := ih
      exact ⟨pages, hanswers, hbrowsed.wait hkept⟩
  | @ask cursors limits answers request limit cursor h hasks hcursor fresh first ih =>
      obtain ⟨pages, rfl, hbrowsed⟩ := ih
      obtain ⟨hopen, provider, entry, hlookup, hresume, hoffset⟩ :=
        hbrowsed.resume henabled hasks hcursor
      have hbound : limits.sum ≤ (pageModels doc).length := by
        rcases hopen with rfl | hopen
        · exact Nat.zero_le _
        · exact hopen.le
      rw [models_eq hnodup hvalid hwhole hordered hlookup hresume hoffset hbound]
      refine ⟨pages ++ [listedPage policy doc limits.sum limit (fresh 1)], by simp, ?_⟩
      exact hbrowsed.page hopen (modelsParams_limit hasks.params).1 fresh first

/-! ### What may be selected -/

/-- A choice of a model and an effort under the current catalog. -/
def settingsOf (policy : ConversationPolicy) (model effort : String) : Json :=
  .obj [("catalogRevision", policy.catalogRevision), ("model", model), ("reasoningEffort", effort)]

/-- The policy and the catalog accept the pair. -/
structure Accepted (env : Env) (policy : ConversationPolicy) (doc : Json)
    (bridge : List (String × Resume)) (fresh : Uuid) (first model effort : String) : Prop where
  settings : policy.resolveSettings (some (settingsOf policy model effort)) =
    .ok (settingsOf policy model effort)
  catalog : validateCatalogSelection env
    ⟨fun cursor => (CatalogBridge.page env bridge codexAgentId cursor 100 (.ok doc) fresh first).1,
      false⟩ policy (settingsOf policy model effort) = .ok ()

theorem resolveSettings_iff {m e : String} :
    policy.resolveSettings (some (settingsOf policy m e)) = .ok (settingsOf policy m e) ↔
      policy.allows (.str m) (.str e) = true := by
  have hsettings : (settingsOf policy m e)["catalogRevision"] = .str policy.catalogRevision ∧
      (settingsOf policy m e)["model"] = .str m ∧
      (settingsOf policy m e)["reasoningEffort"] = .str e := by
    simp [settingsOf]
  simp only [ConversationPolicy.resolveSettings, Option.getD_some, hsettings]
  cases policy.allows (.str m) (.str e) <;> simp

/-- The catalog is one page for the walk of a selection. -/
theorem selection_iff (hvalid : ValidCatalog policy doc) (hwhole : doc["nextCursor"] = .null)
    (hordered : doc.Ordered) (bridge : List (String × Resume)) (fresh : Uuid) (first : String)
    {m e : String} :
    validateCatalogSelection env.underCatalog
      ⟨fun cursor => (CatalogBridge.page env.underCatalog bridge codexAgentId cursor 100 (.ok doc)
        fresh first).1, false⟩ policy (settingsOf policy m e) = .ok () ↔
      ∃ model ∈ pageModels doc, modelId model = m ∧ e ∈ modelEfforts model := by
  have hfew := (pageModels_of_schema hvalid.fits.valid).2.1
  have hmodels := CatalogBridge.pageModels_pageAt ⟨hvalid.fits, hwhole⟩ 0 100 fresh
  rw [List.drop_zero, List.take_of_length_le hfew] at hmodels
  have hend : (CatalogBridge.pageAt doc 0 100 fresh)["nextCursor"].asStr = none := by
    rw [CatalogBridge.nextCursor_pageAt ⟨hvalid.fits, hwhole⟩, if_neg (by omega)]
    rfl
  have hread : (CatalogBridge.page env.underCatalog bridge codexAgentId none 100 (.ok doc)
      fresh first).1 = .ok (CatalogBridge.pageAt doc 0 100 fresh) := by
    rw [page_eq ⟨hvalid.fits, hwhole⟩ (resume_first (by decide)) rfl (Nat.zero_le _)]
  have hoffered : ∀ model, isSelected (settingsOf policy m e) model = true ∧
      hasEffort (settingsOf policy m e) model = true ↔
        modelId model = m ∧ e ∈ modelEfforts model := by
    intro model
    simp [isSelected, hasEffort, settingsOf]
  rw [validateCatalogSelection_iff]
  constructor
  · rintro ⟨pages, hpages, hselectable⟩
    have hone : pages = [CatalogBridge.pageAt doc 0 100 fresh] := by
      cases hpages with
      | last h _ => rw [Except.ok.inj (h.symm.trans hread)]
      | next h hnext _ =>
          rw [Except.ok.inj (h.symm.trans hread), hend] at hnext
          cases hnext
    obtain ⟨model, hmodel, hpair⟩ := hselectable.offered
    rw [hone, List.flatMap_singleton, hmodels] at hmodel
    exact ⟨model, hmodel, (hoffered model).mp hpair⟩
  · rintro ⟨model, hmodel, hpair⟩
    refine ⟨[CatalogBridge.pageAt doc 0 100 fresh], .last hread hend, by simp, ?_, ?_, ?_, model,
      ?_, (hoffered model).mpr hpair⟩
    · simp [nextCursors, hend]
    · simpa using validCatalog_pageAt hvalid hwhole hordered 0 100 fresh
    · rw [List.flatMap_singleton, hmodels]
      exact hvalid.distinct
    · rw [List.flatMap_singleton, hmodels]
      exact hmodel

/-- The pairs that some pages list. -/
def listedPairs (pages : List Json) : List (String × String) :=
  (pages.flatMap pageModels).flatMap fun model => (modelEfforts model).map (modelId model, ·)

theorem mem_shown (hnodup : (policy.models.map (·.id)).Nodup) (hvalid : ValidCatalog policy doc)
    {listed : Json} (h : listed ∈ (pageModels doc).filterMap (listModel policy)) :
    ∃ model ∈ pageModels doc, Listed policy model listed := by
  obtain ⟨model, hmodel, heq⟩ := List.mem_filterMap.mp h
  rcases listModel_spec hnodup (hvalid.fitsModel hmodel) (hvalid.default model hmodel) with
    ⟨hnone, -⟩ | ⟨other, hother, hspec⟩
  · rw [hnone] at heq
    cases heq
  · rw [hother] at heq
    exact ⟨model, hmodel, Option.some.inj heq ▸ hspec⟩

theorem mem_listedPairs (hnodup : (policy.models.map (·.id)).Nodup)
    (hvalid : ValidCatalog policy doc) {pages : List Json}
    (hshown : pages.flatMap pageModels = (pageModels doc).filterMap (listModel policy))
    {m e : String} : (m, e) ∈ listedPairs pages ↔ policy.allows (.str m) (.str e) = true ∧
      ∃ model ∈ pageModels doc, modelId model = m ∧ e ∈ modelEfforts model := by
  rw [listedPairs, hshown, List.mem_flatMap]
  constructor
  · rintro ⟨listed, hlisted, hpair⟩
    obtain ⟨model, hmodel, hspec⟩ := mem_shown hnodup hvalid hlisted
    obtain ⟨effort, heffort, heq⟩ := List.mem_map.mp hpair
    obtain ⟨rfl, rfl⟩ := Prod.mk.inj heq
    rw [hspec.efforts, offeredEfforts, List.mem_filter] at heffort
    rw [hspec.id]
    exact ⟨heffort.2, model, hmodel, rfl, heffort.1⟩
  · rintro ⟨hallows, model, hmodel, rfl, he⟩
    have hoffered : e ∈ offeredEfforts policy model := List.mem_filter.mpr ⟨he, hallows⟩
    rcases listModel_spec hnodup (hvalid.fitsModel hmodel) (hvalid.default model hmodel) with
      ⟨-, hnone⟩ | ⟨listed, hlisted, hspec⟩
    · rw [hnone] at hoffered
      cases hoffered
    · refine ⟨listed, List.mem_filterMap.mpr ⟨model, hmodel, hlisted⟩, ?_⟩
      rw [hspec.id, hspec.efforts]
      exact List.mem_map.mpr ⟨e, hoffered, rfl⟩

theorem nodup_shown (hnodup : (policy.models.map (·.id)).Nodup) (hvalid : ValidCatalog policy doc) :
    (((pageModels doc).filterMap (listModel policy)).map modelId).Nodup := by
  have hsublist : ∀ models : List Json, (∀ m ∈ models, m ∈ pageModels doc) →
      ((models.filterMap (listModel policy)).map modelId).Sublist (models.map modelId) := by
    intro models hmodels
    induction models with
    | nil => exact .slnil
    | cons m models ih =>
        rw [List.forall_mem_cons] at hmodels
        rcases listModel_spec hnodup (hvalid.fitsModel hmodels.1) (hvalid.default m hmodels.1) with
          ⟨hnone, -⟩ | ⟨listed, hlisted, hspec⟩
        · rw [List.filterMap_cons_none hnone]
          exact (ih hmodels.2).cons _
        · rw [List.filterMap_cons_some hlisted, List.map_cons, List.map_cons, hspec.id]
          exact (ih hmodels.2).cons_cons _
  exact hvalid.distinct.sublist (hsublist _ fun _ hm => hm)

/-! ### A catalog that says there is more -/

theorem page_refused (hmore : doc["nextCursor"] ≠ .null) (cursors : List (String × Resume))
    (agent : Uuid) (cursor : Option String) (limit : Nat) (fresh : Uuid) (first : String) :
    ∃ e, (CatalogBridge.page env.underCatalog cursors agent cursor limit (.ok doc) fresh first).1 =
      .error e := by
  unfold CatalogBridge.page
  cases CatalogBridge.resume cursors agent cursor limit with
  | error e => exact ⟨e, rfl⟩
  | ok entry =>
      dsimp only [CatalogBridge.answer]
      cases hcut : CatalogBridge.cut env.underCatalog limit entry (.ok doc) with
      | error e => exact ⟨e, rfl⟩
      | ok result =>
          obtain ⟨doc', -, hdoc, hupstream, -⟩ := CatalogBridge.cut_iff.mp hcut
          obtain rfl := Except.ok.inj hdoc
          exact absurd hupstream.whole hmore

theorem browse_refused (hmore : doc["nextCursor"] ≠ .null)
    {answers : List (Except ConversationError Json)}
    (h : Browse env.underCatalog policy doc cursors limits answers) :
    ∀ answer ∈ answers, ∃ e, answer = .error e := by
  induction h with
  | start => simp
  | wait _ _ ih => exact ih
  | @ask cursors limits answers request limit cursor _ _ _ fresh first ih =>
      rw [List.forall_mem_append, List.forall_mem_singleton]
      refine ⟨ih, ?_⟩
      unfold models
      cases modelsLookup policy cursors request with
      | error e => exact ⟨e, rfl⟩
      | ok result =>
          obtain ⟨e, he⟩ : ∃ e, (CatalogBridge.page env.underCatalog cursors.bridge codexAgentId
              result.2 result.1 (.ok doc) (fresh 0) (first 0)).1 = .error e :=
            page_refused hmore _ _ _ _ _ _
          dsimp only
          rw [he]
          exact ⟨e, rfl⟩

/-- Every pair that a browser is shown may be selected, and every pair that may
be selected is shown, whatever the sizes of the pages. A catalog that is not
whole is neither shown nor selected from. The keys of `doc` increase, as those
of a parsed value do. -/
theorem shown_iff_selectable (env : Env) (hpolicy : policy.validate = .ok ())
    (henabled : policy.enabled = true)
    (hdoc : validateCatalog env.underCatalog doc policy = .ok ()) (hordered : doc.Ordered)
    {cursors : CatalogCursors} {limits : List Nat}
    {answers : List (Except ConversationError Json)}
    (h : Browse env.underCatalog policy doc cursors limits answers) :
    (doc["nextCursor"] = .null → limits.length ≤ max 1 (pageModels doc).length ∧
      ∃ pages : List Json, answers = pages.map .ok ∧ ∀ page ∈ pages.getLast?,
        page["nextCursor"] = .null ∨ ∃ next, page["nextCursor"] = .str next) ∧
    (∀ pages : List Json, answers = pages.map .ok →
      (∃ page ∈ pages.getLast?, page["nextCursor"] = .null) →
      (∀ bridge fresh first m e, (m, e) ∈ listedPairs pages ↔
        Accepted env.underCatalog policy doc bridge fresh first m e) ∧
      ((pages.flatMap pageModels).map modelId).Nodup ∧
      ∀ model ∈ pages.flatMap pageModels, DefaultKnown model) ∧
    (doc["nextCursor"] ≠ .null → (∀ answer ∈ answers, ∃ e, answer = .error e) ∧
      ∀ bridge fresh first m e, ¬ Accepted env.underCatalog policy doc bridge fresh first m e) := by
  have hnodup := models_nodup_of_validate hpolicy henabled
  have hvalid := validateCatalog_iff.mp hdoc
  refine ⟨fun hwhole => ?_, ?_, fun hmore => ⟨browse_refused hmore h, ?_⟩⟩
  · obtain ⟨pages, hanswers, hbrowsed⟩ :=
      browse_browsed hnodup henabled hvalid hwhole hordered h
    refine ⟨hbrowsed.ends, pages, hanswers, fun page hpage => ?_⟩
    rcases hbrowsed.last page hpage with ⟨hnull, -⟩ | ⟨next, _, hnext, -⟩
    · exact .inl hnull
    · exact .inr ⟨next, hnext⟩
  · rintro pages hanswers ⟨page, hpage, hnull⟩
    by_cases hwhole : doc["nextCursor"] = .null
    · obtain ⟨pages', hanswers', hbrowsed⟩ :=
        browse_browsed hnodup henabled hvalid hwhole hordered h
      obtain rfl : pages = pages' := by
        have hinjective : Function.Injective (Except.ok : Json → Except ConversationError Json) :=
          fun _ _ heq => Except.ok.inj heq
        exact hinjective.list_map (hanswers.symm.trans hanswers')
      have hshown := hbrowsed.shown
      rcases hbrowsed.last page hpage with ⟨-, hall⟩ | ⟨next, _, hnext, -⟩
      · rw [List.take_of_length_le hall] at hshown
        refine ⟨fun bridge fresh first m e => ?_, ?_, ?_⟩
        · rw [mem_listedPairs hnodup hvalid hshown, ← resolveSettings_iff,
            ← selection_iff hvalid hwhole hordered bridge fresh first]
          exact ⟨fun hpair => ⟨hpair.1, hpair.2⟩, fun hpair => ⟨hpair.settings, hpair.catalog⟩⟩
        · rw [hshown]
          exact nodup_shown hnodup hvalid
        · rw [hshown]
          intro listed hlisted
          obtain ⟨_, _, hspec⟩ := mem_shown hnodup hvalid hlisted
          exact hspec.default
      · rw [hnull] at hnext
        cases hnext
    · have hmem : Except.ok page ∈ answers := by
        rw [hanswers]
        exact List.mem_map_of_mem (List.mem_of_getLast? hpage)
      obtain ⟨e, he⟩ := browse_refused hwhole h _ hmem
      cases he
  · intro bridge fresh first m e haccepted
    obtain ⟨pages, hpages, -⟩ := validateCatalogSelection_iff.mp haccepted.catalog
    obtain ⟨e, he⟩ :
      ∃ e, (CatalogBridge.page env.underCatalog bridge codexAgentId none 100 (.ok doc)
      fresh first).1 = .error e := page_refused hmore bridge codexAgentId none 100 fresh first
    cases hpages with
    | last hread _ =>
        rw [he] at hread
        cases hread
    | next hread _ _ =>
        rw [he] at hread
        cases hread

theorem sampleCatalog_ordered : sampleCatalog.Ordered := by
  have heffort : (Json.obj [("description", "Quick"), ("id", "low")]).Ordered :=
    Json.ordered_obj.mpr ⟨by decide, by simp [Json.ordered_str]⟩
  have hkeys : ["defaultReasoningEffort", "displayName", "id",
      "supportedReasoningEfforts"].Pairwise (· < ·) := by decide
  have hmodel : ∀ id, (sampleModel id).Ordered := fun id =>
    Json.ordered_obj.mpr ⟨hkeys, by simp [Json.ordered_str, Json.ordered_arr, heffort]⟩
  exact Json.ordered_obj.mpr
    ⟨by decide, by simp [Json.ordered_str, Json.ordered_null, Json.ordered_arr, hmodel]⟩

/-- A request for pages of one model. -/
def sampleModels (cursor : Option String) : ModelsRequest :=
  ⟨(1 : Uuid).text, codexAgentId.text, ("limit", "1") :: cursor.toList.map (("cursor", ·))⟩

/-- The cursors after the first page. -/
def sampleCursors : CatalogCursors :=
  (models sampleEnv.underCatalog samplePolicy {} (sampleModels none) (.ok sampleCatalog)
    (fun n => .ofNat (70 + n)) fun _ => "").2

/-- A browser that follows the cursor of the first page sees on the two pages what
may be selected. -/
theorem shown_iff_selectable_sample :
    Browse sampleEnv.underCatalog samplePolicy sampleCatalog
        (models sampleEnv.underCatalog samplePolicy sampleCursors
          (sampleModels (some (71 : Uuid).text)) (.ok sampleCatalog) (fun n => .ofNat (80 + n))
          fun _ => "").2 [1, 1]
        [.ok (listedPage samplePolicy sampleCatalog 0 1 71),
          .ok (listedPage samplePolicy sampleCatalog 1 1 81)] ∧
      (("m1", "low") ∈ listedPairs [listedPage samplePolicy sampleCatalog 0 1 71,
          listedPage samplePolicy sampleCatalog 1 1 81] ↔
        Accepted sampleEnv.underCatalog samplePolicy sampleCatalog [] 70 "" "m1" "low") := by
  have hpolicy : samplePolicy.validate = .ok () := by decide
  have hdoc : validateCatalog sampleEnv.underCatalog sampleCatalog samplePolicy = .ok () := by
    decide +kernel
  have hfirst : (models sampleEnv.underCatalog samplePolicy {} (sampleModels none)
      (.ok sampleCatalog) (fun n => .ofNat (70 + n)) fun _ => "").1 =
        .ok (listedPage samplePolicy sampleCatalog 0 1 71) := by decide +kernel
  have hsecond : (models sampleEnv.underCatalog samplePolicy sampleCursors
      (sampleModels (some (71 : Uuid).text)) (.ok sampleCatalog) (fun n => .ofNat (80 + n))
      fun _ => "").1 = .ok (listedPage samplePolicy sampleCatalog 1 1 81) := by decide +kernel
  have hone : Browse sampleEnv.underCatalog samplePolicy sampleCatalog sampleCursors [1]
      [.ok (listedPage samplePolicy sampleCatalog 0 1 71)] := by
    have hstart : Browse sampleEnv.underCatalog samplePolicy sampleCatalog {} [] [] := .start {}
    have hasks : Asks (sampleModels none) 1 none := ⟨⟨1, rfl⟩, rfl, by decide +kernel⟩
    have hask := hstart.ask hasks rfl (fun n => .ofNat (70 + n)) fun _ => ""
    rwa [hfirst] at hask
  have hasks : Asks (sampleModels (some (71 : Uuid).text)) 1 (some (71 : Uuid).text) :=
    ⟨⟨1, rfl⟩, rfl, by decide +kernel⟩
  have htwo := hone.ask hasks
    ⟨_, _, rfl, nextCursor_listedPage samplePolicy sampleCatalog 0 1 71, rfl⟩
    (fun n => .ofNat (80 + n)) fun _ => ""
  rw [hsecond] at htwo
  have hend := nextCursor_listedPage samplePolicy sampleCatalog 1 1 81
  exact ⟨htwo, ((shown_iff_selectable sampleEnv hpolicy rfl hdoc sampleCatalog_ordered htwo).2.1
    [_, _] rfl ⟨_, rfl, hend⟩).1 [] 70 "" "m1" "low"⟩

end RoomGateway
