import RoomGateway.Lib.Loops
import RoomGateway.Model.Catalog
import RoomGateway.Spec.ProfileContract

/-!
Catalog pages and the selection of a model. A selected pair is looked up by
walking the pages of a catalog, which may be anything: it may repeat itself,
loop or change its mind. The walk is bounded, and it accepts exactly the pairs
that a well-behaved catalog of at most 100 pages has.
-/

namespace RoomGateway

open Schema

variable {env : Env} {policy : ConversationPolicy} {page model : Json}

/-! ### What a page holds -/

def pageModels (page : Json) : List Json := page["data"].asArray.getD []

def modelId (model : Json) : String := model["id"].asStr.getD ""

def effortId (effort : Json) : String := effort["id"].asStr.getD ""

def modelEfforts (model : Json) : List String :=
  (model["supportedReasoningEfforts"].asArray.getD []).map effortId

/-- The fields of a model that the gateway reads. -/
structure ModelShape (model : Json) : Prop where
  id : model["id"] = .str (modelId model)
  efforts : ∃ efforts, model["supportedReasoningEfforts"] = .arr efforts ∧
    ∀ e ∈ efforts, e["id"] = .str (effortId e)
  default : model["defaultReasoningEffort"] = .null ∨
    ∃ effort, model["defaultReasoningEffort"] = .str effort

theorem nullable_iff {schema : Schema} {value : Json} :
    nullable schema value = true ↔ schema value = true ∨ value = .null := by
  have hnull : null value = true ↔ value = .null := by
    cases value <;> simp [null, Json.isNull]
  simp [nullable, any, hnull]

theorem modelShape_of_schema (h : catalogModelSchema model = true) : ModelShape model := by
  have hid : nameSchema model["id"] = true := record_field h (by simp) (by simp)
  have hdefault : nullable nameSchema model["defaultReasoningEffort"] = true :=
    record_field h (by simp) (by simp)
  have hefforts : all [array, items catalogEffortSchema, minItems 0]
      model["supportedReasoningEfforts"] = true := record_field h (by simp) (by simp)
  rw [all_cons, all_cons, Bool.and_eq_true, Bool.and_eq_true] at hefforts
  obtain ⟨efforts, heq⟩ := eq_arr_of_array hefforts.1
  have hitems := hefforts.2.1
  rw [heq, items_arr, List.all_eq_true] at hitems
  refine ⟨?_, ⟨efforts, heq, fun e he => ?_⟩, ?_⟩
  · obtain ⟨s, hs, -⟩ := eq_str_of_textBetween hid
    rw [modelId, hs]
    rfl
  · have heffort : nameSchema e["id"] = true := record_field (hitems e he) (by simp) (by simp)
    obtain ⟨s, hs, -⟩ := eq_str_of_textBetween heffort
    rw [effortId, hs]
    rfl
  · rcases nullable_iff.mp hdefault with hname | hnull
    · obtain ⟨s, hs, -⟩ := eq_str_of_textBetween hname
      exact .inr ⟨s, hs⟩
    · exact .inl hnull

theorem pageModels_of_schema (h : catalogSchema page = true) :
    page["data"] = .arr (pageModels page) ∧ (pageModels page).length ≤ 100 ∧
      ∀ model ∈ pageModels page, catalogModelSchema model = true := by
  have hdata : all [array, items catalogModelSchema, minItems 0, maxItems 100] page["data"] =
      true := record_field h (by simp) (by simp)
  simp only [all_cons, all_nil, Bool.and_true, Bool.and_eq_true] at hdata
  obtain ⟨harray, hitems, -, hmax⟩ := hdata
  obtain ⟨models, heq⟩ := eq_arr_of_array harray
  have hmodels : pageModels page = models := by rw [pageModels, heq]; rfl
  rw [heq, items_arr, List.all_eq_true] at hitems
  rw [heq, maxItems_arr, decide_eq_true_eq] at hmax
  rw [hmodels]
  exact ⟨heq, hmax, hitems⟩

/-! ### Valid pages -/

/-- The default is none, or one of the model's own efforts. -/
def DefaultKnown (model : Json) : Prop :=
  model["defaultReasoningEffort"] = .null ∨
    ∃ effort ∈ modelEfforts model, model["defaultReasoningEffort"] = .str effort

/-- What the check of a page comes to. -/
structure ValidCatalog (policy : ConversationPolicy) (page : Json) : Prop where
  fits : Fits catalogSchema page
  size : Text.byteLength (compact page) ≤ 1048576
  revision : page["catalogRevision"] = .str policy.catalogRevision
  distinct : ((pageModels page).map modelId).Nodup
  efforts : ∀ model ∈ pageModels page, (modelEfforts model).Nodup
  default : ∀ model ∈ pageModels page, DefaultKnown model

theorem ValidCatalog.shape (h : ValidCatalog policy page) (hmodel : model ∈ pageModels page) :
    ModelShape model :=
  modelShape_of_schema ((pageModels_of_schema h.fits.valid).2.2 model hmodel)

theorem ValidCatalog.data (h : ValidCatalog policy page) :
    page["data"] = .arr (pageModels page) :=
  (pageModels_of_schema h.fits.valid).1

theorem ModelShape.asStr (h : ModelShape model) : model["id"].asStr = some (modelId model) := by
  rw [h.id]
  rfl

theorem ModelShape.effortIds (h : ModelShape model) :
    ∃ efforts, model["supportedReasoningEfforts"].asArray = some efforts ∧
      modelEfforts model = efforts.map effortId ∧
      (efforts.map fun e => e["id"].asStr) = (modelEfforts model).map some ∧
      ∀ e ∈ efforts, e["id"] = .str (effortId e) := by
  obtain ⟨efforts, heq, heach⟩ := h.efforts
  have hefforts : modelEfforts model = efforts.map effortId := by
    rw [modelEfforts, heq]
    rfl
  refine ⟨efforts, by rw [heq]; rfl, hefforts, ?_, heach⟩
  rw [hefforts, List.map_map]
  refine List.map_congr_left fun e he => ?_
  rw [heach e he]
  rfl

theorem defaultKnown_iff (h : ModelShape model) : DefaultKnown model ↔
    (!model["defaultReasoningEffort"].isNull &&
      !((modelEfforts model).map some).contains model["defaultReasoningEffort"].asStr) =
        false := by
  unfold DefaultKnown
  rcases h.default with hnull | ⟨effort, heffort⟩
  · simp [hnull, Json.isNull]
  · simp [heffort, Json.isNull]

theorem validateCatalogModel_iff (h : ModelShape model) {seen next : List (Option String)} :
    validateCatalogModel seen model = .ok next ↔
      some (modelId model) ∉ seen ∧ (modelEfforts model).Nodup ∧ DefaultKnown model ∧
        next = some (modelId model) :: seen := by
  obtain ⟨efforts, harray, -, hids, -⟩ := h.effortIds
  have hnodup : ((modelEfforts model).map some).Nodup ↔ (modelEfforts model).Nodup :=
    List.nodup_map_iff (Option.some_injective _)
  rw [validateCatalogModel, h.asStr, harray, defaultKnown_iff h]
  dsimp only
  rw [hids]
  split_ifs with hseen hunique hdefault
  · simp_all
  · simp_all
  · simp_all
  · simp_all
    exact eq_comm

theorem validateCatalogModels_iff {models : List Json} (hshape : ∀ m ∈ models, ModelShape m)
    {seen : List (Option String)} :
    (∃ next, models.foldlM validateCatalogModel seen = .ok next) ↔
      (∀ m ∈ models, some (modelId m) ∉ seen) ∧ (models.map modelId).Nodup ∧
        ∀ m ∈ models, (modelEfforts m).Nodup ∧ DefaultKnown m := by
  induction models generalizing seen with
  | nil => exact iff_of_true ⟨seen, rfl⟩ (by simp)
  | cons m models ih =>
      have hm := hshape m List.mem_cons_self
      have hrest := fun x hx => hshape x (List.mem_cons_of_mem m hx)
      constructor
      · rintro ⟨next, h⟩
        rw [List.foldlM_cons] at h
        obtain ⟨mid, hmid, h⟩ := Loops.bind_ok.mp h
        obtain ⟨hnew, hefforts, hdefault, rfl⟩ := (validateCatalogModel_iff hm).mp hmid
        obtain ⟨hothers, hnodup, hall⟩ := (ih hrest).mp ⟨next, h⟩
        refine ⟨List.forall_mem_cons.mpr ⟨hnew, fun x hx => ?_⟩, List.nodup_cons.mpr ⟨?_, hnodup⟩,
          List.forall_mem_cons.mpr ⟨⟨hefforts, hdefault⟩, hall⟩⟩
        · exact fun hmem => hothers x hx (List.mem_cons_of_mem _ hmem)
        · intro hmem
          obtain ⟨x, hx, heq⟩ := List.mem_map.mp hmem
          exact hothers x hx (by simp [heq])
      · rintro ⟨hothers, hnodup, hall⟩
        obtain ⟨hfresh, hnodup⟩ := List.nodup_cons.mp hnodup
        obtain ⟨⟨hefforts, hdefault⟩, hall⟩ := List.forall_mem_cons.mp hall
        have hmid := (validateCatalogModel_iff hm).mpr
          ⟨hothers m List.mem_cons_self, hefforts, hdefault, rfl⟩
        have hnew : ∀ x ∈ models, some (modelId x) ∉ some (modelId m) :: seen := by
          intro x hx hmem
          rcases List.mem_cons.mp hmem with heq | hmem
          · exact hfresh (Option.some.inj heq ▸ List.mem_map_of_mem hx)
          · exact hothers x (List.mem_cons_of_mem m hx) hmem
        obtain ⟨next, h⟩ := (ih hrest).mpr ⟨hnew, hnodup, hall⟩
        exact ⟨next, by rw [List.foldlM_cons]; exact Loops.bind_ok.mpr ⟨_, hmid, h⟩⟩

theorem validateCatalog_iff :
    validateCatalog env.underCatalog page policy = .ok () ↔ ValidCatalog policy page := by
  have hprofile : validateProfileValue env.underCatalog .catalog page = .ok () ↔
      Fits catalogSchema page := validateProfileValue_ok
  have hmodels : ∀ {models : List Json},
      (models.foldlM validateCatalogModel []).map (fun _ => ()) = .ok () ↔
        ∃ next, models.foldlM validateCatalogModel [] = .ok next := by
    intro models
    cases models.foldlM validateCatalogModel [] <;> simp [Except.map]
  unfold validateCatalog
  constructor
  · intro h
    obtain ⟨_, hfits, h⟩ := Loops.bind_ok.mp h
    have hfits := hprofile.mp (Loops.mapError_ok.mp hfits)
    have hshape : ∀ m ∈ pageModels page, ModelShape m := fun m hm =>
      modelShape_of_schema ((pageModels_of_schema hfits.valid).2.2 m hm)
    rw [(pageModels_of_schema hfits.valid).1] at h
    dsimp only [Json.asArray] at h
    by_cases hsize : Text.byteLength (compact page) > 1048576
    · rw [if_pos hsize] at h
      cases h
    · by_cases hrevision : page["catalogRevision"] = .str policy.catalogRevision
      · rw [if_neg hsize, if_neg (not_not.mpr hrevision), hmodels,
          validateCatalogModels_iff hshape] at h
        obtain ⟨-, hdistinct, hall⟩ := h
        exact ⟨hfits, by omega, hrevision, hdistinct, fun m hm => (hall m hm).1,
          fun m hm => (hall m hm).2⟩
      · rw [if_neg hsize, if_pos hrevision] at h
        cases h
  · intro h
    refine Loops.bind_ok.mpr ⟨(), Loops.mapError_ok.mpr (hprofile.mpr h.fits), ?_⟩
    rw [h.data]
    dsimp only [Json.asArray]
    have hsize := h.size
    rw [if_neg (by omega), if_neg (not_not.mpr h.revision), hmodels,
      validateCatalogModels_iff fun m hm => h.shape hm]
    exact ⟨by simp, h.distinct, fun m hm => ⟨h.efforts m hm, h.default m hm⟩⟩

/-! ### The selected pair -/

/-- The model is the selected one. -/
def isSelected (selected model : Json) : Bool := Json.str (modelId model) = selected["model"]

/-- The model has the selected effort. -/
def hasEffort (selected model : Json) : Bool :=
  (modelEfforts model).any fun effort => Json.str effort = selected["reasoningEffort"]

/-- Whether the pair was found, after some more models: the last model of the
selected id decides. -/
def foundAfter (selected : Json) (models : List Json) (found : Bool) : Bool :=
  models.foldl (fun found model => if isSelected selected model then hasEffort selected model
    else found) found

theorem selectModel_iff {selected : Json} (h : ModelShape model) {state next : List String × Bool} :
    selectModel selected state model = .ok next ↔ modelId model ∉ state.1 ∧
      next = (modelId model :: state.1,
        if isSelected selected model then hasEffort selected model else state.2) := by
  obtain ⟨efforts, harray, hids, -, heach⟩ := h.effortIds
  have hany : (efforts.any fun e => e["id"] = selected["reasoningEffort"]) =
      hasEffort selected model := by
    rw [hasEffort, hids, List.any_map, Bool.eq_iff_iff, List.any_eq_true, List.any_eq_true]
    refine exists_congr fun e => and_congr_right fun he => ?_
    rw [heach e he]
    rfl
  have hselected : (Json.str (modelId model) = selected["model"]) ↔
      isSelected selected model = true := by simp [isSelected]
  rw [selectModel, h.asStr, h.id, harray]
  dsimp only
  rw [hany]
  by_cases hseen : state.1.contains (modelId model) = true
  · simp_all
  · have hnew : modelId model ∉ state.1 := by simpa using hseen
    rw [if_neg hseen]
    by_cases hmodel : isSelected selected model = true
    · rw [if_pos (hselected.mpr hmodel), if_pos hmodel]
      exact ⟨fun h => ⟨hnew, (Except.ok.inj h).symm⟩, fun h => congrArg Except.ok h.2.symm⟩
    · rw [if_neg (fun h => hmodel (hselected.mp h)), if_neg hmodel]
      exact ⟨fun h => ⟨hnew, (Except.ok.inj h).symm⟩, fun h => congrArg Except.ok h.2.symm⟩

theorem selectModels_iff {selected : Json} {models : List Json}
    (hshape : ∀ m ∈ models, ModelShape m) {state next : List String × Bool} :
    models.foldlM (selectModel selected) state = .ok next ↔
      (∀ m ∈ models, modelId m ∉ state.1) ∧ (models.map modelId).Nodup ∧
        next = ((models.map modelId).reverse ++ state.1, foundAfter selected models state.2) := by
  induction models generalizing state with
  | nil =>
      refine ⟨fun h => ⟨by simp, .nil, (Except.ok.inj h).symm⟩, ?_⟩
      exact fun h => congrArg Except.ok h.2.2.symm
  | cons m models ih =>
      have hm := hshape m List.mem_cons_self
      have hrest := fun x hx => hshape x (List.mem_cons_of_mem m hx)
      rw [List.foldlM_cons, Loops.bind_ok]
      constructor
      · rintro ⟨mid, hmid, h⟩
        obtain ⟨hnew, rfl⟩ := (selectModel_iff hm).mp hmid
        obtain ⟨hothers, hnodup, rfl⟩ := (ih hrest).mp h
        refine ⟨List.forall_mem_cons.mpr ⟨hnew, fun x hx hmem => ?_⟩,
          List.nodup_cons.mpr ⟨fun hmem => ?_, hnodup⟩, ?_⟩
        · exact hothers x hx (List.mem_cons_of_mem _ hmem)
        · obtain ⟨x, hx, heq⟩ := List.mem_map.mp hmem
          exact hothers x hx (by simp [heq])
        · simp [foundAfter]
      · rintro ⟨hothers, hnodup, rfl⟩
        obtain ⟨hfresh, hnodup⟩ := List.nodup_cons.mp hnodup
        refine ⟨_, (selectModel_iff hm).mpr ⟨hothers m List.mem_cons_self, rfl⟩,
          (ih hrest).mpr ⟨fun x hx hmem => ?_, hnodup, ?_⟩⟩
        · rcases List.mem_cons.mp hmem with heq | hmem
          · exact hfresh (heq ▸ List.mem_map_of_mem hx)
          · exact hothers x (List.mem_cons_of_mem m hx) hmem
        · simp [foundAfter]

/-- Models with ids of their own: the pair was found if a model has it. -/
theorem foundAfter_iff {selected : Json} {models : List Json} (h : (models.map modelId).Nodup) :
    foundAfter selected models false = true ↔
      ∃ m ∈ models, isSelected selected m = true ∧ hasEffort selected m = true := by
  have hgeneral : ∀ found : Bool, foundAfter selected models found = true ↔
      (∃ m ∈ models, isSelected selected m = true ∧ hasEffort selected m = true) ∨
        (found = true ∧ ∀ m ∈ models, isSelected selected m = false) := by
    induction models with
    | nil => simp [foundAfter]
    | cons m models ih =>
        obtain ⟨hfresh, hnodup⟩ := List.nodup_cons.mp h
        intro found
        rw [foundAfter, List.foldl_cons, ← foundAfter, ih hnodup]
        by_cases hm : isSelected selected m = true
        · -- nobody else has the id
          have hothers : ∀ x ∈ models, isSelected selected x = false := by
            intro x hx
            refine Bool.eq_false_iff.mpr fun hsame => hfresh ?_
            have hid : Json.str (modelId x) = Json.str (modelId m) :=
              (of_decide_eq_true hsame).trans (of_decide_eq_true hm).symm
            exact Json.str.inj hid ▸ List.mem_map_of_mem hx
          have hnone : ¬ ∃ x ∈ models, isSelected selected x = true ∧
              hasEffort selected x = true := by
            rintro ⟨x, hx, hsame, -⟩
            rw [hothers x hx] at hsame
            cases hsame
          simp only [hm, hnone, if_true, false_or, List.exists_mem_cons_iff,
            List.forall_mem_cons, true_and, or_false, Bool.true_eq_false, false_and, and_false]
          exact and_iff_left hothers
        · simp [hm]
  rw [hgeneral]
  simp

/-! ### Walking the pages -/

/-- The pages one comes to from a cursor, up to one without a next cursor. -/
inductive PagesFrom (read : Option String → Except ConversationError Json) :
    Option String → List Json → Prop
  | last {cursor : Option String} {page : Json} (h : read cursor = .ok page)
      (hend : page["nextCursor"].asStr = none) : PagesFrom read cursor [page]
  | next {cursor : Option String} {page : Json} {next : String} {pages : List Json}
      (h : read cursor = .ok page) (hnext : page["nextCursor"].asStr = some next)
      (rest : PagesFrom read (some next) pages) : PagesFrom read cursor (page :: pages)

def nextCursors (pages : List Json) : List String := pages.filterMap (·["nextCursor"].asStr)

/-- The pages make up a catalog that has the selected pair. -/
structure Selectable (policy : ConversationPolicy) (selected : Json) (pages : List Json) :
    Prop where
  bounded : pages.length ≤ 100
  acyclic : (nextCursors pages).Nodup
  valid : ∀ page ∈ pages, ValidCatalog policy page
  distinct : ((pages.flatMap pageModels).map modelId).Nodup
  offered : ∃ model ∈ pages.flatMap pageModels, isSelected selected model = true ∧
    hasEffort selected model = true

section Walk

variable {read : Option String → Except ConversationError Json} {selected : Json}
  {timedOut : Bool} {fuel : Nat} {cursor : Option String} {cursors : List String}
  {state : List String × Bool}

/-- One page of the walk. -/
theorem selectFrom_succ :
    selectFrom env.underCatalog ⟨read, timedOut⟩ policy selected (fuel + 1) cursor cursors state =
        .ok () ↔
      ∃ page, read cursor = .ok page ∧ ValidCatalog policy page ∧
        (∀ m ∈ pageModels page, modelId m ∉ state.1) ∧
        match page["nextCursor"].asStr with
        | none => foundAfter selected (pageModels page) state.2 = true
        | some next => next ∉ cursors ∧
            selectFrom env.underCatalog ⟨read, timedOut⟩ policy selected fuel (some next)
              (next :: cursors) (((pageModels page).map modelId).reverse ++ state.1,
                foundAfter selected (pageModels page) state.2) = .ok () := by
  rw [selectFrom, Loops.bind_ok]
  refine exists_congr fun page => and_congr_right fun hread => ?_
  rw [Loops.bind_ok]
  constructor
  · rintro ⟨_, hvalid, h⟩
    have hvalid := validateCatalog_iff.mp hvalid
    rw [hvalid.data] at h
    dsimp only [Json.asArray] at h
    obtain ⟨next, hmodels, h⟩ := Loops.bind_ok.mp h
    obtain ⟨hnew, -, rfl⟩ := (selectModels_iff fun m hm => hvalid.shape hm).mp hmodels
    refine ⟨hvalid, hnew, ?_⟩
    cases hnext : page["nextCursor"].asStr with
    | none =>
        rw [hnext] at h
        dsimp only at h ⊢
        by_contra hfound
        rw [if_neg hfound] at h
        cases h
    | some next =>
        rw [hnext] at h
        dsimp only at h ⊢
        by_cases hseen : cursors.contains next = true
        · rw [if_pos hseen] at h
          cases h
        · rw [if_neg hseen] at h
          exact ⟨by simpa using hseen, h⟩
  · rintro ⟨hvalid, hnew, h⟩
    refine ⟨(), validateCatalog_iff.mpr hvalid, ?_⟩
    rw [hvalid.data]
    dsimp only [Json.asArray]
    refine Loops.bind_ok.mpr ⟨_, (selectModels_iff fun m hm => hvalid.shape hm).mpr
      ⟨hnew, hvalid.distinct, rfl⟩, ?_⟩
    cases hnext : page["nextCursor"].asStr with
    | none =>
        rw [hnext] at h
        exact if_pos h
    | some next =>
        rw [hnext] at h
        exact (if_neg (by simpa using h.1)).trans h.2

theorem foundAfter_append (selected : Json) (models models' : List Json) (found : Bool) :
    foundAfter selected (models ++ models') found =
      foundAfter selected models' (foundAfter selected models found) :=
  List.foldl_append

/-- A walk of these pages that starts with some cursors and models seen. -/
structure WalkFrom (policy : ConversationPolicy) (selected : Json) (cursors : List String)
    (state : List String × Bool) (pages : List Json) : Prop where
  acyclic : (nextCursors pages).Nodup
  unseen : ∀ c ∈ nextCursors pages, c ∉ cursors
  valid : ∀ page ∈ pages, ValidCatalog policy page
  fresh : ∀ m ∈ pages.flatMap pageModels, modelId m ∉ state.1
  distinct : ((pages.flatMap pageModels).map modelId).Nodup
  found : foundAfter selected (pages.flatMap pageModels) state.2 = true

theorem walkFrom_last (hend : page["nextCursor"].asStr = none) :
    WalkFrom policy selected cursors state [page] ↔ ValidCatalog policy page ∧
      (∀ m ∈ pageModels page, modelId m ∉ state.1) ∧
      foundAfter selected (pageModels page) state.2 = true := by
  constructor
  · intro h
    refine ⟨h.valid page (by simp), ?_, ?_⟩
    · simpa using h.fresh
    · simpa using h.found
  · rintro ⟨hvalid, hfresh, hfound⟩
    refine ⟨?_, ?_, by simpa using hvalid, by simpa using hfresh, ?_, by simpa using hfound⟩
    · simp [nextCursors, hend]
    · simp [nextCursors, hend]
    · simpa using hvalid.distinct

theorem walkFrom_next {next : String} {pages : List Json}
    (hnext : page["nextCursor"].asStr = some next) :
    WalkFrom policy selected cursors state (page :: pages) ↔ ValidCatalog policy page ∧
      (∀ m ∈ pageModels page, modelId m ∉ state.1) ∧ next ∉ cursors ∧
      WalkFrom policy selected (next :: cursors)
        (((pageModels page).map modelId).reverse ++ state.1,
        foundAfter selected (pageModels page) state.2) pages := by
  have hcursors : nextCursors (page :: pages) = next :: nextCursors pages := by
    simp [nextCursors, hnext]
  have hfound : ∀ found, foundAfter selected ((page :: pages).flatMap pageModels) found =
      foundAfter selected (pages.flatMap pageModels)
        (foundAfter selected (pageModels page) found) := by
    intro found
    rw [List.flatMap_cons, foundAfter_append]
  constructor
  · intro h
    have hacyclic := h.acyclic
    have hunseen := h.unseen
    rw [hcursors] at hacyclic hunseen
    obtain ⟨hnew, hacyclic⟩ := List.nodup_cons.mp hacyclic
    have hdistinct := h.distinct
    have hfresh := h.fresh
    rw [List.flatMap_cons, List.map_append, List.nodup_append] at hdistinct
    rw [List.flatMap_cons] at hfresh
    refine ⟨h.valid page List.mem_cons_self, fun m hm => hfresh m (List.mem_append_left _ hm),
      hunseen next List.mem_cons_self, hacyclic, fun c hc hmem => ?_,
      fun x hx => h.valid x (List.mem_cons_of_mem _ hx), fun m hm hmem => ?_, hdistinct.2.1,
      (hfound state.2).symm.trans h.found⟩
    · rcases List.mem_cons.mp hmem with rfl | hmem
      · exact hnew hc
      · exact hunseen c (List.mem_cons_of_mem _ hc) hmem
    · rcases List.mem_append.mp hmem with hmem | hmem
      · exact hdistinct.2.2 _ (List.mem_reverse.mp hmem) _ (List.mem_map_of_mem hm) rfl
      · exact hfresh m (List.mem_append_right _ hm) hmem
  · rintro ⟨hvalid, hnew, hunseen, h⟩
    have hfresh : ∀ m ∈ pages.flatMap pageModels, modelId m ∉ (pageModels page).map modelId ∧
        modelId m ∉ state.1 := by
      intro m hm
      have := h.fresh m hm
      rw [List.mem_append, List.mem_reverse, not_or] at this
      exact this
    refine ⟨?_, ?_, List.forall_mem_cons.mpr ⟨hvalid, h.valid⟩, ?_, ?_,
      (hfound state.2).trans h.found⟩
    · rw [hcursors, List.nodup_cons]
      exact ⟨fun hmem => h.unseen next hmem List.mem_cons_self, h.acyclic⟩
    · rw [hcursors, List.forall_mem_cons]
      exact ⟨hunseen, fun c hc hmem => h.unseen c hc (List.mem_cons_of_mem _ hmem)⟩
    · rw [List.flatMap_cons, List.forall_mem_append]
      exact ⟨hnew, fun m hm => (hfresh m hm).2⟩
    · rw [List.flatMap_cons, List.map_append, List.nodup_append]
      refine ⟨hvalid.distinct, h.distinct, ?_⟩
      rintro id hid _ hmem rfl
      obtain ⟨m, hm, rfl⟩ := List.mem_map.mp hmem
      exact (hfresh m hm).1 hid

/-- What the walk accepts from a point on. -/
theorem selectFrom_iff :
    selectFrom env.underCatalog ⟨read, timedOut⟩ policy selected fuel cursor cursors state =
        .ok () ↔
      ∃ pages, PagesFrom read cursor pages ∧ pages.length ≤ fuel ∧
        WalkFrom policy selected cursors state pages := by
  induction fuel generalizing cursor cursors state with
  | zero =>
      refine iff_of_false (fun h => ?_) ?_
      · cases h
      · rintro ⟨pages, hfollows, hlength, -⟩
        cases hfollows <;> simp at hlength
  | succ fuel ih =>
      rw [selectFrom_succ]
      constructor
      · rintro ⟨page, hread, hvalid, hnew, h⟩
        cases hnext : page["nextCursor"].asStr with
        | none =>
            rw [hnext] at h
            exact ⟨[page], .last hread hnext, by simp, (walkFrom_last hnext).mpr ⟨hvalid, hnew, h⟩⟩
        | some next =>
            rw [hnext] at h
            obtain ⟨pages, hfollows, hlength, hwalk⟩ := ih.mp h.2
            exact ⟨page :: pages, .next hread hnext hfollows, by simpa using hlength,
              (walkFrom_next hnext).mpr ⟨hvalid, hnew, h.1, hwalk⟩⟩
      · rintro ⟨pages, hfollows, hlength, hwalk⟩
        cases hfollows with
        | @last _ page hread hend =>
            obtain ⟨hvalid, hnew, hfound⟩ := (walkFrom_last hend).mp hwalk
            refine ⟨page, hread, hvalid, hnew, ?_⟩
            rw [hend]
            exact hfound
        | @next _ page next pages hread hnext hrest =>
            obtain ⟨hvalid, hnew, hunseen, hwalk⟩ := (walkFrom_next hnext).mp hwalk
            refine ⟨page, hread, hvalid, hnew, ?_⟩
            rw [hnext]
            exact ⟨hunseen, ih.mpr ⟨pages, hrest, by simpa using hlength, hwalk⟩⟩

/-! ### How much is read -/

/-- The models of a page against what was seen before it. -/
def selectPage (env : Env) (policy : ConversationPolicy) (selected page : Json)
    (state : List String × Bool) : Except ConversationError (List String × Bool) := do
  validateCatalog env page policy
  match page["data"].asArray with
  | none => .error .runtimeUnavailable
  | some models => models.foldlM (selectModel selected) state

/-- The walk, where reading a page is an effect. -/
def selectVia {m : Type → Type} [Monad m] (env : Env)
    (read : Option String → m (Except ConversationError Json)) (policy : ConversationPolicy)
    (selected : Json) :
    Nat → Option String → List String → List String × Bool → m (Except ConversationError Unit)
  | 0, _, _, _ => pure (.error .runtimeUnavailable)
  | fuel + 1, cursor, cursors, state => do
      match ← read cursor with
      | .error e => pure (.error e)
      | .ok page =>
          match selectPage env policy selected page state with
          | .error e => pure (.error e)
          | .ok state =>
              match page["nextCursor"].asStr with
              | none => pure (if state.2 then .ok () else .error .invalidTaskInput)
              | some next =>
                  if cursors.contains next then pure (.error .runtimeUnavailable)
                  else selectVia env read policy selected fuel (some next) (next :: cursors) state

/-- Read a page and count it. -/
def countedRead (read : Option String → Except ConversationError Json) (cursor : Option String) :
    StateM Nat (Except ConversationError Json) := do
  modify (· + 1)
  return read cursor

theorem selectFrom_page :
    selectFrom env ⟨read, timedOut⟩ policy selected (fuel + 1) cursor cursors state =
      (read cursor).bind fun page => (selectPage env policy selected page state).bind fun state =>
        match page["nextCursor"].asStr with
        | none => if state.2 then .ok () else .error .invalidTaskInput
        | some next =>
            if cursors.contains next then .error .runtimeUnavailable
            else selectFrom env ⟨read, timedOut⟩ policy selected fuel (some next) (next :: cursors)
              state := by
  rw [selectFrom]
  change (read cursor).bind _ = _
  congr 1
  funext page
  rw [selectPage]
  cases validateCatalog env page policy with
  | error e => rfl
  | ok _ =>
      cases page["data"].asArray with
      | none => rfl
      | some models => rfl

/-- The walk reads at most as many pages as it has fuel. -/
theorem selectVia_counted (n : Nat) : ∃ reads ≤ n + fuel,
    (selectVia env (countedRead read) policy selected fuel cursor cursors state).run n =
      (selectFrom env ⟨read, timedOut⟩ policy selected fuel cursor cursors state, reads) := by
  induction fuel generalizing cursor cursors state n with
  | zero => exact ⟨n, le_rfl, rfl⟩
  | succ fuel ih =>
      have hone : n + 1 ≤ n + (fuel + 1) := by omega
      have hread : (countedRead read cursor).run n = (read cursor, n + 1) := rfl
      rw [selectVia, StateT.run_bind, hread, selectFrom_page]
      cases read cursor with
      | error e => exact ⟨n + 1, hone, rfl⟩
      | ok page =>
          dsimp only [Except.bind, Bind.bind]
          cases selectPage env policy selected page state with
          | error e => exact ⟨n + 1, hone, rfl⟩
          | ok state =>
              dsimp only
              cases page["nextCursor"].asStr with
              | none => exact ⟨n + 1, hone, rfl⟩
              | some next =>
                  dsimp only
                  split_ifs with hseen
                  · exact ⟨n + 1, hone, rfl⟩
                  · obtain ⟨reads, hreads, h⟩ := @ih (some next) (next :: cursors) state (n + 1)
                    exact ⟨reads, by omega, h⟩

end Walk

theorem validateCatalogSelection_iff {read : Option String → Except ConversationError Json}
    {selected : Json} :
    validateCatalogSelection env.underCatalog ⟨read, false⟩ policy selected = .ok () ↔
      ∃ pages, PagesFrom read none pages ∧ Selectable policy selected pages := by
  have hwalk : validateCatalogSelection env.underCatalog ⟨read, false⟩ policy selected =
      selectFrom env.underCatalog ⟨read, false⟩ policy selected 100 none [] ([], false) := rfl
  rw [hwalk, selectFrom_iff]
  refine exists_congr fun pages => and_congr_right fun _ => ?_
  constructor
  · rintro ⟨hlength, h⟩
    exact ⟨hlength, h.acyclic, h.valid, h.distinct, (foundAfter_iff h.distinct).mp h.found⟩
  · intro h
    exact ⟨h.bounded, h.acyclic, by simp, h.valid, by simp, h.distinct,
      (foundAfter_iff h.distinct).mpr h.offered⟩

/-- Whatever the catalog answers, at most 100 pages are read, and the pair is
accepted if and only if the pages one comes to from the start make up a catalog
that has it. -/
theorem catalog_selection (env : Env) (read : Option String → Except ConversationError Json)
    (policy : ConversationPolicy) (selected : Json) :
    (∃ reads ≤ 100,
      (selectVia env.underCatalog (countedRead read) policy selected 100 none []
        ([], false)).run 0 =
        (validateCatalogSelection env.underCatalog ⟨read, false⟩ policy selected, reads)) ∧
    (validateCatalogSelection env.underCatalog ⟨read, false⟩ policy selected = .ok () ↔
      ∃ pages, PagesFrom read none pages ∧ Selectable policy selected pages) := by
  refine ⟨?_, validateCatalogSelection_iff⟩
  obtain ⟨reads, hreads, h⟩ := selectVia_counted 0
  exact ⟨reads, by omega, h⟩

end RoomGateway
