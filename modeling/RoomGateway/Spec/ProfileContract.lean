import RoomGateway.Model.ConversationContract
import RoomGateway.Model.Views
import RoomGateway.Spec.Update

/-!
The conversation contract on the values that the gateway stores: what an update
that passes it carries, and which values pass it again when they are shown.
-/

namespace RoomGateway

open Schema

variable {env : Env} {formats : Formats} {t : ConversationTask}

/-! ### Safe numbers -/

theorem safeNumbersItems_eq_all (items : List Json) :
    safeNumbersItems items = items.all safeNumbers := by
  induction items with
  | nil => rfl
  | cons item items ih => rw [safeNumbersItems, ih, List.all_cons]

theorem safeNumbersFields_eq_all (fields : List (String × Json)) :
    safeNumbersFields fields = fields.all fun f => safeNumbers f.2 := by
  induction fields with
  | nil => rfl
  | cons f fields ih => rw [safeNumbersFields, ih, List.all_cons]

@[simp] theorem safeNumbers_obj (fields : List (String × Json)) :
    safeNumbers (.obj fields) = fields.all fun f => safeNumbers f.2 := by
  rw [safeNumbers, safeNumbersFields_eq_all]

@[simp] theorem safeNumbers_arr (items : List Json) :
    safeNumbers (.arr items) = items.all safeNumbers := by
  rw [safeNumbers, safeNumbersItems_eq_all]

@[simp] theorem safeNumbers_str (s : String) : safeNumbers (.str s) = true := rfl

@[simp] theorem safeNumbers_null : safeNumbers .null = true := rfl

theorem safeNumbers_ofInt {n : Int} (h : safeRange 0 n = true) :
    safeNumbers (Json.ofInt n) = true := by
  simpa [safeRange, Json.ofInt, safeNumbers] using h

theorem safeNumbers_lookup {fields : List (String × Json)} {key : String} {x : Json}
    (h : ∀ f ∈ fields, safeNumbers f.2 = true) (hget : Json.lookup fields key = some x) :
    safeNumbers x = true := by
  induction fields with
  | nil => simp at hget
  | cons f fields ih =>
      rw [Json.lookup_cons] at hget
      split_ifs at hget with hkey
      · cases hget
        exact h f List.mem_cons_self
      · exact ih (fun g hg => h g (List.mem_cons_of_mem f hg)) hget

/-- The parts of a value have safe numbers if the value has. -/
theorem safeNumbers_getElem {value : Json} (h : safeNumbers value = true) (key : String) :
    safeNumbers value[key] = true := by
  rw [Json.getElem_eq, Json.field]
  cases hget : value.get? key with
  | none => rfl
  | some x =>
      cases value with
      | obj fields =>
          rw [safeNumbers_obj, List.all_eq_true] at h
          rw [Json.get?_obj] at hget
          exact safeNumbers_lookup h hget
      | _ => cases hget

/-! ### Values that pass -/

/-- A value that passes a schema, with numbers that every reader can represent. -/
structure Fits (schema : Schema) (value : Json) : Prop where
  valid : schema value = true
  safe : safeNumbers value = true

theorem validateProfileValue_ok {profile : Profile} {value : Json} :
    validateProfileValue env profile value = .ok () ↔ Fits (env.profileValid profile) value := by
  unfold validateProfileValue
  by_cases h : (safeNumbers value && env.profileValid profile value) = true
  · rw [if_pos h]
    rw [Bool.and_eq_true] at h
    exact ⟨fun _ => ⟨h.2, h.1⟩, fun _ => rfl⟩
  · rw [if_neg h]
    refine ⟨fun hok => ?_, fun hfits => ?_⟩
    · cases hok
    · exact absurd (Bool.and_eq_true_iff.mpr ⟨hfits.safe, hfits.valid⟩) h

theorem Fits.field {fields : List (String × Schema)} {names : List String} {schema : Schema}
    {value : Json} {key : String} (h : Fits (record fields names) value)
    (hfield : (key, schema) ∈ fields) (hname : key ∈ names) : Fits schema value[key] :=
  ⟨record_field h.valid hfield hname, safeNumbers_getElem h.safe key⟩

@[simp] theorem idSchema_text (id : Uuid) : idSchema (.str id.text) = true := by
  have hlength : 1 ≤ id.text.length := by
    have := Uuid.length_text id
    rw [String.length_toList] at this
    omega
  simp [idSchema, string, minLength, text, isUuidFormat, isIdText, hlength]

@[simp] theorem nullable_null (schema : Schema) : nullable schema .null = true := by
  simp [nullable, any, null, Json.isNull]

theorem nullable_of {schema : Schema} {value : Json} (h : schema value = true) :
    nullable schema value = true := by
  simp [nullable, any, h]

theorem nullable_getD {schema : Schema} {value : Option Json}
    (h : ∀ x, value = some x → schema x = true) : nullable schema (value.getD .null) = true := by
  cases value with
  | none => exact nullable_null schema
  | some x => exact nullable_of (h x rfl)

@[simp] theorem nullable_ofOptionalId (id : Option Uuid) :
    nullable idSchema (ofOptionalId id) = true := by
  cases id with
  | none => exact nullable_null idSchema
  | some id => exact nullable_of (idSchema_text id)

theorem positiveIntegerSchema_ofInt {n : Int} (h : safeRange 1 n = true) :
    positiveIntegerSchema formats (Json.ofInt n) = true := by
  simpa [positiveIntegerSchema, integerBetween, integer, minimum, maximum, wholeNumber, Json.ofInt,
    safeRange] using h

theorem safeIntegerSchema_ofInt {n : Int} (h : safeRange 0 n = true) :
    safeIntegerSchema formats (Json.ofInt n) = true := by
  simpa [safeIntegerSchema, integerBetween, integer, minimum, maximum, wholeNumber, Json.ofInt,
    safeRange] using h

theorem nameSchema_of_shortText {s : String} (h : shortText s = true) :
    nameSchema (.str s) = true := by
  simpa [nameSchema, shortText] using h

/-! ### Updates -/

/-- What an update of a kind carries. -/
def updateDataOf (formats : Formats) : UpdateKind → Schema
  | .progress => progressDataSchema
  | .settings => effectiveSettingsSchema
  | .usage => usageSchema formats
  | .completed => replySchema formats
  | .failed => failedDataSchema
  | .other _ => no anything

theorem updateDataSchema_eq {value data : Json} {name : String}
    (hkind : value.get? "kind" = some (.str name)) (hdata : value.get? "data" = some data) :
    updateDataSchema formats value = updateDataOf formats (UpdateKind.ofStr name) data := by
  -- the kinds differ, so of the five schemas only that of the kind can hold
  unfold UpdateKind.ofStr
  split_ifs with h1 h2 h3 h4 h5
  · cases hd : progressDataSchema data <;>
      simp [updateDataSchema, one, hkind, hdata, h1, updateDataOf, hd]
  · cases hd : effectiveSettingsSchema data <;>
      simp [updateDataSchema, one, hkind, hdata, h2, updateDataOf, hd]
  · cases hd : usageSchema formats data <;>
      simp [updateDataSchema, one, hkind, hdata, h3, updateDataOf, hd]
  · cases hd : replySchema formats data <;>
      simp [updateDataSchema, one, hkind, hdata, h4, updateDataOf, hd]
  · cases hd : failedDataSchema data <;>
      simp [updateDataSchema, one, hkind, hdata, h5, updateDataOf, hd]
  · simp [updateDataSchema, one, hkind, h1, h2, h3, h4, h5, updateDataOf, no, anything]

/-- An update that passes carries what goes with its kind. -/
theorem fits_updateData {request : Json} {name : String}
    (hvalid : validateProfileValue (env.underProfile formats) .update request = .ok ())
    (hkind : request["kind"] = Json.str name) :
    Fits (updateDataOf formats (UpdateKind.ofStr name)) request["data"] := by
  obtain ⟨hschema, hsafe⟩ := validateProfileValue_ok.mp hvalid
  change updateSchema formats request = true at hschema
  simp only [updateSchema, all_cons, all_nil, Bool.and_true, Bool.and_eq_true] at hschema
  obtain ⟨hrecord, hdata⟩ := hschema
  refine ⟨?_, safeNumbers_getElem hsafe "data"⟩
  rw [← updateDataSchema_eq (hkind ▸ record_required hrecord (by simp))
    (record_required hrecord (by simp))]
  exact hdata

/-! ### Views -/

/-- A retained update that can be shown. -/
structure UpdateServable (env : Env) (formats : Formats) (u : ConversationUpdate) : Prop where
  data : Fits (updateDataOf formats u.kind) u.data
  instant : instantSchema formats (env.time u.occurredAt) = true
  ordinal : safeRange 1 u.ordinal = true

theorem UpdateKind.ofStr_asStr_of_data {kind : UpdateKind} {data : Json}
    (h : updateDataOf formats kind data = true) :
    UpdateKind.ofStr kind.asStr = kind ∧ updateKindSchema (.str kind.asStr) = true := by
  cases kind with
  | other name => cases h
  | progress => simp [UpdateKind.ofStr, UpdateKind.asStr, updateKindSchema]
  | settings => simp [UpdateKind.ofStr, UpdateKind.asStr, updateKindSchema]
  | usage => simp [UpdateKind.ofStr, UpdateKind.asStr, updateKindSchema]
  | completed => simp [UpdateKind.ofStr, UpdateKind.asStr, updateKindSchema]
  | failed => simp [UpdateKind.ofStr, UpdateKind.asStr, updateKindSchema]

theorem safeRange_mono {n : Int} (h : safeRange 1 n = true) : safeRange 0 n = true := by
  simp only [safeRange, Bool.and_eq_true, decide_eq_true_eq] at h ⊢
  omega

theorem UpdateServable.fits {u : ConversationUpdate} (h : UpdateServable env formats u) :
    Fits (taskUpdateSchema formats) (updateView env u) := by
  obtain ⟨hname, hkind⟩ := UpdateKind.ofStr_asStr_of_data h.data.valid
  have hordinal : positiveIntegerSchema formats (Json.ofInt u.ordinal) = true :=
    positiveIntegerSchema_ofInt h.ordinal
  have hdata : updateDataSchema formats (updateView env u) = true := by
    have hgetKind : (updateView env u).get? "kind" = some (.str u.kind.asStr) := by
      simp [updateView]
    have hgetData : (updateView env u).get? "data" = some u.data := by simp [updateView]
    rw [updateDataSchema_eq hgetKind hgetData, hname]
    exact h.data.valid
  refine ⟨?_, ?_⟩
  · rw [taskUpdateSchema, all_cons, all_cons, all_nil, hdata, Bool.and_true, Bool.and_true]
    simp [updateView, record, anything, hkind, hordinal, h.instant]
  · simp [updateView, Env.time, safeNumbers_ofInt (safeRange_mono h.ordinal), h.data.safe]

/-- How a task stands, and what it has of a result, a reply and a failure. -/
inductive Outcome (formats : Formats) (t : ConversationTask) : Prop where
  | underWay (live : t.state.live = true) (result : t.result = none)
      (reply : t.replyEventId = none) (failure : t.failure = none)
  | completed {data : Json} {id : Uuid} (state : t.state = .completed)
    (result : t.result = some data)
      (fits : Fits (replySchema formats) data) (reply : t.replyEventId = some id)
      (failure : t.failure = none)
  | failed {error : Json} (state : t.state = .failed) (result : t.result = none)
      (reply : t.replyEventId = none) (failure : t.failure = some error)
      (fits : Fits turnFailureSchema error)

/-- A task that can be shown and handed out. -/
structure TaskServable (formats : Formats) (t : ConversationTask) : Prop where
  agent : t.agentId = codexAgentId
  selected : Fits (nullable selectedSettingsSchema) t.selectedSettings
  effective : ∀ x, t.effectiveSettings = some x → Fits effectiveSettingsSchema x
  usage : ∀ x, t.usage = some x → Fits (usageSchema formats) x
  outcome : Outcome formats t
  frozen : Fits (reservedInputSchema formats) t.frozenInput

theorem Fits.getD_null {schema : Schema} {value : Option Json}
    (h : ∀ x, value = some x → Fits schema x) : Fits (nullable schema) (value.getD .null) := by
  refine ⟨nullable_getD fun x hx => (h x hx).valid, ?_⟩
  cases value with
  | none => rfl
  | some x => exact (h x rfl).safe

theorem Outcome.fits_result (h : Outcome formats t) :
    Fits (nullable (replySchema formats)) (t.result.getD .null) := by
  refine Fits.getD_null fun x hx => ?_
  cases h with
  | underWay _ result => rw [result] at hx; cases hx
  | completed _ result fits => rw [result] at hx; cases hx; exact fits
  | failed _ result => rw [result] at hx; cases hx

theorem Outcome.fits_failure (h : Outcome formats t) :
    Fits (nullable turnFailureSchema) (t.failure.getD .null) := by
  refine Fits.getD_null fun x hx => ?_
  cases h with
  | underWay _ _ _ failure => rw [failure] at hx; cases hx
  | completed _ _ _ _ failure => rw [failure] at hx; cases hx
  | failed _ _ _ failure fits => rw [failure] at hx; cases hx; exact fits

/-- The schemas that couple a task's state with the rest of its view. -/
def outcomeSchemas (formats : Formats) : List Schema :=
  [properties [("state", enum ["reserved", "running"]), ("result", null),
      ("replyEventId", null), ("failure", null)],
    properties [("state", const "completed"), ("result", replySchema formats),
      ("replyEventId", idSchema), ("failure", null)],
    properties [("state", const "failed"), ("result", null), ("replyEventId", null),
      ("failure", turnFailureSchema)]]

theorem Outcome.one_outcomeSchemas (h : Outcome formats t) (updates : List ConversationUpdate) :
    one (outcomeSchemas formats) (taskViewValue env t updates) = true := by
  cases h with
  | underWay live result reply failure =>
      have hstate : t.state.asStr = "reserved" ∨ t.state.asStr = "running" := by
        revert live
        cases t.state <;> simp [TaskState.live, TaskState.asStr]
      rcases hstate with hstate | hstate <;>
        simp [one, outcomeSchemas, taskViewValue, hstate, result, reply, failure,
          ofOptionalId, null,
          Json.isNull]
  | completed state result fits reply failure =>
      simp [one, outcomeSchemas, taskViewValue, state, TaskState.asStr, result, reply, failure,
        ofOptionalId, null, Json.isNull, fits.valid]
  | failed state result reply failure fits =>
      simp [one, outcomeSchemas, taskViewValue, state, TaskState.asStr, result, reply, failure,
        ofOptionalId, null, Json.isNull, fits.valid]

/-- The view of a task is no accepted turn: it has fields of its own. -/
theorem acceptedTurnSchema_taskViewValue (t : ConversationTask)
    (updates : List ConversationUpdate) :
    acceptedTurnSchema formats (taskViewValue env t updates) = false := by
  simp [acceptedTurnSchema, record, taskViewValue]

theorem TaskServable.fits_view (h : TaskServable formats t)
    (hgeneration : safeRange 1 t.generation = true) {updates : List ConversationUpdate}
    (hupdates : ∀ u ∈ updates, UpdateServable env formats u) (hlength : updates.length ≤ 256) :
    Fits (taskSchema formats) (taskViewValue env t updates) := by
  have hgenerationFits : positiveIntegerSchema formats (Json.ofInt t.generation) = true :=
    positiveIntegerSchema_ofInt hgeneration
  have heffective := Fits.getD_null h.effective
  have husage := Fits.getD_null h.usage
  have hresult := h.outcome.fits_result
  have hfailure := h.outcome.fits_failure
  have hstate : enum ["reserved", "running", "completed", "failed"]
      (.str t.state.asStr) = true := by
    cases t.state <;> simp [TaskState.asStr]
  refine ⟨?_, ?_⟩
  · rw [taskSchema, one_pair, acceptedTurnSchema_taskViewValue, Bool.false_xor, taskViewSchema,
      all_cons, all_cons, all_nil, Bool.and_true]
    refine Bool.and_eq_true_iff.mpr ⟨?_, h.outcome.one_outcomeSchemas updates⟩
    have hitems : ∀ u ∈ updates, taskUpdateSchema formats (updateView env u) = true :=
      fun u hu => (hupdates u hu).fits.valid
    simp [taskViewValue, record, hgenerationFits, hstate, h.selected.valid, heffective.valid,
      husage.valid, hresult.valid, hfailure.valid, hlength]
    exact hitems
  · have hitems : ∀ u ∈ updates, safeNumbers (updateView env u) = true :=
      fun u hu => (hupdates u hu).fits.safe
    have hreply : safeNumbers (ofOptionalId t.replyEventId) = true := by
      cases t.replyEventId <;> rfl
    simp [taskViewValue, safeNumbers_ofInt (safeRange_mono hgeneration), h.selected.safe,
      heffective.safe, husage.safe, hresult.safe, hfailure.safe, hreply]
    exact hitems

theorem mem_of_latestTask {db : Db} {conversation : Uuid} (h : latestTask db conversation = some t)
    : t ∈ db.conversationTasks.rows := by
  have hmem := (List.mem_insertionSort _).mp (List.mem_of_head? h)
  exact (List.mem_filter.mp hmem).1

/-- The conversation of a room, as it is shown. -/
theorem fits_viewedConversation {db : Db} {c : AgentConversation}
    (hc : agentConversationConstraints.check c = true) (hstate : c.state ≠ .superseded)
    (hselected : Fits (nullable selectedSettingsSchema) c.selectedSettings)
    (htasks : ∀ t ∈ db.conversationTasks.rows, TaskServable formats t) :
    Fits (viewedConversationSchema formats) (viewedConversation db c) := by
  simp only [agentConversationConstraints, Bool.and_eq_true] at hc
  obtain ⟨⟨⟨⟨⟨⟨-, hgeneration⟩, hconsumed⟩, hpolicy⟩, hguidance⟩, -⟩, -⟩ := hc
  have hgenerationFits : positiveIntegerSchema formats (Json.ofInt c.generation) = true :=
    positiveIntegerSchema_ofInt hgeneration
  have hconsumedFits : safeIntegerSchema formats (Json.ofInt c.consumedRevision) = true :=
    safeIntegerSchema_ofInt hconsumed
  have hstateFits : enum ["reserved", "running", "ready", "unusable"]
      (.str c.state.asStr) = true := by
    revert hstate
    cases c.state <;> simp [ConversationState.asStr]
  have heffective : Fits (nullable effectiveSettingsSchema)
      (((latestTask db c.conversationId).bind (·.effectiveSettings)).getD .null) := by
    refine Fits.getD_null fun x hx => ?_
    obtain ⟨t, ht, hx⟩ := Option.bind_eq_some_iff.mp hx
    exact (htasks t (mem_of_latestTask ht)).effective x hx
  have husage : Fits (nullable (usageSchema formats))
      (((latestTask db c.conversationId).bind (·.usage)).getD .null) := by
    refine Fits.getD_null fun x hx => ?_
    obtain ⟨t, ht, hx⟩ := Option.bind_eq_some_iff.mp hx
    exact (htasks t (mem_of_latestTask ht)).usage x hx
  have hactive : safeNumbers (ofOptionalId c.activeTaskId) = true := by
    cases c.activeTaskId <;> rfl
  refine ⟨?_, ?_⟩
  · simp [viewedConversationSchema, viewedConversation, record, hgenerationFits, hconsumedFits,
      hstateFits, nameSchema_of_shortText hpolicy, nameSchema_of_shortText hguidance,
      hselected.valid, heffective.valid, husage.valid]
  · simp [viewedConversation, safeNumbers_ofInt (safeRange_mono hgeneration),
      safeNumbers_ofInt hconsumed, hselected.safe, heffective.safe, husage.safe, hactive]

theorem fits_conversationViewValue {db : Db}
    (hselected : ∀ c ∈ db.agentConversations.rows,
      Fits (nullable selectedSettingsSchema) c.selectedSettings)
    (htasks : ∀ t ∈ db.conversationTasks.rows, TaskServable formats t) (room agent : Uuid) :
    Fits (viewSchema formats) (conversationViewValue db room agent) := by
  have hconversation : Fits (nullable (viewedConversationSchema formats))
      ((db.agentConversations.rows.find? fun c => c.roomId = room && c.agentId = agent &&
        c.state ≠ .superseded).elim .null (viewedConversation db)) := by
    cases hcurrent : db.agentConversations.rows.find? fun c => c.roomId = room &&
        c.agentId = agent && c.state ≠ .superseded with
    | none => exact ⟨nullable_null _, rfl⟩
    | some c =>
        have hmem := List.mem_of_find?_eq_some hcurrent
        have hstate : c.state ≠ .superseded := by
          have hcond := List.find?_some hcurrent
          simp only [Bool.and_eq_true, decide_eq_true_eq] at hcond
          exact hcond.2
        have hfits := fits_viewedConversation (db.agentConversations.checked c hmem) hstate
          (hselected c hmem) htasks
        exact ⟨nullable_of hfits.valid, hfits.safe⟩
  rw [conversationViewValue]
  generalize (db.agentConversations.rows.find? fun c => c.roomId = room && c.agentId = agent &&
    c.state ≠ .superseded).elim .null (viewedConversation db) = shown at hconversation ⊢
  refine ⟨?_, ?_⟩
  · simp [viewSchema, record, hconversation.valid]
  · simp [hconversation.safe]

/-! ### Packets -/

theorem safeNumbers_set {value x : Json} (hvalue : safeNumbers value = true)
    (hx : safeNumbers x = true) (key : String) : safeNumbers (value.set key x) = true := by
  cases value with
  | obj fields =>
      rw [safeNumbers_obj, List.all_eq_true] at hvalue
      rw [Json.set, safeNumbers_obj, List.all_eq_true]
      intro f hf
      rcases Json.mem_setField hf with hf | hf
      · exact hvalue f hf
      · rw [hf]
        exact hx
  | _ => exact hvalue

/-- A reserved input is an input once it has a lease. -/
theorem fits_leasedPacket (h : Fits (reservedInputSchema formats) t.frozenInput) {owner : String}
    (howner : shortText owner = true) {expiry : Time}
    (hexpiry : instantSchema formats (env.time expiry) = true) :
    Fits (inputSchema formats) (leasedPacket env t (some owner) (some expiry)) := by
  obtain ⟨hvalid, hsafe⟩ := h
  refine ⟨?_, safeNumbers_set (safeNumbers_set hsafe rfl _) rfl _⟩
  simp only [reservedInputSchema, inputSchemaWith, all_cons, all_nil, Bool.and_true,
    Bool.and_eq_true] at hvalid
  obtain ⟨hrecord, hdependent⟩ := hvalid
  have howned := record_set "leaseOwner" hrecord (nameSchema_of_shortText howner) (by simp)
  have hleased := record_set "leaseExpiresAt" howned hexpiry (by simp)
  simp only [inputSchema, inputSchemaWith, all_cons, all_nil, Bool.and_true, Bool.and_eq_true]
  refine ⟨record_perm hleased ?_ ?_, ?_⟩
  · rw [List.append_nil, List.append_assoc, List.append_assoc (_ ++ _), List.append_assoc]
    exact List.Perm.append_left _ List.perm_append_comm
  · exact List.Perm.refl _
  · exact dependentRequired_set (dependentRequired_set hdependent (by simp)) (by simp)

end RoomGateway
