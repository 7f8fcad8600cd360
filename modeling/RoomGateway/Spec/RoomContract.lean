import RoomGateway.Model.RoomContract
import RoomGateway.Spec.Audience
import RoomGateway.Spec.Requests

/-!
The room contract from both sides: what a request that it admits looks like, and
which events pass its schema.
-/

namespace RoomGateway

open Schema

variable {formats : Formats} {env : Env}

/-! ### Schemas on given values -/

@[simp] theorem uuidSchema_text (id : Uuid) : uuidSchema (.str id.text) = true := by
  simp [uuidSchema, isUuidFormat]

theorem payloadOf_iff {types : List String} {payload : Schema} {value x : Json} {name : String}
    (htype : value.get? "eventType" = some (.str name)) (hpayload : value.get? "payload" = some x) :
    payloadOf types payload value = true ↔ (name ∈ types → payload x = true) := by
  by_cases hname : name ∈ types <;> simp [payloadOf, branch, htype, hpayload, hname, anything]

/-! ### Events -/

/-- The value of an event that is checked. -/
def eventValue (env : Env) (eventId : Uuid) (event : NewEvent) : Json :=
  .obj [("contractVersion", "n2n.room.v1"), ("requestId", event.requestId),
    ("roomId", event.roomId), ("occurredAt", env.time event.occurredAt),
    ("sequence", (1 : Int)), ("eventId", eventId), ("eventType", event.eventType.asStr),
    ("actor", .obj [("id", event.actorId), ("role", event.actorRole.asStr)]),
    ("payload", event.payload)]

/-- The schemas for the payload of an event of a type. -/
def payloadRules (formats : Formats) (name : String) : List Schema :=
  ((payloadSchemas formats).filter fun rule => rule.1.contains name).map (·.2)

theorem all_payloadRules {name : String} {payload : Json} :
    all (payloadRules formats name) payload = true ↔
      ∀ rule ∈ payloadSchemas formats, name ∈ rule.1 → rule.2 payload = true := by
  rw [all_iff, payloadRules, List.forall_mem_map]
  simp only [List.mem_filter, List.contains_iff_mem, and_imp]

section Rules

variable (formats)

@[simp]
theorem payloadRules_message : payloadRules formats "message.created" = [] := by
  simp [payloadRules, payloadSchemas]

@[simp]
theorem payloadRules_deleted :
    payloadRules formats "decision.deleted" = [deletedDecisionPayload] := by
  simp [payloadRules, payloadSchemas]

theorem payloadRules_decision {eventType : EventType}
    (h : eventType ∈ [.decisionProposed, .decisionConfirmed, .decisionEdited,
      .decisionDismissed]) : payloadRules formats eventType.asStr = [] := by
  simp only [List.mem_cons, List.not_mem_nil, or_false] at h
  rcases h with rfl | rfl | rfl | rfl <;> simp [EventType.asStr, payloadRules, payloadSchemas]

theorem payloadRules_core {eventType : EventType}
    (h : eventType = .agentTaskQueued ∨ eventType = .agentTaskRunning) :
    payloadRules formats eventType.asStr = [legacyAgentTaskCoreSchema] := by
  rcases h with rfl | rfl <;> simp [EventType.asStr, payloadRules, payloadSchemas]

@[simp]
theorem payloadRules_requested :
    payloadRules formats "agent.task.requested" = [externalTaskRequestedPayload formats] := by
  simp [payloadRules, payloadSchemas]

@[simp]
theorem payloadRules_succeeded :
    payloadRules formats "agent.task.succeeded" =
      [one [legacyTaskSucceededPayload, externalTaskSucceededPayload formats]] := by
  simp [payloadRules, payloadSchemas]

@[simp]
theorem payloadRules_failed :
    payloadRules formats "agent.task.failed" =
      [one [legacyTaskFailedPayload, externalTaskFailedPayload formats]] := by
  simp [payloadRules, payloadSchemas]

end Rules

/-- What of an event its schema is about: the text of its time, its type, and
its payload, in general and for the type. -/
theorem roomEventSchema_eventValue (eventId : Uuid) (event : NewEvent) :
    roomEventSchema formats (eventValue env eventId event) = true ↔
      formats.dateTime (env.rfc3339 event.occurredAt) = true ∧
      event.eventType.asStr ∈ eventTypeNames ∧ eventPayloadSchema event.payload = true ∧
      all (payloadRules formats event.eventType.asStr) event.payload = true := by
  have hrole : event.actorRole.asStr = "human" ∨ event.actorRole.asStr = "agent" := by
    cases event.actorRole <;> simp [ActorRole.asStr]
  have hrules : all ((payloadSchemas formats).map fun rule => payloadOf rule.1 rule.2)
        (eventValue env eventId event) = true ↔
      all (payloadRules formats event.eventType.asStr) event.payload = true := by
    rw [all_payloadRules, all_iff, List.forall_mem_map]
    exact forall₂_congr fun rule _ => payloadOf_iff (by simp [eventValue]) (by simp [eventValue])
  rw [roomEventSchema, all_cons, all_cons, all_cons, Bool.and_eq_true, Bool.and_eq_true,
    Bool.and_eq_true, hrules]
  simp [eventValue, envelopeSchema, openRecord, envelopeFields, envelopeNames,
    eventActorSchema, record, integerFrom, integer, minimum, wholeNumber, Json.ofInt, Env.time,
    dateTimeSchema, hrole]
  tauto

theorem isValidRoomEvent_eq (eventId : Uuid) (event : NewEvent) :
    isValidRoomEvent env eventId event = (env.roomEventValid (eventValue env eventId event) &&
      messageMentionsAreUnique (eventValue env eventId event)) := rfl

theorem roomEventValid_underContract :
    (env.underContract formats).roomEventValid = roomEventSchema formats := rfl

theorem eventValue_underContract (eventId : Uuid) (event : NewEvent) :
    eventValue (env.underContract formats) eventId event = eventValue env eventId event := rfl

theorem isValidRoomEvent_underContract (eventId : Uuid) (event : NewEvent) :
    isValidRoomEvent (env.underContract formats) eventId event = true ↔
      formats.dateTime (env.rfc3339 event.occurredAt) = true ∧
      event.eventType.asStr ∈ eventTypeNames ∧ eventPayloadSchema event.payload = true ∧
      all (payloadRules formats event.eventType.asStr) event.payload = true ∧
      messageMentionsAreUnique (eventValue env eventId event) = true := by
  rw [isValidRoomEvent_eq, roomEventValid_underContract, eventValue_underContract,
    Bool.and_eq_true, roomEventSchema_eventValue]
  tauto

theorem messageMentionsAreUnique_of_ne {eventId : Uuid} {event : NewEvent}
    (h : event.eventType.asStr ≠ "message.created") :
    messageMentionsAreUnique (eventValue env eventId event) = true := by
  simp [messageMentionsAreUnique, eventValue, h]

/-! ### The payloads the gateway writes -/

theorem legacyAgentTaskCore_payload (taskId eventId requesterId : Uuid) :
    legacyAgentTaskCoreSchema (actionItemsTaskPayload taskId eventId requesterId) = true := by
  simp [legacyAgentTaskCoreSchema, openRecord, actionItemsTaskPayload]

/-- No field of the item is empty. -/
structure ActionItem.Filled (item : ActionItem) : Prop where
  text : item.text ≠ []
  owner : ∀ owner ∈ item.owner, owner ≠ []
  due : ∀ due ∈ item.due, due ≠ []

theorem parseField_filled {item item' : ActionItem} {field : List Char} (h : item.Filled)
    (hparse : parseField item field = .ok item') : item'.Filled := by
  unfold parseField at hparse
  cases hsplit : Text.splitOnce ':' (Text.trim field) with
  | none =>
      rw [hsplit] at hparse
      cases hparse
  | some parts =>
      obtain ⟨name, value⟩ := parts
      rw [hsplit] at hparse
      dsimp only at hparse
      split_ifs at hparse with hempty howner hdue
      · cases hparse
        exact ⟨h.text, by simpa using hempty, h.due⟩
      · cases hparse
        exact ⟨h.text, h.owner, by simpa using hempty⟩

theorem parseLine_filled {line : List Char} {item : ActionItem}
    (hparse : parseLine line = .ok (some item)) : item.Filled := by
  unfold parseLine at hparse
  split at hparse
  · cases hparse
  · split at hparse
    · cases hparse
    · next text fields _ =>
        dsimp only at hparse
        split_ifs at hparse with hempty
        cases hitems : fields.foldlM parseField { text := Text.trim text } with
        | error e =>
            rw [hitems] at hparse
            cases hparse
        | ok found =>
            rw [hitems] at hparse
            cases hparse
            exact Loops.foldlM_ok (P := ActionItem.Filled)
              (fun _ _ _ h hfield => parseField_filled h hfield)
              ⟨by simpa using hempty, by simp, by simp⟩ hitems

/-- What is extracted has no empty field. -/
theorem extractActionItems_filled {source : String} {items : List ActionItem}
    (h : extractActionItems source = .ok items) : ∀ item ∈ items, item.Filled := by
  intro item hitem
  rw [extractActionItems] at h
  cases hfound : (Text.lines (Text.removeFirst "@action-items".toList source.toList)).mapM
      parseLine with
  | error e =>
      rw [hfound] at h
      cases h
  | ok found =>
      rw [hfound] at h
      cases h
      obtain ⟨x, hx, rfl⟩ := List.mem_filterMap.mp hitem
      obtain ⟨line, -, hline⟩ := Table.exists_of_forall₂ (Loops.forall₂_of_mapM_ok hfound) hx
      exact parseLine_filled hline

/-- The item has both optional fields, and nothing is too long. -/
def ActionItem.fits (item : ActionItem) : Bool :=
  item.text.length ≤ 2000 && item.owner.any (·.length ≤ 256) && item.due.any (·.length ≤ 256)

theorem actionItemSchema_toJson {item : ActionItem} (h : item.Filled) :
    actionItemSchema item.toJson = true ↔ item.fits = true := by
  have hoption : ∀ o : Option (List Char), (∀ x ∈ o, x ≠ []) →
      textBetween 1 256 (Json.ofOption (o.map String.ofList)) = o.any (·.length ≤ 256) := by
    intro o ho
    cases o with
    | none => rfl
    | some x =>
        have hx : 1 ≤ x.length := List.length_pos_iff.mpr (ho x rfl)
        simp [Json.ofOption, hx]
  have htext : 1 ≤ item.text.length := List.length_pos_iff.mpr h.text
  simp [actionItemSchema, record, ActionItem.toJson, hoption _ h.owner, hoption _ h.due,
    ActionItem.fits, htext, and_assoc]

/-- The items have a place in the contract. -/
def itemsFit (items : List ActionItem) : Bool := items.length ≤ 20 && items.all ActionItem.fits

theorem actionItemsTaskPayload_set_result (taskId eventId requesterId : Uuid) (x : Json) :
    (actionItemsTaskPayload taskId eventId requesterId).set "result" x =
      .obj [("result", x), ("taskId", taskId), ("kind", "action-items.v1"),
        ("sourceEventId", eventId), ("requesterId", requesterId),
        ("agentId", actionItemsAgentId)] := by
  have hlt : ("result" : String) < "taskId" := by decide
  simp [actionItemsTaskPayload, Json.set, Json.setField, hlt]

theorem actionItemsTaskPayload_set_failure (taskId eventId requesterId : Uuid) (x : Json) :
    (actionItemsTaskPayload taskId eventId requesterId).set "failure" x =
      .obj [("failure", x), ("taskId", taskId), ("kind", "action-items.v1"),
        ("sourceEventId", eventId), ("requesterId", requesterId),
        ("agentId", actionItemsAgentId)] := by
  have hlt : ("failure" : String) < "taskId" := by decide
  simp [actionItemsTaskPayload, Json.set, Json.setField, hlt]

/-- The result of the built-in agent passes as a legacy one, if its items fit. -/
theorem succeededPayload_iff (formats : Formats) {items : List ActionItem}
    (h : ∀ item ∈ items, item.Filled)
    (taskId eventId requesterId : Uuid) :
    one [legacyTaskSucceededPayload, externalTaskSucceededPayload formats]
      ((actionItemsTaskPayload taskId eventId requesterId).set "result"
        (.obj [("actionItems", .arr (items.map ActionItem.toJson))])) = itemsFit items := by
  have hitems : (items.map ActionItem.toJson).all actionItemSchema = items.all ActionItem.fits := by
    rw [List.all_map, Bool.eq_iff_iff, List.all_eq_true, List.all_eq_true]
    exact forall₂_congr fun item hitem => actionItemSchema_toJson (h item hitem)
  rw [actionItemsTaskPayload_set_result, one_pair]
  simp [legacyTaskSucceededPayload, legacyAgentTaskCoreSchema, openRecord, record,
    actionItemsSchema, externalTaskSucceededPayload, externalTaskSchema, hitems, itemsFit]

theorem failedPayload_valid (formats : Formats) (taskId eventId requesterId : Uuid) :
    one [legacyTaskFailedPayload, externalTaskFailedPayload formats]
      ((actionItemsTaskPayload taskId eventId requesterId).set "failure"
        (.obj [("code", "invalid_task_input")])) = true := by
  rw [actionItemsTaskPayload_set_failure, one_pair]
  simp [legacyTaskFailedPayload, legacyAgentTaskCoreSchema, openRecord, record, failureSchema,
    externalTaskFailedPayload, externalTaskSchema]

/-! ### Mentions that were checked -/

theorem ChatMentionAlias.asStr_injective {a b : ChatMentionAlias} (h : a.asStr = b.asStr) :
    a = b := by
  cases a <;> cases b <;> simp_all [ChatMentionAlias.asStr]

theorem ChatMention.target_of_toJson {a b : ChatMention} (h : a.toJson = b.toJson) :
    a.target = b.target := by
  cases a <;> cases b <;> simp_all [ChatMention.toJson, ChatMention.target]
  · exact Uuid.text_injective h.1
  · exact ChatMentionAlias.asStr_injective h

/-- A mention that is new to the check of a request is new to the check of the
event, which has its value. -/
theorem checkMentionUnique_of_new {seen : List Uuid × List ChatMentionAlias}
    {mention : ChatMention} (h : ¬ mentioned seen mention.target) :
    checkMentionUnique (seen.1.map Uuid.text, seen.2.map ChatMentionAlias.asStr) mention.toJson =
      some ((noteMention seen mention).1.map Uuid.text,
        (noteMention seen mention).2.map ChatMentionAlias.asStr) := by
  cases mention with
  | participant id token =>
      simp [checkMentionUnique, ChatMention.toJson, noteMention]
      exact fun x hx htext => h (Uuid.text_injective htext ▸ hx)
  | «alias» name =>
      simp [checkMentionUnique, ChatMention.toJson, noteMention]
      exact fun x hx htext => h (ChatMentionAlias.asStr_injective htext ▸ hx)

theorem checkMentionsUnique_of_new {mentions : List ChatMention}
    {seen : List Uuid × List ChatMentionAlias} (hnew : ∀ m ∈ mentions, ¬ mentioned seen m.target)
    (hnodup : (mentions.map ChatMention.target).Nodup) :
    ((mentions.map ChatMention.toJson).foldlM checkMentionUnique
      (seen.1.map Uuid.text, seen.2.map ChatMentionAlias.asStr)).isSome = true := by
  induction mentions generalizing seen with
  | nil => simp
  | cons mention mentions ih =>
      rw [List.map_cons, List.nodup_cons] at hnodup
      rw [List.map_cons, List.foldlM_cons,
        checkMentionUnique_of_new (hnew mention List.mem_cons_self)]
      refine ih (fun m hm => ?_) hnodup.2
      rw [mentioned_noteMention, not_or]
      refine ⟨fun heq => hnodup.1 (heq ▸ List.mem_map_of_mem hm), ?_⟩
      exact hnew m (List.mem_cons_of_mem mention hm)

theorem resolveChatAudience_mentions {actor : Actor} {participants : List RoomParticipant}
    {request : ChatSend} {audienceIds : List Uuid}
    (h : resolveChatAudience env actor participants request = .ok audienceIds) :
    (request.mentions.map ChatMention.target).Nodup ∧
      ((request.mentions.map ChatMention.toJson).foldlM checkMentionUnique
        ([], [])).isSome = true := by
  obtain ⟨hvalid, -⟩ := resolveChatAudience_ok_iff.mp h
  obtain ⟨-, hnodup⟩ := validateMentions_ok_iff.mp hvalid
  refine ⟨hnodup, checkMentionsUnique_of_new (fun m _ => not_mentioned_nil) hnodup⟩

/-! ### Requests that are admitted -/

def ChatMention.WellFormed : ChatMention → Prop
  | .participant _ token => isTokenText token = true
  | .alias _ => True

/-- What the contract says about the texts and lists of a request. -/
def ValidatedRequest.WellFormed : ValidatedRequest → Prop
  | .chatSend request => request.text ≠ "" ∧ request.mentions.length ≤ 50 ∧
      ∀ mention ∈ request.mentions, mention.WellFormed
  | .decisionPropose request => request.title ≠ "" ∧ request.summary ≠ ""
  | .decisionTransition request => (request.action = .edit ↔ request.editedTitle.isSome = true) ∧
      (request.action = .edit ↔ request.editedSummary.isSome = true) ∧
      request.editedTitle ≠ some "" ∧ request.editedSummary ≠ some ""
  | .agentTaskStart request => request.agentId = referenceAgentId ∧ request.input ≠ "" ∧
      request.input.length ≤ 8000
  | _ => True

section Admitted

variable {readTime : String → Option Time} {value params : Json} {id : String}

theorem get?_of_asStr {key s : String} (h : value[key].asStr = some s) :
    value.get? key = some (.str s) := by
  have hvalue := Json.eq_str_of_asStr h
  rw [Json.getElem_eq, Json.field] at hvalue
  cases hget : value.get? key with
  | none =>
      rw [hget] at hvalue
      cases hvalue
  | some x =>
      rw [hget] at hvalue
      exact congrArg some hvalue

theorem methodSchema_eq {method name : String} {schema : Schema}
    (hmethod : value.get? "method" = some (.str method))
    (hparams : value.get? "params" = some params) :
    methodSchema name schema value = (decide (method = name) && schema params) := by
  simp [methodSchema, hmethod, hparams]

/-- The schema of the request's own method holds. -/
theorem params_of_rpcSchema (method : String) {schema : Schema}
    (hmem : (method, schema) ∈ methodSchemas formats)
    (hmethod : value.get? "method" = some (.str method))
    (hparams : value.get? "params" = some params) (h : rpcSchema formats value = true) :
    schema params = true := by
  have hnodup : ((methodSchemas formats).map (·.1)).Nodup := by simp [methodSchemas]
  rw [rpcSchema, all_cons, all_cons, Bool.and_eq_true, Bool.and_eq_true] at h
  obtain ⟨s, hs⟩ := List.length_eq_one_iff.mp (of_decide_eq_true h.2.1)
  have hsmem := List.mem_filter.mp (hs ▸ List.mem_singleton.mpr rfl)
  obtain ⟨other, hother, rfl⟩ := List.mem_map.mp hsmem.1
  have hvalid := hsmem.2
  rw [methodSchema_eq hmethod hparams, Bool.and_eq_true, decide_eq_true_eq] at hvalid
  obtain rfl := congrArg Prod.snd (List.inj_on_of_nodup_map hnodup hmem hother hvalid.1)
  exact hvalid.2

/-- A field that the parameters have is as the schema says. -/
theorem paramsSchema_field {more : List Schema} {fields : List (String × Schema)}
    {names : List String} (h : paramsSchema formats more fields names params = true)
    (key : String) (schema : Schema) (hfield : (key, schema) ∈ fields) {x : Json}
    (hx : params.get? key = some x) : schema x = true := by
  simp only [paramsSchema, all_cons, Bool.and_eq_true] at h
  have hfields := List.all_eq_true.mp h.2.2.1 (key, schema) hfield
  rwa [hx] at hfields

theorem nonEmptyText_of {s : String} (h : nonEmptyText (.str s) = true) : s ≠ "" := by
  rintro rfl
  simp at h

theorem readMention_wellFormed {mention : ChatMention} (h : ChatMention.read value = some mention)
    (hschema : mentionSchema value = true) : mention.WellFormed := by
  cases mention with
  | «alias» name => trivial
  | participant target token =>
      have htype : value["type"].asStr = some "participant" ∧
          value["token"].asStr = some token := by
        unfold ChatMention.read at h
        split at h
        · next htype =>
            simp only [Option.bind_eq_bind, Option.bind_eq_some_iff, Option.pure_def,
              Option.some.injEq] at h
            obtain ⟨_, -, _, htoken, heq⟩ := h
            cases heq
            exact ⟨htype, htoken⟩
        · simp at h
        · cases h
      have htoken := get?_of_asStr htype.2
      have hkind := get?_of_asStr htype.1
      rw [mentionSchema, one_pair] at hschema
      simp [aliasMentionSchema, participantMentionSchema, record, hkind, htoken] at hschema
      exact hschema.2.1.2

theorem readChatSend_wellFormed {request : ChatSend}
    (h : readChatSend readTime params id = some request)
    (hschema : chatSendParams formats params = true) :
    ValidatedRequest.WellFormed (.chatSend request) := by
  simp only [readChatSend, Option.bind_eq_bind, Option.bind_eq_some_iff, Option.pure_def,
    Option.some.injEq] at h
  obtain ⟨envelope, -, text, htext, mentions, hmentions, delivery, -, rfl⟩ := h
  refine ⟨nonEmptyText_of (paramsSchema_field hschema "text" _ (by simp) (get?_of_asStr htext)), ?_⟩
  unfold readOptional at hmentions
  cases hget : params.get? "mentions" with
  | none =>
      rw [hget] at hmentions
      cases hmentions
      simp
  | some x =>
      rw [hget] at hmentions
      obtain ⟨found, hfound, rfl⟩ := Option.map_eq_some_iff.mp hmentions
      obtain ⟨values, hvalues, hread⟩ := Option.bind_eq_some_iff.mp hfound
      have hx := paramsSchema_field hschema "mentions" mentionsSchema (by simp) hget
      cases x with
      | arr items =>
          cases hvalues
          have hitems := Loops.forall₂_of_mapM_some hread
          simp only [mentionsSchema, all_cons, all_nil, maxItems_arr, items_arr, Bool.and_eq_true,
            decide_eq_true_eq, List.all_eq_true] at hx
          refine ⟨hitems.length_eq ▸ hx.2.1, fun mention hmention => ?_⟩
          obtain ⟨item, hitem, hitemRead⟩ := Table.exists_of_forall₂ hitems hmention
          exact readMention_wellFormed hitemRead (hx.2.2.2.1 item hitem)
      | _ => cases hvalues

theorem readDecisionPropose_wellFormed {request : DecisionPropose}
    (h : readDecisionPropose readTime params id = some request)
    (hschema : decisionProposeParams formats params = true) :
    ValidatedRequest.WellFormed (.decisionPropose request) := by
  simp only [readDecisionPropose, Option.bind_eq_bind, Option.bind_eq_some_iff, Option.pure_def,
    Option.some.injEq] at h
  obtain ⟨envelope, -, title, htitle, summary, hsummary, sources, -, rfl⟩ := h
  exact ⟨nonEmptyText_of (paramsSchema_field hschema "title" _ (by simp) (get?_of_asStr htitle)),
    nonEmptyText_of (paramsSchema_field hschema "summary" _ (by simp) (get?_of_asStr hsummary))⟩

theorem readOptional_str {key : String} {found : Option String}
    (h : readOptional Json.asStr params key = some found) :
    params.get? key = found.map .str := by
  unfold readOptional at h
  cases hget : params.get? key with
  | none =>
      rw [hget] at h
      cases h
      rfl
  | some x =>
      rw [hget] at h
      obtain ⟨s, hs, rfl⟩ := Option.map_eq_some_iff.mp h
      rw [Json.eq_str_of_asStr hs]
      rfl

theorem DecisionAction.read_some {action : DecisionAction}
    (h : DecisionAction.read value = some action) :
    value.asStr = some action.asStr := by
  unfold DecisionAction.read at h
  split at h <;> cases h <;> assumption

theorem readDecisionTransition_wellFormed {request : DecisionTransition}
    (h : readDecisionTransition readTime params id = some request)
    (hschema : decisionTransitionParams formats params = true) :
    ValidatedRequest.WellFormed (.decisionTransition request) := by
  simp only [readDecisionTransition, Option.bind_eq_bind, Option.bind_eq_some_iff, Option.pure_def,
    Option.some.injEq] at h
  obtain ⟨envelope, -, decisionId, -, action, haction, title, htitle, summary, hsummary, rfl⟩ := h
  replace htitle := readOptional_str htitle
  replace hsummary := readOptional_str hsummary
  replace haction := get?_of_asStr (DecisionAction.read_some haction)
  rw [decisionTransitionParams, all_cons, all_cons, Bool.and_eq_true, Bool.and_eq_true] at hschema
  obtain ⟨hparams, hedited, -⟩ := hschema
  have hobject : params.isObject = true := by
    rw [paramsSchema, all_cons, Bool.and_eq_true] at hparams
    exact hparams.1
  have hnonempty : ∀ (key : String) (found : Option String),
      (key, nonEmptyText) ∈
        [("decisionId", uuidSchema), ("action", enum ["confirm", "edit", "dismiss"]),
        ("editedTitle", nonEmptyText), ("editedSummary", nonEmptyText)] →
      params.get? key = found.map .str → found ≠ some "" := by
    rintro key found hkey hget rfl
    exact nonEmptyText_of (paramsSchema_field hparams key _ hkey hget) rfl
  have hboth : (action = .edit ↔ title.isSome = true) ∧
      (action = .edit ↔ summary.isSome = true) := by
    cases action <;> simp [editedTextsSchema, branch, haction, required, hobject, htitle, hsummary,
      no, any, DecisionAction.asStr] at hedited <;> simp [hedited]
  exact ⟨hboth.1, hboth.2, hnonempty "editedTitle" title (by simp) htitle,
    hnonempty "editedSummary" summary (by simp) hsummary⟩

theorem readAgentTaskStart_wellFormed {request : AgentTaskStart}
    (h : readAgentTaskStart readTime params id = some request)
    (hschema : agentTaskStartParams formats params = true) :
    ValidatedRequest.WellFormed (.agentTaskStart request) := by
  simp only [readAgentTaskStart, Option.bind_eq_bind, Option.bind_eq_some_iff, Option.pure_def,
    Option.some.injEq] at h
  obtain ⟨envelope, -, agentId, hagent, skill, -, input, hinput, rfl⟩ := h
  have hbounds := paramsSchema_field hschema "input" (textBetween 1 8000) (by simp)
    (get?_of_asStr hinput)
  simp only [textBetween_str, Bool.and_eq_true, decide_eq_true_eq] at hbounds
  obtain ⟨text, htext, hparse⟩ := Option.bind_eq_some_iff.mp hagent
  have hconst := paramsSchema_field hschema "agentId" registeredExternalAgentIdSchema (by simp)
    (get?_of_asStr htext)
  simp only [registeredExternalAgentIdSchema, const_eq, decide_eq_true_eq, Json.str.injEq] at hconst
  have hknown : Uuid.parse "74686f75-6768-746b-686f-72616c000003" = some referenceAgentId := by
    decide +kernel
  refine ⟨?_, ?_, hbounds.2⟩
  · rw [hconst, hknown] at hparse
    exact (Option.some.inj hparse).symm
  · rintro rfl
    simp at hbounds

theorem deserializeRequest_wellFormed {method : String} {request : ValidatedRequest}
    (h : deserializeRequest readTime method params id = some request)
    (hmethod : value.get? "method" = some (.str method))
    (hparams : value.get? "params" = some params) (hrpc : rpcSchema formats value = true) :
    request.WellFormed := by
  have hschema : ∀ schema, (method, schema) ∈ methodSchemas formats → schema params = true :=
    fun schema hmem => params_of_rpcSchema method hmem hmethod hparams hrpc
  unfold deserializeRequest at h
  split at h
  · obtain ⟨_, -, rfl⟩ := Option.map_eq_some_iff.mp h
    trivial
  · obtain ⟨_, -, rfl⟩ := Option.map_eq_some_iff.mp h
    trivial
  · obtain ⟨_, hread, rfl⟩ := Option.map_eq_some_iff.mp h
    exact readChatSend_wellFormed hread (hschema (chatSendParams formats) (by simp [methodSchemas]))
  · obtain ⟨_, hread, rfl⟩ := Option.map_eq_some_iff.mp h
    exact readDecisionPropose_wellFormed hread (hschema (decisionProposeParams formats)
      (by simp [methodSchemas]))
  · obtain ⟨_, hread, rfl⟩ := Option.map_eq_some_iff.mp h
    exact readDecisionTransition_wellFormed hread (hschema (decisionTransitionParams formats)
      (by simp [methodSchemas]))
  · obtain ⟨_, -, rfl⟩ := Option.map_eq_some_iff.mp h
    trivial
  · obtain ⟨_, hread, rfl⟩ := Option.map_eq_some_iff.mp h
    exact readAgentTaskStart_wellFormed hread (hschema (agentTaskStartParams formats)
      (by simp [methodSchemas]))
  · cases h

theorem get?_of_isObject {key : String} (h : value[key].isObject = true) :
    value.get? key = some value[key] := by
  rw [Json.getElem_eq, Json.field] at h ⊢
  cases hget : value.get? key with
  | none =>
      rw [hget] at h
      cases h
  | some x => rfl

/-- Every request that is admitted is well formed. -/
theorem validateRequest_wellFormed {request : ValidatedRequest}
    (h : validateRequest formats readTime value = .ok request) : request.WellFormed := by
  unfold validateRequest at h
  split at h
  · cases h
  · next hshape =>
      have hparams : value["params"].isObject = true := by
        simp only [Bool.or_eq_true, not_or, Bool.not_eq_true, Bool.not_eq_false'] at hshape
        exact hshape.2
      cases hmethod : value["method"].asStr with
      | none =>
          rw [hmethod] at h
          cases h
      | some method =>
          rw [hmethod] at h
          dsimp only at h
          split at h
          · cases h
          · split at h
            · cases h
            · split at h
              · cases h
              · next hrpc =>
                  split at h
                  · cases h
                  · next found hread =>
                      cases h
                      rw [Bool.not_eq_true, Bool.not_eq_false'] at hrpc
                      exact deserializeRequest_wellFormed hread (get?_of_asStr hmethod)
                        (get?_of_isObject hparams) hrpc

end Admitted

/-! ### The events the gateway writes -/

section Events

variable {eventId : Uuid}

theorem mentionSchema_toJson {mention : ChatMention} (h : mention.WellFormed) :
    mentionSchema mention.toJson = true := by
  rw [mentionSchema, one_pair]
  cases mention with
  | participant target token =>
      have htoken : isTokenText token = true := h
      simp [participantMentionSchema, aliasMentionSchema, record, ChatMention.toJson, htoken]
  | «alias» name =>
      cases name <;> simp [participantMentionSchema, aliasMentionSchema, record, ChatMention.toJson,
        ChatMentionAlias.asStr]

theorem eventPayloadSchema_message {request : ChatSend} (audienceIds : List Uuid)
    (hrequest : ValidatedRequest.WellFormed (.chatSend request))
    (hnodup : (request.mentions.map ChatMention.target).Nodup) :
    eventPayloadSchema (normalizedChatPayload request audienceIds) = true := by
  obtain ⟨-, hlength, hmentions⟩ := hrequest
  have hdelivery : request.delivery.asStr = "room" ∨ request.delivery.asStr = "mentioned" := by
    cases request.delivery <;> simp [ChatDelivery.asStr]
  have hunique : (request.mentions.map ChatMention.toJson).Nodup := by
    refine List.Nodup.map_on (fun a ha b hb heq => ?_) (List.Nodup.of_map _ hnodup)
    exact List.inj_on_of_nodup_map hnodup ha hb (ChatMention.target_of_toJson heq)
  simp [eventPayloadSchema, openRecord, normalizedChatPayload, deliverySchema, hdelivery,
    mentionsSchema, hlength, hunique, Json.ofUuids]
  exact fun mention hmention => mentionSchema_toJson (hmentions mention hmention)

/-- A message fits the contract, if only its time does. -/
theorem message_valid_iff {actor : Actor} {participants : List RoomParticipant}
    {request : ChatSend} {audienceIds : List Uuid}
    (hrequest : ValidatedRequest.WellFormed (.chatSend request))
    (haudience : resolveChatAudience (env.underContract formats) actor participants request =
      .ok audienceIds) :
    isValidRoomEvent (env.underContract formats) eventId (messageEvent actor request audienceIds) =
      true ↔ formats.dateTime (env.rfc3339 request.occurredAt) = true := by
  obtain ⟨hnodup, hunique⟩ := resolveChatAudience_mentions haudience
  have hpayload := eventPayloadSchema_message audienceIds hrequest hnodup
  have hmentions : messageMentionsAreUnique
      (eventValue env eventId (messageEvent actor request audienceIds)) = true := by
    simpa [messageMentionsAreUnique, eventValue, messageEvent, EventType.asStr,
      normalizedChatPayload] using hunique
  rw [isValidRoomEvent_underContract]
  simp [messageEvent, EventType.asStr, eventTypeNames, hpayload]
  exact fun _ => hmentions

/-- So does any other event of a known type whose payload is of its type. -/
theorem other_valid_iff {event : NewEvent} (fits : Bool)
    (htype : event.eventType.asStr ∈ eventTypeNames)
    (hother : event.eventType.asStr ≠ "message.created")
    (hpayload : eventPayloadSchema event.payload = true)
    (hrules : all (payloadRules formats event.eventType.asStr) event.payload = fits) :
    isValidRoomEvent (env.underContract formats) eventId event = true ↔
      formats.dateTime (env.rfc3339 event.occurredAt) = true ∧ fits = true := by
  rw [isValidRoomEvent_underContract, hrules]
  simp [htype, hpayload, messageMentionsAreUnique_of_ne hother]

theorem actionItemsEvent_core_valid_iff {request : ChatSend} {eventType : EventType}
    (htype : eventType = .agentTaskQueued ∨ eventType = .agentTaskRunning)
    (taskId source requesterId : Uuid) :
    isValidRoomEvent (env.underContract formats) eventId
      (actionItemsEvent request eventType (actionItemsTaskPayload taskId source requesterId)) =
        true ↔ formats.dateTime (env.rfc3339 request.occurredAt) = true := by
  have hcore := legacyAgentTaskCore_payload taskId source requesterId
  have hpayload : eventPayloadSchema (actionItemsTaskPayload taskId source requesterId) = true := by
    simp [eventPayloadSchema, openRecord, actionItemsTaskPayload]
  refine (other_valid_iff true ?_ ?_ hpayload ?_).trans (and_iff_left rfl)
  · rcases htype with rfl | rfl <;> simp [actionItemsEvent, EventType.asStr, eventTypeNames]
  · rcases htype with rfl | rfl <;> simp [actionItemsEvent, EventType.asStr]
  · simp only [actionItemsEvent, payloadRules_core formats htype, all_cons, hcore, all_nil,
      Bool.and_self]

/-- What the built-in agent makes of the text has a place in the contract. -/
def outcomeFits (text : String) : Bool :=
  match extractActionItems text with
  | .ok items => itemsFit items
  | .error _ => true

theorem outcome_valid_iff (request : ChatSend) (taskId source requesterId : Uuid) :
    isValidRoomEvent (env.underContract formats) eventId
      (actionItemsEvent request
        (actionItemsOutcome (actionItemsTaskPayload taskId source requesterId) request.text).1
        (actionItemsOutcome (actionItemsTaskPayload taskId source requesterId) request.text).2) =
        true ↔
      formats.dateTime (env.rfc3339 request.occurredAt) = true ∧
        outcomeFits request.text = true := by
  unfold actionItemsOutcome outcomeFits
  cases hitems : extractActionItems request.text with
  | error e =>
      have hfailed := failedPayload_valid formats taskId source requesterId
      refine other_valid_iff true ?_ ?_ ?_ ?_
      · simp [actionItemsEvent, EventType.asStr, eventTypeNames]
      · simp [actionItemsEvent, EventType.asStr]
      · simp [actionItemsEvent, actionItemsTaskPayload_set_failure, eventPayloadSchema, openRecord]
      · simp only [actionItemsEvent, EventType.asStr, payloadRules_failed, all_cons,
          hfailed, all_nil,
          Bool.and_self]
  | ok items =>
      have hsucceeded := succeededPayload_iff formats (extractActionItems_filled hitems)
        taskId source requesterId
      refine other_valid_iff (itemsFit items) ?_ ?_ ?_ ?_
      · simp [actionItemsEvent, EventType.asStr, eventTypeNames]
      · simp [actionItemsEvent, EventType.asStr]
      · simp [actionItemsEvent, actionItemsTaskPayload_set_result, eventPayloadSchema, openRecord]
      · simp only [actionItemsEvent, EventType.asStr, payloadRules_succeeded, all_cons, hsucceeded,
          all_nil, Bool.and_true]

theorem requested_valid_iff {start : AgentTaskStart} (hagent : start.agentId = referenceAgentId)
    (requesterId : Uuid) (name : String) (taskId : Uuid) {revision : Int}
    (hrevision : 0 ≤ revision) :
    isValidRoomEvent (env.underContract formats) eventId
      (requestedEvent requesterId name start taskId revision) = true ↔
        formats.dateTime (env.rfc3339 start.occurredAt) = true := by
  have htext : referenceAgentId.text = "74686f75-6768-746b-686f-72616c000003" := by decide +kernel
  have hskill : start.skillId.asStr = "summarize-context" ∨
      start.skillId.asStr = "extract-action-items" := by
    cases start.skillId <;> simp [AgentSkillId.asStr]
  refine (other_valid_iff true ?_ ?_ ?_ ?_).trans (and_iff_left rfl)
  · simp [requestedEvent, EventType.asStr, eventTypeNames]
  · simp [requestedEvent, EventType.asStr]
  · simp [requestedEvent, requestedTaskPayload, eventPayloadSchema, openRecord]
  · simp [requestedEvent, requestedTaskPayload, EventType.asStr, externalTaskRequestedPayload,
      externalTaskSchema, record, registeredExternalAgentIdSchema,
      hagent, htext, skillIdSchema, hskill, integerFrom, integer, minimum, wholeNumber, Json.ofInt,
      hrevision]

/-- The events about a decision have payloads of their own, except that one
which deletes it. -/
theorem decision_valid_iff {actor : Actor} {room request : Uuid} {eventType : EventType}
    {payload : Json} {occurredAt : Time}
    (htype : eventType ∈ [.decisionProposed, .decisionConfirmed, .decisionEdited,
      .decisionDismissed])
    (hpayload : eventPayloadSchema payload = true) :
    isValidRoomEvent (env.underContract formats) eventId
      (decisionEvent actor room request eventType payload occurredAt) = true ↔
        formats.dateTime (env.rfc3339 occurredAt) = true := by
  have hdecision := htype
  simp only [List.mem_cons, List.not_mem_nil, or_false] at htype
  refine (other_valid_iff true ?_ ?_ hpayload ?_).trans (and_iff_left rfl)
  · rcases htype with rfl | rfl | rfl | rfl <;>
      simp [decisionEvent, EventType.asStr, eventTypeNames]
  · rcases htype with rfl | rfl | rfl | rfl <;> simp [decisionEvent, EventType.asStr]
  · rw [decisionEvent, payloadRules_decision formats hdecision, all_nil]

theorem deleted_valid_iff {actor : Actor} {room request : Uuid} {d : Decision} {occurredAt : Time}
    (htitle : d.title ≠ "") (hsummary : d.summary ≠ "") :
    isValidRoomEvent (env.underContract formats) eventId
      (decisionEvent actor room request .decisionDeleted (deletedPayload d) occurredAt) = true ↔
        formats.dateTime (env.rfc3339 occurredAt) = true := by
  have hlength : ∀ s : String, s ≠ "" → 1 ≤ s.length := by
    intro s hs
    exact Nat.one_le_iff_ne_zero.mpr fun h => hs (by simpa using h)
  have hstatus : 1 ≤ d.status.asStr.length := by
    cases d.status <;> decide
  refine (other_valid_iff true ?_ ?_ ?_ ?_).trans (and_iff_left rfl)
  · simp [decisionEvent, EventType.asStr, eventTypeNames]
  · simp [decisionEvent, EventType.asStr]
  · simp [decisionEvent, deletedPayload, eventPayloadSchema, openRecord]
  · simp [decisionEvent, EventType.asStr, deletedDecisionPayload, deletedPayload,
      openRecord, hlength _ htitle, hlength _ hsummary, hstatus, Json.ofUuids]

end Events

end RoomGateway
