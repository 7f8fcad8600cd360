import RoomGateway.Lib.Schema
import RoomGateway.Lib.Text
import RoomGateway.Model.Protocol

/-!
The room contract `n2n.room.v1`: its three schemas, and how a request is read
under it (`validate_request`). The schemas are those of the files under
`contracts/`, keyword by keyword.
-/

namespace RoomGateway

open Schema

/-! ### Texts -/

/-- The format `uuid`: hyphenated, with digits of either case. -/
def isUuidFormat (text : String) : Bool := (Uuid.parseHyphenated text.toList).isSome

/-- `^[a-z0-9]+(?:-[a-z0-9]+)*$`. -/
def isTokenText (text : String) : Bool :=
  (Text.split '-' text.toList).all fun part =>
    !part.isEmpty && part.all fun c => ('a' ≤ c && c ≤ 'z') || ('0' ≤ c && c ≤ '9')

def uuidSchema : Schema := textOf isUuidFormat

section Schemas

variable (formats : Formats)

def dateTimeSchema : Schema := textOf formats.dateTime

/-! ### The envelope -/

def envelopeFields : List (String × Schema) :=
  [("contractVersion", const "n2n.room.v1"), ("requestId", uuidSchema), ("roomId", uuidSchema),
    ("occurredAt", dateTimeSchema formats)]

def envelopeNames : List String := ["contractVersion", "requestId", "roomId", "occurredAt"]

def envelopeSchema : Schema := openRecord (envelopeFields formats) envelopeNames

/-! ### Mentions and skills

The requests and the events have them alike. -/

def participantMentionSchema : Schema :=
  record [("type", const "participant"), ("id", uuidSchema), ("token", textOf isTokenText)]
    ["type", "id", "token"]

def aliasMentionSchema : Schema :=
  record [("type", const "alias"), ("alias", enum ["allhumans", "allagents"])] ["type", "alias"]

def mentionSchema : Schema := one [participantMentionSchema, aliasMentionSchema]

def mentionsSchema : Schema := all [array, maxItems 50, uniqueItems, items mentionSchema]

def deliverySchema : Schema := enum ["room", "mentioned"]

def skillIdSchema : Schema := enum ["summarize-context", "extract-action-items"]

def registeredExternalAgentIdSchema : Schema := const "74686f75-6768-746b-686f-72616c000003"

/-! ### Payloads of task events -/

def actionItemSchema : Schema :=
  record [("text", textBetween 1 2000), ("owner", textBetween 1 256), ("due", textBetween 1 256)]
    ["text"]

def actionItemsSchema : Schema := all [array, maxItems 20, items actionItemSchema]

def legacyAgentTaskCoreSchema : Schema :=
  openRecord [("taskId", uuidSchema), ("kind", const "action-items.v1"),
    ("sourceEventId", uuidSchema), ("requesterId", uuidSchema), ("agentId", uuidSchema)]
    ["taskId", "kind", "sourceEventId", "requesterId", "agentId"]

/-- The task's fields and one or more of the payload's own, and no others. -/
def externalTaskSchema (fields : List (String × Schema)) (names : List String) : Schema :=
  record ([("taskId", uuidSchema), ("agentId", registeredExternalAgentIdSchema),
    ("requesterId", uuidSchema), ("skillId", skillIdSchema),
    ("contextRevision", integerFrom formats 0)] ++ fields)
    (["taskId", "agentId", "requesterId", "skillId", "contextRevision"] ++ names)

def externalTaskRequestedPayload : Schema := externalTaskSchema formats [] []

def externalTaskProgressedPayload : Schema :=
  externalTaskSchema formats
    [("phase", enum ["accepted", "retrieving-context", "working", "finalizing"]),
      ("text", textBetween 1 512), ("percent", integerBetween formats 0 100)] ["phase", "text"]

/-- `^https://(?![^/?#]*@)`: nothing before an `@` in the authority. -/
def isPlainHttps (text : String) : Bool :=
  match Text.stripPrefix "https://".toList text.toList with
  | none => false
  | some rest => !(rest.takeWhile fun c => c ≠ '/' && c ≠ '?' && c ≠ '#').contains '@'

def handoffSchema : Schema :=
  record [("instruction", textBetween 1 2000),
    ("url", all [string, text formats.uri, text isPlainHttps]), ("host", textBetween 1 253),
    ("expiresAt", dateTimeSchema formats)] ["instruction", "url", "host", "expiresAt"]

def externalTaskAwaitingExternalInputPayload : Schema :=
  externalTaskSchema formats [("handoff", handoffSchema formats)] ["handoff"]

def citationIdsSchema : Schema := all [array, maxItems 100, uniqueItems, items uuidSchema]

def contextSummarySchema : Schema :=
  record [("kind", const "context-summary.v1"), ("summary", textBetween 1 8000),
    ("citations", citationIdsSchema)] ["kind", "summary", "citations"]

def actionItemsResultSchema : Schema :=
  record [("kind", const "action-items.v1"), ("actionItems", actionItemsSchema),
    ("citations", citationIdsSchema)] ["kind", "actionItems", "citations"]

def externalTaskResultSchema : Schema := one [contextSummarySchema, actionItemsResultSchema]

def externalTaskSucceededPayload : Schema :=
  externalTaskSchema formats [("result", externalTaskResultSchema)] ["result"]

def failureSchema : Schema :=
  record [("code", enum ["invalid_task_input", "execution_failed"])] ["code"]

def externalTaskFailedPayload : Schema :=
  externalTaskSchema formats [("failure", failureSchema)] ["failure"]

def legacyTaskSucceededPayload : Schema :=
  all [legacyAgentTaskCoreSchema,
    openRecord [("result", record [("actionItems", actionItemsSchema)] ["actionItems"])] ["result"]]

def legacyTaskFailedPayload : Schema :=
  all [legacyAgentTaskCoreSchema, openRecord [("failure", failureSchema)] ["failure"]]

/-! ### Room events -/

def deletedDecisionPayload : Schema :=
  openRecord [("decisionId", uuidSchema), ("priorStatus", nonEmptyText), ("title", nonEmptyText),
    ("summary", nonEmptyText), ("sourceEventIds", all [array, minItems 0, items uuidSchema])]
    ["decisionId", "priorStatus", "title", "summary", "sourceEventIds"]

/-- What an event of one of the types has as its payload. -/
def payloadOf (types : List String) (payload : Schema) : Schema :=
  branch (properties [("eventType", enum types)]) (properties [("payload", payload)]) anything

def payloadSchemas : List (List String × Schema) :=
  [(["decision.deleted"], deletedDecisionPayload),
    (["agent.task.queued", "agent.task.running"], legacyAgentTaskCoreSchema),
    (["agent.task.requested"], externalTaskRequestedPayload formats),
    (["agent.task.progressed"], externalTaskProgressedPayload formats),
    (["agent.task.awaiting_external_input"], externalTaskAwaitingExternalInputPayload formats),
    (["agent.task.succeeded"],
      one [legacyTaskSucceededPayload, externalTaskSucceededPayload formats]),
    (["agent.task.failed"], one [legacyTaskFailedPayload, externalTaskFailedPayload formats])]

def eventTypeNames : List String :=
  ["message.created", "decision.proposed", "decision.confirmed", "decision.edited",
    "decision.dismissed", "decision.deleted", "agent.task.queued", "agent.task.running",
    "agent.task.requested", "agent.task.progressed", "agent.task.awaiting_external_input",
    "agent.task.succeeded", "agent.task.failed"]

def eventActorSchema : Schema :=
  record [("id", uuidSchema), ("role", enum ["human", "agent"]),
    ("displayName", textBetween 1 128)] ["id", "role"]

def eventPayloadSchema : Schema :=
  openRecord [("delivery", deliverySchema), ("mentions", mentionsSchema),
    ("audienceIds", all [array, items uuidSchema])] []

def roomEventSchema : Schema :=
  all [object, all (envelopeSchema formats ::
      (payloadSchemas formats).map fun rule => payloadOf rule.1 rule.2),
    properties [("sequence", integerFrom formats 1), ("eventId", uuidSchema),
      ("eventType", enum eventTypeNames), ("actor", eventActorSchema),
      ("payload", eventPayloadSchema)],
    required ["sequence", "eventId", "eventType", "actor", "payload"],
    closed (envelopeNames ++ ["sequence", "eventId", "eventType", "actor", "payload"])]

/-! ### Requests -/

/-- The parameters of a method: the envelope and fields of its own. -/
def paramsSchema (more : List Schema) (fields : List (String × Schema)) (names : List String) :
    Schema :=
  all [object, all (envelopeSchema formats :: more), properties fields, required names,
    closed (envelopeNames ++ fields.map (·.1))]

def methodSchema (method : String) (params : Schema) : Schema :=
  properties [("method", const method), ("params", params)]

def chatSendParams : Schema :=
  paramsSchema formats
    [branch (all [properties [("delivery", const "mentioned")], required ["delivery"]])
      (all [required ["mentions"], properties [("mentions", all [array, minItems 1])]]) anything]
    [("text", nonEmptyText), ("mentions", mentionsSchema), ("delivery", deliverySchema)] ["text"]

def decisionProposeParams : Schema :=
  paramsSchema formats []
    [("title", nonEmptyText), ("summary", nonEmptyText),
      ("sourceEventIds", all [array, minItems 0, items uuidSchema])]
    ["title", "summary", "sourceEventIds"]

/-- An edit has both new texts, any other action neither. -/
def editedTextsSchema : Schema :=
  branch (properties [("action", const "edit")]) (required ["editedTitle", "editedSummary"])
    (no (any [required ["editedTitle"], required ["editedSummary"]]))

def decisionTransitionParams : Schema :=
  all [paramsSchema formats []
      [("decisionId", uuidSchema), ("action", enum ["confirm", "edit", "dismiss"]),
        ("editedTitle", nonEmptyText), ("editedSummary", nonEmptyText)] ["decisionId", "action"],
    editedTextsSchema]

def agentTaskStartParams : Schema :=
  paramsSchema formats []
    [("agentId", registeredExternalAgentIdSchema), ("skillId", skillIdSchema),
      ("input", textBetween 1 8000)] ["agentId", "skillId", "input"]

def methodSchemas : List (String × Schema) :=
  [("session.authenticate", record [("accessToken", nonEmptyText)] ["accessToken"]),
    ("room.join", paramsSchema formats [] [("afterSequence", integerFrom formats 0)] []),
    ("chat.send", chatSendParams formats), ("decision.propose", decisionProposeParams formats),
    ("decision.transition", decisionTransitionParams formats),
    ("decision.delete", paramsSchema formats [] [("decisionId", uuidSchema)] ["decisionId"]),
    ("agent.task.start", agentTaskStartParams formats)]

def methodNames : List String :=
  ["session.authenticate", "room.join", "chat.send", "decision.propose", "decision.transition",
    "decision.delete", "agent.task.start"]

def rpcSchema : Schema :=
  all [record [("jsonrpc", const "2.0"), ("id", nonEmptyText), ("method", enum methodNames),
      ("params", object)] ["jsonrpc", "id", "method", "params"],
    one ((methodSchemas formats).map fun method => methodSchema method.1 method.2)]

end Schemas

/-! ### Reading a request -/

namespace RpcError

def unknownMethod : RpcError := ⟨-32601, "Method not found"⟩
def unsupportedContractVersion : RpcError := ⟨-32009, "Unsupported contract version"⟩

end RpcError

/-- The fields that every request but the first has. -/
structure Envelope where
  contractVersion : String
  requestId : Uuid
  roomId : Uuid
  occurredAt : Time

section Reading

-- `readTime` is how a timestamp of a request is read
variable (readTime : String → Option Time)

def readUuid (value : Json) : Option Uuid := value.asStr.bind Uuid.parse

def readUuids (value : Json) : Option (List Uuid) := value.asArray.bind (·.mapM readUuid)

def readEnvelope (params : Json) : Option Envelope := do
  return { contractVersion := ← params["contractVersion"].asStr
           requestId := ← readUuid params["requestId"]
           roomId := ← readUuid params["roomId"]
           occurredAt := ← params["occurredAt"].asStr.bind readTime }

def ChatMentionAlias.read (value : Json) : Option ChatMentionAlias :=
  match value.asStr with
  | some "allhumans" => some .allHumans
  | some "allagents" => some .allAgents
  | _ => none

def ChatMention.read (value : Json) : Option ChatMention :=
  match value["type"].asStr with
  | some "participant" => do
      return .participant (← readUuid value["id"]) (← value["token"].asStr)
  | some "alias" => (ChatMentionAlias.read value["alias"]).map .alias
  | _ => none

def ChatDelivery.read (value : Json) : Option ChatDelivery :=
  match value.asStr with
  | some "room" => some .room
  | some "mentioned" => some .mentioned
  | _ => none

def AgentSkillId.read (value : Json) : Option AgentSkillId :=
  match value.asStr with
  | some "summarize-context" => some .summarizeContext
  | some "extract-action-items" => some .extractActionItems
  | _ => none

def DecisionAction.read (value : Json) : Option DecisionAction :=
  match value.asStr with
  | some "confirm" => some .confirm
  | some "edit" => some .edit
  | some "dismiss" => some .dismiss
  | _ => none

/-- A field that may be missing. -/
def readOptional {α : Type} (read : Json → Option α) (params : Json) (key : String) :
    Option (Option α) :=
  match params.get? key with
  | none => some none
  | some value => (read value).map some

def readI64 (value : Json) : Option I64 :=
  match value with
  | .num (.int n) => if h : -2 ^ 63 ≤ n ∧ n < 2 ^ 63 then some ⟨n, h.1, h.2⟩ else none
  | _ => none

def readJoin (params : Json) (id : String) : Option Join := do
  let envelope ← readEnvelope readTime params
  return { id := id
           contractVersion := envelope.contractVersion
           requestId := envelope.requestId
           roomId := envelope.roomId
           occurredAt := envelope.occurredAt
           afterSequence := ← readOptional readI64 params "afterSequence" }

def readChatSend (params : Json) (id : String) : Option ChatSend := do
  let envelope ← readEnvelope readTime params
  return { id := id
           contractVersion := envelope.contractVersion
           requestId := envelope.requestId
           roomId := envelope.roomId
           occurredAt := envelope.occurredAt
           text := ← params["text"].asStr
           mentions := (← readOptional (fun value => value.asArray.bind (·.mapM ChatMention.read))
             params "mentions").getD []
           delivery := (← readOptional ChatDelivery.read params "delivery").getD .room }

def readDecisionPropose (params : Json) (id : String) : Option DecisionPropose := do
  let envelope ← readEnvelope readTime params
  return { id := id
           contractVersion := envelope.contractVersion
           requestId := envelope.requestId
           roomId := envelope.roomId
           occurredAt := envelope.occurredAt
           title := ← params["title"].asStr
           summary := ← params["summary"].asStr
           sourceEventIds := ← readUuids params["sourceEventIds"] }

def readDecisionTransition (params : Json) (id : String) : Option DecisionTransition := do
  let envelope ← readEnvelope readTime params
  return { id := id
           contractVersion := envelope.contractVersion
           requestId := envelope.requestId
           roomId := envelope.roomId
           occurredAt := envelope.occurredAt
           decisionId := ← readUuid params["decisionId"]
           action := ← DecisionAction.read params["action"]
           editedTitle := ← readOptional Json.asStr params "editedTitle"
           editedSummary := ← readOptional Json.asStr params "editedSummary" }

def readDecisionDelete (params : Json) (id : String) : Option DecisionDelete := do
  let envelope ← readEnvelope readTime params
  return { id := id
           contractVersion := envelope.contractVersion
           requestId := envelope.requestId
           roomId := envelope.roomId
           occurredAt := envelope.occurredAt
           decisionId := ← readUuid params["decisionId"] }

def readAgentTaskStart (params : Json) (id : String) : Option AgentTaskStart := do
  let envelope ← readEnvelope readTime params
  return { id := id
           contractVersion := envelope.contractVersion
           requestId := envelope.requestId
           roomId := envelope.roomId
           occurredAt := envelope.occurredAt
           agentId := ← readUuid params["agentId"]
           skillId := ← AgentSkillId.read params["skillId"]
           input := ← params["input"].asStr }

/-- The typed request; fields without a name in it are refused by the schema
already. -/
def deserializeRequest (method : String) (params : Json) (id : String) :
    Option ValidatedRequest :=
  match method with
  | "session.authenticate" =>
      params["accessToken"].asStr.map fun token => .sessionAuthenticate ⟨id, token⟩
  | "room.join" => (readJoin readTime params id).map .join
  | "chat.send" => (readChatSend readTime params id).map .chatSend
  | "decision.propose" => (readDecisionPropose readTime params id).map .decisionPropose
  | "decision.transition" => (readDecisionTransition readTime params id).map .decisionTransition
  | "decision.delete" => (readDecisionDelete readTime params id).map .decisionDelete
  | "agent.task.start" => (readAgentTaskStart readTime params id).map .agentTaskStart
  | _ => none

end Reading

/-- The contract version is checked before the schema, for an answer of its
own. -/
def checkContractVersion (method : String) (params : Json) : Except RpcError Unit :=
  if method = "session.authenticate" then .ok ()
  else
    match params.get? "contractVersion" with
    | some (.str version) =>
        if version ≠ "n2n.room.v1" then .error .unsupportedContractVersion else .ok ()
    | _ => .error .invalidRequest

/-- A request from its parsed text. -/
def validateRequest (formats : Formats) (readTime : String → Option Time) (value : Json) :
    Except RpcError ValidatedRequest :=
  if !value.isObject || value["jsonrpc"].asStr ≠ some "2.0" || value["id"].asStr.all (· = "") ||
      !value["params"].isObject then
    .error .invalidRequest
  else
    match value["method"].asStr with
    | none => .error .invalidRequest
    | some method =>
        let params := value["params"]
        if !methodNames.contains method then .error .unknownMethod
        else
          match checkContractVersion method params with
          | .error e => .error e
          | .ok _ =>
              if !rpcSchema formats value then .error .invalidRequest
              else
                match deserializeRequest readTime method params (value["id"].asStr.getD "") with
                | none => .error .invalidRequest
                | some request => .ok request

/-- The gateway with the validator of the contract's events. -/
def Env.underContract (env : Env) (formats : Formats) : Env :=
  { env with roomEventValid := roomEventSchema formats }

end RoomGateway
