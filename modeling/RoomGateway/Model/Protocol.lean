import RoomGateway.Lib.Uuid

/-!
The vocabulary of the gateway: identities, errors, the requests of the room
contract and of the agent-conversation profile, and the conversation policy.

What the code takes from other packages is a parameter, `Env`: the compiled
JSON schemas, SHA-256, the text of a timestamp, PostgreSQL's rendering of a
`jsonb` value, the Unicode tables and the URL parser.
-/

namespace RoomGateway

/-- An instant, in nanoseconds since the epoch. -/
abbrev Time := Int

/-- A span of whole seconds. -/
def seconds (n : Int) : Time := n * 1000000000

/-- What PostgreSQL keeps of an instant: its microseconds. -/
def pgTime (t : Time) : Time := t / 1000 * 1000

theorem pgTime_le (t : Time) : pgTime t ≤ t := Int.ediv_mul_le t (by decide)

theorem dvd_pgTime (t : Time) : (1000 : Int) ∣ pgTime t := Int.dvd_mul_left (t / 1000) 1000

theorem pgTime_of_dvd {t : Time} (h : (1000 : Int) ∣ t) : pgTime t = t := Int.ediv_mul_cancel h

theorem pgTime_pgTime (t : Time) : pgTime (pgTime t) = pgTime t := pgTime_of_dvd (dvd_pgTime t)

/-- The instant of a Unix timestamp, within the range of the calendar. -/
def fromTimestamp (secs : Int) : Option Time :=
  if -8334601228800 ≤ secs ∧ secs ≤ 8210266876799 then some (seconds secs) else none

/-- The named schemas of the conversation profile. `reservedInput` is the
input schema without the two lease fields. -/
inductive Profile where
  | resolvedSettings | turn | input | task | view | ack | result | catalog | update | error
  | reservedInput
  deriving DecidableEq, Repr

/-- The parts of a URL that the handoff check reads. -/
structure UrlParts where
  scheme : String
  username : String
  password : Option String
  fragment : Option String
  host : Option String
  portOrKnownDefault : Option Nat
  deriving DecidableEq, Repr

structure Env where
  profileValid : Profile → Json → Bool
  roomEventValid : Json → Bool
  sha256Hex : String → String
  rfc3339 : Time → String
  parseRfc3339 : String → Option Time
  jsonbText : Json → String
  nfkd : String → List Char
  toLowercase : Char → List Char
  parseUrl : String → Option UrlParts

def Env.time (env : Env) (t : Time) : Json := .str (env.rfc3339 t)

/-! ### Constants -/

def profileVersion : String := "thought-khoral.agent-conversation.v1"
def codexAgentId : Uuid := 0x74686f756768746b686f72616c000004
def actionItemsAgentId : Uuid := 0x74686f756768746b686f72616c000002
def actionItemsAgentDisplayName : String := "Action Items"
def referenceAgentId : Uuid := 0x74686f756768746b686f72616c000003
def maxSafeInteger : Int := 9007199254740991

/-! ### Errors -/

inductive ConversationError where
  | invalidTaskInput | forbidden | conversationBusy | conversationStale | contextMismatch
  | contextTooLarge | runtimeUnavailable | authenticationRequired | sessionUnavailable
  | timeout | conversationInterrupted | executionFailed | duplicateConflict
  deriving DecidableEq, Repr

namespace ConversationError

def code : ConversationError → String
  | invalidTaskInput => "invalid_task_input"
  | forbidden => "forbidden"
  | conversationBusy => "conversation_busy"
  | conversationStale => "conversation_stale"
  | contextMismatch => "context_mismatch"
  | contextTooLarge => "context_too_large"
  | runtimeUnavailable => "runtime_unavailable"
  | authenticationRequired => "authentication_required"
  | sessionUnavailable => "session_unavailable"
  | timeout => "timeout"
  | conversationInterrupted => "conversation_interrupted"
  | executionFailed => "execution_failed"
  | duplicateConflict => "duplicate_conflict"

def all : List ConversationError :=
  [invalidTaskInput, forbidden, conversationBusy, conversationStale, contextMismatch,
    contextTooLarge, runtimeUnavailable, authenticationRequired, sessionUnavailable, timeout,
    conversationInterrupted, executionFailed, duplicateConflict]

end ConversationError

inductive StoreError where
  | invalidEvent | invalidAgentTask | conflictingDuplicate | database
  deriving DecidableEq, Repr

structure RpcError where
  code : Int
  message : String
  deriving DecidableEq, Repr

namespace RpcError

def invalidRequest : RpcError := ⟨-32600, "Invalid request"⟩
def unauthenticated : RpcError := ⟨-32001, "Unauthenticated"⟩
def forbidden : RpcError := ⟨-32003, "Forbidden"⟩
def notFound : RpcError := ⟨-32004, "Room or decision not found"⟩
def invalidTransition : RpcError := ⟨-32010, "Invalid state transition"⟩
def conflictingDuplicate : RpcError :=
  ⟨-32012, "Duplicate request with a different payload"⟩
def unknownMentionTarget : RpcError := ⟨-32013, "Unknown message mention target"⟩
def internalError : RpcError := ⟨-32603, "Internal error"⟩

end RpcError

/-! ### Actors -/

inductive ActorRole where
  | human | agent
  deriving DecidableEq, Repr

def ActorRole.asStr : ActorRole → String
  | human => "human"
  | agent => "agent"

structure Actor where
  id : Uuid
  role : ActorRole
  displayName : String
  expiresAt : Int
  deriving DecidableEq, Repr

/-! ### The profile's schemas -/

mutual

def safeNumbers : Json → Bool
  | .num (.int n) => decide (0 ≤ n ∧ n ≤ maxSafeInteger)
  | .num (.float _) => false
  | .arr items => safeNumbersItems items
  | .obj fields => safeNumbersFields fields
  | _ => true

def safeNumbersItems : List Json → Bool
  | [] => true
  | item :: items => safeNumbers item && safeNumbersItems items

def safeNumbersFields : List (String × Json) → Bool
  | [] => true
  | (_, value) :: fields => safeNumbers value && safeNumbersFields fields

end

def validateProfileValue (env : Env) (name : Profile) (value : Json) :
    Except ConversationError Unit :=
  if safeNumbers value && env.profileValid name value then .ok () else .error .invalidTaskInput

/-! ### Conversation policy -/

structure ConversationModel where
  id : String
  reasoningEfforts : List String
  deriving DecidableEq, Repr

structure ConversationPolicy where
  enabled : Bool := false
  policyRevision : String := ""
  guidanceRevision : String := ""
  catalogRevision : String := ""
  model : String := ""
  reasoningEffort : String := ""
  models : List ConversationModel := []
  maxContextBytes : Nat := 1048576
  maxRecords : Nat := 2000
  turnDeadlineSeconds : Int := 180
  interruptGraceSeconds : Int := 5
  deriving DecidableEq, Repr

namespace ConversationPolicy

/-- Whether the policy lists the pair of a model and an effort, given as the
two fields of a JSON value. -/
def allows (policy : ConversationPolicy) (model effort : Json) : Bool :=
  policy.models.any fun listed =>
    model = Json.str listed.id && listed.reasoningEfforts.any fun e => effort = Json.str e

def resolveSettings (policy : ConversationPolicy) (settings : Option Json) :
    Except ConversationError Json :=
  let defaults := Json.obj [("model", policy.model), ("reasoningEffort", policy.reasoningEffort),
    ("catalogRevision", policy.catalogRevision)]
  let selected := settings.getD defaults
  if selected["catalogRevision"] ≠ Json.str policy.catalogRevision ||
      !policy.allows selected["model"] selected["reasoningEffort"] then
    .error .invalidTaskInput
  else .ok selected

def validId (id : String) : Bool := id ≠ "" && id.length ≤ 128

/-- The checks of one listed model, given the ids listed before it. -/
def validModel (earlier : List String) (model : ConversationModel) : Bool :=
  validId model.id && !earlier.contains model.id && !model.reasoningEfforts.isEmpty &&
    model.reasoningEfforts.length ≤ 100 && model.reasoningEfforts.all validId &&
    decide model.reasoningEfforts.Nodup

def validModels (earlier : List String) : List ConversationModel → Bool
  | [] => true
  | model :: models => validModel earlier model && validModels (model.id :: earlier) models

def validate (policy : ConversationPolicy) : Except ConversationError Unit :=
  if policy.maxContextBytes = 0 || policy.maxContextBytes > 1048576 || policy.maxRecords = 0 ||
      policy.maxRecords > 2000 ||
      !(1 ≤ policy.turnDeadlineSeconds && policy.turnDeadlineSeconds ≤ 180) ||
      !(1 ≤ policy.interruptGraceSeconds && policy.interruptGraceSeconds ≤ 5) then
    .error .invalidTaskInput
  else if !policy.enabled then .ok ()
  else if !List.all [policy.policyRevision, policy.guidanceRevision, policy.catalogRevision,
        policy.model, policy.reasoningEffort] validId ||
      policy.models.isEmpty || policy.models.length > 100 then
    .error .invalidTaskInput
  else if !validModels [] policy.models then .error .invalidTaskInput
  else (policy.resolveSettings none).map fun _ => ()

end ConversationPolicy

/-! ### Room requests -/

inductive AgentSkillId where
  | summarizeContext | extractActionItems
  deriving DecidableEq, Repr

def AgentSkillId.asStr : AgentSkillId → String
  | summarizeContext => "summarize-context"
  | extractActionItems => "extract-action-items"

structure AgentTaskStart where
  id : String
  contractVersion : String
  requestId : Uuid
  roomId : Uuid
  occurredAt : Time
  agentId : Uuid
  skillId : AgentSkillId
  input : String
  deriving DecidableEq, Repr

/-- A signed 64-bit integer. -/
structure I64 where
  val : Int
  lower : -2 ^ 63 ≤ val
  upper : val < 2 ^ 63
  deriving DecidableEq, Repr

structure Join where
  id : String
  contractVersion : String
  requestId : Uuid
  roomId : Uuid
  occurredAt : Time
  afterSequence : Option I64
  deriving DecidableEq, Repr

inductive ChatMentionAlias where
  | allHumans | allAgents
  deriving DecidableEq, Repr

def ChatMentionAlias.asStr : ChatMentionAlias → String
  | allHumans => "allhumans"
  | allAgents => "allagents"

inductive ChatMention where
  | participant (id : Uuid) (token : String)
  | «alias» (name : ChatMentionAlias)
  deriving DecidableEq, Repr

def ChatMention.toJson : ChatMention → Json
  | .participant id token => .obj [("type", "participant"), ("id", id), ("token", token)]
  | .alias name => .obj [("type", "alias"), ("alias", name.asStr)]

inductive ChatDelivery where
  | room | mentioned
  deriving DecidableEq, Repr

def ChatDelivery.asStr : ChatDelivery → String
  | room => "room"
  | mentioned => "mentioned"

structure ChatSend where
  id : String
  contractVersion : String
  requestId : Uuid
  roomId : Uuid
  occurredAt : Time
  text : String
  mentions : List ChatMention := []
  delivery : ChatDelivery := .room
  deriving DecidableEq, Repr

structure DecisionPropose where
  id : String
  contractVersion : String
  requestId : Uuid
  roomId : Uuid
  occurredAt : Time
  title : String
  summary : String
  sourceEventIds : List Uuid
  deriving DecidableEq, Repr

inductive DecisionAction where
  | confirm | edit | dismiss
  deriving DecidableEq, Repr

def DecisionAction.asStr : DecisionAction → String
  | confirm => "confirm"
  | edit => "edit"
  | dismiss => "dismiss"

structure DecisionTransition where
  id : String
  contractVersion : String
  requestId : Uuid
  roomId : Uuid
  occurredAt : Time
  decisionId : Uuid
  action : DecisionAction
  editedTitle : Option String
  editedSummary : Option String
  deriving DecidableEq, Repr

structure DecisionDelete where
  id : String
  contractVersion : String
  requestId : Uuid
  roomId : Uuid
  occurredAt : Time
  decisionId : Uuid
  deriving DecidableEq, Repr

structure SessionAuthenticate where
  id : String
  accessToken : String
  deriving DecidableEq, Repr

inductive ValidatedRequest where
  | sessionAuthenticate (request : SessionAuthenticate)
  | join (request : Join)
  | chatSend (request : ChatSend)
  | decisionPropose (request : DecisionPropose)
  | decisionTransition (request : DecisionTransition)
  | decisionDelete (request : DecisionDelete)
  | agentTaskStart (request : AgentTaskStart)
  deriving DecidableEq, Repr

namespace ValidatedRequest

def id : ValidatedRequest → String
  | sessionAuthenticate request => request.id
  | join request => request.id
  | chatSend request => request.id
  | decisionPropose request => request.id
  | decisionTransition request => request.id
  | decisionDelete request => request.id
  | agentTaskStart request => request.id

def roomId : ValidatedRequest → Option Uuid
  | sessionAuthenticate _ => none
  | join request => some request.roomId
  | chatSend request => some request.roomId
  | decisionPropose request => some request.roomId
  | decisionTransition request => some request.roomId
  | decisionDelete request => some request.roomId
  | agentTaskStart request => some request.roomId

def requestId : ValidatedRequest → Option Uuid
  | sessionAuthenticate _ => none
  | join request => some request.requestId
  | chatSend request => some request.requestId
  | decisionPropose request => some request.requestId
  | decisionTransition request => some request.requestId
  | decisionDelete request => some request.requestId
  | agentTaskStart request => some request.requestId

end ValidatedRequest

def Json.ofUuids (ids : List Uuid) : Json := .arr (ids.map fun id => .str id.text)

def Json.ofOption (value : Option String) : Json := value.elim .null .str

/-- A fingerprint: the fields every room request has, then its own. -/
def requestFingerprint (env : Env) (method contractVersion : String) (requestId roomId : Uuid)
    (occurredAt : Time) (parameters : List (String × Json)) : Json :=
  .obj (("method", .str method) :: ("contractVersion", .str contractVersion) ::
    ("requestId", .str requestId.text) :: ("roomId", .str roomId.text) ::
    ("occurredAt", env.time occurredAt) :: parameters)

def agentTaskFingerprint (env : Env) (start : AgentTaskStart) : Json :=
  requestFingerprint env "agent.task.start" start.contractVersion start.requestId start.roomId
    start.occurredAt
    [("agentId", start.agentId), ("skillId", start.skillId.asStr), ("input", start.input)]

namespace ValidatedRequest

/-- The canonical parameters of a request, as the request ledger keeps them.
Authenticating a session is no room mutation and has none. -/
def fingerprint (env : Env) : ValidatedRequest → Json
  | sessionAuthenticate _ => .null
  | chatSend request =>
      requestFingerprint env "chat.send" request.contractVersion request.requestId
        request.roomId request.occurredAt
        [("text", request.text), ("mentions", .arr (request.mentions.map ChatMention.toJson)),
          ("delivery", request.delivery.asStr)]
  | decisionPropose request =>
      requestFingerprint env "decision.propose" request.contractVersion request.requestId
        request.roomId request.occurredAt
        [("title", request.title), ("summary", request.summary),
          ("sourceEventIds", Json.ofUuids request.sourceEventIds)]
  | decisionTransition request =>
      requestFingerprint env "decision.transition" request.contractVersion request.requestId
        request.roomId request.occurredAt
        [("decisionId", request.decisionId), ("action", request.action.asStr),
          ("editedTitle", Json.ofOption request.editedTitle),
          ("editedSummary", Json.ofOption request.editedSummary)]
  | decisionDelete request =>
      requestFingerprint env "decision.delete" request.contractVersion request.requestId
        request.roomId request.occurredAt [("decisionId", request.decisionId)]
  | agentTaskStart request =>
      requestFingerprint env "agent.task.start" request.contractVersion request.requestId
        request.roomId request.occurredAt
        [("agentId", request.agentId), ("skillId", request.skillId.asStr),
          ("input", request.input)]
  | join request =>
      requestFingerprint env "room.join" request.contractVersion request.requestId
        request.roomId request.occurredAt
        [("afterSequence", request.afterSequence.elim .null fun n => Json.ofInt n.val)]

end ValidatedRequest

/-! ### Turn requests -/

/-- A mention of a turn request that names a participant. -/
def isParticipantMention (mention : Json) : Bool := mention["type"] = Json.str "participant"

/-- One mention of a turn request, against the participants and aliases seen
so far and whether Codex was named: what the three become. -/
def checkTurnMention (agentId : Json) (seen : List String × List (Option String) × Bool)
    (mention : Json) : Except ConversationError (List String × List (Option String) × Bool) :=
  let (participants, aliases, directCodex) := seen
  if isParticipantMention mention then
    match mention["id"].asStr with
    | none => .error .invalidTaskInput
    | some id =>
        if participants.contains id then .error .invalidTaskInput
        else if mention["id"] = agentId then
          if mention["token"] ≠ Json.str "codex-agent" then .error .invalidTaskInput
          else .ok (id :: participants, aliases, true)
        else .ok (id :: participants, aliases, directCodex)
  else if aliases.contains mention["alias"].asStr then .error .invalidTaskInput
  else .ok (participants, mention["alias"].asStr :: aliases, directCodex)

def validateTurnRequest (env : Env) (request : Json) : Except ConversationError Json := do
  validateProfileValue env .turn request
  if request["agentId"] ≠ Json.str codexAgentId.text then .error .invalidTaskInput
  match request["mentions"].asArray with
  | none => .error .invalidTaskInput
  | some mentions =>
      let (_, _, directCodex) ←
        mentions.foldlM (checkTurnMention request["agentId"]) ([], [], false)
      if !directCodex then .error .invalidTaskInput
      else .ok request

end RoomGateway
