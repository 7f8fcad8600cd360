import RoomGateway.Model.Roster

/-!
The room requests (`GatewayState::process`): sending a message, with the
built-in action-items agent, and the life of a decision. `fresh` gives the
identifiers of a call in the order the code draws them.
-/

namespace RoomGateway

variable (env : Env)

/-! ### Action items -/

structure ActionItem where
  text : List Char
  owner : Option (List Char) := none
  due : Option (List Char) := none
  deriving DecidableEq, Repr

inductive ParseError where
  | emptyField | unsupportedField
  deriving DecidableEq, Repr

/-- One field of an item's line. -/
def parseField (item : ActionItem) (field : List Char) : Except ParseError ActionItem :=
  match Text.splitOnce ':' (Text.trim field) with
  | none => .error .unsupportedField
  | some (name, value) =>
      let value := Text.trim value
      if value.isEmpty then .error .emptyField
      else if Text.trim name = "owner".toList && item.owner.isNone then
        .ok { item with owner := some value }
      else if Text.trim name = "due".toList && item.due.isNone then
        .ok { item with due := some value }
      else .error .unsupportedField

/-- A line that opens with a dash is an item; any other is skipped. -/
def parseLine (line : List Char) : Except ParseError (Option ActionItem) :=
  match Text.stripPrefix "- ".toList (Text.trimStart line) with
  | none => .ok none
  | some line =>
      match Text.split '|' line with
      | [] => .error .emptyField
      | text :: fields =>
          let text := Text.trim text
          if text.isEmpty then .error .emptyField
          else (fields.foldlM parseField { text := text }).map some

def extractActionItems (source : String) : Except ParseError (List ActionItem) :=
  let source := Text.removeFirst "@action-items".toList source.toList
  ((Text.lines source).mapM parseLine).map fun items => items.filterMap id

def ActionItem.toJson (item : ActionItem) : Json :=
  .obj [("text", String.ofList item.text), ("owner", Json.ofOption (item.owner.map String.ofList)),
    ("due", Json.ofOption (item.due.map String.ofList))]

def actionItemsTaskPayload (taskId sourceEventId requesterId : Uuid) : Json :=
  .obj [("taskId", taskId), ("kind", "action-items.v1"), ("sourceEventId", sourceEventId),
    ("requesterId", requesterId), ("agentId", actionItemsAgentId)]

def invokesActionItems (actor : Actor) (request : ChatSend) : Bool :=
  actor.role = .human && request.delivery = .room &&
    request.mentions.any fun mention =>
      match mention with
      | .participant id _ => id = actionItemsAgentId
      | .alias _ => false

/-- How the built-in task ends, for the text of the message. -/
def actionItemsOutcome (core : Json) (text : String) : EventType × Json :=
  match extractActionItems text with
  | .ok items =>
      (.agentTaskSucceeded,
        core.set "result" (.obj [("actionItems", .arr (items.map ActionItem.toJson))]))
  | .error _ =>
      (.agentTaskFailed, core.set "failure" (.obj [("code", "invalid_task_input")]))

/-! ### Messages -/

/-- A store call's error as the client sees it. -/
def RpcError.ofStore (_ : StoreError) : RpcError := .internalError

/-- Append an event that the built-in agent writes about a message. -/
def appendActionItemsEvent (request : ChatSend) (eventType : EventType) (payload : Json)
    (eventId : Uuid) : Tx RpcError RoomEvent :=
  (appendEventInTransaction env eventId
    { roomId := request.roomId
      requestId := request.requestId
      eventType := eventType
      actorId := actionItemsAgentId
      actorRole := .agent
      actorDisplayName := some actionItemsAgentDisplayName
      payload := payload
      occurredAt := request.occurredAt }).mapErr .ofStore

def sendMessage (actor : Actor) (request : ChatSend) (presence : List ParticipantPresence)
    (conversationsEnabled : Bool) (fresh : Nat → Uuid) : Tx RpcError (List RoomEvent) := do
  let participants ← .query .internalError fun db =>
    participantSnapshot db request.roomId presence conversationsEnabled
  let audienceIds ← .ofExcept (resolveChatAudience env actor participants request)
  let message ← (appendEventInTransaction env (fresh 0)
    { roomId := request.roomId
      requestId := request.requestId
      eventType := .messageCreated
      actorId := actor.id
      actorRole := actor.role
      actorDisplayName := some actor.displayName
      payload := normalizedChatPayload request audienceIds
      occurredAt := request.occurredAt }).mapErr .ofStore
  if invokesActionItems actor request then
    let core := actionItemsTaskPayload (fresh 1) message.eventId actor.id
    let queued ← appendActionItemsEvent env request .agentTaskQueued core (fresh 2)
    let running ← appendActionItemsEvent env request .agentTaskRunning core (fresh 3)
    let (eventType, payload) := actionItemsOutcome core request.text
    let ended ← appendActionItemsEvent env request eventType payload (fresh 4)
    return [message, queued, running, ended]
  else return [message]

/-! ### Decisions -/

/-- The event a human or agent writes about a decision. -/
def decisionEvent (actor : Actor) (room request : Uuid) (eventType : EventType) (payload : Json)
    (occurredAt : Time) : NewEvent where
  roomId := room
  requestId := request
  eventType := eventType
  actorId := actor.id
  actorRole := actor.role
  actorDisplayName := some actor.displayName
  payload := payload
  occurredAt := occurredAt

def decisionPayload (decisionId : Uuid) (status : DecisionStatus) (title summary : String)
    (sources : List Uuid) : Json :=
  .obj [("decisionId", decisionId), ("status", status.asStr), ("title", title),
    ("summary", summary), ("sourceEventIds", Json.ofUuids sources)]

def proposeDecision (actor : Actor) (request : DecisionPropose) (fresh : Nat → Uuid) :
    Tx RpcError (List RoomEvent) := do
  let decisionId := fresh 0
  .execute .internalError (Db.insertDecision
    { decisionId := decisionId
      roomId := request.roomId
      status := .draft
      title := request.title
      summary := request.summary
      derivedFromDecisionId := none
      sourceEventIds := request.sourceEventIds
      createdAt := pgTime request.occurredAt
      updatedAt := pgTime request.occurredAt })
  let event ← (appendEventInTransaction env (fresh 1)
    (decisionEvent actor request.roomId request.requestId .decisionProposed
      (decisionPayload decisionId .draft request.title request.summary request.sourceEventIds)
      request.occurredAt)).mapErr .ofStore
  return [event]

def findDecision (decisionId room : Uuid) : Tx RpcError Decision := do
  let row ← .query .internalError fun db => db.decisions.rows.find? fun d =>
    d.decisionId = decisionId && d.roomId = room
  .orFail row .notFound

def deletedPayload (d : Decision) : Json :=
  .obj [("decisionId", d.decisionId), ("priorStatus", d.status.asStr), ("title", d.title),
    ("summary", d.summary), ("sourceEventIds", Json.ofUuids d.sourceEventIds)]

def deleteDecision (actor : Actor) (request : DecisionDelete) (fresh : Nat → Uuid) :
    Tx RpcError (List RoomEvent) := do
  let row ← findDecision request.decisionId request.roomId
  let event ← (appendEventInTransaction env (fresh 0)
    (decisionEvent actor request.roomId request.requestId .decisionDeleted (deletedPayload row)
      request.occurredAt)).mapErr .ofStore
  .execute .internalError (Db.deleteDecisions fun d =>
    d.decisionId = request.decisionId && d.roomId = request.roomId)
  return [event]

/-- Confirm or dismiss a draft. -/
def settleDecision (actor : Actor) (request : DecisionTransition) (row : Decision)
    (status : DecisionStatus) (eventType : EventType) (fresh : Nat → Uuid) :
    Tx RpcError (List RoomEvent) := do
  .execute .internalError (Db.updateDecisions (fun d => d.decisionId = request.decisionId)
    fun d => { d with status := status, updatedAt := pgTime request.occurredAt })
  let event ← (appendEventInTransaction env (fresh 0)
    (decisionEvent actor request.roomId request.requestId eventType
      (decisionPayload request.decisionId status row.title row.summary row.sourceEventIds)
      request.occurredAt)).mapErr .ofStore
  return [event]

def editedPayload (decisionId replacementId : Uuid) : Json :=
  .obj [("decisionId", decisionId), ("status", "superseded"),
    ("replacementDecisionId", replacementId)]

def replacementPayload (replacementId decisionId : Uuid) (title summary : String)
    (sources : List Uuid) : Json :=
  .obj [("decisionId", replacementId), ("status", "active"), ("title", title),
    ("summary", summary), ("sourceEventIds", Json.ofUuids sources),
    ("derivedFromDecisionId", decisionId)]

/-- Edit a draft: it is superseded by an active decision of its own. -/
def editDecision (actor : Actor) (request : DecisionTransition) (row : Decision)
    (fresh : Nat → Uuid) : Tx RpcError (List RoomEvent) := do
  let title ← .orFail request.editedTitle .invalidRequest
  let summary ← .orFail request.editedSummary .invalidRequest
  let replacementId := fresh 0
  .execute .internalError (Db.updateDecisions (fun d => d.decisionId = request.decisionId)
    fun d => { d with status := .superseded, updatedAt := pgTime request.occurredAt })
  .execute .internalError (Db.insertDecision
    { decisionId := replacementId
      roomId := request.roomId
      status := .active
      title := title
      summary := summary
      derivedFromDecisionId := some request.decisionId
      sourceEventIds := row.sourceEventIds
      createdAt := pgTime request.occurredAt
      updatedAt := pgTime request.occurredAt })
  let edited ← (appendEventInTransaction env (fresh 1)
    (decisionEvent actor request.roomId request.requestId .decisionEdited
      (editedPayload request.decisionId replacementId) request.occurredAt)).mapErr .ofStore
  let activated ← (appendEventInTransaction env (fresh 2)
    (decisionEvent actor request.roomId request.requestId .decisionConfirmed
      (replacementPayload replacementId request.decisionId title summary row.sourceEventIds)
      request.occurredAt)).mapErr .ofStore
  return [edited, activated]

def transitionDecision (actor : Actor) (request : DecisionTransition) (fresh : Nat → Uuid) :
    Tx RpcError (List RoomEvent) := do
  let row ← findDecision request.decisionId request.roomId
  .ensure (row.status = .draft) .invalidTransition
  match request.action with
  | .confirm => settleDecision env actor request row .active .decisionConfirmed fresh
  | .dismiss => settleDecision env actor request row .dismissed .decisionDismissed fresh
  | .edit => editDecision env actor request row fresh

/-! ### Processing a request -/

structure ProcessedRequest where
  events : List RoomEvent
  duplicate : Bool
  deriving DecidableEq, Repr

/-- The methods that only a human may use. -/
def ValidatedRequest.governed : ValidatedRequest → Bool
  | decisionTransition _ | decisionDelete _ | agentTaskStart _ => true
  | _ => false

/-- What a first request does, by its method. -/
def performRequest (actor : Actor) (request : ValidatedRequest)
    (presence : List ParticipantPresence) (conversationsEnabled : Bool) (txNow : Time)
    (fresh : Nat → Uuid) : Tx RpcError (List RoomEvent) :=
  match request with
  | .chatSend request => sendMessage env actor request presence conversationsEnabled fresh
  | .decisionPropose request => proposeDecision env actor request fresh
  | .decisionTransition request => transitionDecision env actor request fresh
  | .decisionDelete request => deleteDecision env actor request fresh
  | .agentTaskStart request => do
      let result ← (startAgentTaskInTransaction env actor.id actor.displayName request false
        txNow fresh).mapErr RpcError.ofStore
      return result.events
  | .join _ | .sessionAuthenticate _ => .fail .invalidRequest

def process (actor : Actor) (request : ValidatedRequest) (presence : List ParticipantPresence)
    (conversationsEnabled : Bool) (txNow : Time) (fresh : Nat → Uuid) :
    Tx RpcError (Ending RpcError ProcessedRequest) := do
  .ensure (!(request.governed && actor.role ≠ .human)) .forbidden
  let room ← .orFail (match request with | .join _ => none | _ => request.roomId) .invalidRequest
  let requestId ← .orFail request.requestId .invalidRequest
  let fingerprint := request.fingerprint env
  (lockRoom room).mapErr RpcError.ofStore
  let prior ← (priorRequest room requestId).mapErr RpcError.ofStore
  match prior with
  | some (priorFingerprint, events) =>
      .ensure (priorFingerprint = fingerprint) .conflictingDuplicate
      return .rollback ⟨events, true⟩
  | none =>
      let events ← performRequest env actor request presence conversationsEnabled txNow fresh
      (recordRequest room requestId fingerprint events).mapErr RpcError.ofStore
      return .commit (.ok ⟨events, false⟩)

end RoomGateway
