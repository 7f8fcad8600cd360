import RoomGateway.Lib.OrdMap
import RoomGateway.Model.Context
import RoomGateway.Model.Roster
import RoomGateway.Model.Store

/-!
The internal service that hands a task's context to a worker and takes its
updates: the packet with the room's events up to the task's revision and the
decisions that were active then, and the check of what a result cites.
-/

namespace RoomGateway

variable (env : Env)

/-! ### Active decisions -/

structure ActiveDecision where
  decisionId : Uuid
  title : String
  summary : String
  sourceEventIds : List Uuid
  deriving DecidableEq, Repr

/-- The ids in an array, skipping whatever is none. -/
def uuidsOf (value : Json) : List Uuid :=
  ((value.asArray.getD []).filterMap Json.asStr).filterMap Uuid.parse

/-- One event of the replay; events that do not name a decision are skipped. -/
def replayDecision (decisions : OrdMap Uuid ActiveDecision) (event : RoomEvent) :
    OrdMap Uuid ActiveDecision :=
  let payload := event.payload
  match payload["decisionId"].asStr.bind Uuid.parse with
  | none => decisions
  | some decisionId =>
      match event.eventType with
      | .decisionConfirmed =>
          if payload["status"].asStr = some "active" then
            match payload["title"].asStr, payload["summary"].asStr with
            | some title, some summary =>
                decisions.insert decisionId
                  { decisionId := decisionId
                    title := title
                    summary := summary
                    sourceEventIds := uuidsOf payload["sourceEventIds"] }
            | _, _ => decisions
          else decisions
      | .decisionDismissed | .decisionDeleted | .decisionEdited => decisions.erase decisionId
      | _ => decisions

def activeDecisions (events : List RoomEvent) : List ActiveDecision :=
  (events.foldl replayDecision .empty).values

/-! ### The context packet -/

def RoomEvent.toWireValue (event : RoomEvent) : Json :=
  let actor := Json.obj [("id", event.actorId), ("role", event.actorRole.asStr)]
  let actor := match event.actorDisplayName with
    | none => actor
    | some name => actor.set "displayName" name
  .obj [("contractVersion", "n2n.room.v1"), ("requestId", event.requestId),
    ("roomId", event.roomId), ("occurredAt", env.time event.occurredAt),
    ("sequence", event.sequence), ("eventId", event.eventId),
    ("eventType", event.eventType.asStr), ("actor", actor), ("payload", event.payload)]

structure RoomContextPacket where
  taskId : Uuid
  roomId : Uuid
  requesterId : Uuid
  agentId : Uuid
  skillId : AgentSkillId
  contextRevision : Int
  issuedAt : Time
  expiresAt : Time
  input : String
  events : List Json
  activeDecisions : List ActiveDecision
  canonicalSha256 : String
  deriving DecidableEq, Repr

/-- A record in compact JSON: its fields in the order they are declared. -/
def compactRecord (fields : List (String × List Char)) : List Char :=
  Char.ofNat 123 :: joinCommas (fields.map fun f => quote f.1 ++ ':' :: f.2) ++ [Char.ofNat 125]

def ActiveDecision.chars (d : ActiveDecision) : List Char :=
  compactRecord [("decisionId", compact d.decisionId), ("title", compact d.title),
    ("summary", compact d.summary), ("sourceEventIds", compact (Json.ofUuids d.sourceEventIds))]

/-- The bytes the packet's digest is taken of: every field but the digest. -/
def RoomContextPacket.canonicalChars (packet : RoomContextPacket) : List Char :=
  compactRecord [("taskId", compact packet.taskId), ("roomId", compact packet.roomId),
    ("requesterId", compact packet.requesterId), ("agentId", compact packet.agentId),
    ("skillId", compact packet.skillId.asStr),
    ("contextRevision", compact packet.contextRevision),
    ("issuedAt", compact (env.time packet.issuedAt)),
    ("expiresAt", compact (env.time packet.expiresAt)), ("input", compact packet.input),
    ("events", compact (.arr packet.events)),
    ("activeDecisions", '[' :: joinCommas (packet.activeDecisions.map ActiveDecision.chars) ++
      [']'])]

/-- The events of the context that the requester may see. -/
def AgentTaskContext.visibleEvents (context : AgentTaskContext) : List RoomEvent :=
  context.events.filter (eventVisibleTo · context.task.requesterId)

def contextPacket (context : AgentTaskContext) (lease : AgentTaskLease) : RoomContextPacket :=
  let task := context.task
  let packet : RoomContextPacket :=
    { taskId := task.taskId
      roomId := task.roomId
      requesterId := task.requesterId
      agentId := task.agentId
      skillId := task.skillId
      contextRevision := task.contextRevision
      issuedAt := lease.expiresAt - agentTaskLeaseDuration
      expiresAt := lease.expiresAt
      input := task.input
      events := context.visibleEvents.map (RoomEvent.toWireValue env)
      activeDecisions := activeDecisions context.visibleEvents
      canonicalSha256 := "" }
  { packet with canonicalSha256 := env.sha256Hex (String.ofList (packet.canonicalChars env)) }

/-! ### Taking an update -/

structure NormalizedAgentTaskUpdate where
  eventType : String
  payload : Json
  occurredAt : Time
  deriving DecidableEq, Repr

structure TaskUpdateRequest where
  updateId : Uuid
  contextRevision : Int
  update : NormalizedAgentTaskUpdate
  deriving DecidableEq, Repr

/-- The ids of the events and the decisions of a packet. -/
def RoomContextPacket.visibleIds (packet : RoomContextPacket) : List Uuid :=
  packet.events.filterMap (fun event => ((event.get? "eventId").bind Json.asStr).bind Uuid.parse) ++
    packet.activeDecisions.map (·.decisionId)

/-- A result that lists its citations cites only what the packet has. -/
def terminalCitationsAreVisible (packet : RoomContextPacket)
    (update : NormalizedAgentTaskUpdate) : Bool :=
  if update.eventType ≠ "agent.task.succeeded" then true
  else
    match (update.payload.get? "result").bind (·.get? "citations") with
    | none => true
    | some citations =>
        match citations.asArray with
        | none => false
        | some citations => citations.all fun citation =>
            (citation.asStr.bind Uuid.parse).any packet.visibleIds.contains

/-- The lease that a worker's token stands for. -/
def matchingLiveLease (db : Db) (taskId leaseToken : Uuid) (now : Time) : Option AgentTaskLease :=
  (db.agentTasks.rows.find? fun t => t.taskId = taskId).bind fun task =>
    task.leaseExpiresAt.bind fun expiresAt =>
      if task.agentId = referenceAgentId && task.leaseOwner = some leaseToken &&
          now < expiresAt then
        some { taskId := taskId, ownerId := leaseToken, expiresAt := expiresAt }
      else none

/-- How the handler refuses an update. -/
inductive UpdateRefusal where
  | notFound | conflict | unprocessable | internal
  deriving DecidableEq, Repr

def EventType.ofStr (name : String) : EventType :=
  ([messageCreated, decisionProposed, decisionConfirmed, decisionEdited, decisionDismissed,
    decisionDeleted, agentTaskQueued, agentTaskRunning, agentTaskRequested, agentTaskProgressed,
    agentTaskAwaitingExternalInput, agentTaskSucceeded, agentTaskFailed].find?
      (·.asStr = name)).getD (other name)

/-- What the handler does before it records an update. Each database argument
is the one its query finds: the lease is read first, then the context. -/
def checkUpdate (leaseDb contextDb : Db) (taskId leaseToken : Uuid) (now txNow : Time)
    (request : TaskUpdateRequest) : Except UpdateRefusal (AgentTaskLease × AgentTaskUpdate) :=
  match matchingLiveLease leaseDb taskId leaseToken now with
  | none => .error .notFound
  | some lease =>
      match contextForLease contextDb lease (pgTime txNow) with
      | none => .error .notFound
      | some context =>
          if request.contextRevision ≠ context.task.contextRevision then .error .conflict
          else if terminalCitationsAreVisible (contextPacket env context lease) request.update then
            .ok (lease,
              { updateId := request.updateId
                eventType := .ofStr request.update.eventType
                payload := request.update.payload
                occurredAt := request.update.occurredAt })
          else .error .unprocessable

def StoreError.refusal : StoreError → UpdateRefusal
  | conflictingDuplicate => .conflict
  | invalidAgentTask | invalidEvent => .unprocessable
  | database => .internal

/-- The handler: it checks the update and then records it. `db` is the database
that the recording transaction finds; the lease and the context were read
before. -/
def AgentService.update (leaseDb contextDb : Db) (taskId leaseToken : Uuid)
    (now contextNow txNow handoffNow : Time) (request : TaskUpdateRequest) (fresh : Nat → Uuid)
    (db : Db) : Except UpdateRefusal AgentTaskUpdateResult × Db :=
  match checkUpdate env leaseDb contextDb taskId leaseToken now contextNow request with
  | .error refusal => (.error refusal, db)
  | .ok (lease, update) =>
      let ended := (recordAgentTaskUpdateWithOutcome env lease update txNow handoffNow
        fresh).runTx db
      (ended.1.mapError StoreError.refusal, ended.2)

end RoomGateway
