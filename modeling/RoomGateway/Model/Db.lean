import RoomGateway.Lib.Table
import RoomGateway.Lib.Txn
import RoomGateway.Model.Protocol

/-!
The tables of the migrations, with their column checks, primary keys and
unique indexes. A row is inserted only when the rows it refers to exist; the
reference of an active task, which is checked when a transaction commits, is
not modelled. PostgreSQL takes no U+0000 in a text or a JSON value. This is
modelled for the owner of a lease; elsewhere, what says that a request is
written assumes that its texts do not have the character.
-/

namespace RoomGateway

/-! ### Room events -/

inductive EventType where
  | messageCreated
  | decisionProposed | decisionConfirmed | decisionEdited | decisionDismissed | decisionDeleted
  | agentTaskQueued | agentTaskRunning | agentTaskRequested | agentTaskProgressed
  | agentTaskAwaitingExternalInput | agentTaskSucceeded | agentTaskFailed
  | other (name : String)
  deriving DecidableEq, Repr

def EventType.asStr : EventType → String
  | messageCreated => "message.created"
  | decisionProposed => "decision.proposed"
  | decisionConfirmed => "decision.confirmed"
  | decisionEdited => "decision.edited"
  | decisionDismissed => "decision.dismissed"
  | decisionDeleted => "decision.deleted"
  | agentTaskQueued => "agent.task.queued"
  | agentTaskRunning => "agent.task.running"
  | agentTaskRequested => "agent.task.requested"
  | agentTaskProgressed => "agent.task.progressed"
  | agentTaskAwaitingExternalInput => "agent.task.awaiting_external_input"
  | agentTaskSucceeded => "agent.task.succeeded"
  | agentTaskFailed => "agent.task.failed"
  | other name => name

structure NewEvent where
  roomId : Uuid
  requestId : Uuid
  eventType : EventType
  actorId : Uuid
  actorRole : ActorRole
  actorDisplayName : Option String
  payload : Json
  occurredAt : Time
  deriving DecidableEq, Repr

structure RoomEvent where
  eventId : Uuid
  roomId : Uuid
  sequence : Int
  requestId : Uuid
  eventType : EventType
  actorId : Uuid
  actorRole : ActorRole
  actorDisplayName : Option String
  payload : Json
  occurredAt : Time
  deriving DecidableEq, Repr

/-- The largest `BIGINT`. -/
def maxBigint : Int := 2 ^ 63 - 1

def roomEventConstraints : Constraints RoomEvent where
  check e := e.sequence ≤ maxBigint
  clash a b := a.eventId = b.eventId || (a.roomId = b.roomId && a.sequence = b.sequence)

/-! ### Decisions and the request ledger -/

inductive DecisionStatus where
  | draft | active | dismissed | superseded
  deriving DecidableEq, Repr

def DecisionStatus.asStr : DecisionStatus → String
  | draft => "draft"
  | active => "active"
  | dismissed => "dismissed"
  | superseded => "superseded"

structure Decision where
  decisionId : Uuid
  roomId : Uuid
  status : DecisionStatus
  title : String
  summary : String
  derivedFromDecisionId : Option Uuid
  sourceEventIds : List Uuid
  createdAt : Time
  updatedAt : Time
  deriving DecidableEq, Repr

def decisionConstraints : Constraints Decision where
  check _ := true
  clash a b := a.decisionId = b.decisionId

structure RoomRequest where
  roomId : Uuid
  requestId : Uuid
  requestFingerprint : Json
  eventIds : List Uuid
  deriving DecidableEq, Repr

def roomRequestConstraints : Constraints RoomRequest where
  check _ := true
  clash a b := a.roomId = b.roomId && a.requestId = b.requestId

/-! ### External agent tasks -/

inductive AgentTaskState where
  | queued | running | awaitingExternalInput | succeeded | failed
  deriving DecidableEq, Repr

structure AgentTaskRecord where
  taskId : Uuid
  roomId : Uuid
  requestId : Uuid
  requesterId : Uuid
  agentId : Uuid
  skillId : AgentSkillId
  input : String
  contextRevision : Int
  state : AgentTaskState
  leaseOwner : Option Uuid
  leaseExpiresAt : Option Time
  createdAt : Time
  updatedAt : Time
  deriving DecidableEq, Repr

def agentTaskConstraints : Constraints AgentTaskRecord where
  check _ := true
  clash a b := a.taskId = b.taskId || (a.roomId = b.roomId && a.requestId = b.requestId)

structure AgentTaskUpdateRow where
  taskId : Uuid
  updateId : Uuid
  eventIds : List Uuid
  deriving DecidableEq, Repr

def agentTaskUpdateConstraints : Constraints AgentTaskUpdateRow where
  check _ := true
  clash a b := a.taskId = b.taskId && a.updateId = b.updateId

/-! ### Conversations -/

inductive ConversationState where
  | reserved | running | ready | unusable | superseded
  deriving DecidableEq, Repr

/-- A turn is under way. -/
def ConversationState.live : ConversationState → Bool
  | reserved | running => true
  | _ => false

def safeRange (low n : Int) : Bool := low ≤ n && n ≤ maxSafeInteger

/-- `char_length(..) BETWEEN 1 AND 128`. -/
def shortText (s : String) : Bool := 1 ≤ s.length && s.length ≤ 128

/-- The owner of a lease, in a column that takes no U+0000. -/
def ownerText (s : String) : Bool := shortText s && !s.toList.contains (Char.ofNat 0)

theorem shortText_of_ownerText {s : String} (h : ownerText s = true) : shortText s = true :=
  (Bool.and_eq_true_iff.mp h).1

structure AgentConversation where
  conversationId : Uuid
  roomId : Uuid
  agentId : Uuid
  generation : Int
  state : ConversationState
  consumedRevision : Int
  policyRevision : String
  guidanceRevision : String
  selectedSettings : Json
  activeTaskId : Option Uuid
  createdAt : Time
  updatedAt : Time
  deriving DecidableEq, Repr

def agentConversationConstraints : Constraints AgentConversation where
  check c := c.agentId = codexAgentId && safeRange 1 c.generation &&
    safeRange 0 c.consumedRevision && shortText c.policyRevision &&
    shortText c.guidanceRevision && c.state.live == c.activeTaskId.isSome &&
    (c.state ≠ .ready || 0 < c.consumedRevision)
  clash a b := a.conversationId = b.conversationId ||
    (a.roomId = b.roomId && a.agentId = b.agentId &&
      (a.generation = b.generation || (a.state ≠ .superseded && b.state ≠ .superseded)))

inductive TaskState where
  | reserved | running | completed | failed
  deriving DecidableEq, Repr

def TaskState.live : TaskState → Bool
  | reserved | running => true
  | _ => false

structure ConversationTask where
  taskId : Uuid
  roomId : Uuid
  requestId : Uuid
  requesterId : Uuid
  agentId : Uuid
  conversationId : Uuid
  generation : Int
  triggerEventId : Uuid
  contextRevision : Int
  state : TaskState
  frozenInput : Json
  selectedSettings : Json
  sourceManifest : Json
  policyRevision : String
  authorizationExpiresAt : Time
  issuedAt : Time
  expiresAt : Time
  leaseOwner : Option String := none
  leaseExpiresAt : Option Time := none
  leaseToken : Option Uuid := none
  receiptAcknowledgement : Option Json := none
  replyEventId : Option Uuid := none
  createdAt : Time
  updatedAt : Time
  acceptedTurn : Json
  result : Option Json := none
  failure : Option Json := none
  effectiveSettings : Option Json := none
  usage : Option Json := none
  lastUpdateOrdinal : Int := 0
  lastProgressAt : Option Time := none
  deriving DecidableEq, Repr

def conversationTaskConstraints : Constraints ConversationTask where
  check t := safeRange 1 t.generation && safeRange 1 t.contextRevision &&
    shortText t.policyRevision && t.leaseOwner.all ownerText && t.issuedAt < t.expiresAt &&
    t.expiresAt ≤ t.authorizationExpiresAt && t.expiresAt ≤ t.issuedAt + seconds 180 &&
    (t.leaseOwner.isSome == t.leaseToken.isSome) &&
    (t.leaseOwner.isSome == t.leaseExpiresAt.isSome) &&
    t.frozenInput.isObject && t.sourceManifest.isArray && safeRange 0 t.lastUpdateOrdinal
  clash a b := a.taskId = b.taskId || (a.roomId = b.roomId && a.requestId = b.requestId)

inductive UpdateKind where
  | progress | settings | usage | completed | failed
  | other (name : String)
  deriving DecidableEq, Repr

def UpdateKind.ofStr (s : String) : UpdateKind :=
  if s = "progress" then progress
  else if s = "settings" then settings
  else if s = "usage" then usage
  else if s = "completed" then completed
  else if s = "failed" then failed
  else other s

/-- The update ends its task. -/
def UpdateKind.terminal : UpdateKind → Bool
  | completed | failed => true
  | _ => false

structure ConversationUpdate where
  taskId : Uuid
  conversationId : Uuid
  roomId : Uuid
  agentId : Uuid
  generation : Int
  updateId : Uuid
  ordinal : Int
  kind : UpdateKind
  occurredAt : Time
  data : Json
  deriving DecidableEq, Repr

def conversationUpdateConstraints : Constraints ConversationUpdate where
  check u := safeRange 1 u.ordinal &&
    decide (u.kind ∈ [.progress, .settings, .usage, .completed, .failed])
  clash a b := a.taskId = b.taskId && (a.updateId = b.updateId || a.ordinal = b.ordinal)

inductive SourceKind where
  | event | decision
  deriving DecidableEq, Repr

structure ConversationDisclosure where
  conversationId : Uuid
  roomId : Uuid
  agentId : Uuid
  generation : Int
  sourceId : Uuid
  sourceKind : SourceKind
  firstTaskId : Uuid
  policyRevision : String
  disclosedRevision : Int
  deriving DecidableEq, Repr

def conversationDisclosureConstraints : Constraints ConversationDisclosure where
  check d := shortText d.policyRevision && safeRange 1 d.disclosedRevision
  clash a b := a.conversationId = b.conversationId && a.sourceId = b.sourceId

structure ConversationUpdateRequest where
  taskId : Uuid
  conversationId : Uuid
  roomId : Uuid
  agentId : Uuid
  generation : Int
  updateId : Uuid
  ordinal : Int
  request : Json
  response : Json
  receivedAt : Time
  deriving DecidableEq, Repr

def conversationUpdateRequestConstraints : Constraints ConversationUpdateRequest where
  check u := safeRange 1 u.ordinal
  clash a b := a.taskId = b.taskId && (a.updateId = b.updateId || a.ordinal = b.ordinal)

/-! ### The database -/

structure Db where
  roomEvents : Table roomEventConstraints := .empty
  decisions : Table decisionConstraints := .empty
  roomRequests : Table roomRequestConstraints := .empty
  agentTasks : Table agentTaskConstraints := .empty
  agentTaskUpdates : Table agentTaskUpdateConstraints := .empty
  agentConversations : Table agentConversationConstraints := .empty
  conversationTasks : Table conversationTaskConstraints := .empty
  conversationUpdates : Table conversationUpdateConstraints := .empty
  conversationDisclosures : Table conversationDisclosureConstraints := .empty
  conversationUpdateRequests : Table conversationUpdateRequestConstraints := .empty

namespace Db

/-- The events of one room, in the order they were inserted. -/
def eventsOf (db : Db) (room : Uuid) : List RoomEvent :=
  db.roomEvents.rows.filter (·.roomId = room)

/-- `COALESCE(MAX(sequence), 0)` over the room. -/
def maxSequence (db : Db) (room : Uuid) : Int :=
  ((db.eventsOf room).map (·.sequence)).max?.getD 0

def insertRoomEvent (e : RoomEvent) (db : Db) : Option Db :=
  (db.roomEvents.insert e).map fun t => { db with roomEvents := t }

def insertDecision (d : Decision) (db : Db) : Option Db :=
  (db.decisions.insert d).map fun t => { db with decisions := t }

def updateDecisions (p : Decision → Bool) (f : Decision → Decision) (db : Db) : Option Db :=
  (db.decisions.update p f).map fun t => { db with decisions := t }

def deleteDecisions (p : Decision → Bool) (db : Db) : Option Db :=
  some { db with decisions := db.decisions.delete p }

def insertRoomRequest (r : RoomRequest) (db : Db) : Option Db :=
  (db.roomRequests.insert r).map fun t => { db with roomRequests := t }

def insertAgentTask (t : AgentTaskRecord) (db : Db) : Option Db :=
  (db.agentTasks.insert t).map fun t => { db with agentTasks := t }

def updateAgentTasks (p : AgentTaskRecord → Bool) (f : AgentTaskRecord → AgentTaskRecord)
    (db : Db) : Option Db :=
  (db.agentTasks.update p f).map fun t => { db with agentTasks := t }

def insertAgentTaskUpdate (u : AgentTaskUpdateRow) (db : Db) : Option Db :=
  if db.agentTasks.rows.any (·.taskId = u.taskId) then
    (db.agentTaskUpdates.insert u).map fun t => { db with agentTaskUpdates := t }
  else none

def insertAgentConversation (c : AgentConversation) (db : Db) : Option Db :=
  (db.agentConversations.insert c).map fun t => { db with agentConversations := t }

def updateAgentConversations (p : AgentConversation → Bool)
    (f : AgentConversation → AgentConversation) (db : Db) : Option Db :=
  (db.agentConversations.update p f).map fun t => { db with agentConversations := t }

/-- The rows that a new conversation task refers to exist. -/
def taskReferences (db : Db) (t : ConversationTask) : Bool :=
  db.roomRequests.rows.any (fun r => r.roomId = t.roomId && r.requestId = t.requestId) &&
    db.agentConversations.rows.any (fun c => c.conversationId = t.conversationId &&
      c.roomId = t.roomId && c.agentId = t.agentId && c.generation = t.generation) &&
    db.roomEvents.rows.any (fun e => e.eventId = t.triggerEventId && e.roomId = t.roomId)

/-- The task that a row of one of the task's own tables refers to exists. -/
def hasTask (db : Db) (task conversation room agent : Uuid) (generation : Int) : Bool :=
  db.conversationTasks.rows.any fun t => t.taskId = task && t.conversationId = conversation &&
    t.roomId = room && t.agentId = agent && t.generation = generation

def insertConversationTask (t : ConversationTask) (db : Db) : Option Db :=
  if db.taskReferences t then
    (db.conversationTasks.insert t).map fun t => { db with conversationTasks := t }
  else none

def updateConversationTasks (p : ConversationTask → Bool)
    (f : ConversationTask → ConversationTask) (db : Db) : Option Db :=
  (db.conversationTasks.update p f).map fun t => { db with conversationTasks := t }

def insertConversationUpdate (u : ConversationUpdate) (db : Db) : Option Db :=
  if db.hasTask u.taskId u.conversationId u.roomId u.agentId u.generation then
    (db.conversationUpdates.insert u).map fun t => { db with conversationUpdates := t }
  else none

def deleteConversationUpdates (p : ConversationUpdate → Bool) (db : Db) : Option Db :=
  some { db with conversationUpdates := db.conversationUpdates.delete p }

/-- `ON CONFLICT (conversation_id, source_id) DO NOTHING`. -/
def discloseOnce (d : ConversationDisclosure) (db : Db) : Option Db :=
  if db.hasTask d.firstTaskId d.conversationId d.roomId d.agentId d.generation then
    (db.conversationDisclosures.insertOrIgnore
        (fun x => x.conversationId = d.conversationId && x.sourceId = d.sourceId) d).map
      fun t => { db with conversationDisclosures := t }
  else none

def insertConversationUpdateRequest (u : ConversationUpdateRequest) (db : Db) : Option Db :=
  if db.hasTask u.taskId u.conversationId u.roomId u.agentId u.generation then
    (db.conversationUpdateRequests.insert u).map
      fun t => { db with conversationUpdateRequests := t }
  else none

end Db

/-- The advisory locks: one for each room, one for the claims of Codex tasks,
one for each agent's queue, and the row lock of an agent task. -/
inductive LockKey where
  | room (id : Uuid)
  | claimCodex
  | agentQueue (agent : Uuid)
  | agentTaskRow (task : Uuid)
  deriving DecidableEq, Repr

abbrev Tx (ε α : Type) := Prog Db LockKey ε α

end RoomGateway
