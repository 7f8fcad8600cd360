import RoomGateway.Model.Turn

/-!
What the gateway shows of its conversations (`conversation_view` and `task_view`
of `conversation_store.rs`). Both are checked against the contract before they
are returned.
-/

namespace RoomGateway

variable (env : Env)

def TaskState.asStr : TaskState → String
  | reserved => "reserved"
  | running => "running"
  | completed => "completed"
  | failed => "failed"

def ConversationState.asStr : ConversationState → String
  | reserved => "reserved"
  | running => "running"
  | ready => "ready"
  | unusable => "unusable"
  | superseded => "superseded"

def UpdateKind.asStr : UpdateKind → String
  | progress => "progress"
  | settings => "settings"
  | usage => "usage"
  | completed => "completed"
  | failed => "failed"
  | other name => name

def ofOptionalId (id : Option Uuid) : Json := id.elim .null fun id => .str id.text

/-! ### The conversation of a room -/

/-- `ORDER BY created_at DESC, task_id DESC LIMIT 1`. -/
def latestTask (db : Db) (conversation : Uuid) : Option ConversationTask :=
  ((db.conversationTasks.rows.filter (·.conversationId = conversation)).insertionSort fun a b =>
    b.createdAt < a.createdAt ∨ (b.createdAt = a.createdAt ∧ b.taskId ≤ a.taskId)).head?

def viewedConversation (db : Db) (c : AgentConversation) : Json :=
  let latest := latestTask db c.conversationId
  .obj [("id", c.conversationId), ("generation", c.generation), ("state", c.state.asStr),
    ("activeTaskId", ofOptionalId c.activeTaskId), ("consumedRevision", c.consumedRevision),
    ("policyRevision", c.policyRevision), ("guidanceRevision", c.guidanceRevision),
    ("selectedSettings", c.selectedSettings),
    ("effectiveSettings", (latest.bind (·.effectiveSettings)).getD .null),
    ("usage", (latest.bind (·.usage)).getD .null)]

def conversationViewValue (db : Db) (room agent : Uuid) : Json :=
  let current := db.agentConversations.rows.find? fun c =>
    c.roomId = room && c.agentId = agent && c.state ≠ .superseded
  .obj [("profileVersion", profileVersion), ("roomId", room), ("agentId", agent),
    ("conversation", current.elim .null (viewedConversation db))]

def conversationView (policy : ConversationPolicy) (room agent : Uuid) :
    Tx ConversationError (Ending ConversationError Json) := do
  .ofExcept (requireEnabled policy agent)
  let view ← .query .runtimeUnavailable fun db => conversationViewValue db room agent
  .ofExcept (validateProfileValue env .view view)
  return .rollback view

/-! ### A task -/

def updateView (u : ConversationUpdate) : Json :=
  .obj [("updateId", u.updateId), ("ordinal", u.ordinal), ("kind", u.kind.asStr),
    ("occurredAt", env.time u.occurredAt), ("data", u.data)]

/-- The updates of a task by ordinal. -/
def orderedUpdates (db : Db) (task : Uuid) : List ConversationUpdate :=
  (db.conversationUpdates.rows.filter (·.taskId = task)).insertionSort fun a b =>
    a.ordinal ≤ b.ordinal

def taskViewValue (t : ConversationTask) (updates : List ConversationUpdate) : Json :=
  .obj [("profileVersion", profileVersion), ("roomId", t.roomId), ("taskId", t.taskId),
    ("conversationId", t.conversationId), ("generation", t.generation),
    ("requesterId", t.requesterId), ("state", t.state.asStr),
    ("selectedSettings", t.selectedSettings),
    ("effectiveSettings", t.effectiveSettings.getD .null), ("usage", t.usage.getD .null),
    ("updates", .arr (updates.map (updateView env))), ("result", t.result.getD .null),
    ("replyEventId", ofOptionalId t.replyEventId), ("failure", t.failure.getD .null)]

def taskView (policy : ConversationPolicy) (room task : Uuid) :
    Tx ConversationError (Ending ConversationError Json) := do
  .ofExcept (requireEnabled policy codexAgentId)
  let t ← .query .runtimeUnavailable fun db => db.conversationTasks.rows.find? fun t =>
    t.taskId = task && t.roomId = room && t.agentId = codexAgentId
  let t ← .orFail t .sessionUnavailable
  let updates ← .query .runtimeUnavailable fun db => (orderedUpdates db task).take 256
  let view := taskViewValue env t updates
  .ofExcept (validateProfileValue env .task view)
  return .commit (.ok view)

end RoomGateway
