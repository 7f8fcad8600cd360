import RoomGateway.Lib.Text
import RoomGateway.Model.Db
import Mathlib.Data.List.Sort

/-!
The room event log, the request ledger and the external agent tasks
(`store.rs`). A function that the source runs inside a transaction is a `Tx`;
identifiers drawn from `Uuid::new_v4` and clock readings are arguments.
-/

namespace RoomGateway

variable (env : Env)

/-! ### Appending events -/

/-- One mention of a message, against the participant ids and aliases already
seen. -/
def checkMentionUnique (seen : List String × List String) (mention : Json) :
    Option (List String × List String) :=
  match mention["type"].asStr with
  | some "participant" => do
      let id ← mention["id"].asStr
      if seen.1.contains id then none else some (id :: seen.1, seen.2)
  | some "alias" => do
      let name ← mention["alias"].asStr
      if seen.2.contains name then none else some (seen.1, name :: seen.2)
  | _ => none

def messageMentionsAreUnique (event : Json) : Bool :=
  if event["eventType"].asStr ≠ some "message.created" then true
  else
    match event["payload"]["mentions"].asArray with
    | none => true
    | some mentions => (mentions.foldlM checkMentionUnique ([], [])).isSome

def isValidRoomEvent (eventId : Uuid) (event : NewEvent) : Bool :=
  let value := Json.obj [("contractVersion", "n2n.room.v1"), ("requestId", event.requestId),
    ("roomId", event.roomId), ("occurredAt", env.time event.occurredAt),
    ("sequence", (1 : Int)), ("eventId", eventId), ("eventType", event.eventType.asStr),
    ("actor", .obj [("id", event.actorId), ("role", event.actorRole.asStr)]),
    ("payload", event.payload)]
  env.roomEventValid value && messageMentionsAreUnique value

/-- The row an event becomes under a sequence number. -/
def NewEvent.row (event : NewEvent) (eventId : Uuid) (sequence : Int) : RoomEvent where
  eventId := eventId
  roomId := event.roomId
  sequence := sequence
  requestId := event.requestId
  eventType := event.eventType
  actorId := event.actorId
  actorRole := event.actorRole
  actorDisplayName := event.actorDisplayName
  payload := event.payload
  occurredAt := pgTime event.occurredAt

def lockRoom (room : Uuid) : Tx StoreError Unit := .acquire (.room room)

def appendEventInTransaction (eventId : Uuid) (event : NewEvent) : Tx StoreError RoomEvent := do
  .ensure (isValidRoomEvent env eventId event) .invalidEvent
  .returning .database (fun db => event.row eventId (db.maxSequence event.roomId + 1))
    Db.insertRoomEvent

def appendEvent (eventId : Uuid) (event : NewEvent) :
    Tx StoreError (Ending StoreError RoomEvent) := do
  lockRoom event.roomId
  let persisted ← appendEventInTransaction env eventId event
  return .commit (.ok persisted)

/-- `ORDER BY sequence ASC`. -/
def bySequence (events : List RoomEvent) : List RoomEvent :=
  events.insertionSort fun a b => a.sequence ≤ b.sequence

def eventsAfter (db : Db) (room : Uuid) (afterSequence : Int) : List RoomEvent :=
  bySequence ((db.eventsOf room).filter fun e => afterSequence < e.sequence)

def eventsById (db : Db) (ids : List Uuid) : List RoomEvent :=
  bySequence (db.roomEvents.rows.filter fun e => ids.contains e.eventId)

/-! ### The request ledger -/

def findRequest (db : Db) (room request : Uuid) : Option RoomRequest :=
  db.roomRequests.rows.find? fun r => r.roomId = room && r.requestId = request

def priorRequest (room request : Uuid) : Tx StoreError (Option (Json × List RoomEvent)) := do
  let record ← .query .database fun db => findRequest db room request
  match record with
  | none => return none
  | some record =>
      let events ← .query .database fun db => eventsById db record.eventIds
      return some (record.requestFingerprint, events)

def recordRequest (room request : Uuid) (fingerprint : Json) (events : List RoomEvent) :
    Tx StoreError Unit :=
  .execute .database (Db.insertRoomRequest
    { roomId := room, requestId := request, requestFingerprint := fingerprint,
      eventIds := events.map (·.eventId) })

/-! ### Starting an external agent task -/

structure AgentTaskStartResult where
  taskId : Uuid
  events : List RoomEvent
  deriving DecidableEq, Repr

def requestedTaskPayload (taskId requesterId : Uuid) (start : AgentTaskStart)
    (contextRevision : Int) : Json :=
  .obj [("taskId", taskId), ("agentId", start.agentId), ("requesterId", requesterId),
    ("skillId", start.skillId.asStr), ("contextRevision", contextRevision)]

/-- `txNow` is the start of the transaction; `fresh` gives the task and event
ids. -/
def startAgentTaskInTransaction (requesterId : Uuid) (requesterDisplayName : String)
    (start : AgentTaskStart) (recordIdempotency : Bool) (txNow : Time) (fresh : Nat → Uuid) :
    Tx StoreError AgentTaskStartResult := do
  lockRoom start.roomId
  let fingerprint := agentTaskFingerprint env start
  let prior ← priorRequest start.roomId start.requestId
  match prior with
  | some (priorFingerprint, events) =>
      .ensure (priorFingerprint = fingerprint) .conflictingDuplicate
      let task ← .query .database fun db => db.agentTasks.rows.find? fun t =>
        t.roomId = start.roomId && t.requestId = start.requestId
      let task ← .orFail task .database
      return { taskId := task.taskId, events := events }
  | none =>
      let taskId := fresh 0
      let contextRevision ← .query .database fun db => db.maxSequence start.roomId + 1
      let requested ← appendEventInTransaction env (fresh 1)
        { roomId := start.roomId
          requestId := start.requestId
          eventType := .agentTaskRequested
          actorId := requesterId
          actorRole := .human
          actorDisplayName := some requesterDisplayName
          payload := requestedTaskPayload taskId requesterId start contextRevision
          occurredAt := start.occurredAt }
      .ensure (requested.sequence = contextRevision) .invalidAgentTask
      .execute .database (Db.insertAgentTask
        { taskId := taskId
          roomId := start.roomId
          requestId := start.requestId
          requesterId := requesterId
          agentId := start.agentId
          skillId := start.skillId
          input := start.input
          contextRevision := contextRevision
          state := .queued
          leaseOwner := none
          leaseExpiresAt := none
          createdAt := pgTime txNow
          updatedAt := pgTime txNow })
      if recordIdempotency then
        recordRequest start.roomId start.requestId fingerprint [requested]
      return { taskId := taskId, events := [requested] }

def startAgentTask (requesterId : Uuid) (requesterDisplayName : String)
    (start : AgentTaskStart) (txNow : Time) (fresh : Nat → Uuid) :
    Tx StoreError (Ending StoreError AgentTaskStartResult) := do
  let result ← startAgentTaskInTransaction env requesterId requesterDisplayName start true
    txNow fresh
  return .commit (.ok result)

/-! ### Claiming an external agent task -/

structure AgentTaskLease where
  taskId : Uuid
  ownerId : Uuid
  expiresAt : Time
  deriving DecidableEq, Repr

def agentTaskLeaseDuration : Time := seconds 300

def AgentTaskState.live : AgentTaskState → Bool
  | queued | running | awaitingExternalInput => true
  | _ => false

/-- A task is live and nobody holds an unexpired lease on it. -/
def claimable (now : Time) (t : AgentTaskRecord) : Bool :=
  t.state.live && t.leaseExpiresAt.all (· ≤ now)

def claimAgentTask (taskId ownerId : Uuid) (now : Time) :
    Tx StoreError (Ending StoreError (Option AgentTaskLease)) := do
  let expiresAt := now + agentTaskLeaseDuration
  .acquire (.agentTaskRow taskId)
  let row ← .returning .database
    (fun db => db.agentTasks.rows.find? fun t => t.taskId = taskId && claimable (pgTime now) t)
    (fun _ => Db.updateAgentTasks (fun t => t.taskId = taskId && claimable (pgTime now) t)
      fun t => { t with
        leaseOwner := some ownerId
        leaseExpiresAt := some (pgTime expiresAt)
        state := if t.state = .queued then .running else t.state
        updatedAt := pgTime now })
  return .commit (.ok (row.map fun t =>
    { taskId := t.taskId, ownerId := ownerId, expiresAt := pgTime expiresAt }))

/-- `ORDER BY created_at ASC, task_id ASC`. -/
def claimableTasks (db : Db) (agentId : Uuid) (now : Time) : List AgentTaskRecord :=
  (db.agentTasks.rows.filter fun t => t.agentId = agentId && claimable now t).insertionSort
    fun a b => a.createdAt < b.createdAt ∨ (a.createdAt = b.createdAt ∧ a.taskId ≤ b.taskId)

/-- `LIMIT 1 FOR UPDATE`: the rows are locked one after the other until one
still qualifies once it is locked. -/
def lockFirst (agentId : Uuid) (now : Time) :
    List AgentTaskRecord → Tx StoreError (Option AgentTaskRecord)
  | [] => pure none
  | t :: rest => do
      .acquire (.agentTaskRow t.taskId)
      let row ← .query .database fun db => db.agentTasks.rows.find? fun x =>
        x.taskId = t.taskId && x.agentId = agentId && claimable now x
      match row with
      | some row => pure (some row)
      | none => lockFirst agentId now rest

/-- The claim once its candidates are known. -/
def claimFirst (agentId ownerId : Uuid) (now : Time) (candidates : List AgentTaskRecord) :
    Tx StoreError (Ending StoreError (Option AgentTaskLease)) := do
  let expiresAt := now + agentTaskLeaseDuration
  let row ← lockFirst agentId (pgTime now) candidates
  match row with
  | none => return .commit (.ok none)
  | some row =>
      .execute .database (Db.updateAgentTasks (fun t => t.taskId = row.taskId)
        fun t => { t with
          leaseOwner := some ownerId
          leaseExpiresAt := some (pgTime expiresAt)
          state := .running
          updatedAt := pgTime now })
      return .commit (.ok (some
        { taskId := row.taskId, ownerId := ownerId, expiresAt := pgTime expiresAt }))

def claimOldestQueuedAgentTask (agentId ownerId : Uuid) (now : Time) :
    Tx StoreError (Ending StoreError (Option AgentTaskLease)) := do
  .acquire (.agentQueue agentId)
  let candidates ← .query .database fun db => claimableTasks db agentId (pgTime now)
  claimFirst agentId ownerId now candidates

/-- The task under a lease that is still live at `now`. -/
def leasedTask (db : Db) (lease : AgentTaskLease) (now : Time) : Option AgentTaskRecord :=
  db.agentTasks.rows.find? fun t =>
    t.taskId = lease.taskId && t.leaseOwner = some lease.ownerId &&
      t.leaseExpiresAt = some (pgTime lease.expiresAt) && t.leaseExpiresAt.any (now < ·)

structure AgentTaskContext where
  task : AgentTaskRecord
  events : List RoomEvent
  deriving DecidableEq, Repr

def contextForLease (db : Db) (lease : AgentTaskLease) (now : Time) : Option AgentTaskContext :=
  (leasedTask db lease now).map fun task =>
    { task := task
      events := bySequence ((db.eventsOf task.roomId).filter fun e =>
        e.sequence ≤ task.contextRevision) }

/-- The same as the two statements it is; the second may find a later log. -/
def readContext (lease : AgentTaskLease) (txNow : Time) :
    Tx StoreError (Ending StoreError (Option AgentTaskContext)) := do
  let task ← .query .database fun db => leasedTask db lease (pgTime txNow)
  match task with
  | none => return .rollback none
  | some task =>
      let events ← .query .database fun db =>
        bySequence ((db.eventsOf task.roomId).filter fun e => e.sequence ≤ task.contextRevision)
      return .rollback (some { task := task, events := events })

/-! ### Updating an external agent task -/

structure AgentTaskUpdate where
  updateId : Uuid
  eventType : EventType
  payload : Json
  occurredAt : Time
  deriving DecidableEq, Repr

structure AgentTaskUpdateResult where
  taskId : Uuid
  events : List RoomEvent
  duplicate : Bool
  deriving DecidableEq, Repr

def agentTaskCore (task : AgentTaskRecord) : List (String × Json) :=
  [("agentId", task.agentId), ("contextRevision", task.contextRevision),
    ("requesterId", task.requesterId), ("skillId", task.skillId.asStr),
    ("taskId", task.taskId)]

/-- The payload with the task's own fields, which it may repeat but not
contradict. -/
def normalizedAgentTaskUpdatePayload (task : AgentTaskRecord) (payload : Json) :
    Except StoreError Json :=
  if !payload.isObject then .error .invalidAgentTask
  else
    (agentTaskCore task).foldlM (fun (object : Json) (core : String × Json) =>
      if (object.get? core.1).any (· ≠ core.2) then .error .invalidAgentTask
      else .ok (object.set core.1 core.2)) payload

def validateAgentHandoff (task : AgentTaskRecord) (lease : AgentTaskLease) (payload : Json)
    (now : Time) : Except StoreError Unit :=
  let handoff := payload["handoff"]
  match handoff["instruction"].asStr, handoff["url"].asStr.bind env.parseUrl,
    handoff["expiresAt"].asStr.bind env.parseRfc3339 with
  | some instruction, some url, some expiry =>
      if task.agentId ≠ referenceAgentId || (Text.trim instruction.toList).isEmpty ||
          instruction.toList ≠ Text.trim instruction.toList || url.scheme ≠ "https" ||
          url.username ≠ "" || url.password.isSome || url.fragment.isSome ||
          url.host ≠ some "reference-agent.thought-khoral.local" ||
          handoff["host"].asStr ≠ url.host || url.portOrKnownDefault ≠ some 443 ||
          expiry ≤ now || expiry > lease.expiresAt then
        .error .invalidAgentTask
      else .ok ()
  | _, _, _ => .error .invalidAgentTask

/-- Only an update that awaits external input carries a handoff. -/
def checkHandoff (task : AgentTaskRecord) (lease : AgentTaskLease) (update : AgentTaskUpdate)
    (payload : Json) (now : Time) : Except StoreError Unit :=
  if update.eventType = .agentTaskAwaitingExternalInput then
    validateAgentHandoff env task lease payload now
  else .ok ()

def isMatchingAgentTaskUpdate (events : List RoomEvent) (update : AgentTaskUpdate)
    (normalizedPayload : Json) : Bool :=
  match events with
  | [event] => event.eventType = update.eventType && event.payload = normalizedPayload &&
      pgTime event.occurredAt = pgTime update.occurredAt
  | _ => false

def stateForUpdate : EventType → Except StoreError AgentTaskState
  | .agentTaskProgressed => .ok .running
  | .agentTaskAwaitingExternalInput => .ok .awaitingExternalInput
  | .agentTaskSucceeded => .ok .succeeded
  | .agentTaskFailed => .ok .failed
  | _ => .error .invalidAgentTask

/-- `txNow` is the start of the transaction, `now` the clock at the handoff
check; `fresh` gives the event's request id and its own id. -/
def recordAgentTaskUpdateWithOutcome (lease : AgentTaskLease) (update : AgentTaskUpdate)
    (txNow now : Time) (fresh : Nat → Uuid) :
    Tx StoreError (Ending StoreError AgentTaskUpdateResult) := do
  .acquire (.agentTaskRow lease.taskId)
  let task ← .query .database fun db => leasedTask db lease (pgTime txNow)
  let task ← .orFail task .invalidAgentTask
  lockRoom task.roomId
  let payload ← .ofExcept (normalizedAgentTaskUpdatePayload task update.payload)
  let known ← .query .database fun db => db.agentTaskUpdates.rows.find? fun u =>
    u.taskId = task.taskId && u.updateId = update.updateId
  match known with
  | some known =>
      let events ← .query .database fun db => eventsById db known.eventIds
      .ensure (isMatchingAgentTaskUpdate events update payload) .conflictingDuplicate
      return .rollback { taskId := task.taskId, events := events, duplicate := true }
  | none =>
      .ensure task.state.live .invalidAgentTask
      .ofExcept (checkHandoff env task lease update payload now)
      let state ← .ofExcept (stateForUpdate update.eventType)
      let event ← appendEventInTransaction env (fresh 1)
        { roomId := task.roomId
          requestId := fresh 0
          eventType := update.eventType
          actorId := task.agentId
          actorRole := .agent
          actorDisplayName := none
          payload := payload
          occurredAt := update.occurredAt }
      .execute .database (Db.insertAgentTaskUpdate
        { taskId := task.taskId, updateId := update.updateId, eventIds := [event.eventId] })
      .execute .database (Db.updateAgentTasks (fun t => t.taskId = task.taskId)
        fun t => { t with state := state, updatedAt := pgTime update.occurredAt })
      return .commit (.ok { taskId := task.taskId, events := [event], duplicate := false })

end RoomGateway
