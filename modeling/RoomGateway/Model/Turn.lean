import RoomGateway.Model.Reservation

/-!
Running a reserved turn (`conversation_store.rs`): claiming it for a worker,
handing out its packet, recording the worker's updates and the receipt. `txNow`
is the start of a call's transaction, `clock` its clock readings in the order
of the code.
-/

namespace RoomGateway

variable (env : Env)

/-! ### The row of a task -/

/-- A task joined with the state of its conversation. -/
structure TaskRow where
  task : ConversationTask
  conversationState : ConversationState
  activeTaskId : Option Uuid
  deriving DecidableEq, Repr

/-- The conversation is the task's. -/
def ownsTask (t : ConversationTask) (c : AgentConversation) : Bool :=
  c.conversationId = t.conversationId && c.roomId = t.roomId && c.agentId = t.agentId &&
    c.generation = t.generation

def findTask (db : Db) (task : Uuid) : Option ConversationTask :=
  db.conversationTasks.rows.find? fun t => t.taskId = task && t.agentId = codexAgentId

def joinedTask (db : Db) (task : Uuid) : Option TaskRow := do
  let t ← findTask db task
  let c ← db.agentConversations.rows.find? (ownsTask t)
  some ⟨t, c.state, c.activeTaskId⟩

def taskInTransaction (task : Uuid) : Tx ConversationError TaskRow := do
  let row ← .query .runtimeUnavailable fun db => joinedTask db task
  .orFail row .sessionUnavailable

def requireEnabled (policy : ConversationPolicy) (agent : Uuid) : Except ConversationError Unit :=
  if agent ≠ codexAgentId then .error .forbidden
  else if !policy.enabled then .error .runtimeUnavailable
  else .ok ()

/-- The policy the task was frozen under is still the current one. -/
def policyCurrent (policy : ConversationPolicy) (t : ConversationTask) : Bool :=
  t.policyRevision = policy.policyRevision &&
    t.frozenInput["guidanceRevision"] = Json.str policy.guidanceRevision &&
    policy.allows t.frozenInput["model"] t.frozenInput["reasoningEffort"]

def taskAuthority (policy : ConversationPolicy) (row : TaskRow) (lease : Option Uuid)
    (claim : Bool) (now : Time) : Except ConversationError Unit :=
  let t := row.task
  match requireEnabled policy t.agentId with
  | .error e => .error e
  | .ok _ =>
      if !policyCurrent policy t then .error .forbidden
      else if t.authorizationExpiresAt ≤ now then .error .authenticationRequired
      else if t.expiresAt ≤ now then .error .timeout
      else if !t.state.live || row.activeTaskId ≠ some t.taskId ||
          !row.conversationState.live then
        .error .conversationStale
      else if claim then
        if t.state ≠ .reserved || t.leaseToken.isSome then .error .conversationInterrupted
        else .ok ()
      else if lease.isNone || t.leaseToken ≠ lease then .error .forbidden
      else if t.leaseExpiresAt.all (· ≤ now) then .error .conversationInterrupted
      else .ok ()

/-! ### Failing a task -/

def failTaskState (row : TaskRow) (error : ConversationError) (txNow : Time) :
    Tx ConversationError Unit := do
  .execute .runtimeUnavailable (Db.updateConversationTasks
    (fun t => t.taskId = row.task.taskId && t.state.live)
    fun t => { t with
      state := .failed
      failure := some (.obj [("code", error.code), ("message", error.code)])
      updatedAt := pgTime txNow })
  .execute .runtimeUnavailable (Db.updateAgentConversations
    (fun c => c.conversationId = row.task.conversationId &&
      c.activeTaskId = some row.task.taskId)
    fun c => { c with state := .unusable, activeTaskId := none, updatedAt := pgTime txNow })

def setLastOrdinal (task : Uuid) (ordinal : Int) : Tx ConversationError Unit :=
  .execute .runtimeUnavailable (Db.updateConversationTasks (fun t => t.taskId = task)
    fun t => { t with lastUpdateOrdinal := ordinal })

/-- The row of an update of a task. -/
def updateRow (room : Uuid) (t : ConversationTask) (updateId : Uuid) (ordinal : Int)
    (kind : UpdateKind) (occurredAt : Time) (data : Json) : ConversationUpdate where
  taskId := t.taskId
  conversationId := t.conversationId
  roomId := room
  agentId := codexAgentId
  generation := t.generation
  updateId := updateId
  ordinal := ordinal
  kind := kind
  occurredAt := pgTime occurredAt
  data := data

/-- Only the update of the state is guarded by it: the row of the failure and
the ordinal are written whatever the task's state. -/
def failTask (row : TaskRow) (error : ConversationError) (txNow : Time) (updateId : Uuid) :
    Tx ConversationError Unit := do
  failTaskState row error txNow
  let ordinal := row.task.lastUpdateOrdinal + 1
  .ensure (ordinal ≤ maxSafeInteger) .executionFailed
  .execute .runtimeUnavailable (Db.insertConversationUpdate
    (updateRow row.task.roomId row.task updateId ordinal .failed txNow
      (.obj [("code", error.code)])))
  setLastOrdinal row.task.taskId ordinal

/-! ### Claiming -/

/-- Whether a task waits for a worker, or for the gateway to end it. -/
def awaitsClaim (now : Time) (t : ConversationTask) : Bool :=
  t.agentId = codexAgentId &&
    (t.state = .reserved || (t.state = .running &&
      (t.leaseExpiresAt.any (· ≤ now) || t.expiresAt ≤ now || t.authorizationExpiresAt ≤ now)))

/-- `ORDER BY created_at, task_id LIMIT 1`. -/
def claimCandidate (db : Db) (now : Time) : Option ConversationTask :=
  ((db.conversationTasks.rows.filter (awaitsClaim now)).insertionSort fun a b =>
    a.createdAt < b.createdAt ∨ (a.createdAt = b.createdAt ∧ a.taskId ≤ b.taskId)).head?

/-- A claimed task: the packet with its lease, and the token. -/
structure Claimed where
  packet : Json
  leaseToken : Uuid
  deriving DecidableEq, Repr

def Claimed.toJson (c : Claimed) : Json :=
  .obj [("packet", c.packet), ("leaseToken", c.leaseToken)]

/-- The frozen input with the lease it runs under. -/
def leasedPacket (t : ConversationTask) (owner : Option String) (leaseExpiresAt : Option Time) :
    Json :=
  (t.frozenInput.set "leaseOwner" (Json.ofOption owner)).set "leaseExpiresAt"
    (leaseExpiresAt.elim .null env.time)

/-- The part of a claim under the room lock, on the task that was selected
before it. No result: the task was failed, and the claim goes on to the next. -/
def claimLocked (policy : ConversationPolicy) (owner : String) (task room : Uuid)
    (txNow now : Time) (fresh : Uuid) :
    Tx ConversationError (Ending ConversationError (Option Claimed)) := do
  (lockRoom room).mapErr .ofStore
  let row ← taskInTransaction task
  match taskAuthority policy row none true now with
  | .error error =>
      failTask row error txNow fresh
      return .commit (.ok none)
  | .ok _ =>
      let t := row.task
      let leaseExpiry :=
        min (t.expiresAt + seconds policy.interruptGraceSeconds) t.authorizationExpiresAt
      .execute .runtimeUnavailable (Db.updateConversationTasks (fun x => x.taskId = t.taskId)
        fun x => { x with
          state := .running
          leaseOwner := some owner
          leaseToken := some fresh
          leaseExpiresAt := some (pgTime leaseExpiry)
          updatedAt := pgTime txNow })
      .execute .runtimeUnavailable (Db.updateAgentConversations
        (fun c => c.conversationId = t.conversationId)
        fun c => { c with state := .running, updatedAt := pgTime txNow })
      let packet := leasedPacket env t (some owner) (some leaseExpiry)
      .ofExcept (validateProfileValue env .input packet)
      return .commit (.ok (some ⟨packet, fresh⟩))

def checkClaim (policy : ConversationPolicy) (owner : String) : Except ConversationError Unit := do
  requireEnabled policy codexAgentId
  if owner = "" || owner.length > 128 then .error .invalidTaskInput
  return ()

/-- One round of the claim loop. No outer result: no task waits. -/
def claimRound (policy : ConversationPolicy) (owner : String) (txNow now : Time)
    (fresh : Uuid) :
    Tx ConversationError (Ending ConversationError (Option (Option Claimed))) := do
  .acquire .claimCodex
  let candidate ← .query .runtimeUnavailable fun db => claimCandidate db (pgTime txNow)
  match candidate with
  | none => return .rollback none
  | some t =>
      let ending ← claimLocked env policy owner t.taskId t.roomId txNow now fresh
      match ending with
      | .rollback r => return .rollback (some r)
      | .commit r => return .commit (r.map some)

/-- The rounds of a claim that nothing interrupts. -/
def claimRounds (policy : ConversationPolicy) (owner : String) (txNow now : Nat → Time)
    (fresh : Nat → Uuid) : Nat → Db → Except ConversationError (Option Claimed) × Db
  | 0, db => (.ok none, db)
  | fuel + 1, db =>
      match (claimRound env policy owner (txNow fuel) (now fuel) (fresh fuel)).runTx db with
      | (.error e, db') => (.error e, db')
      | (.ok none, db') => (.ok none, db')
      | (.ok (some (some claimed)), db') => (.ok (some claimed), db')
      | (.ok (some none), db') => claimRounds policy owner txNow now fresh fuel db'

def claim (policy : ConversationPolicy) (owner : String) (txNow now : Nat → Time)
    (fresh : Nat → Uuid) (db : Db) : Except ConversationError (Option Claimed) × Db :=
  match checkClaim policy owner with
  | .error e => (.error e, db)
  | .ok _ => claimRounds env policy owner txNow now fresh 100 db

/-! ### The packet -/

/-- The errors that end a task whose worker asks for its packet. -/
def endsTask : ConversationError → Bool
  | .timeout | .authenticationRequired | .conversationInterrupted | .forbidden
  | .runtimeUnavailable => true
  | _ => false

def packet (policy : ConversationPolicy) (task lease : Uuid) (txNow now : Time) (fresh : Uuid) :
    Tx ConversationError (Ending ConversationError Json) := do
  let found ← .query .runtimeUnavailable fun db => findTask db task
  let found ← .orFail found .sessionUnavailable
  (lockRoom found.roomId).mapErr .ofStore
  let row ← taskInTransaction task
  match taskAuthority policy row (some lease) false now with
  | .error error =>
      if row.task.leaseToken = some lease && endsTask error && row.task.state.live then
        failTask row error txNow fresh
        return .commit (.error error)
      else .fail error
  | .ok _ =>
      let packet := leasedPacket env row.task row.task.leaseOwner row.task.leaseExpiresAt
      .ofExcept (validateProfileValue env .input packet)
      return .rollback packet

/-! ### Updates -/

structure ConversationUpdateOutcome where
  response : Json
  event : Option RoomEvent
  deriving DecidableEq, Repr

def validateMetadata (settings usage : Option Json) : Except ConversationError Unit :=
  if settings.any (fun s => s["confirmation"] = Json.str "confirmed" &&
        (s["model"].isNull || s["reasoningEffort"].isNull)) ||
      usage.any (fun u => u["modelContextWindow"].isNull &&
        u["freshness"] ≠ Json.str "unavailable") then
    .error .invalidTaskInput
  else .ok ()

def optionalJson (value : Json) : Option Json := if value.isNull then none else some value

def failureCode (code : String) : Except ConversationError ConversationError :=
  match ConversationError.all.find? (·.code = code) with
  | some error => .ok error
  | none => .error .invalidTaskInput

def SourceKind.asStr : SourceKind → String
  | event => "event"
  | decision => "decision"

def SourceKind.ofStr : String → Option SourceKind
  | "event" => some .event
  | "decision" => some .decision
  | _ => none

/-- The cited source is public in the room now. -/
def sourceVisible (db : Db) (room id : Uuid) (kind : Json) : Bool :=
  if kind = Json.str "event" then
    db.roomEvents.rows.any fun e =>
      e.eventId = id && e.roomId = room && publicPayload env e.payload
  else
    db.decisions.rows.any fun d => d.decisionId = id && d.roomId = room &&
      d.sourceEventIds.all fun source => db.roomEvents.rows.any fun e =>
        e.eventId = source && e.roomId = d.roomId && publicPayload env e.payload

def parseCitation (id : Json) : Except ConversationError Uuid :=
  match id.asStr.bind Uuid.parse with
  | some id => .ok id
  | none => .error .invalidTaskInput

/-- What was disclosed to the conversation before, among the cited ids. -/
def citedDisclosures (db : Db) (policy : ConversationPolicy) (t : ConversationTask)
    (cited : List Uuid) : List Json :=
  (db.conversationDisclosures.rows.filter fun d => d.conversationId = t.conversationId &&
    d.policyRevision = policy.policyRevision && cited.contains d.sourceId).map fun d =>
      .obj [("sourceId", d.sourceId), ("sourceKind", d.sourceKind.asStr)]

def validateCitation (room : Uuid) (sources : List Json) (citation : Json) :
    Tx ConversationError Unit := do
  let source ← .orFail (sources.find? fun s => s["sourceId"] = citation) .forbidden
  let id ← .ofExcept (uuidField source "sourceId")
  let visible ← .query .runtimeUnavailable fun db =>
    sourceVisible env db room id source["sourceKind"]
  .ensure visible .forbidden

def validateCitations (policy : ConversationPolicy) (t : ConversationTask) (reply : Json) :
    Tx ConversationError Unit := do
  let manifest ← .orFail t.sourceManifest.asArray .contextMismatch
  let citations ← .orFail reply["citations"].asArray .invalidTaskInput
  let cited ← .ofExcept (citations.mapM parseCitation)
  let disclosed ← .query .runtimeUnavailable fun db => citedDisclosures db policy t cited
  .forEach citations (validateCitation env t.roomId (manifest ++ disclosed))

def disclosureOf (policy : ConversationPolicy) (room : Uuid) (t : ConversationTask)
    (sourceId : Uuid) (kind : SourceKind) : ConversationDisclosure where
  conversationId := t.conversationId
  roomId := room
  agentId := codexAgentId
  generation := t.generation
  sourceId := sourceId
  sourceKind := kind
  firstTaskId := t.taskId
  policyRevision := policy.policyRevision
  disclosedRevision := t.contextRevision

def disclose (policy : ConversationPolicy) (room : Uuid) (t : ConversationTask) (source : Json) :
    Tx ConversationError Unit := do
  let id ← .ofExcept (uuidField source "sourceId")
  let kind ← .orFail (source["sourceKind"].asStr.bind SourceKind.ofStr) .runtimeUnavailable
  .execute .runtimeUnavailable (Db.discloseOnce (disclosureOf policy room t id kind))

def replyEvent (room : Uuid) (t : ConversationTask) (data : Json) (now : Time) : NewEvent where
  roomId := room
  requestId := t.requestId
  eventType := .messageCreated
  actorId := codexAgentId
  actorRole := .agent
  actorDisplayName := some "Codex Agent"
  payload := .obj [("text", data["assistantText"]), ("delivery", "room"), ("mentions", .arr []),
    ("audienceIds", .arr [])]
  occurredAt := now

def acknowledgement (t : ConversationTask) (reply : RoomEvent) (text : String) : Json :=
  .obj [("profileVersion", profileVersion), ("taskId", t.taskId),
    ("conversationId", t.conversationId), ("generation", t.generation),
    ("replyEventId", reply.eventId), ("replySequence", reply.sequence),
    ("textDigest", env.sha256Hex text), ("consumedRevision", t.contextRevision),
    ("contextDigest", t.frozenInput["context"]["digest"])]

/-- The completing update: the reply is appended, the task and its conversation
move on, and what the turn was shown counts as disclosed. -/
def completeTask (policy : ConversationPolicy) (room : Uuid) (t : ConversationTask) (data : Json)
    (now : Time) (eventId : Uuid) : Tx ConversationError (Json × RoomEvent) := do
  .ofExcept (validateProfileValue env .result data)
  .ensure (data["conversationId"] = Json.str t.conversationId.text &&
    data["generation"] = Json.ofInt t.generation &&
    data["consumedRevision"] = Json.ofInt t.contextRevision &&
    data["contextDigest"] = t.frozenInput["context"]["digest"]) .contextMismatch
  let text ← .orFail data["assistantText"].asStr .invalidTaskInput
  .ensure (!(text.utf8ByteSize > 65536)) .contextTooLarge
  validateCitations env policy t data
  let reply ← (appendEventInTransaction env eventId (replyEvent room t data now)).mapErr .ofStore
  let ack := acknowledgement env t reply text
  .ofExcept (validateProfileValue env .ack ack)
  .execute .runtimeUnavailable (Db.updateConversationTasks (fun x => x.taskId = t.taskId)
    fun x => { x with
      state := .completed
      result := some data
      replyEventId := some reply.eventId
      receiptAcknowledgement := some ack
      effectiveSettings := optionalJson data["effectiveSettings"]
      usage := optionalJson data["usage"]
      updatedAt := pgTime now })
  .execute .runtimeUnavailable (Db.updateAgentConversations
    (fun c => c.conversationId = t.conversationId)
    fun c => { c with
      state := .ready
      activeTaskId := none
      consumedRevision := t.contextRevision
      updatedAt := pgTime now })
  let sources ← .orFail t.sourceManifest.asArray .contextMismatch
  .forEach sources (disclose policy room t)
  return (ack, reply)

/-- An update that carries no reply: a failure ends the task, settings and usage
are kept on it. -/
def applyUpdate (row : TaskRow) (kind : UpdateKind) (data : Json) (txNow now : Time) :
    Tx ConversationError Unit := do
  let task := row.task.taskId
  match kind with
  | .failed =>
      let code ← .orFail data["code"].asStr .invalidTaskInput
      let error ← .ofExcept (failureCode code)
      failTaskState row error txNow
  | .settings =>
      .execute .runtimeUnavailable (Db.updateConversationTasks (fun t => t.taskId = task)
        fun t => { t with effectiveSettings := some data, updatedAt := pgTime now })
  | .usage =>
      .execute .runtimeUnavailable (Db.updateConversationTasks (fun t => t.taskId = task)
        fun t => { t with usage := some data, updatedAt := pgTime now })
  | _ => pure ()

def updateAcknowledgement (task updateId : Uuid) (ordinal : Int) : Json :=
  .obj [("profileVersion", profileVersion), ("taskId", task), ("updateId", updateId),
    ("ordinal", ordinal)]

/-- Whether a progress update is folded into what is already retained: the
acceptance is kept once, any other at most once a second. -/
def coalesced (row : TaskRow) (kind : UpdateKind) (data : Json) (now : Time) (db : Db) : Bool :=
  kind = .progress &&
    (if data["phase"] = Json.str "accepted" then
      db.conversationUpdates.rows.any fun u => u.taskId = row.task.taskId &&
        u.kind = .progress && env.text u.data "phase" = some "accepted"
    else row.task.lastProgressAt.any fun time => now - time < seconds 1)

/-- The retained rows an update replaces: settings and usage the earlier row of
their kind, progress every row but the acceptance. -/
def replaced (task : Uuid) (kind : UpdateKind) (u : ConversationUpdate) : Bool :=
  u.taskId = task && u.kind = kind &&
    (kind = .settings || kind = .usage ||
      (kind = .progress && (env.text u.data "phase").any (· ≠ "accepted")))

/-- Retain the row of an update, in place of those it replaces. -/
def retainUpdate (row : TaskRow) (u : ConversationUpdate) (now : Time) :
    Tx ConversationError Unit := do
  let task := row.task.taskId
  let folded ← .query .runtimeUnavailable (coalesced env row u.kind u.data now)
  if !folded then
    .execute .runtimeUnavailable (Db.deleteConversationUpdates (replaced env task u.kind))
    .execute .runtimeUnavailable (Db.insertConversationUpdate u)
    if u.kind = .progress then
      .execute .runtimeUnavailable (Db.updateConversationTasks (fun t => t.taskId = task)
        fun t => { t with lastProgressAt := some (pgTime now) })

/-- The metadata an update carries is checked before anything is written. -/
def checkMetadata (kind : UpdateKind) (data : Json) : Except ConversationError Unit :=
  match kind with
  | .settings => validateMetadata (some data) none
  | .usage => validateMetadata none (some data)
  | .completed =>
      validateMetadata (optionalJson data["effectiveSettings"]) (optionalJson data["usage"])
  | _ => .ok ()

/-- What the worker of an ended task must still have to be told its response
again; after that the receipt is the way. -/
def replayAuthority (policy : ConversationPolicy) (row : TaskRow) (clock : Nat → Time) :
    Except ConversationError Unit :=
  let t := row.task
  match requireEnabled policy codexAgentId with
  | .error e => .error e
  | .ok _ =>
      if t.leaseExpiresAt.all (· ≤ clock 0) then .error .conversationInterrupted
      else if t.authorizationExpiresAt ≤ clock 1 then .error .authenticationRequired
      else if row.conversationState = .superseded || t.expiresAt ≤ clock 2 then
        .error .conversationStale
      else if !policyCurrent policy t then .error .forbidden
      else .ok ()

/-- A repeated update gets the stored response. -/
def replayUpdate (policy : ConversationPolicy) (row : TaskRow) (lease : Uuid)
    (prior : ConversationUpdateRequest) (request : Json) (clock : Nat → Time) :
    Except ConversationError ConversationUpdateOutcome :=
  if prior.request ≠ request then .error .duplicateConflict
  else
    let authority :=
      if !row.task.state.live then replayAuthority policy row clock
      else taskAuthority policy row (some lease) false (clock 3)
    authority.map fun _ => ⟨prior.response, none⟩

/-- What an update does by its kind, and what the worker is told. -/
def performUpdate (policy : ConversationPolicy) (room : Uuid) (row : TaskRow) (updateId : Uuid)
    (ordinal : Int) (kind : UpdateKind) (data : Json) (txNow now : Time) (fresh : Uuid) :
    Tx ConversationError ConversationUpdateOutcome :=
  if kind = .completed then do
    let (ack, reply) ← completeTask env policy room row.task data now fresh
    return ⟨ack, some reply⟩
  else do
    applyUpdate row kind data txNow now
    return ⟨updateAcknowledgement row.task.taskId updateId ordinal, none⟩

/-- The ledger row of an update: what was asked and what was answered. -/
def requestRow (room : Uuid) (t : ConversationTask) (updateId : Uuid) (ordinal : Int)
    (request response : Json) (now : Time) : ConversationUpdateRequest where
  taskId := t.taskId
  conversationId := t.conversationId
  roomId := room
  agentId := codexAgentId
  generation := t.generation
  updateId := updateId
  ordinal := ordinal
  request := request
  response := response
  receivedAt := pgTime now

/-- An update that was not seen before, under the task's authority; `room` is
the room that is locked. -/
def applyNewUpdate (policy : ConversationPolicy) (room : Uuid) (row : TaskRow)
    (lease updateId : Uuid) (request : Json) (txNow : Time) (clock : Nat → Time) (fresh : Uuid) :
    Tx ConversationError ConversationUpdateOutcome := do
  let t := row.task
  let ordinal ← .orFail request["ordinal"].asI64 .invalidTaskInput
  .ensure (!(ordinal ≤ t.lastUpdateOrdinal)) .duplicateConflict
  let kind ← .orFail (request["kind"].asStr.map UpdateKind.ofStr) .invalidTaskInput
  -- a running task keeps room for the ordinal of its end
  .ensure (!(ordinal = maxSafeInteger && !kind.terminal)) .invalidTaskInput
  let data := request["data"]
  .ofExcept (checkMetadata kind data)
  let now := clock 5
  let outcome ← performUpdate env policy room row updateId ordinal kind data txNow now fresh
  retainUpdate env row (updateRow room t updateId ordinal kind now data) now
  setLastOrdinal t.taskId ordinal
  .execute .runtimeUnavailable (Db.insertConversationUpdateRequest
    (requestRow room t updateId ordinal request outcome.response now))
  .ofExcept (taskAuthority policy row (some lease) false (clock 6))
  return outcome

def recordUpdate (policy : ConversationPolicy) (task lease : Uuid) (request : Json)
    (txNow : Time) (clock : Nat → Time) (fresh : Uuid) :
    Tx ConversationError (Ending ConversationError ConversationUpdateOutcome) := do
  .ofExcept (validateProfileValue env .update request)
  .ensure (request["taskId"] = Json.str task.text) .contextMismatch
  let found ← .query .runtimeUnavailable fun db => findTask db task
  let found ← .orFail found .sessionUnavailable
  (lockRoom found.roomId).mapErr .ofStore
  let row ← taskInTransaction task
  let t := row.task
  .ofExcept (requireEnabled policy codexAgentId)
  .ensure (request["generation"] = Json.ofInt t.generation &&
    request["contextDigest"] = t.frozenInput["context"]["digest"]) .contextMismatch
  .ensure (t.leaseToken = some lease) .forbidden
  let updateId ← .ofExcept (uuidField request "updateId")
  let prior ← .query .runtimeUnavailable fun db =>
    db.conversationUpdateRequests.rows.find? fun u => u.taskId = task && u.updateId = updateId
  match prior with
  | some prior =>
      let outcome ← .ofExcept (replayUpdate policy row lease prior request clock)
      return .rollback outcome
  | none =>
      match taskAuthority policy row (some lease) false (clock 4) with
      | .error error =>
          if t.state.live then
            failTask row error txNow fresh
            return .commit (.error error)
          else .fail error
      | .ok _ =>
          let outcome ← applyNewUpdate env policy found.roomId row lease updateId
            request txNow clock
            fresh
          return .commit (.ok outcome)

/-- What a worker may still learn after its lease is gone. -/
def receipt (policy : ConversationPolicy) (task : Uuid) (db : Db) :
    Except ConversationError Json := do
  requireEnabled policy codexAgentId
  match findTask db task with
  | none => .error .sessionUnavailable
  | some t =>
      let state := match t.state with
        | .reserved => "reserved"
        | .running => "running"
        | .completed => "completed"
        | .failed => "failed"
      .ok (.obj [("profileVersion", profileVersion), ("taskId", task),
        ("conversationId", t.conversationId), ("generation", t.generation), ("state", state),
        ("acknowledgement", t.receiptAcknowledgement.getD .null),
        ("result", t.result.getD .null)])

end RoomGateway
