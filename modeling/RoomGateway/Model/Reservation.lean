import RoomGateway.Model.Context
import RoomGateway.Model.Roster

/-!
Reserving a conversation turn (`ConversationStore::reserve`). Every clock
reading and every `Uuid::new_v4` of a call is an argument.
-/

namespace RoomGateway

variable (env : Env)

def uuidField (value : Json) (key : String) : Except ConversationError Uuid :=
  match value[key].asStr.bind Uuid.parse with
  | some id => .ok id
  | none => .error .invalidTaskInput

/-- The permission port of a turn: a human whose token, and the requested
expiry, outlast the turn. -/
def authorizeConversationTurn (actor : Actor) (requestedExpiry now minimumRemaining : Time) :
    Except ConversationError Time :=
  if actor.role ≠ .human then .error .forbidden
  else
    match fromTimestamp actor.expiresAt with
    | none => .error .authenticationRequired
    | some tokenExpiry =>
        let expiry := min requestedExpiry tokenExpiry
        if expiry < now + minimumRemaining then .error .authenticationRequired else .ok expiry

/-! ### The model catalog -/

/-- A catalog: its page for a cursor, and whether reading it outlasts the five
seconds it is given. -/
structure CatalogQuery where
  page : Option String → Except ConversationError Json
  timedOut : Bool := false

/-- One model of a catalog page, given the ids before it. -/
def validateCatalogModel (seen : List (Option String)) (model : Json) :
    Except ConversationError (List (Option String)) :=
  if seen.contains model["id"].asStr then .error .runtimeUnavailable
  else
    match model["supportedReasoningEfforts"].asArray with
    | none => .error .runtimeUnavailable
    | some efforts =>
        let ids := efforts.map fun effort => effort["id"].asStr
        if !(ids.Nodup : Bool) then .error .runtimeUnavailable
        else if !model["defaultReasoningEffort"].isNull &&
            !ids.contains model["defaultReasoningEffort"].asStr then
          .error .runtimeUnavailable
        else .ok (model["id"].asStr :: seen)

def validateCatalog (page : Json) (policy : ConversationPolicy) :
    Except ConversationError Unit := do
  (validateProfileValue env .catalog page).mapError fun _ => ConversationError.runtimeUnavailable
  if Text.byteLength (compact page) > 1048576 then .error .runtimeUnavailable
  if page["catalogRevision"] ≠ Json.str policy.catalogRevision then .error .conversationStale
  match page["data"].asArray with
  | none => .error .runtimeUnavailable
  | some models => (models.foldlM validateCatalogModel []).map fun _ => ()

/-- One model of a page against the ids of all pages and the selected pair. -/
def selectModel (selected : Json) (state : List String × Bool) (model : Json) :
    Except ConversationError (List String × Bool) :=
  match model["id"].asStr with
  | none => .error .runtimeUnavailable
  | some id =>
      if state.1.contains id then .error .runtimeUnavailable
      else if model["id"] = selected["model"] then
        match model["supportedReasoningEfforts"].asArray with
        | none => .error .runtimeUnavailable
        | some efforts =>
            .ok (id :: state.1, efforts.any fun e => e["id"] = selected["reasoningEffort"])
      else .ok (id :: state.1, state.2)

/-- Read pages from a cursor on, at most `fuel` of them. -/
def selectFrom (catalog : CatalogQuery) (policy : ConversationPolicy) (selected : Json) :
    Nat → Option String → List String → List String × Bool → Except ConversationError Unit
  | 0, _, _, _ => .error .runtimeUnavailable
  | fuel + 1, cursor, cursors, state => do
      let page ← catalog.page cursor
      validateCatalog env page policy
      match page["data"].asArray with
      | none => .error .runtimeUnavailable
      | some models =>
          let state ← models.foldlM (selectModel selected) state
          match page["nextCursor"].asStr with
          | none => if state.2 then .ok () else .error .invalidTaskInput
          | some next =>
              if cursors.contains next then .error .runtimeUnavailable
              else selectFrom catalog policy selected fuel (some next) (next :: cursors) state

def validateCatalogSelection (catalog : CatalogQuery) (policy : ConversationPolicy)
    (selected : Json) : Except ConversationError Unit :=
  if catalog.timedOut then .error .runtimeUnavailable
  else selectFrom env catalog policy selected 100 none [] ([], false)

/-! ### Reserving a turn -/

structure ConversationReservation where
  accepted : Json
  prompt : Option RoomEvent
  deriving DecidableEq, Repr

/-- What a turn request asks for: the mode it names, if any. -/
def explicitMode (request : Json) : Option String := request["conversation"]["mode"].asStr

/-- The mode of a turn: without one in the request, continue what there is. -/
def turnMode (request : Json) (current : Option AgentConversation) : String :=
  (explicitMode request).getD (if current.isSome then "continue" else "new")

def turnFingerprint (actor : Actor) (request : Json) : Json :=
  .obj [("method", "agent-conversation.turn"), ("requesterId", actor.id), ("intent", request)]

/-- The conversation of the room that is not superseded. -/
def currentConversation (db : Db) (room : Uuid) : Option AgentConversation :=
  db.agentConversations.rows.find? fun c =>
    c.roomId = room && c.agentId = codexAgentId && c.state ≠ .superseded

def lastGeneration (db : Db) (room : Uuid) : Int :=
  ((db.agentConversations.rows.filter fun c =>
    c.roomId = room && c.agentId = codexAgentId).map (·.generation)).max?.getD 0

/-- The conversation a turn runs in, and the revision it has consumed. -/
structure TurnTarget where
  conversationId : Uuid
  generation : Int
  base : Int

/-- Continue the room's conversation, if it is ready, under the same policy and
the one the request names. -/
def continueTarget (policy : ConversationPolicy) (request : Json)
    (current : Option AgentConversation) : Except ConversationError TurnTarget :=
  match current with
  | none => .error .conversationStale
  | some c =>
      if c.state ≠ .ready || c.policyRevision ≠ policy.policyRevision ||
          c.guidanceRevision ≠ policy.guidanceRevision ||
          ((explicitMode request).isSome &&
            (request["conversation"]["id"] ≠ Json.str c.conversationId.text ||
              request["conversation"]["generation"] ≠ Json.ofInt c.generation)) then
        .error .conversationStale
      else if c.consumedRevision ≤ 0 then .error .contextMismatch
      else .ok ⟨c.conversationId, c.generation, c.consumedRevision⟩

/-- The settings a continued conversation carries over, under the current
catalog revision. -/
def sharedSettings (policy : ConversationPolicy) (current : Option AgentConversation) :
    Option Json :=
  current.map fun c => .obj [("model", c.selectedSettings["model"]),
    ("reasoningEffort", c.selectedSettings["reasoningEffort"]),
    ("catalogRevision", policy.catalogRevision)]

def promptEvent (actor : Actor) (room requestId : Uuid) (request : Json) (occurredAt : Time) :
    NewEvent where
  roomId := room
  requestId := requestId
  eventType := .messageCreated
  actorId := actor.id
  actorRole := .human
  actorDisplayName := some actor.displayName
  payload := .obj [("text", request["text"]), ("mentions", request["mentions"]),
    ("delivery", "room"), ("audienceIds", .arr [])]
  occurredAt := occurredAt

def frozenInput (policy : ConversationPolicy) (actor : Actor) (room taskId : Uuid)
    (target : TurnTarget) (mode : String) (trigger : Uuid) (context settings : Json)
    (now expires authorizationExpiresAt : Time) : Json :=
  .obj [("profileVersion", profileVersion), ("taskId", taskId), ("roomId", room),
    ("requesterId", actor.id), ("agentId", codexAgentId), ("skillId", "chat"),
    ("conversation", .obj [("id", target.conversationId), ("generation", target.generation),
      ("mode", mode)]),
    ("triggerEventId", trigger), ("context", context),
    ("guidanceRevision", policy.guidanceRevision), ("issuedAt", env.time now),
    ("expiresAt", env.time expires),
    ("authorizationExpiresAt", env.time authorizationExpiresAt), ("model", settings["model"]),
    ("reasoningEffort", settings["reasoningEffort"]),
    ("catalogRevision", settings["catalogRevision"])]

def acceptedTurn (room taskId : Uuid) (target : TurnTarget) (prompt : RoomEvent)
    (settings : Json) : Json :=
  .obj [("profileVersion", profileVersion), ("roomId", room), ("taskId", taskId),
    ("conversationId", target.conversationId), ("generation", target.generation),
    ("triggerEventId", prompt.eventId), ("contextRevision", prompt.sequence),
    ("selectedSettings", settings)]

/-- The first row of a new generation. -/
def openedConversation (policy : ConversationPolicy) (room taskId : Uuid) (target : TurnTarget)
    (settings : Json) (now : Time) : AgentConversation where
  conversationId := target.conversationId
  roomId := room
  agentId := codexAgentId
  generation := target.generation
  state := .reserved
  consumedRevision := 0
  policyRevision := policy.policyRevision
  guidanceRevision := policy.guidanceRevision
  selectedSettings := settings
  activeTaskId := some taskId
  createdAt := pgTime now
  updatedAt := pgTime now

def supersedeConversation (current : Option AgentConversation) (now : Time) :
    Tx ConversationError Unit :=
  match current with
  | none => pure ()
  | some previous =>
      .execute .runtimeUnavailable (Db.updateAgentConversations
        (fun c => c.conversationId = previous.conversationId)
        fun c => { c with state := .superseded, activeTaskId := none, updatedAt := pgTime now })

/-- Put the conversation under the new task: a new generation supersedes the
current one, a continued one is reserved again. -/
def bindConversation (policy : ConversationPolicy) (room taskId : Uuid) (target : TurnTarget)
    (mode : String) (current : Option AgentConversation) (settings : Json) (now : Time) :
    Tx ConversationError Unit :=
  if mode = "new" then do
    supersedeConversation current now
    .execute .runtimeUnavailable (Db.insertAgentConversation
      (openedConversation policy room taskId target settings now))
  else
    .execute .runtimeUnavailable (Db.updateAgentConversations
      (fun c => c.conversationId = target.conversationId)
      fun c => { c with
        state := .reserved
        activeTaskId := some taskId
        selectedSettings := settings
        updatedAt := pgTime now })

/-- The first part of a reservation, up to the ledger: what is checked before
the lock, then the lock and the token again. -/
structure TurnRequest where
  request : Json
  room : Uuid
  requestId : Uuid
  now : Time
  authorizationExpiresAt : Time

def turnMinimum (policy : ConversationPolicy) : Time :=
  seconds (policy.turnDeadlineSeconds + policy.interruptGraceSeconds)

def admitTurn (policy : ConversationPolicy) (actor : Actor) (request : Json)
    (authorizationExpiresAt : Time) (clock : Nat → Time) : Tx ConversationError TurnRequest := do
  let minimum := turnMinimum policy
  let _ ← .ofExcept (authorizeConversationTurn actor authorizationExpiresAt (clock 0) minimum)
  .ensure policy.enabled .runtimeUnavailable
  let request ← .ofExcept (validateTurnRequest env request)
  let room ← .ofExcept (uuidField request "roomId")
  let requestId ← .ofExcept (uuidField request "requestId")
  (lockRoom room).mapErr .ofStore
  -- the lock may have waited behind another writer
  let now := clock 1
  let expiry ← .ofExcept (authorizeConversationTurn actor authorizationExpiresAt now minimum)
  return ⟨request, room, requestId, now, expiry⟩

/-- The turn that a repeated request was accepted as. -/
def replayTurn (actor : Actor) (turn : TurnRequest) (prior : Json) :
    Tx ConversationError ConversationReservation := do
  .ensure (prior = turnFingerprint actor turn.request) .duplicateConflict
  let task ← .query .runtimeUnavailable fun db => db.conversationTasks.rows.find? fun t =>
    t.roomId = turn.room && t.requestId = turn.requestId && t.requesterId = actor.id
  let task ← .orFail task .duplicateConflict
  return ⟨task.acceptedTurn, none⟩

/-- Mentions are checked when the gateway mediates, which knows who is there. -/
def checkTurnMentions (turn : TurnRequest) (presence : Option (List ParticipantPresence)) :
    Tx ConversationError Unit :=
  match presence with
  | none => pure ()
  | some presence => validateConversationMentions env turn.room turn.request["mentions"] presence

/-- Where a new turn runs: the mode, the conversation and the current row. -/
def chooseTarget (policy : ConversationPolicy) (turn : TurnRequest) (fresh : Nat → Uuid) :
    Tx ConversationError (String × TurnTarget × Option AgentConversation) := do
  let current ← .query .runtimeUnavailable fun db => currentConversation db turn.room
  .ensure (!(current.any (·.state.live))) .conversationBusy
  let mode := turnMode turn.request current
  if mode = "continue" then
    let target ← .ofExcept (continueTarget policy turn.request current)
    return (mode, target, current)
  else
    let previous ← .query .runtimeUnavailable fun db => lastGeneration db turn.room
    .ensure (!(asUnsigned previous ≥ maxSafeInteger)) .conversationStale
    return (mode, ⟨fresh 0, previous + 1, 0⟩, current)

/-- The settings of a turn: the request's, else those carried over, else the
policy's. -/
def turnSettings (policy : ConversationPolicy) (request : Json) (mode : String)
    (current : Option AgentConversation) (catalog : Option CatalogQuery) :
    Except ConversationError Json := do
  let shared := if mode = "continue" then sharedSettings policy current else none
  let settings ← policy.resolveSettings ((request.get? "settings").or shared)
  match catalog with
  | none => .ok settings
  | some catalog =>
      validateCatalogSelection env catalog policy settings
      .ok settings

/-- Append the prompt and freeze the turn over it. -/
def freezeTurn (policy : ConversationPolicy) (actor : Actor) (turn : TurnRequest)
    (taskId : Uuid) (target : TurnTarget) (mode : String) (settings : Json)
    (fresh : Nat → Uuid) : Tx ConversationError (RoomEvent × Json × Json) := do
  let occurredAt ← .orFail (turn.request["occurredAt"].asStr.bind env.parseRfc3339)
    .invalidTaskInput
  let prompt ← (appendEventInTransaction env (fresh 2)
    (promptEvent actor turn.room turn.requestId turn.request occurredAt)).mapErr .ofStore
  .ensure (!(asUnsigned prompt.sequence > maxSafeInteger)) .contextMismatch
  let context ← buildContext env turn.room target.conversationId target.generation target.base
    prompt.eventId policy
  let expires := turn.now + seconds policy.turnDeadlineSeconds
  let frozen := frozenInput env policy actor turn.room taskId target mode prompt.eventId context
    settings turn.now expires turn.authorizationExpiresAt
  .ofExcept (validateProfileValue env .reservedInput frozen)
  return (prompt, context, frozen)

/-- The row of a task that was just accepted. -/
def reservedTask (policy : ConversationPolicy) (actor : Actor) (turn : TurnRequest)
    (taskId : Uuid) (target : TurnTarget) (settings context frozen accepted : Json)
    (trigger : Uuid) (revision : Int) : ConversationTask where
  taskId := taskId
  roomId := turn.room
  requestId := turn.requestId
  requesterId := actor.id
  agentId := codexAgentId
  conversationId := target.conversationId
  generation := target.generation
  triggerEventId := trigger
  contextRevision := revision
  state := .reserved
  frozenInput := frozen
  selectedSettings := settings
  sourceManifest := sourceManifest context
  policyRevision := policy.policyRevision
  authorizationExpiresAt := pgTime turn.authorizationExpiresAt
  issuedAt := pgTime turn.now
  expiresAt := pgTime (turn.now + seconds policy.turnDeadlineSeconds)
  createdAt := pgTime turn.now
  updatedAt := pgTime turn.now
  acceptedTurn := accepted

/-- Record the turn: the ledger, the conversation and the task. -/
def recordTurn (policy : ConversationPolicy) (actor : Actor) (turn : TurnRequest)
    (taskId : Uuid) (target : TurnTarget) (mode : String) (current : Option AgentConversation)
    (settings : Json) (prompt : RoomEvent) (context frozen accepted : Json) :
    Tx ConversationError Unit := do
  (recordRequest turn.room turn.requestId (turnFingerprint actor turn.request)
    [prompt]).mapErr .ofStore
  bindConversation policy turn.room taskId target mode current settings turn.now
  let trigger ← .ofExcept (uuidField accepted "triggerEventId")
  let revision ← .orFail accepted["contextRevision"].asI64 .runtimeUnavailable
  .execute .runtimeUnavailable (Db.insertConversationTask
    (reservedTask policy actor turn taskId target settings context frozen accepted trigger
      revision))

/-- `catalog` and `presence` are given when the reservation is mediated by the
gateway. -/
def reserveInner (policy : ConversationPolicy) (actor : Actor) (request : Json)
    (authorizationExpiresAt : Time) (catalog : Option CatalogQuery)
    (presence : Option (List ParticipantPresence)) (clock : Nat → Time) (fresh : Nat → Uuid) :
    Tx ConversationError (Ending ConversationError ConversationReservation) := do
  let turn ← admitTurn env policy actor request authorizationExpiresAt clock
  let prior ← (priorRequest turn.room turn.requestId).mapErr .ofStore
  match prior with
  | some (prior, _) =>
      let reservation ← replayTurn actor turn prior
      return .rollback reservation
  | none =>
      checkTurnMentions env turn presence
      let (mode, target, current) ← chooseTarget policy turn fresh
      let settings ← .ofExcept (turnSettings env policy turn.request mode current catalog)
      let taskId := fresh 1
      let (prompt, context, frozen) ← freezeTurn env policy actor turn taskId target mode
        settings fresh
      let accepted := acceptedTurn turn.room taskId target prompt settings
      .ofExcept (validateProfileValue env .task accepted)
      recordTurn policy actor turn taskId target mode current settings prompt context frozen
        accepted
      -- never commit stale authority
      let _ ← .ofExcept (authorizeConversationTurn actor turn.authorizationExpiresAt (clock 2)
        (turnMinimum policy))
      return .commit (.ok ⟨accepted, some prompt⟩)

end RoomGateway
