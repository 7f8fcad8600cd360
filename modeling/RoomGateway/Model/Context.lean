import RoomGateway.Model.Store

/-!
The context of a conversation turn (`conversation_context.rs`): the public
messages of a window of the room log, the agent's own replies among them as
bindings, and the active decisions, frozen under a digest.
-/

namespace RoomGateway

variable (env : Env)

/-! ### Canonical bytes -/

/-- A string literal's character in compact JSON. -/
def escapeChar (c : Char) : List Char :=
  if c = '"' then ['\\', '"']
  else if c = '\\' then ['\\', '\\']
  else if c = '\n' then ['\\', 'n']
  else if c = '\r' then ['\\', 'r']
  else if c = '\t' then ['\\', 't']
  else if c.toNat = 8 then ['\\', 'b']
  else if c.toNat = 12 then ['\\', 'f']
  else if c.toNat < 32 then
    ['\\', 'u', '0', '0', Nat.digitChar (c.toNat / 16), Nat.digitChar (c.toNat % 16)]
  else [c]

def quote (s : String) : List Char := '"' :: s.toList.flatMap escapeChar ++ ['"']

/-- The texts of a JSON array's items or object's fields, with commas. -/
def joinCommas : List (List Char) → List Char
  | [] => []
  | [text] => text
  | text :: texts => text ++ ',' :: joinCommas texts

def Number.chars : Number → List Char
  | .int n => (toString n).toList
  | .float repr => repr.toList

mutual

/-- Compact JSON with the fields of every object by key. -/
def compact : Json → List Char
  | .null => "null".toList
  | .bool b => if b then "true".toList else "false".toList
  | .num n => n.chars
  | .str s => quote s
  | .arr items => '[' :: joinCommas (compactItems items) ++ [']']
  | .obj fields =>
      let texts := (compactFields fields).insertionSort fun a b => a.1 ≤ b.1
      Char.ofNat 123 :: joinCommas (texts.map fun f => quote f.1 ++ ':' :: f.2) ++
        [Char.ofNat 125]

def compactItems : List Json → List (List Char)
  | [] => []
  | item :: items => compact item :: compactItems items

def compactFields : List (String × Json) → List (String × List Char)
  | [] => []
  | (key, value) :: fields => (key, compact value) :: compactFields fields

end

mutual

/-- Every number is a safe integer and every key is ASCII. -/
def canonical : Json → Bool
  | .num (.int n) => 0 ≤ n && n ≤ maxSafeInteger
  | .num (.float _) => false
  | .arr items => canonicalItems items
  | .obj fields => canonicalFields fields
  | _ => true

def canonicalItems : List Json → Bool
  | [] => true
  | item :: items => canonical item && canonicalItems items

def canonicalFields : List (String × Json) → Bool
  | [] => true
  | (key, value) :: fields =>
      key.toList.all (·.toNat < 128) && canonical value && canonicalFields fields

end

/-- The canonical text; its bytes are those of its UTF-8 encoding. -/
def canonicalContextBytes (value : Json) : Except ConversationError (List Char) :=
  if canonical value then .ok (compact value) else .error .contextMismatch

/-! ### What is public -/

/-- `payload ->> key`. -/
def Env.text (payload : Json) (key : String) : Option String :=
  match payload.get? key with
  | none | some .null => none
  | some (.str s) => some s
  | some value => some (env.jsonbText value)

/-- Room delivery, or none given, and no audience. -/
def publicPayload (payload : Json) : Bool :=
  (env.text payload "delivery").all (· = "room") &&
    (payload.get? "audienceIds").all (· = .arr [])

/-- A signed 64-bit integer reinterpreted as unsigned. -/
def asUnsigned (n : Int) : Int := n % 2 ^ 64

def octetLength (s : String) : Int := s.utf8ByteSize

/-- A message of the window, with the completed task it is the reply of. -/
structure ContextRow where
  event : RoomEvent
  task : Option ConversationTask

/-- The public messages of a room after `base` and up to `revision`. -/
def publicMessage (room : Uuid) (base revision : Int) (e : RoomEvent) : Bool :=
  e.roomId = room && base < e.sequence && e.sequence ≤ revision &&
    e.eventType = .messageCreated && publicPayload env e.payload

/-- The left join of a message with the tasks whose reply it is. -/
def replyRows (db : Db) (conversation : Uuid) (generation : Int) (e : RoomEvent) :
    List ContextRow :=
  let tasks := db.conversationTasks.rows.filter fun t =>
    t.replyEventId = some e.eventId && t.roomId = e.roomId &&
      t.conversationId = conversation && t.generation = generation && t.state = .completed
  if tasks.isEmpty then [⟨e, none⟩] else tasks.map fun t => ⟨e, some t⟩

namespace ContextRow

def text (row : ContextRow) : Option String := env.text row.event.payload "text"

def acknowledgement (row : ContextRow) : Option Json := row.task.bind (·.receiptAcknowledgement)

/-- The agent's own acknowledged reply, in a continued conversation. -/
def nativeReply (base : Int) (row : ContextRow) : Bool :=
  0 < base && row.event.actorId = codexAgentId && row.event.actorRole = .agent &&
    row.acknowledgement.isSome

/-- The bytes a row counts for: a missing text makes the whole sum's term
missing. -/
def bytes (base : Int) (row : ContextRow) : Int :=
  if row.nativeReply base then 0
  else
    match row.text env with
    | none => 0
    | some text => octetLength text + (row.event.actorDisplayName.map octetLength).getD 0

def oversizedReply (base : Int) (row : ContextRow) : Bool :=
  row.nativeReply base && (row.text env).any (octetLength · > 65536)

end ContextRow

structure ContextTotals where
  count : Int
  bytes : Int
  oversizedReply : Bool

def contextTotals (db : Db) (room conversation : Uuid) (generation base revision : Int) :
    ContextTotals :=
  let rows := (db.roomEvents.rows.filter (publicMessage env room base revision)).flatMap
    (replyRows db conversation generation)
  { count := rows.length
    bytes := (rows.map (ContextRow.bytes env base)).sum
    oversizedReply := rows.any (ContextRow.oversizedReply env base) }

def contextRows (db : Db) (room conversation : Uuid) (generation base revision : Int) :
    List ContextRow :=
  (bySequence (db.roomEvents.rows.filter (publicMessage env room base revision))).flatMap
    (replyRows db conversation generation)

/-! ### Entries and bindings -/

inductive ContextItem where
  | entry (value : Json)
  | binding (value : Json)
  deriving DecidableEq, Repr

namespace ContextItem

def entry? : ContextItem → Option Json
  | entry value => some value
  | binding _ => none

def binding? : ContextItem → Option Json
  | entry _ => none
  | binding value => some value

end ContextItem

/-- Whether an acknowledgement is that of the row's task and message. -/
def acknowledges (ack : Json) (task : ConversationTask) (event : RoomEvent)
    (conversation : Uuid) (generation base : Int) (textDigest sourceDigest : String) : Bool :=
  ack["taskId"] = Json.str task.taskId.text &&
    ack["conversationId"] = Json.str conversation.text &&
    ack["generation"] = Json.ofInt generation &&
    ack["replyEventId"] = Json.str event.eventId.text &&
    ack["replySequence"] = Json.ofInt event.sequence &&
    ack["textDigest"] = Json.str textDigest &&
    ack["consumedRevision"] = Json.ofInt task.contextRevision &&
    task.contextRevision ≤ base && ack["contextDigest"] = Json.str sourceDigest

def contextBinding (event : RoomEvent) (task : ConversationTask) (generation : Int)
    (textDigest : String) : Json :=
  .obj [("eventId", event.eventId), ("sequence", event.sequence),
    ("sourceTaskId", task.taskId), ("generation", generation), ("textDigest", textDigest)]

def contextEntry (event : RoomEvent) (text : String) : Json :=
  let entry := Json.obj [("eventId", event.eventId), ("sequence", event.sequence),
    ("authorId", event.actorId), ("authorRole", event.actorRole.asStr),
    ("occurredAt", env.time event.occurredAt), ("text", text)]
  match event.actorDisplayName with
  | none => entry
  | some name => entry.set "displayName" name

/-- One row of the window becomes an entry, or a binding when it is the agent's
own acknowledged reply. -/
def contextItem (conversation : Uuid) (generation base : Int) (row : ContextRow) :
    Except ConversationError ContextItem :=
  match row.text env with
  | none => .error .contextMismatch
  | some text =>
      if text = "" then .error .contextMismatch
      else
        match row.nativeReply base, row.task, row.acknowledgement with
        | true, some task, some ack =>
            match validateProfileValue env .ack ack with
            | .error _ => .error .contextMismatch
            | .ok _ =>
                match env.text task.frozenInput["context"] "digest" with
                | none => .error .runtimeUnavailable
                | some sourceDigest =>
                    let textDigest := env.sha256Hex text
                    if acknowledges ack task row.event conversation generation base textDigest
                        sourceDigest then
                      .ok (.binding (contextBinding row.event task generation textDigest))
                    else .error .contextMismatch
        | _, _, _ => .ok (.entry (contextEntry env row.event text))

/-! ### Decisions -/

/-- Every source of the decision is a public event of its room, up to
`revision`. -/
def publicSources (db : Db) (revision : Int) (d : Decision) : Bool :=
  d.sourceEventIds.all fun id => db.roomEvents.rows.any fun e =>
    e.eventId = id && e.roomId = d.roomId && e.sequence ≤ revision &&
      publicPayload env e.payload

def contextDecisions (db : Db) (room : Uuid) (revision : Int) : List Decision :=
  db.decisions.rows.filter fun d =>
    d.roomId = room && d.status = .active && publicSources env db revision d

def decisionBytes (d : Decision) : Int :=
  octetLength d.title + octetLength d.summary + d.sourceEventIds.length * 39 + 80

def contextDecision (d : Decision) : Json :=
  .obj [("decisionId", d.decisionId), ("title", d.title), ("summary", d.summary),
    ("sourceEventIds", Json.ofUuids d.sourceEventIds)]

/-- `ORDER BY decision_id`. -/
def byDecisionId (decisions : List Decision) : List Decision :=
  decisions.insertionSort fun a b => a.decisionId ≤ b.decisionId

/-! ### The frozen context -/

/-- The context as a value, from its parts. -/
def contextValue (policy : ConversationPolicy) (base revision : Int) (items : List ContextItem)
    (decisions : List Decision) : Json :=
  .obj [("kind", if base = 0 then "baseline" else "delta"), ("baseRevision", base),
    ("revision", revision), ("policyRevision", policy.policyRevision),
    ("entries", .arr (items.filterMap ContextItem.entry?)),
    ("activeDecisions", .arr (decisions.map contextDecision)),
    ("nativeReplyBindings", .arr (items.filterMap ContextItem.binding?))]

def freezeContext (room conversation : Uuid) (generation base revision : Int)
    (policy : ConversationPolicy) : Tx ConversationError Json := do
  let totals ← .query .runtimeUnavailable fun db =>
    contextTotals env db room conversation generation base revision
  .ensure (!totals.oversizedReply) .contextMismatch
  .ensure (!(totals.count > policy.maxRecords || totals.bytes > policy.maxContextBytes))
    .contextTooLarge
  let rows ← .query .runtimeUnavailable fun db =>
    contextRows env db room conversation generation base revision
  let items ← .ofExcept (rows.mapM (contextItem env conversation generation base))
  let size ← .query .runtimeUnavailable fun db =>
    ((contextDecisions env db room revision).map decisionBytes).sum
  .ensure (!(size > policy.maxContextBytes)) .contextTooLarge
  let decisions ← .query .runtimeUnavailable fun db =>
    byDecisionId (contextDecisions env db room revision)
  return contextValue policy base revision items decisions

/-- A store call's error as the conversation's. -/
def ConversationError.ofStore (_ : StoreError) : ConversationError := .runtimeUnavailable

/-- The trigger: a human's public message. -/
def isTrigger (room trigger : Uuid) (e : RoomEvent) : Bool :=
  e.eventId = trigger && e.roomId = room && e.eventType = .messageCreated &&
    e.actorRole = .human && env.text e.payload "delivery" = some "room" &&
    e.payload.get? "audienceIds" = some (.arr [])

def contextPreimage (room conversation : Uuid) (generation : Int) (trigger : Uuid)
    (policy : ConversationPolicy) (context : Json) : Json :=
  .obj [("roomId", room), ("agentId", codexAgentId), ("conversationId", conversation),
    ("generation", generation), ("triggerEventId", trigger),
    ("guidanceRevision", policy.guidanceRevision), ("context", context)]

def buildContext (room conversation : Uuid) (generation base : Int) (trigger : Uuid)
    (policy : ConversationPolicy) : Tx ConversationError Json := do
  (lockRoom room).mapErr .ofStore
  let event ← .query .runtimeUnavailable fun db =>
    db.roomEvents.rows.find? (isTrigger env room trigger)
  let event ← .orFail event .contextMismatch
  let revision := event.sequence
  .ensure (!(base < 0 || base ≥ revision || generation ≤ 0 ||
    asUnsigned generation > maxSafeInteger || asUnsigned revision > maxSafeInteger))
    .contextMismatch
  let context ← freezeContext env room conversation generation base revision policy
  let bytes ← .ofExcept (canonicalContextBytes
    (contextPreimage room conversation generation trigger policy context))
  .ensure (!(Text.byteLength bytes > policy.maxContextBytes)) .contextTooLarge
  return context.set "digest" (env.sha256Hex (String.ofList bytes))

/-! ### The source manifest -/

/-- List a source unless its id is already listed. -/
def listSource (kind : String) (listed : List String × List Json) (id : Json) :
    List String × List Json :=
  match id.asStr with
  | none => listed
  | some text =>
      if listed.1.contains text then listed
      else (text :: listed.1, listed.2 ++ [.obj [("sourceId", id), ("sourceKind", kind)]])

def listDecision (listed : List String × List Json) (decision : Json) :
    List String × List Json :=
  (decision["sourceEventIds"].asArray.getD []).foldl (listSource "event")
    (listSource "decision" listed decision["decisionId"])

def sourceManifest (context : Json) : Json :=
  let ids (name : String) := (context[name].asArray.getD []).map fun entry => entry["eventId"]
  let listed := (ids "entries" ++ ids "nativeReplyBindings").foldl (listSource "event") ([], [])
  .arr ((context["activeDecisions"].asArray.getD []).foldl listDecision listed).2

end RoomGateway
