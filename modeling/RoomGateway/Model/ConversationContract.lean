import RoomGateway.Model.RoomContract

/-!
The contract `agent-conversation.v1`: the schemas of the files under
`contracts/agent-conversation-v1/`, keyword by keyword, that turns, their
packets, updates and views are checked against.
-/

namespace RoomGateway

open Schema

/-! ### Texts -/

/-- `^[0-9a-f]{8}-[0-9a-f]{4}-[0-9a-f]{4}-[0-9a-f]{4}-[0-9a-f]{12}$`: the texts that
identifiers are written as. -/
def isIdText (text : String) : Bool := (Uuid.parseHyphenated text.toList).any (·.text = text)

/-- `^[0-9a-f]{64}$`. -/
def isDigestText (text : String) : Bool :=
  text.length = 64 && text.toList.all fun c => ('0' ≤ c && c ≤ '9') || ('a' ≤ c && c ≤ 'f')

/-- The `uuid` of the contract: a format, a pattern and a length at once. -/
def idSchema : Schema := all [string, minLength 1, text isUuidFormat, text isIdText]

def digestSchema : Schema := all [string, minLength 64, text isDigestText, maxLength 64]

def nullable (schema : Schema) : Schema := any [schema, null]

/-- A name of a model, a revision or the like. -/
def nameSchema : Schema := textBetween 1 128

section Schemas

variable (formats : Formats)

def safeIntegerSchema : Schema := integerBetween formats 0 maxSafeInteger

def positiveIntegerSchema : Schema := integerBetween formats 1 maxSafeInteger

def instantSchema : Schema := all [string, minLength 1, text formats.dateTime]

/-! ### Definitions shared by the schemas -/

def selectedSettingsSchema : Schema :=
  record [("model", nameSchema), ("reasoningEffort", nameSchema), ("catalogRevision", nameSchema)]
    ["model", "reasoningEffort", "catalogRevision"]

def effectiveSettingsSchema : Schema :=
  record [("model", nullable nameSchema), ("reasoningEffort", nullable nameSchema),
    ("confirmation", enum ["confirmed", "unconfirmed"]),
    ("reroutedModel", nullable nonEmptyText)]
    ["model", "reasoningEffort", "confirmation", "reroutedModel"]

def usageSchema : Schema :=
  record [("lastTotalTokens", safeIntegerSchema formats),
    ("modelContextWindow", nullable (positiveIntegerSchema formats)),
    ("reportedAt", instantSchema formats), ("model", nullable nonEmptyText),
    ("freshness", enum ["fresh", "stale", "unavailable"])]
    ["lastTotalTokens", "modelContextWindow", "reportedAt", "model", "freshness"]

def errorCodes : List String :=
  ["invalid_task_input", "forbidden", "conversation_busy", "conversation_stale",
    "context_mismatch", "context_too_large", "runtime_unavailable", "authentication_required",
    "session_unavailable", "timeout", "conversation_interrupted", "execution_failed",
    "duplicate_conflict"]

def turnFailureSchema : Schema :=
  record [("code", enum errorCodes), ("message", textBetween 0 512)] ["code", "message"]

def citationsSchema : Schema :=
  all [array, items idSchema, minItems 0, maxItems 100, uniqueItems]

/-- Also the schema `result`. -/
def replySchema : Schema :=
  record [("kind", const "conversation-reply.v1"), ("conversationId", idSchema),
    ("generation", positiveIntegerSchema formats), ("assistantText", textBetween 1 65536),
    ("consumedRevision", positiveIntegerSchema formats), ("contextDigest", digestSchema),
    ("citations", citationsSchema), ("effectiveSettings", nullable effectiveSettingsSchema),
    ("usage", nullable (usageSchema formats))]
    ["kind", "conversationId", "generation", "assistantText", "consumedRevision",
      "contextDigest", "citations", "effectiveSettings", "usage"]

/-! ### Updates -/

def progressDataSchema : Schema :=
  record [("phase", enum ["accepted", "working", "finalizing"]), ("text", textBetween 1 512)]
    ["phase", "text"]

def failedDataSchema : Schema := record [("code", enum errorCodes)] ["code"]

/-- What an update carries goes with its kind. -/
def updateDataSchema : Schema :=
  one [properties [("kind", const "progress"), ("data", progressDataSchema)],
    properties [("kind", const "settings"), ("data", effectiveSettingsSchema)],
    properties [("kind", const "usage"), ("data", usageSchema formats)],
    properties [("kind", const "completed"), ("data", replySchema formats)],
    properties [("kind", const "failed"), ("data", failedDataSchema)]]

def updateKindSchema : Schema := enum ["progress", "settings", "usage", "completed", "failed"]

def updateSchema : Schema :=
  all [record [("profileVersion", const profileVersion), ("updateId", idSchema),
      ("ordinal", positiveIntegerSchema formats), ("taskId", idSchema),
      ("generation", positiveIntegerSchema formats), ("contextDigest", digestSchema),
      ("kind", updateKindSchema), ("data", anything)]
      ["profileVersion", "updateId", "ordinal", "taskId", "generation", "contextDigest", "kind",
        "data"],
    updateDataSchema formats]

def taskUpdateSchema : Schema :=
  all [record [("updateId", idSchema), ("ordinal", positiveIntegerSchema formats),
      ("kind", updateKindSchema), ("occurredAt", instantSchema formats), ("data", anything)]
      ["updateId", "ordinal", "kind", "occurredAt", "data"],
    updateDataSchema formats]

/-! ### Turns -/

def turnParticipantSchema : Schema :=
  record [("type", const "participant"), ("id", idSchema),
    ("token", all [string, minLength 1, text isTokenText])] ["type", "id", "token"]

def turnMentionsSchema : Schema :=
  all [array, items (one [turnParticipantSchema, aliasMentionSchema]), minItems 1, maxItems 50,
    uniqueItems]

def turnConversationSchema : Schema :=
  one [record [("mode", const "new")] ["mode"],
    record [("mode", const "continue"), ("id", idSchema),
      ("generation", positiveIntegerSchema formats)] ["mode", "id", "generation"]]

def turnSchema : Schema :=
  record [("profileVersion", const profileVersion), ("requestId", idSchema), ("roomId", idSchema),
    ("agentId", idSchema), ("occurredAt", instantSchema formats), ("text", textBetween 1 8000),
    ("mentions", turnMentionsSchema), ("conversation", turnConversationSchema formats),
    ("settings", selectedSettingsSchema)]
    ["profileVersion", "requestId", "roomId", "agentId", "occurredAt", "text", "mentions"]

def acceptedTurnSchema : Schema :=
  record [("profileVersion", const profileVersion), ("roomId", idSchema), ("taskId", idSchema),
    ("conversationId", idSchema), ("generation", positiveIntegerSchema formats),
    ("triggerEventId", idSchema), ("contextRevision", positiveIntegerSchema formats),
    ("selectedSettings", nullable selectedSettingsSchema)]
    ["profileVersion", "roomId", "taskId", "conversationId", "generation", "triggerEventId",
      "contextRevision", "selectedSettings"]

def taskViewSchema : Schema :=
  all [record [("profileVersion", const profileVersion), ("roomId", idSchema),
      ("taskId", idSchema), ("conversationId", idSchema),
      ("generation", positiveIntegerSchema formats), ("requesterId", idSchema),
      ("state", enum ["reserved", "running", "completed", "failed"]),
      ("selectedSettings", nullable selectedSettingsSchema),
      ("effectiveSettings", nullable effectiveSettingsSchema),
      ("usage", nullable (usageSchema formats)),
      ("updates", all [array, items (taskUpdateSchema formats), minItems 0, maxItems 256]),
      ("result", nullable (replySchema formats)), ("replyEventId", nullable idSchema),
      ("failure", nullable turnFailureSchema)]
      ["profileVersion", "roomId", "taskId", "conversationId", "generation", "requesterId",
        "state", "selectedSettings", "effectiveSettings", "usage", "updates", "result",
        "replyEventId", "failure"],
    one [properties [("state", enum ["reserved", "running"]), ("result", null),
        ("replyEventId", null), ("failure", null)],
      properties [("state", const "completed"), ("result", replySchema formats),
        ("replyEventId", idSchema), ("failure", null)],
      properties [("state", const "failed"), ("result", null), ("replyEventId", null),
        ("failure", turnFailureSchema)]]]

/-- The schema `task`. -/
def taskSchema : Schema := one [acceptedTurnSchema formats, taskViewSchema formats]

/-! ### Packets -/

def entrySchema : Schema :=
  record [("eventId", idSchema), ("sequence", positiveIntegerSchema formats),
    ("authorId", idSchema), ("authorRole", enum ["human", "agent"]),
    ("occurredAt", instantSchema formats), ("text", nonEmptyText), ("displayName", nameSchema)]
    ["eventId", "sequence", "authorId", "authorRole", "occurredAt", "text"]

def activeDecisionSchema : Schema :=
  record [("decisionId", idSchema), ("title", nonEmptyText), ("summary", all [string, minLength 0]),
    ("sourceEventIds", all [array, items idSchema, minItems 0, uniqueItems])]
    ["decisionId", "title", "summary", "sourceEventIds"]

def nativeReplyBindingSchema : Schema :=
  record [("eventId", idSchema), ("sequence", positiveIntegerSchema formats),
    ("sourceTaskId", idSchema), ("generation", positiveIntegerSchema formats),
    ("textDigest", digestSchema)]
    ["eventId", "sequence", "sourceTaskId", "generation", "textDigest"]

def contextSchema : Schema :=
  record [("kind", enum ["baseline", "delta"]), ("baseRevision", safeIntegerSchema formats),
    ("revision", positiveIntegerSchema formats), ("policyRevision", nameSchema),
    ("entries", all [array, items (entrySchema formats), minItems 1, maxItems 2000]),
    ("activeDecisions", all [array, items activeDecisionSchema, minItems 0]),
    ("nativeReplyBindings",
      all [array, items (nativeReplyBindingSchema formats), minItems 0, maxItems 2000]),
    ("digest", digestSchema)]
    ["kind", "baseRevision", "revision", "policyRevision", "entries", "activeDecisions",
      "nativeReplyBindings", "digest"]

def inputConversationSchema : Schema :=
  record [("id", idSchema), ("generation", positiveIntegerSchema formats),
    ("mode", enum ["new", "continue"])] ["id", "generation", "mode"]

/-- An input with, besides the fields every input has, those of a lease. -/
def inputSchemaWith (lease : List (String × Schema)) : Schema :=
  all [record ([("profileVersion", const profileVersion), ("taskId", idSchema),
      ("roomId", idSchema), ("requesterId", idSchema), ("agentId", idSchema),
      ("skillId", const "chat"), ("conversation", inputConversationSchema formats),
      ("triggerEventId", idSchema), ("context", contextSchema formats),
      ("guidanceRevision", nameSchema), ("issuedAt", instantSchema formats),
      ("expiresAt", instantSchema formats), ("authorizationExpiresAt", instantSchema formats)] ++
      lease ++ [("model", nameSchema), ("reasoningEffort", nameSchema),
        ("catalogRevision", nameSchema)])
      (["profileVersion", "taskId", "roomId", "requesterId", "agentId", "skillId",
        "conversation", "triggerEventId", "context", "guidanceRevision", "issuedAt", "expiresAt",
        "authorizationExpiresAt"] ++ lease.map (·.1)),
    dependentRequired [("model", ["reasoningEffort", "catalogRevision"]),
      ("reasoningEffort", ["model", "catalogRevision"]),
      ("catalogRevision", ["model", "reasoningEffort"])]]

def inputSchema : Schema :=
  inputSchemaWith formats [("leaseOwner", nameSchema), ("leaseExpiresAt", instantSchema formats)]

/-- `reserved-input`: the input before it is leased. -/
def reservedInputSchema : Schema := inputSchemaWith formats []

/-! ### Acknowledgements and views -/

def ackSchema : Schema :=
  record [("profileVersion", const profileVersion), ("taskId", idSchema),
    ("conversationId", idSchema), ("generation", positiveIntegerSchema formats),
    ("replyEventId", idSchema), ("replySequence", positiveIntegerSchema formats),
    ("textDigest", digestSchema), ("consumedRevision", positiveIntegerSchema formats),
    ("contextDigest", digestSchema)]
    ["profileVersion", "taskId", "conversationId", "generation", "replyEventId", "replySequence",
      "textDigest", "consumedRevision", "contextDigest"]

def viewedConversationSchema : Schema :=
  record [("id", idSchema), ("generation", positiveIntegerSchema formats),
    ("state", enum ["reserved", "running", "ready", "unusable"]),
    ("activeTaskId", nullable idSchema), ("consumedRevision", safeIntegerSchema formats),
    ("policyRevision", nameSchema), ("guidanceRevision", nameSchema),
    ("selectedSettings", nullable selectedSettingsSchema),
    ("effectiveSettings", nullable effectiveSettingsSchema),
    ("usage", nullable (usageSchema formats))]
    ["id", "generation", "state", "activeTaskId", "consumedRevision", "policyRevision",
      "guidanceRevision", "selectedSettings", "effectiveSettings", "usage"]

def viewSchema : Schema :=
  record [("profileVersion", const profileVersion), ("roomId", idSchema), ("agentId", idSchema),
    ("conversation", nullable (viewedConversationSchema formats))]
    ["profileVersion", "roomId", "agentId", "conversation"]

end Schemas

/-- An environment whose values are checked against the contract. The schemas
of settings, catalogs and errors stay what they are. -/
def Env.underProfile (env : Env) (formats : Formats) : Env :=
  { env with
    profileValid := fun profile =>
      match profile with
      | .turn => turnSchema formats
      | .input => inputSchema formats
      | .reservedInput => reservedInputSchema formats
      | .task => taskSchema formats
      | .view => viewSchema formats
      | .ack => ackSchema formats
      | .result => replySchema formats
      | .update => updateSchema formats
      | other => env.profileValid other }

end RoomGateway
