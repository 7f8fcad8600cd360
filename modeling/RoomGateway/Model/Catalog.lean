import Mathlib.Logic.Function.Basic
import RoomGateway.Lib.Keyed
import RoomGateway.Lib.Machine
import RoomGateway.Model.ConversationContract
import RoomGateway.Model.Reservation

/-!
The model catalog on its way to the browser. The bridge (`catalog_bridge.rs`)
fetches the whole catalog for every request and cuts a page out of it; the
cursors it issues are bound to the digest of the catalog they were issued for.
The endpoint `models` (`conversation_service.rs`) reads a page through the
bridge, leaves out what the policy does not allow and puts a cursor of its own
in the place of the bridge's.
-/

namespace RoomGateway

open Schema

/-! ### The contract -/

def catalogEffortSchema : Schema :=
  record [("id", nameSchema), ("description", textBetween 1 512)] ["id", "description"]

def catalogModelSchema : Schema :=
  record [("id", nameSchema), ("displayName", nameSchema),
    ("defaultReasoningEffort", nullable nameSchema),
    ("supportedReasoningEfforts", all [array, items catalogEffortSchema, minItems 0])]
    ["id", "displayName", "defaultReasoningEffort", "supportedReasoningEfforts"]

def catalogSchema : Schema :=
  record [("profileVersion", const profileVersion), ("catalogRevision", nameSchema),
    ("data", all [array, items catalogModelSchema, minItems 0, maxItems 100]),
    ("nextCursor", nullable (textBetween 1 256))]
    ["profileVersion", "catalogRevision", "data", "nextCursor"]

/-- An environment that checks catalogs against the contract. -/
def Env.underCatalog (env : Env) : Env :=
  { env with
    profileValid := fun profile =>
      match profile with
      | .catalog => catalogSchema
      | other => env.profileValid other }

variable (env : Env)

/-! ### Cursors -/

/-- Note a cursor. A map of 1024 entries first drops the one it lists first,
which is `first`. -/
def rememberCursor {β : Type} (first : String) (cursors : List (String × β)) (cursor : String)
    (entry : β) : List (String × β) :=
  let cursors := if 1024 ≤ cursors.length then cursors.filter (·.1 ≠ first) else cursors
  Keyed.put Prod.fst cursors (cursor, entry)

def findCursor {β : Type} (cursors : List (String × β)) (cursor : String) : Option β :=
  (Keyed.at? Prod.fst cursors cursor).map (·.2)

/-! ### The bridge -/

/-- What a cursor of the bridge stands for: the digest of the catalog that it
was issued for, and where its page starts. -/
structure Resume where
  digest : String
  offset : Nat
  deriving DecidableEq, Repr

namespace CatalogBridge

/-- `Sha256::digest(page.to_string())`. -/
def digest (page : Json) : String := env.sha256Hex (String.ofList (compact page))

/-- What `page` does before it asks the upstream. -/
def resume (cursors : List (String × Resume)) (agent : Uuid) (cursor : Option String)
    (limit : Nat) : Except ConversationError (Option Resume) :=
  if agent ≠ codexAgentId || !(1 ≤ limit && limit ≤ 100) then .error .runtimeUnavailable
  else
    match cursor with
    | none => .ok none
    | some cursor =>
        match findCursor cursors cursor with
        | none => .error .runtimeUnavailable
        | some entry => .ok (some entry)

/-- Where the page starts. -/
def offset (resume : Option Resume) (page : Json) : Except ConversationError Nat :=
  match resume with
  | none => .ok 0
  | some bound => if bound.digest ≠ digest env page then .error .conversationStale
      else .ok bound.offset

/-- The page that is cut out of the upstream catalog, and what its cursor
stands for if more follows. `upstream` is the strictly parsed answer. -/
def cut (limit : Nat) (resume : Option Resume) (upstream : Except ConversationError Json) :
    Except ConversationError (Json × Option Resume) := do
  let page ← upstream
  (validateProfileValue env .catalog page).mapError fun _ => ConversationError.runtimeUnavailable
  if !page["nextCursor"].isNull then .error .runtimeUnavailable
  let offset ← offset env resume page
  match page["data"].asArray with
  | none => .error .runtimeUnavailable
  | some data =>
      if offset > data.length then .error .runtimeUnavailable
      else
        let stop := min (offset + limit) data.length
        let slice := page.set "data" (.arr ((data.take stop).drop offset))
        .ok (slice, if stop < data.length then some ⟨digest env page, stop⟩ else none)

/-- What `page` does with the answer of the upstream. -/
def answer (cursors : List (String × Resume)) (limit : Nat) (resume : Option Resume)
    (upstream : Except ConversationError Json) (fresh : Uuid) (first : String) :
    Except ConversationError Json × List (String × Resume) :=
  match cut env limit resume upstream with
  | .error e => (.error e, cursors)
  | .ok (slice, none) => (.ok slice, cursors)
  | .ok (slice, some entry) =>
      (.ok (slice.set "nextCursor" fresh), rememberCursor first cursors fresh.text entry)

/-- The whole of `page`, when no other request comes in between. -/
def page (cursors : List (String × Resume)) (agent : Uuid) (cursor : Option String) (limit : Nat)
    (upstream : Except ConversationError Json) (fresh : Uuid) (first : String) :
    Except ConversationError Json × List (String × Resume) :=
  match resume cursors agent cursor limit with
  | .error e => (.error e, cursors)
  | .ok entry => answer env cursors limit entry upstream fresh first

end CatalogBridge

/-! ### Requests side by side

A request looks its cursor up, waits for the upstream, and notes its next
cursor; other requests come in between. -/

/-- A request that waits for the upstream. -/
structure PendingPage where
  limit : Nat
  resume : Option Resume

structure BridgeState where
  cursors : List (String × Resume) := []
  pending : Nat → Option PendingPage := fun _ => none

/-- The two halves of the request of a number. -/
inductive BridgeOp where
  | request (id : Nat) (agent : Uuid) (cursor : Option String) (limit : Nat)
  | answer (id : Nat) (upstream : Except ConversationError Json) (fresh : Uuid) (first : String)

def BridgeOp.id : BridgeOp → Nat
  | request id .. => id
  | answer id .. => id

def bridgeStep (s : BridgeState) : BridgeOp → BridgeState × Option (Except ConversationError Json)
  | .request id agent cursor limit =>
      match CatalogBridge.resume s.cursors agent cursor limit with
      | .error e => ({ s with pending := Function.update s.pending id none }, some (.error e))
      | .ok entry =>
          ({ s with pending := Function.update s.pending id (some ⟨limit, entry⟩) }, none)
  | .answer id upstream fresh first =>
      match s.pending id with
      | none => (s, none)
      | some request =>
          let (answer, cursors) :=
            CatalogBridge.answer env s.cursors request.limit request.resume upstream fresh first
          ({ cursors := cursors, pending := Function.update s.pending id none }, some answer)

def bridge : Machine BridgeState BridgeOp (Option (Except ConversationError Json)) where
  init := {}
  step := bridgeStep env

/-! ### The models endpoint -/

/-- `str::parse::<usize>`. -/
def parseUsize (text : String) : Option Nat :=
  let digits := match text.toList with
    | '+' :: rest => rest
    | chars => chars
  if digits.isEmpty || !digits.all Char.isDigit then none
  else
    let n := Nat.ofDigitChars 10 digits 0
    if n < 2 ^ 64 then some n else none

/-- One parameter of the query, given the names before it. -/
def modelsParam (state : List String × Nat × Option String) (param : String × String) :
    Except ConversationError (List String × Nat × Option String) :=
  let (names, limit, cursor) := state
  if names.contains param.1 then .error .invalidTaskInput
  else if param.1 = "limit" then
    match parseUsize param.2 with
    | none => .error .invalidTaskInput
    | some n =>
        if 1 ≤ n && n ≤ 100 then .ok (param.1 :: names, n, cursor) else .error .invalidTaskInput
  else if param.1 = "cursor" then
    if param.2.isEmpty || param.2.length > 256 then .error .invalidTaskInput
    else .ok (param.1 :: names, limit, some param.2)
  else .error .invalidTaskInput

/-- The limit and the cursor that a query asks for. -/
def modelsParams (params : List (String × String)) :
    Except ConversationError (Nat × Option String) :=
  (params.foldlM modelsParam ([], 100, none)).map (·.2)

/-- What the policy leaves of a model: the efforts it allows, and a default only
if it is one of them. A model without efforts is not listed. -/
def listModel (policy : ConversationPolicy) (model : Json) : Option Json :=
  match policy.models.find? fun allowed => model["id"] = Json.str allowed.id with
  | none => none
  | some allowed =>
      let allows (id : Json) := allowed.reasoningEfforts.any fun effort => id = Json.str effort
      let model := match model["supportedReasoningEfforts"].asArray with
        | none => model
        | some efforts =>
            model.set "supportedReasoningEfforts" (.arr (efforts.filter fun e => allows e["id"]))
      let model := if allows model["defaultReasoningEffort"] then model
        else model.set "defaultReasoningEffort" .null
      if model["supportedReasoningEfforts"].asArray.any (!·.isEmpty) then some model else none

/-- The cursors of the endpoint, each with the revision it is for and the
bridge's cursor, and those of the bridge. -/
structure CatalogCursors where
  issued : List (String × String × String) := []
  bridge : List (String × Resume) := []

/-- A request for a page of models. -/
structure ModelsRequest where
  room : String
  agent : String
  params : List (String × String)

def canonicalUuid (text : String) : Except ConversationError Uuid :=
  match Uuid.parse text with
  | none => .error .invalidTaskInput
  | some id => if id.text ≠ text then .error .invalidTaskInput else .ok id

/-- The limit that a request asks for and the bridge's cursor that its own
stands for. -/
def modelsLookup (policy : ConversationPolicy) (cursors : CatalogCursors)
    (request : ModelsRequest) : Except ConversationError (Nat × Option String) := do
  let _ ← canonicalUuid request.room
  let agent ← canonicalUuid request.agent
  if agent ≠ codexAgentId then .error .forbidden
  let (limit, cursor) ← modelsParams request.params
  if !policy.enabled then .error .runtimeUnavailable
  match cursor with
  | none => .ok (limit, none)
  | some cursor =>
      match findCursor cursors.issued cursor with
      | none => .error .conversationStale
      | some (revision, provider) =>
          if revision ≠ policy.catalogRevision then .error .conversationStale
          else .ok (limit, some provider)

/-- What the policy leaves of a page. -/
def listPage (policy : ConversationPolicy) (limit : Nat) (page : Json) :
    Except ConversationError Json := do
  validateCatalog env page policy
  match page["data"].asArray with
  | none => .error .runtimeUnavailable
  | some data =>
      if data.length > limit then .error .runtimeUnavailable
      else .ok (page.set "data" (.arr (data.filterMap (listModel policy))))

/-- `models`, with a bridge whose upstream answers `upstream` in time. `fresh`
gives the bridge's cursor and the endpoint's; `first` is what each of the two
maps lists first. -/
def models (policy : ConversationPolicy) (cursors : CatalogCursors) (request : ModelsRequest)
    (upstream : Except ConversationError Json) (fresh : Nat → Uuid) (first : Nat → String) :
    Except ConversationError Json × CatalogCursors :=
  match modelsLookup policy cursors request with
  | .error e => (.error e, cursors)
  | .ok (limit, provider) =>
      let (answer, bridge) :=
        CatalogBridge.page env cursors.bridge codexAgentId provider limit upstream
          (fresh 0) (first 0)
      let cursors := { cursors with bridge := bridge }
      match answer.bind (listPage env policy limit) with
      | .error e => (.error e, cursors)
      | .ok page =>
          match page["nextCursor"].asStr with
          | none => ((validateProfileValue env .catalog page).map fun _ => page, cursors)
          | some next =>
              let issued := rememberCursor (first 1) cursors.issued (fresh 1).text
                (policy.catalogRevision, next)
              let page := page.set "nextCursor" (fresh 1)
              ((validateProfileValue env .catalog page).map fun _ => page,
                { cursors with issued := issued })

end RoomGateway
