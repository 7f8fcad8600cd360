import RoomGateway.Model.Store

/-!
Who is in a room and how they are mentioned (`rooms.rs`): the participants of
a room from its events and its live connections, their mention tokens, the
audience of a message, and who may see an event.
-/

namespace RoomGateway

variable (env : Env)

structure RoomParticipant where
  id : Uuid
  role : ActorRole
  displayName : String
  online : Bool
  deriving DecidableEq, Repr

/-- One entry of a room's presence map. -/
structure ParticipantPresence where
  id : Uuid
  role : ActorRole
  displayName : String
  connections : Nat
  deriving DecidableEq, Repr

def mentionAliases : List String := ["allhumans", "allagents"]

/-- Governs what a session is sent and what a context packet holds. -/
def eventVisibleTo (event : RoomEvent) (actor : Uuid) : Bool :=
  match event.payload["delivery"].asStr with
  | some "mentioned" =>
      match event.payload["audienceIds"].asArray with
      | some audience => audience.any fun id => id.asStr.bind Uuid.parse = some actor
      | none => false
  | _ => true

/-! ### Mention tokens -/

def isAsciiAlphanumeric (c : Char) : Bool := c.isAlphanum

def isCombiningMark (c : Char) : Bool := 0x300 ≤ c.toNat && c.toNat ≤ 0x36f

/-- One character of a name on its way to a slug. -/
def pushSlug (slug : List Char) (c : Char) : List Char :=
  if isAsciiAlphanumeric c then slug ++ [c]
  else if slug.getLast? ≠ some '-' then slug ++ ['-']
  else slug

def trimDashes (s : List Char) : List Char :=
  ((s.dropWhile (· = '-')).reverse.dropWhile (· = '-')).reverse

def normalizedParticipantName (displayName : String) : String :=
  let characters := ((env.nfkd displayName).filter (!isCombiningMark ·)).flatMap env.toLowercase
  let slug := trimDashes (characters.foldl pushSlug [])
  if slug.isEmpty then "participant" else String.ofList slug

def participantIdToken (id : Uuid) : String :=
  let token := (id.text.toList.filter isAsciiAlphanumeric).flatMap env.toLowercase
  if token.isEmpty then "participant" else String.ofList token

def pinnedCodex (p : RoomParticipant) : Bool := p.id = codexAgentId && p.role = .agent

/-- A participant that needs a suffix to be told apart, by its place in the
list. -/
structure Disambiguated where
  index : Nat
  name : String
  idToken : String
  deriving DecidableEq, Repr

def Disambiguated.before (a b : Disambiguated) : Bool :=
  a.name < b.name || (a.name = b.name &&
    (a.idToken < b.idToken || (a.idToken = b.idToken && a.index ≤ b.index)))

def suffixed (name idToken : String) (length : Nat) : String :=
  name ++ "-" ++ String.ofList (idToken.toList.take length)

/-- Whether suffixes of a length tell a group apart and are all free. -/
def suffixesFree (occupied : List String) (group : List Disambiguated) (length : Nat) : Bool :=
  ((group.map fun d => d.idToken.toList.take length).Nodup : Bool) &&
    group.all fun d => !occupied.contains (suffixed d.name d.idToken length)

/-- The first length from `length` on at which `free` holds, or `most`. -/
def growLength (free : Nat → Bool) (most : Nat) : Nat → Nat → Nat
  | 0, length => length
  | fuel + 1, length =>
      if length < most && !free length then growLength free most fuel (length + 1) else length

def suffixLength (occupied : List String) (group : List Disambiguated) : Nat :=
  let most := (group.map (·.idToken.length)).max?.getD 0
  growLength (suffixesFree occupied group) most most (min 8 most)

/-- The first numbered token that is free; a list has no more members than its
length, so the search ends within that many steps. -/
def numberedToken (occupied : List String) (base : String) : Nat → Nat → String
  | 0, number => base ++ "-" ++ toString number
  | fuel + 1, number =>
      let token := base ++ "-" ++ toString number
      if occupied.contains token then numberedToken occupied base fuel (number + 1) else token

/-- The token of one participant of a group, given the tokens taken so far. -/
def disambiguatedToken (occupied : List String) (length : Nat) (d : Disambiguated) : String :=
  let free (n : Nat) := !occupied.contains (suffixed d.name d.idToken n)
  let length := growLength free d.idToken.length d.idToken.length
    (min length d.idToken.length)
  let token := suffixed d.name d.idToken length
  if occupied.contains token then
    numberedToken occupied (d.name ++ "-" ++ d.idToken) occupied.length 2
  else token

/-- Assign a token and mark it taken. -/
def assignToken (lengthOf : String → Nat) (state : List String × List (Nat × String))
    (d : Disambiguated) : List String × List (Nat × String) :=
  let token := disambiguatedToken state.1 (lengthOf d.name) d
  (token :: state.1, (d.index, token) :: state.2)

def participantMentionTokens (participants : List RoomParticipant) : List String :=
  let names := participants.map fun p => normalizedParticipantName env p.displayName
  let named := participants.zip names
  let needsSuffix (p : RoomParticipant × String) : Bool :=
    !pinnedCodex p.1 &&
      (p.2 = "codex-agent" || mentionAliases.contains p.2 || names.count p.2 > 1)
  let occupied := ((named.filter (!needsSuffix ·)).map (·.2)) ++ "codex-agent" :: mentionAliases
  let plain := (named.zipIdx.filter (!needsSuffix ·.1)).map fun p =>
    (p.2, if pinnedCodex p.1.1 then "codex-agent" else p.1.2)
  let disambiguated := ((named.zipIdx.filter (needsSuffix ·.1)).map fun p =>
    (⟨p.2, p.1.2, participantIdToken env p.1.1.id⟩ : Disambiguated)).insertionSort
      fun a b => a.before b
  let lengthOf (name : String) := suffixLength occupied (disambiguated.filter (·.name = name))
  let (_, assigned) := disambiguated.foldl (assignToken lengthOf) (occupied, plain)
  (List.range participants.length).map fun i => (assigned.lookup i).getD "participant"

/-! ### Mentions and audiences -/

/-- One mention, against the participants and aliases already mentioned. -/
def checkMention (known : List (Uuid × String)) (seen : List Uuid × List ChatMentionAlias)
    (mention : ChatMention) : Except RpcError (List Uuid × List ChatMentionAlias) :=
  match mention with
  | .participant id token =>
      match known.lookup id with
      | none => .error .unknownMentionTarget
      | some canonicalToken =>
          if seen.1.contains id || token ≠ canonicalToken then .error .unknownMentionTarget
          else .ok (id :: seen.1, seen.2)
  | .alias name =>
      if seen.2.contains name then .error .unknownMentionTarget
      else .ok (seen.1, name :: seen.2)

def validateMentions (participants : List RoomParticipant) (mentions : List ChatMention) :
    Except RpcError Unit :=
  let tokens := participantMentionTokens env participants
  let known := (participants.map (·.id)).zip tokens
  (mentions.foldlM (checkMention known) ([], [])).map fun _ => ()

/-- The participants a mention adds to an audience. -/
def mentionAudience (participants : List RoomParticipant) : ChatMention → List Uuid
  | .participant id _ => [id]
  | .alias .allHumans => (participants.filter (·.role = .human)).map (·.id)
  | .alias .allAgents =>
      (participants.filter fun p => p.role = .agent || p.role = .human).map (·.id)

def resolveChatAudience (actor : Actor) (participants : List RoomParticipant)
    (request : ChatSend) : Except RpcError (List Uuid) :=
  match validateMentions env participants request.mentions with
  | .error e => .error e
  | .ok _ =>
      if request.delivery = .room then .ok []
      else
        let audience := actor.id :: request.mentions.flatMap (mentionAudience participants)
        .ok (audience.dedup.insertionSort (· ≤ ·))

def normalizedChatPayload (request : ChatSend) (audienceIds : List Uuid) : Json :=
  .obj [("text", request.text), ("mentions", .arr (request.mentions.map ChatMention.toJson)),
    ("delivery", request.delivery.asStr), ("audienceIds", Json.ofUuids audienceIds)]

/-! ### The participants of a room -/

/-- Insert into a map keyed by the participant's id. -/
def putParticipant (participants : List RoomParticipant) (p : RoomParticipant) :
    List RoomParticipant :=
  if participants.any (·.id = p.id) then
    participants.map fun q => if q.id = p.id then p else q
  else participants ++ [p]

def actionItemsParticipant : RoomParticipant :=
  ⟨actionItemsAgentId, .agent, actionItemsAgentDisplayName, true⟩

def codexParticipant : RoomParticipant := ⟨codexAgentId, .agent, "Codex Agent", true⟩

/-- The name shown for an actor whose events carry none. -/
def placeholderName (role : ActorRole) (id : Uuid) : String :=
  (if role = .human then "Human" else "Agent") ++ " " ++ String.ofList (id.text.toList.take 8)

/-- An actor as a participant, from one of its events. -/
def eventParticipant (event : RoomEvent) (displayName : Option String) : RoomParticipant :=
  ⟨event.actorId, event.actorRole,
    displayName.getD (placeholderName event.actorRole event.actorId), false⟩

def presentParticipant (p : ParticipantPresence) : RoomParticipant :=
  ⟨p.id, p.role, p.displayName, 0 < p.connections⟩

def participantBefore (a b : RoomParticipant) : Bool :=
  a.role.asStr < b.role.asStr || (a.role = b.role &&
    (a.displayName < b.displayName || (a.displayName = b.displayName && a.id ≤ b.id)))

/-- `conversationsEnabled` is the conversation policy's switch. -/
def participantSnapshot (db : Db) (room : Uuid) (presence : List ParticipantPresence)
    (conversationsEnabled : Bool) : List RoomParticipant :=
  let events := eventsAfter db room 0
  let participants := (events.map fun e => eventParticipant e e.actorDisplayName).foldl
    putParticipant [actionItemsParticipant]
  let participants := (presence.map presentParticipant).foldl putParticipant participants
  let participants :=
    if conversationsEnabled then putParticipant participants codexParticipant else participants
  participants.insertionSort fun a b => participantBefore a b

/-! ### The mentions of a conversation turn -/

def ChatMentionAlias.ofStr : String → Option ChatMentionAlias
  | "allhumans" => some .allHumans
  | "allagents" => some .allAgents
  | _ => none

/-- A mention as it is read from JSON; a field it does not know is refused. -/
def ChatMention.ofJson (value : Json) : Option ChatMention :=
  match value with
  | .obj fields =>
      match value["type"].asStr with
      | some "participant" => do
          let id ← value["id"].asStr.bind Uuid.parse
          let token ← value["token"].asStr
          if fields.all fun f => ["type", "id", "token"].contains f.1 then
            some (.participant id token)
          else none
      | some "alias" => do
          let name ← value["alias"].asStr.bind ChatMentionAlias.ofStr
          if fields.all fun f => ["type", "alias"].contains f.1 then some (.alias name) else none
      | _ => none
  | _ => none

def ChatMention.ofJsonList (value : Json) : Option (List ChatMention) :=
  match value with
  | .arr items => items.mapM ChatMention.ofJson
  | _ => none

/-- The first event of each actor in a list. -/
def firstByActor : List RoomEvent → List RoomEvent
  | [] => []
  | e :: events => e :: (firstByActor events).filter (·.actorId ≠ e.actorId)

/-- `DISTINCT ON (actor_id) .. ORDER BY actor_id, sequence DESC LIMIT 2001`. -/
def latestByActor (db : Db) (room : Uuid) : List RoomEvent :=
  (firstByActor ((db.eventsOf room).insertionSort fun a b =>
    (a.actorId ≤ b.actorId ∧ a.actorId ≠ b.actorId) ∨
      (a.actorId = b.actorId ∧ b.sequence ≤ a.sequence))).take 2001

def maxParticipants : Nat := 2000

def maxDisplayNameBytes : Nat := 8000

def oversizedName (e : RoomEvent) : Bool :=
  e.actorDisplayName.any (·.utf8ByteSize > maxDisplayNameBytes)

/-- The roster of a turn's mentions: the latest event of each actor, then the
live connections, then the two built-in agents. -/
def conversationRoster (latest : List RoomEvent) (presence : List ParticipantPresence) :
    Except ConversationError (List RoomParticipant) :=
  if latest.length > maxParticipants || latest.any oversizedName then .error .contextTooLarge
  else if presence.length > maxParticipants ||
      presence.any (·.displayName.utf8ByteSize > maxDisplayNameBytes) then
    .error .contextTooLarge
  else
    let participants := (latest.map fun e => eventParticipant e e.actorDisplayName).foldl
      putParticipant []
    let participants := (presence.map presentParticipant).foldl putParticipant participants
    if participants.length > maxParticipants then .error .contextTooLarge
    else .ok (putParticipant (putParticipant participants actionItemsParticipant)
      codexParticipant)

def mentionsOther (mention : ChatMention) : Bool :=
  match mention with
  | .participant id _ => id ≠ codexAgentId
  | .alias _ => false

def validateConversationMentions (room : Uuid) (mentions : Json)
    (presence : List ParticipantPresence) : Tx ConversationError Unit := do
  let mentions ← .orFail (ChatMention.ofJsonList mentions) .invalidTaskInput
  if !mentions.any mentionsOther then return ()
  let latest ← .query .runtimeUnavailable fun db => latestByActor db room
  let participants ← .ofExcept (conversationRoster latest presence)
  .ofExcept ((validateMentions env participants mentions).mapError
    fun _ => ConversationError.invalidTaskInput)

end RoomGateway
