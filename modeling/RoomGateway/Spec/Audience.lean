import Mathlib.Data.List.Dedup
import RoomGateway.Lib.Sort
import RoomGateway.Spec.Mentions
import RoomGateway.Spec.Written

/-!
Who sees a message. The audience is what the mentions of the message add up to,
and the predicate by which events are later withheld gives it back. A message
that everybody sees is the same thing to that predicate and to the queries that
select public messages.
-/

namespace RoomGateway

variable {env : Env} {db db' : Db}

/-! ### Audiences -/

/-- The ids a message is delivered to, in order; none for the whole room. -/
def audienceOf (actor : Actor) (participants : List RoomParticipant) (request : ChatSend) :
    List Uuid :=
  if request.delivery = .room then []
  else (actor.id :: request.mentions.flatMap (mentionAudience participants)).dedup.insertionSort
    (· ≤ ·)

section Audience

variable {actor : Actor} {participants : List RoomParticipant} {request : ChatSend}
  {audienceIds : List Uuid}

theorem resolveChatAudience_ok_iff :
    resolveChatAudience env actor participants request = .ok audienceIds ↔
      validateMentions env participants request.mentions = .ok () ∧
        audienceIds = audienceOf actor participants request := by
  unfold resolveChatAudience audienceOf
  cases validateMentions env participants request.mentions with
  | error e => simp
  | ok u =>
      split_ifs <;> simp [eq_comm]

theorem mem_audienceOf (h : request.delivery ≠ .room) {p : Uuid} :
    p ∈ audienceOf actor participants request ↔
      p = actor.id ∨ ∃ m ∈ request.mentions, p ∈ mentionAudience participants m := by
  rw [audienceOf, if_neg h, List.mem_insertionSort, List.mem_dedup, List.mem_cons, List.mem_flatMap]

theorem audienceOf_ascending : (audienceOf actor participants request).Pairwise (· < ·) := by
  unfold audienceOf
  split_ifs with hroom
  · exact .nil
  · have hnodup := (List.perm_insertionSort (· ≤ ·) _).nodup_iff.mpr
      (List.nodup_dedup (actor.id :: request.mentions.flatMap (mentionAudience participants)))
    have hsorted := List.pairwise_insertionSort (· ≤ ·)
      (actor.id :: request.mentions.flatMap (mentionAudience participants)).dedup
    exact hsorted.imp₂ (fun a b hle hne => lt_of_le_of_ne hle hne) hnodup

theorem audienceOf_eq_nil_iff :
    audienceOf actor participants request = [] ↔ request.delivery = .room := by
  constructor
  · intro hnil
    by_contra hroom
    have hself : actor.id ∈ audienceOf actor participants request :=
      (mem_audienceOf hroom).mpr (.inl rfl)
    rw [hnil] at hself
    cases hself
  · exact fun hroom => if_pos hroom

/-- Who sees a message. -/
theorem message_visible_iff {eventId : Uuid} {sequence : Int} {p : Uuid} :
    eventVisibleTo ((messageEvent actor request audienceIds).row eventId sequence) p = true ↔
      request.delivery = .room ∨ p ∈ audienceIds := by
  have hpayload : ((messageEvent actor request audienceIds).row eventId sequence).payload =
      normalizedChatPayload request audienceIds := rfl
  unfold eventVisibleTo
  rw [hpayload]
  cases hdelivery : request.delivery with
  | room => simp [normalizedChatPayload, hdelivery, ChatDelivery.asStr]
  | mentioned =>
      simp [normalizedChatPayload, hdelivery, ChatDelivery.asStr, Json.ofUuids]

theorem mem_mentionAudience {m : ChatMention} {p : Uuid} :
    p ∈ mentionAudience participants m ↔
      (∃ token, m = .participant p token) ∨
        (m = .alias .allHumans ∧ ∃ q ∈ participants, q.id = p ∧ q.role = .human) ∨
        (m = .alias .allAgents ∧
          ∃ q ∈ participants, q.id = p ∧ (q.role = .human ∨ q.role = .agent)) := by
  cases m with
  | participant id token => simp [mentionAudience, eq_comm]
  | «alias» name =>
      cases name with
      | allHumans =>
          simp only [mentionAudience, List.mem_map, List.mem_filter, decide_eq_true_eq]
          constructor
          · rintro ⟨q, ⟨hq, hrole⟩, hid⟩
            exact .inr (.inl ⟨trivial, q, hq, hid, hrole⟩)
          · rintro (⟨_, h⟩ | ⟨-, q, hq, hid, hrole⟩ | ⟨h, -⟩)
            · cases h
            · exact ⟨q, ⟨hq, hrole⟩, hid⟩
            · cases h
      | allAgents =>
          simp only [mentionAudience, List.mem_map, List.mem_filter, Bool.or_eq_true,
            decide_eq_true_eq]
          constructor
          · rintro ⟨q, ⟨hq, hrole⟩, hid⟩
            exact .inr (.inr ⟨trivial, q, hq, hid, hrole.symm⟩)
          · rintro (⟨_, h⟩ | ⟨h, -⟩ | ⟨-, q, hq, hid, hrole⟩)
            · cases h
            · cases h
            · exact ⟨q, ⟨hq, hrole.symm⟩, hid⟩

end Audience

/-- The audience of a message, as the sender's mentions and the roster give it. -/
def InAudience (actor : Actor) (roster : Roster) (request : ChatSend) (p : Uuid) : Prop :=
  request.delivery = .room ∨ p = actor.id ∨
    (∃ token, .participant p token ∈ request.mentions) ∨
    (.alias .allHumans ∈ request.mentions ∧
      ∃ q ∈ roster.participants, q.id = p ∧ q.role = .human) ∨
    (.alias .allAgents ∈ request.mentions ∧
      ∃ q ∈ roster.participants, q.id = p ∧ (q.role = .human ∨ q.role = .agent))

/-- What the resolution of a message's audience comes to. -/
structure AudienceResolved (env : Env) (actor : Actor) (roster : Roster) (request : ChatSend) :
    Prop where
  visible : ∀ audienceIds, resolveChatAudience env actor roster.participants request =
    .ok audienceIds → ∀ eventId sequence p,
      eventVisibleTo ((messageEvent actor request audienceIds).row eventId sequence) p = true ↔
        InAudience actor roster request p
  increasing : ∀ audienceIds, resolveChatAudience env actor roster.participants request =
    .ok audienceIds → audienceIds.Pairwise (· < ·) ∧ (audienceIds = [] ↔ request.delivery = .room)
  rejected : (∃ e, resolveChatAudience env actor roster.participants request = .error e) ↔
    (∃ id token, .participant id token ∈ request.mentions ∧ roster.token env id = none) ∨
    (∃ id token canonical, .participant id token ∈ request.mentions ∧
      roster.token env id = some canonical ∧ token ≠ canonical) ∨
    ¬ (request.mentions.map ChatMention.target).Nodup

theorem audience_resolved (env : Env) (actor : Actor) (roster : Roster) (request : ChatSend) :
    AudienceResolved env actor roster request where
  visible := by
    intro audienceIds hresolved eventId sequence p
    obtain ⟨-, rfl⟩ := resolveChatAudience_ok_iff.mp hresolved
    rw [message_visible_iff, InAudience]
    by_cases hroom : request.delivery = .room
    · simp [hroom]
    · simp only [hroom, false_or, mem_audienceOf hroom, mem_mentionAudience]
      refine or_congr_right ⟨?_, ?_⟩
      · rintro ⟨m, hm, ⟨token, rfl⟩ | ⟨rfl, hq⟩ | ⟨rfl, hq⟩⟩
        · exact .inl ⟨token, hm⟩
        · exact .inr (.inl ⟨hm, hq⟩)
        · exact .inr (.inr ⟨hm, hq⟩)
      · rintro (⟨token, hm⟩ | ⟨hm, hq⟩ | ⟨hm, hq⟩)
        · exact ⟨_, hm, .inl ⟨token, rfl⟩⟩
        · exact ⟨_, hm, .inr (.inl ⟨rfl, hq⟩)⟩
        · exact ⟨_, hm, .inr (.inr ⟨rfl, hq⟩)⟩
  increasing := by
    intro audienceIds hresolved
    obtain ⟨-, rfl⟩ := resolveChatAudience_ok_iff.mp hresolved
    exact ⟨audienceOf_ascending, audienceOf_eq_nil_iff⟩
  rejected := by
    have hok : (∃ e, resolveChatAudience env actor roster.participants request = .error e) ↔
        ¬ MentionsCanonical env roster request.mentions := by
      rw [← roster.validateMentions_iff]
      constructor
      · rintro ⟨e, he⟩ hvalid
        rw [resolveChatAudience_ok_iff.mpr ⟨hvalid, rfl⟩] at he
        cases he
      · intro hinvalid
        cases hresolved : resolveChatAudience env actor roster.participants request with
        | error e => exact ⟨e, rfl⟩
        | ok ids => exact absurd (resolveChatAudience_ok_iff.mp hresolved).1 hinvalid
    rw [hok, MentionsCanonical, not_and_or]
    push Not
    rw [← or_assoc]
    refine or_congr_left ⟨?_, ?_⟩
    · rintro ⟨id, token, hm, hother⟩
      cases htoken : roster.token env id with
      | none => exact .inl ⟨id, token, hm, htoken⟩
      | some canonical =>
          refine .inr ⟨id, token, canonical, hm, htoken, ?_⟩
          rintro rfl
          exact hother htoken
    · rintro (⟨id, token, hm, hnone⟩ | ⟨id, token, canonical, hm, hsome, hne⟩)
      · exact ⟨id, token, hm, by simp [hnone]⟩
      · exact ⟨id, token, hm, by simp [hsome, Ne.symm hne]⟩

/-! ### Public messages -/

theorem publicPayload_normalized {request : ChatSend} {audienceIds : List Uuid} :
    publicPayload env (normalizedChatPayload request audienceIds) = true ↔
      request.delivery = .room ∧ audienceIds = [] := by
  cases hdelivery : request.delivery <;>
    simp [publicPayload, Env.text, normalizedChatPayload, hdelivery, ChatDelivery.asStr,
      Json.ofUuids]

/-- The payload of a message for the whole room that no mention restricts. -/
theorem publicPayload_room {text mentions : Json} :
    publicPayload env (.obj [("text", text), ("mentions", mentions), ("delivery", "room"),
      ("audienceIds", .arr [])]) = true := by
  simp [publicPayload, Env.text]

/-- The messages that a gateway writes, told apart by whom they are for. -/
theorem Written.message_cases {new : NewEvent} (h : Written env new)
    (htype : new.eventType = .messageCreated) :
    (publicPayload env new.payload = true ∧ new.payload["delivery"].asStr = some "room") ∨
      ∃ audienceIds : List Uuid, new.payload["delivery"].asStr = some "mentioned" ∧
        new.payload["audienceIds"].asArray = some (audienceIds.map fun id => .str id.text) := by
  cases h with
  | @message actor request participants audienceIds audience =>
      obtain ⟨-, rfl⟩ := resolveChatAudience_ok_iff.mp audience
      cases hdelivery : request.delivery with
      | room =>
          refine .inl ⟨publicPayload_normalized.mpr ⟨hdelivery, if_pos hdelivery⟩, ?_⟩
          simp [messageEvent, normalizedChatPayload, hdelivery, ChatDelivery.asStr]
      | mentioned =>
          refine .inr ⟨audienceOf actor participants request, ?_, ?_⟩
          · simp [messageEvent, normalizedChatPayload, hdelivery, ChatDelivery.asStr]
          · simp [messageEvent, normalizedChatPayload, Json.ofUuids]
  | actionItems mem =>
      simp only [actionItemsEvents, List.mem_cons, List.not_mem_nil, or_false] at mem
      rcases mem with rfl | rfl | rfl
      · cases htype
      · cases htype
      · change (actionItemsOutcome _ _).1 = _ at htype
        unfold actionItemsOutcome at htype
        split at htype <;> cases htype
  | decision type =>
      obtain rfl : _ = EventType.messageCreated := htype
      cases type
  | requested => cases htype
  | prompt => exact .inl ⟨publicPayload_room, by simp [promptEvent]⟩
  | reply => exact .inl ⟨by simp [replyEvent, publicPayload, Env.text], by simp [replyEvent]⟩
  | @update _ update _ _ _ state_eq =>
      rw [show update.eventType = .messageCreated from htype] at state_eq
      cases state_eq

/-- The event's audience does not list all of the identifiers there are. -/
def RoomEvent.Bounded (e : RoomEvent) : Prop :=
  ∀ audience, e.payload["audienceIds"].asArray = some audience → audience.length < 2 ^ 128

theorem Written.public_iff_visible {new : NewEvent} (h : Written env new)
    (htype : new.eventType = .messageCreated) {eventId : Uuid} {sequence : Int}
    (hbounded : (new.row eventId sequence).Bounded) :
    publicPayload env new.payload = true ↔
      ∀ p, eventVisibleTo (new.row eventId sequence) p = true := by
  obtain ⟨hpublic, hdelivery⟩ | ⟨audienceIds, hdelivery, haudience⟩ := h.message_cases htype
  · have hvisible : ∀ p, eventVisibleTo (new.row eventId sequence) p = true := by
      refine eventVisibleTo_of_not_targeted fun htargeted => ?_
      rw [RoomEvent.targeted, show (new.row eventId sequence).payload = new.payload from rfl,
        hdelivery] at htargeted
      simp at htargeted
    exact iff_of_true hpublic hvisible
  · have hlength : audienceIds.length < 2 ^ 128 := by
      simpa using hbounded _ haudience
    obtain ⟨stranger, hstranger⟩ := Uuid.exists_not_mem hlength
    refine iff_of_false (fun hpublic => ?_) fun hall => hstranger ?_
    · have htext : env.text new.payload "delivery" = some "mentioned" := by
        have hstr := Json.eq_str_of_asStr hdelivery
        rw [Json.getElem_eq, Json.field] at hstr
        unfold Env.text
        cases hget : new.payload.get? "delivery" with
        | none => simp [hget] at hstr
        | some value =>
            rw [hget, Option.getD_some] at hstr
            rw [hstr]
      simp [publicPayload, htext] at hpublic
    · have hseen := hall stranger
      unfold eventVisibleTo at hseen
      rw [show (new.row eventId sequence).payload = new.payload from rfl, hdelivery,
        haudience] at hseen
      simpa using hseen

/-- The two definitions of a public message agree in a log. -/
structure PublicAgrees (env : Env) (db : Db) : Prop where
  agree : ∀ e ∈ db.roomEvents.rows, e.eventType = .messageCreated → e.Bounded →
    (publicPayload env e.payload = true ↔ ∀ p, eventVisibleTo e p = true)
  /-- So the messages a turn is built from are those that everybody sees. -/
  window : ∀ room base revision, ∀ e ∈ db.roomEvents.rows, e.Bounded →
    (publicMessage env room base revision e = true ↔
      e.roomId = room ∧ base < e.sequence ∧ e.sequence ≤ revision ∧
        e.eventType = .messageCreated ∧ ∀ p, eventVisibleTo e p = true)

theorem public_messages_visible (env : Env) (ops : List Op) :
    PublicAgrees env ((gateway env).run ops).db := by
  have hagree : ∀ e ∈ ((gateway env).run ops).db.roomEvents.rows, e.eventType = .messageCreated →
      e.Bounded → (publicPayload env e.payload = true ↔ ∀ p, eventVisibleTo e p = true) := by
    intro e he htype hbounded
    obtain ⟨new, eventId, sequence, rfl, hwritten⟩ := gateway_allWritten ops e he
    exact hwritten.public_iff_visible htype hbounded
  refine ⟨hagree, fun room base revision e he hbounded => ?_⟩
  simp only [publicMessage, Bool.and_eq_true, decide_eq_true_eq, and_assoc]
  refine and_congr_right fun _ => and_congr_right fun _ => and_congr_right fun _ => ?_
  exact and_congr_right fun htype => hagree e he htype hbounded

end RoomGateway
