import Mathlib.Data.Prod.Lex
import Mathlib.Order.OrderDual
import RoomGateway.Lib.Keyed
import RoomGateway.Spec.MentionTokens
import RoomGateway.Spec.ProfileContract
import RoomGateway.Spec.Session

/-!
The two rosters of a room. A message's mentions are checked against the
participants that the room shows, those of a turn against a roster of its own:
the latest event of each actor, the connections and the built-in agents. The two
hold the same participants, except that a turn always finds Action Items under
its built-in name, and the room shows it under the name that was recorded last.
-/

namespace RoomGateway

open Keyed Schema

variable {env : Env} {formats : Formats}

/-! ### The latest event of an actor -/

structure LatestEvent (db : Db) (room actor : Uuid) (e : RoomEvent) : Prop where
  mem : e ∈ db.roomEvents.rows
  inRoom : e.roomId = room
  byActor : e.actorId = actor
  latest : ∀ x ∈ db.roomEvents.rows, x.roomId = room → x.actorId = actor →
    x.sequence ≤ e.sequence

section Latest

variable {db : Db} {room actor : Uuid} {e e' : RoomEvent}

theorem LatestEvent.unique (h : LatestEvent db room actor e) (h' : LatestEvent db room actor e') :
    e = e' := by
  have hsequence := le_antisymm (h'.latest e h.mem h.inRoom h.byActor)
    (h.latest e' h'.mem h'.inRoom h'.byActor)
  refine Table.eq_of_clash h.mem h'.mem ?_ ?_
  all_goals simp [roomEventConstraints, h.inRoom, h'.inRoom, hsequence]

/-- A lookup that finds latest events only, and one whenever there is an event,
finds the latest event. -/
theorem latest_iff {found : Option RoomEvent}
    (sound : ∀ e, found = some e → LatestEvent db room actor e)
    (complete : ∀ e ∈ db.roomEvents.rows, e.roomId = room → e.actorId = actor →
      found.isSome = true) : found = some e ↔ LatestEvent db room actor e := by
  refine ⟨sound e, fun h => ?_⟩
  obtain ⟨x, hx⟩ := Option.isSome_iff_exists.mp (complete e h.mem h.inRoom h.byActor)
  rw [hx, (sound x hx).unique h]

theorem isSome_at? {α κ : Type} [DecidableEq κ] {key : α → κ} {l : List α} {a : α} (ha : a ∈ l) :
    (at? key l (key a)).isSome = true := by
  rw [Option.isSome_iff_ne_none, Ne, at?_eq_none_iff]
  exact fun h => h a ha rfl

theorem eventsAfter_latest (hlog : ∀ e ∈ db.roomEvents.rows, e.roomId = room → 0 < e.sequence) :
    at? RoomEvent.actorId (eventsAfter db room 0).reverse actor = some e ↔
      LatestEvent db room actor e := by
  refine latest_iff (fun e hfound => ?_) fun e he hroom hactor => ?_
  · obtain ⟨hactor, later, earlier, heq, hlater⟩ := List.find?_eq_some_iff_append.mp hfound
    have hmem : e ∈ eventsAfter db room 0 := by
      rw [← List.mem_reverse, heq]
      simp
    obtain ⟨he, hroom, -⟩ := mem_eventsAfter.mp hmem
    refine ⟨he, hroom, of_decide_eq_true hactor, fun x hx hxroom hxactor => ?_⟩
    -- the events before the found one have smaller numbers, those after it other actors
    have hsorted := eventsAfter_ascending db room 0
    have hx : x ∈ eventsAfter db room 0 := mem_eventsAfter.mpr ⟨hx, hxroom, hlog x hx hxroom⟩
    rw [← List.reverse_reverse (eventsAfter db room 0), heq, List.reverse_append,
      List.reverse_cons, List.append_assoc] at hsorted hx
    simp only [List.mem_append, List.mem_reverse, List.mem_singleton] at hx
    rcases hx with hx | rfl | hx
    · exact ((List.pairwise_append.mp hsorted).2.2 x (List.mem_reverse.mpr hx) e (by simp)).le
    · exact le_refl _
    · have hnot := hlater x hx
      simp [hxactor] at hnot
  · have hmem : e ∈ (eventsAfter db room 0).reverse :=
      List.mem_reverse.mpr (mem_eventsAfter.mpr ⟨he, hroom, hlog e he hroom⟩)
    exact hactor ▸ isSome_at? hmem

theorem mem_firstByActor {l : List RoomEvent} :
    e ∈ firstByActor l ↔ at? RoomEvent.actorId l e.actorId = some e := by
  induction l with
  | nil => simp [firstByActor, at?]
  | cons x l ih =>
      rw [firstByActor, List.mem_cons, List.mem_filter, ih, at?, at?, List.find?_cons]
      by_cases hx : x.actorId = e.actorId
      · simp [hx, eq_comm]
      · have hne : e ≠ x := fun heq => hx (heq ▸ rfl)
        simp [hx, hne, Ne.symm hx]

/-- The order in which the events of the room are read, the latest first for
each actor. -/
def actorKey (e : RoomEvent) : Lex (Uuid × Intᵒᵈ) := toLex (e.actorId, OrderDual.toDual e.sequence)

theorem latestByActor_eq (db : Db) (room : Uuid) :
    latestByActor db room = (firstByActor (sortOn actorKey (db.eventsOf room))).take 2001 := by
  have horder : ∀ a b : RoomEvent, ((a.actorId ≤ b.actorId ∧ a.actorId ≠ b.actorId) ∨
      (a.actorId = b.actorId ∧ b.sequence ≤ a.sequence)) = (actorKey a ≤ actorKey b) := by
    intro a b
    rw [← lt_iff_le_and_ne]
    exact propext (Prod.Lex.toLex_le_toLex (x := (a.actorId, OrderDual.toDual a.sequence))
      (y := (b.actorId, OrderDual.toDual b.sequence))).symm
  unfold latestByActor sortOn
  congr! 3
  exact funext₂ horder

theorem latestByActor_latest (hall : (latestByActor db room).length ≤ maxParticipants) :
    at? RoomEvent.actorId (latestByActor db room).reverse actor = some e ↔
      LatestEvent db room actor e := by
  have heq : latestByActor db room = firstByActor (sortOn actorKey (db.eventsOf room)) := by
    rw [latestByActor_eq] at hall ⊢
    refine List.take_of_length_le ?_
    rw [List.length_take, maxParticipants] at hall
    omega
  have hmem : ∀ x, x ∈ sortOn actorKey (db.eventsOf room) ↔
      x ∈ db.roomEvents.rows ∧ x.roomId = room := fun x => by rw [mem_sortOn, Db.mem_eventsOf]
  rw [heq]
  refine latest_iff (fun e hfound => ?_) fun e he hroom hactor => ?_
  · obtain ⟨hfirst, rfl⟩ := mem_of_at? hfound
    have hat := mem_firstByActor.mp (List.mem_reverse.mp hfirst)
    obtain ⟨-, before, after, hsplit, hbefore⟩ := List.find?_eq_some_iff_append.mp hat
    obtain ⟨he, hroom⟩ := (hmem e).mp (mem_of_at? hat).1
    refine ⟨he, hroom, rfl, fun x hx hxroom hxactor => ?_⟩
    have hx := (hmem x).mpr ⟨hx, hxroom⟩
    have hsorted := sortOn_sorted actorKey (db.eventsOf room)
    rw [hsplit] at hx hsorted
    simp only [List.mem_append, List.mem_cons] at hx
    rcases hx with hx | rfl | hx
    · have hnot := hbefore x hx
      simp [hxactor] at hnot
    · exact le_refl _
    · have hle := (List.pairwise_cons.mp (List.pairwise_append.mp hsorted).2.1).1 x hx
      rcases Prod.Lex.toLex_le_toLex.mp hle with hlt | ⟨-, hle⟩
      · exact absurd hxactor.symm hlt.ne
      · exact hle
  · have hsome : (at? RoomEvent.actorId (sortOn actorKey (db.eventsOf room)) e.actorId).isSome =
        true := isSome_at? ((hmem e).mpr ⟨he, hroom⟩)
    obtain ⟨x, hx⟩ := Option.isSome_iff_exists.mp hsome
    have hxactor : x.actorId = e.actorId := (mem_of_at? hx).2
    have hfirst : x ∈ firstByActor (sortOn actorKey (db.eventsOf room)) :=
      mem_firstByActor.mpr (hxactor ▸ hx)
    rw [← hactor, ← hxactor]
    exact isSome_at? (List.mem_reverse.mpr hfirst)

end Latest

/-! ### The rosters -/

section Rosters

variable (db : Db) (room : Uuid) (presence : List ParticipantPresence)

/-- What the history and the connections say about a participant. -/
def recorded (events : List RoomEvent) (presence : List ParticipantPresence) (id : Uuid) :
    Option RoomParticipant :=
  (at? RoomParticipant.id (presence.map presentParticipant).reverse id).or
    ((at? RoomEvent.actorId events.reverse id).map fun e => eventParticipant e e.actorDisplayName)

theorem at?_eventParticipants (events : List RoomEvent) (id : Uuid) :
    at? RoomParticipant.id (events.map fun e => eventParticipant e e.actorDisplayName).reverse id =
      (at? RoomEvent.actorId events.reverse id).map
        fun e => eventParticipant e e.actorDisplayName := by
  rw [← List.map_reverse, at?, List.find?_map]
  rfl

/-- The participants from a start, the history and the connections. -/
theorem at?_gathered (start : List RoomParticipant) (events : List RoomEvent) (id : Uuid) :
    at? RoomParticipant.id ((presence.map presentParticipant).foldl putParticipant
      ((events.map fun e => eventParticipant e e.actorDisplayName).foldl putParticipant start)) id =
      (recorded events presence id).or (at? RoomParticipant.id start id) := by
  change at? RoomParticipant.id (List.foldl (put RoomParticipant.id)
    (List.foldl (put RoomParticipant.id) start _) _) id = _
  rw [at?_foldl_put, at?_foldl_put, at?_eventParticipants, recorded, Option.or_assoc]

theorem nodup_gathered (start : List RoomParticipant) (events : List RoomEvent)
    (h : (start.map (·.id)).Nodup) :
    (((presence.map presentParticipant).foldl putParticipant
      ((events.map fun e => eventParticipant e e.actorDisplayName).foldl putParticipant
        start)).map (·.id)).Nodup :=
  nodup_foldl_put (nodup_foldl_put h _) _

theorem nodup_participantSnapshot :
    ((participantSnapshot db room presence true).map (·.id)).Nodup := by
  refine ((List.perm_insertionSort _ _).map _).nodup_iff.mpr (nodup_put ?_ codexParticipant)
  exact nodup_gathered presence _ (eventsAfter db room 0) (by simp)

/-- The participants that the room shows, with conversations enabled. -/
def snapshotRoster : Roster :=
  ⟨participantSnapshot db room presence true, nodup_participantSnapshot db room presence⟩

/-- The same with Action Items under its built-in name. -/
def builtInRoster : Roster :=
  ⟨putParticipant (participantSnapshot db room presence true) actionItemsParticipant,
    nodup_put (nodup_participantSnapshot db room presence) actionItemsParticipant⟩

theorem at?_participantSnapshot (id : Uuid) :
    at? RoomParticipant.id (participantSnapshot db room presence true) id =
      if codexAgentId = id then some codexParticipant
      else (recorded (eventsAfter db room 0) presence id).or
        (at? RoomParticipant.id [actionItemsParticipant] id) := by
  have hperm : (participantSnapshot db room presence true).Perm _ := List.perm_insertionSort _ _
  rw [at?_perm (nodup_participantSnapshot db room presence) hperm]
  change at? RoomParticipant.id (put RoomParticipant.id _ codexParticipant) id = _
  rw [at?_put, at?_gathered]
  rfl

variable {db room presence}

/-- The roster of a turn is the one that the room shows, but for the name of
Action Items. -/
theorem conversationRoster_perm {participants : List RoomParticipant}
    (hlog : ∀ e ∈ db.roomEvents.rows, e.roomId = room → 0 < e.sequence)
    (h : conversationRoster (latestByActor db room) presence = .ok participants) :
    (participants.map (·.id)).Nodup ∧
      participants.Perm (builtInRoster db room presence).participants := by
  unfold conversationRoster at h
  split_ifs at h with hlatest hpresence
  dsimp only at h
  split_ifs at h
  obtain rfl := Except.ok.inj h
  simp only [Bool.or_eq_true, decide_eq_true_eq, not_or, not_lt] at hlatest
  have hgathered := nodup_gathered presence [] (latestByActor db room) List.nodup_nil
  have hnodup := nodup_put (nodup_put hgathered actionItemsParticipant) codexParticipant
  refine ⟨hnodup, perm_of_at?_eq hnodup (builtInRoster db room presence).distinct fun id => ?_⟩
  change at? RoomParticipant.id (put RoomParticipant.id (put RoomParticipant.id _ _) _) id =
    at? RoomParticipant.id (put RoomParticipant.id _ actionItemsParticipant) id
  rw [at?_put, at?_put, at?_put, at?_gathered, at?_participantSnapshot]
  have hsame : at? RoomEvent.actorId (latestByActor db room).reverse id =
      at? RoomEvent.actorId (eventsAfter db room 0).reverse id :=
    Option.ext fun e => (latestByActor_latest hlatest.1).trans (eventsAfter_latest hlog).symm
  have hrecorded : recorded (latestByActor db room) presence id =
      recorded (eventsAfter db room 0) presence id := by
    rw [recorded, recorded, hsame]
  by_cases hcodex : codexAgentId = id
  · subst hcodex
    rfl
  · by_cases hitems : actionItemsAgentId = id
    · subst hitems
      rfl
    · simp [codexParticipant, actionItemsParticipant, hcodex, hitems, hrecorded, at?]

end Rosters

/-! ### The mentions of a turn request -/

/-- How a request writes a mention. -/
inductive WrittenAs : ChatMention → Json → Prop where
  | direct {value : Json} {id : Uuid} {token : String}
      (type : isParticipantMention value = true) (id_eq : value["id"] = Json.str id.text)
      (token_eq : value["token"] = Json.str token) : WrittenAs (.participant id token) value
  | group {value : Json} {name : ChatMentionAlias} (type : isParticipantMention value = false)
      (alias_eq : value["alias"] = Json.str name.asStr) : WrittenAs (.alias name) value

theorem eq_text_of_idSchema {value : Json} (h : idSchema value = true) :
    ∃ id : Uuid, value = .str id.text := by
  simp only [idSchema, all_cons, all_nil, Bool.and_true, Bool.and_eq_true] at h
  obtain ⟨hstring, -, -, hid⟩ := h
  cases value with
  | str s =>
      have hid : isIdText s = true := hid
      cases hparse : Uuid.parseHyphenated s.toList with
      | none => simp [isIdText, hparse] at hid
      | some id =>
          refine ⟨id, ?_⟩
          rw [isIdText, hparse, Option.any_some, decide_eq_true_eq] at hid
          rw [hid]
  | _ => cases hstring

/-- A mention that the schema admits is read. -/
theorem turnMention_read {value : Json}
    (h : one [turnParticipantSchema, aliasMentionSchema] value = true) :
    ∃ mention, ChatMention.ofJson value = some mention ∧ WrittenAs mention value := by
  obtain ⟨schema, hschema, hvalid⟩ := exists_of_one h
  simp only [List.mem_cons, List.not_mem_nil, or_false] at hschema
  rcases hschema with rfl | rfl
  · have htype : const "participant" value["type"] = true :=
      record_field hvalid (by simp) (by simp)
    have hid : idSchema value["id"] = true := record_field hvalid (by simp) (by simp)
    have htoken : all [string, minLength 1, text isTokenText] value["token"] = true :=
      record_field hvalid (by simp) (by simp)
    rw [all_cons, Bool.and_eq_true] at htoken
    rw [const_eq, decide_eq_true_eq] at htype
    obtain ⟨id, hid⟩ := eq_text_of_idSchema hid
    obtain ⟨token, htoken⟩ := eq_str_of_string htoken.1
    obtain ⟨parts, rfl, hclosed⟩ := fields_of_record hvalid
    refine ⟨.participant id token, ?_, .direct (decide_eq_true htype) hid htoken⟩
    simp only [ChatMention.ofJson, htype, hid, htoken, Json.asStr_str, Option.bind_some,
      Uuid.parse_text, Option.bind_eq_bind]
    exact if_pos hclosed
  · have htype : const "alias" value["type"] = true := record_field hvalid (by simp) (by simp)
    have halias : enum ["allhumans", "allagents"] value["alias"] = true :=
      record_field hvalid (by simp) (by simp)
    rw [const_eq, decide_eq_true_eq] at htype
    obtain ⟨text, htext, halias⟩ := eq_str_of_enum halias
    obtain ⟨name, hname, rfl⟩ : ∃ name, ChatMentionAlias.ofStr text = some name ∧
        text = name.asStr := by
      simp only [List.mem_cons, List.not_mem_nil, or_false] at htext
      rcases htext with rfl | rfl
      · exact ⟨.allHumans, rfl, rfl⟩
      · exact ⟨.allAgents, rfl, rfl⟩
    obtain ⟨parts, rfl, hclosed⟩ := fields_of_record hvalid
    refine ⟨.alias name, ?_, .group ?_ halias⟩
    · simp only [ChatMention.ofJson, htype, halias, hname, Json.asStr_str, Option.bind_some,
        Option.bind_eq_bind]
      exact if_pos hclosed
    · simp [isParticipantMention, htype]

/-- The mentions of a list are read one by one. -/
theorem turnMentions_read {items : List Json}
    (h : ∀ value ∈ items, one [turnParticipantSchema, aliasMentionSchema] value = true) :
    ∃ mentions, items.mapM ChatMention.ofJson = some mentions ∧
      List.Forall₂ WrittenAs mentions items := by
  induction items with
  | nil => exact ⟨[], rfl, .nil⟩
  | cons value items ih =>
      obtain ⟨mention, hread, hwritten⟩ := turnMention_read (h value List.mem_cons_self)
      obtain ⟨mentions, hrest, hall⟩ := ih fun value hvalue =>
        h value (List.mem_cons_of_mem _ hvalue)
      refine ⟨mention :: mentions, ?_, .cons hwritten hall⟩
      rw [List.mapM_cons, hread, hrest]
      rfl

/-- What the check of a turn's mentions has seen of a target. -/
def seenTarget (seen : List String × List (Option String) × Bool) :
    Uuid ⊕ ChatMentionAlias → Prop
  | .inl id => id.text ∈ seen.1
  | .inr name => some name.asStr ∈ seen.2.1

theorem seenTarget_mono {seen next : List String × List (Option String) × Bool}
    (hparticipants : seen.1 ⊆ next.1) (haliases : seen.2.1 ⊆ next.2.1)
    (x : Uuid ⊕ ChatMentionAlias) (h : seenTarget seen x) : seenTarget next x := by
  cases x with
  | inl id => exact hparticipants h
  | inr name => exact haliases h

/-- The check names every target once, and Codex by its token. -/
theorem checkTurnMention_ok {mention : ChatMention} {value : Json}
    {seen next : List String × List (Option String) × Bool} (hwritten : WrittenAs mention value)
    (h : checkTurnMention (Json.str codexAgentId.text) seen value = .ok next) :
    ¬ seenTarget seen mention.target ∧ seenTarget next mention.target ∧
      (∀ x, seenTarget seen x → seenTarget next x) ∧
      ∀ token, mention = .participant codexAgentId token → token = "codex-agent" := by
  obtain ⟨participants, aliases, directCodex⟩ := seen
  unfold checkTurnMention at h
  dsimp only at h
  cases hwritten with
  | @direct _ id token type id_eq token_eq =>
      rw [if_pos type, id_eq] at h
      simp only [Json.asStr_str] at h
      split_ifs at h with hseen hcodex htoken
      · rw [token_eq] at htoken
        obtain rfl := Except.ok.inj h
        refine ⟨by simpa [seenTarget, ChatMention.target] using hseen, ?_, ?_, ?_⟩
        · simp [seenTarget, ChatMention.target]
        · exact seenTarget_mono (List.subset_cons_self ..) (List.Subset.refl _)
        · rintro _ ⟨⟩
          simpa using htoken
      · obtain rfl := Except.ok.inj h
        refine ⟨by simpa [seenTarget, ChatMention.target] using hseen, ?_, ?_, ?_⟩
        · simp [seenTarget, ChatMention.target]
        · exact seenTarget_mono (List.subset_cons_self ..) (List.Subset.refl _)
        · rintro _ ⟨⟩
          exact absurd rfl hcodex
  | @group _ name type alias_eq =>
      have hname : value["alias"].asStr = some name.asStr := by
        rw [alias_eq, Json.asStr_str]
      rw [if_neg (by simp [type]), hname] at h
      by_cases hseen : aliases.contains (some name.asStr) = true
      · rw [if_pos hseen] at h
        cases h
      · rw [if_neg hseen] at h
        obtain rfl := Except.ok.inj h
        refine ⟨by simpa [seenTarget, ChatMention.target] using hseen, ?_, ?_, ?_⟩
        · simp [seenTarget, ChatMention.target]
        · exact seenTarget_mono (List.Subset.refl _) (List.subset_cons_self ..)
        · rintro _ ⟨⟩

theorem turnMentions_checked {mentions : List ChatMention} {items : List Json}
    {seen out : List String × List (Option String) × Bool}
    (hwritten : List.Forall₂ WrittenAs mentions items)
    (h : items.foldlM (checkTurnMention (Json.str codexAgentId.text)) seen = .ok out) :
    (∀ m ∈ mentions, ¬ seenTarget seen m.target) ∧ (mentions.map ChatMention.target).Nodup ∧
      ∀ token, .participant codexAgentId token ∈ mentions → token = "codex-agent" := by
  induction hwritten generalizing seen with
  | nil => simp
  | @cons mention value mentions items hfirst _ ih =>
      rw [List.foldlM_cons] at h
      obtain ⟨next, hnext, hrest⟩ := Loops.bind_ok.mp h
      obtain ⟨hnew, hnoted, hkept, hcodex⟩ := checkTurnMention_ok hfirst hnext
      obtain ⟨hunseen, hnodup, htokens⟩ := ih hrest
      refine ⟨?_, ?_, ?_⟩
      · intro m hm
        rcases List.mem_cons.mp hm with rfl | hm
        · exact hnew
        · exact fun hseen => hunseen m hm (hkept _ hseen)
      · rw [List.map_cons, List.nodup_cons]
        refine ⟨fun hmem => ?_, hnodup⟩
        obtain ⟨m, hm, heq⟩ := List.mem_map.mp hmem
        exact hunseen m hm (heq ▸ hnoted)
      · intro token hmem
        rcases List.mem_cons.mp hmem with heq | hmem
        · exact hcodex token heq.symm
        · exact htokens token hmem

/-- What an accepted turn request mentions. -/
theorem validateTurnRequest_mentions {request intent : Json}
    (h : validateTurnRequest (env.underProfile formats) request = .ok intent) :
    ∃ mentions, ChatMention.ofJsonList request["mentions"] = some mentions ∧
      (mentions.map ChatMention.target).Nodup ∧
      ∀ token, .participant codexAgentId token ∈ mentions → token = "codex-agent" := by
  unfold validateTurnRequest at h
  obtain ⟨_, hprofile, h⟩ := Loops.bind_ok.mp h
  have hvalid : turnSchema formats request = true := (validateProfileValue_ok.mp hprofile).valid
  have hmentions : turnMentionsSchema request["mentions"] = true :=
    record_field hvalid (by simp) (by simp)
  dsimp only at h
  by_cases hagent : request["agentId"] = Json.str codexAgentId.text
  · rw [if_neg (not_not.mpr hagent)] at h
    cases hitems : request["mentions"].asArray with
    | none =>
        rw [hitems] at h
        cases h
    | some items =>
        rw [hitems] at h
        obtain ⟨out, hfold, -⟩ := Loops.bind_ok.mp h
        rw [hagent] at hfold
        have harray : request["mentions"] = .arr items := by
          cases hvalue : request["mentions"] with
          | arr _ =>
              rw [hvalue] at hitems
              cases hitems
              rfl
          | _ => simp [hvalue, Json.asArray] at hitems
        rw [harray] at hmentions ⊢
        simp only [turnMentionsSchema, all_cons, items_arr, Bool.and_eq_true, List.all_eq_true]
          at hmentions
        obtain ⟨mentions, hread, hwritten⟩ := turnMentions_read hmentions.2.1
        obtain ⟨-, hnodup, htokens⟩ := turnMentions_checked hwritten hfold
        exact ⟨mentions, hread, hnodup, htokens⟩
  · rw [if_pos hagent] at h
    cases h

/-! ### The two checks -/

/-- What the check of a turn's mentions answers. -/
def turnMentionsAnswer (env : Env) (db : Db) (room : Uuid) (mentions : Json)
    (presence : List ParticipantPresence) : Except ConversationError Unit :=
  ((validateConversationMentions env room mentions presence).exec db).map fun _ => ()

section Checks

variable {db : Db} {room : Uuid} {presence : List ParticipantPresence} {value : Json}
  {mentions : List ChatMention}

theorem exec_ofExcept {σ κ ε α : Type} (r : Except ε α) (s : σ) :
    (Prog.ofExcept r : Prog σ κ ε α).exec s = r.map fun a => (a, s) := by
  cases r <;> rfl

/-- The check of a turn's mentions, once they are read. -/
theorem turnMentionsAnswer_eq (hread : ChatMention.ofJsonList value = some mentions) :
    turnMentionsAnswer env db room value presence =
      if mentions.any mentionsOther then
        (conversationRoster (latestByActor db room) presence).bind fun participants =>
          (validateMentions env participants mentions).mapError
            fun _ => ConversationError.invalidTaskInput
      else .ok () := by
  unfold turnMentionsAnswer validateConversationMentions
  rw [Prog.exec_bind_of_ok (a := mentions) (t := db) (by simp [Prog.exec_orFail_ok, hread])]
  cases hother : mentions.any mentionsOther with
  | false => rfl
  | true =>
      simp only [Bool.not_true, Bool.false_eq_true, if_false, if_true]
      rw [Prog.exec_bind_of_ok (a := latestByActor db room) (t := db)
        (Prog.exec_query_ok.mpr ⟨rfl, rfl⟩), Prog.exec_bind, exec_ofExcept]
      cases conversationRoster (latestByActor db room) presence with
      | error e => rfl
      | ok participants =>
          simp only [Except.map, exec_ofExcept, Except.bind]
          cases validateMentions env participants mentions <;> rfl

theorem Env.Lowercases.underProfile (h : env.Lowercases) (formats : Formats) :
    (env.underProfile formats).Lowercases := ⟨h.fixed, h.lower⟩

theorem conversationRoster_error {latest : List RoomEvent} {e : ConversationError}
    (h : conversationRoster latest presence = .error e) : e = .contextTooLarge := by
  unfold conversationRoster at h
  split_ifs at h
  · cases h
    rfl
  · cases h
    rfl
  · dsimp only at h
    split_ifs at h
    cases h
    rfl

/-- Codex has its token in every roster that it is in. -/
theorem Roster.token_codexAgent (hlower : env.Lowercases) (roster : Roster)
    (h : codexParticipant ∈ roster.participants) :
    roster.token env codexAgentId = some "codex-agent" := by
  refine (roster.token_iff hlower).mpr ⟨codexParticipant, List.mem_append_right _ ?_, rfl⟩
  refine List.mem_map.mpr ⟨codexParticipant, List.mem_filter.mpr ⟨h, ?_⟩, ?_⟩
  · simp [needsSuffix, pinnedCodex, codexParticipant]
  · simp [plainToken, pinnedCodex, codexParticipant]

theorem Roster.isTokenText_of_token (hlower : env.Lowercases) (roster : Roster) {id : Uuid}
    {token : String} (h : roster.token env id = some token) : isTokenText token = true := by
  obtain ⟨p, hpair, -⟩ := (roster.token_iff hlower).mp h
  exact isTokenText_token hlower hpair

theorem codex_mem_snapshot : codexParticipant ∈ (snapshotRoster db room presence).participants := by
  refine (mem_iff_at? (snapshotRoster db room presence).distinct).mpr ?_
  exact (at?_participantSnapshot db room presence codexAgentId).trans (if_pos rfl)

theorem codex_mem_builtIn : codexParticipant ∈ (builtInRoster db room presence).participants := by
  refine (mem_iff_at? (builtInRoster db room presence).distinct).mpr ?_
  refine (at?_put _ _ _).trans ?_
  rw [if_neg (by decide)]
  exact (at?_participantSnapshot db room presence codexAgentId).trans (if_pos rfl)

theorem turnMentionsAnswer_ne (hread : ChatMention.ofJsonList value = some mentions)
    (hfits : conversationRoster (latestByActor db room) presence ≠ .error .contextTooLarge) :
    turnMentionsAnswer env db room value presence ≠ .error .contextTooLarge := by
  rw [turnMentionsAnswer_eq hread]
  split_ifs
  · cases hroster : conversationRoster (latestByActor db room) presence with
    | error e => exact absurd (conversationRoster_error hroster ▸ hroster) hfits
    | ok participants =>
        simp only [Except.bind]
        cases validateMentions env participants mentions <;> nofun
  · simp

/-- The roster of a turn, where there is one, has the built-in roster's tokens. -/
theorem turnMentionsAnswer_iff (hlower : env.Lowercases)
    (hlog : ∀ e ∈ db.roomEvents.rows, e.roomId = room → 0 < e.sequence)
    (hread : ChatMention.ofJsonList value = some mentions)
    (hother : mentions.any mentionsOther = true)
    (hfits : conversationRoster (latestByActor db room) presence ≠ .error .contextTooLarge) :
    turnMentionsAnswer env db room value presence = .ok () ↔
      MentionsCanonical env (builtInRoster db room presence) mentions := by
  rw [turnMentionsAnswer_eq hread, if_pos hother]
  cases hroster : conversationRoster (latestByActor db room) presence with
  | error e => exact absurd (conversationRoster_error hroster ▸ hroster) hfits
  | ok participants =>
      obtain ⟨hnodup, hperm⟩ := conversationRoster_perm hlog hroster
      have htokens : Roster.token env ⟨participants, hnodup⟩ = _ :=
        Roster.token_perm hlower hperm
      have hcheck : validateMentions env participants mentions = .ok () ↔ _ :=
        Roster.validateMentions_iff ⟨participants, hnodup⟩
      rw [MentionsCanonical, htokens] at hcheck
      exact Loops.mapError_ok.trans hcheck

end Checks

/-! ### Agreement -/

/-- The two checks agree on every turn request that is accepted for the room,
unless the room is too large for a turn. -/
def MentionsAgree (env : Env) (db : Db) (room : Uuid) (presence : List ParticipantPresence) :
    Prop :=
  ∀ request intent, validateTurnRequest env request = .ok intent →
    request["roomId"] = Json.str room.text →
    ∃ mentions, ChatMention.ofJsonList request["mentions"] = some mentions ∧
      (turnMentionsAnswer env db room request["mentions"] presence ≠ .error .contextTooLarge →
        (turnMentionsAnswer env db room request["mentions"] presence = .ok () ↔
          validateMentions env (participantSnapshot db room presence true) mentions = .ok ()))

/-- Nobody is mentioned differently with Action Items under its built-in name. -/
def TokensKept (env : Env) (db : Db) (room : Uuid) (presence : List ParticipantPresence) : Prop :=
  ∀ id, (snapshotRoster db room presence).token env id =
    (builtInRoster db room presence).token env id

/-- A turn that mentions one participant beside Codex. -/
def turnMentioning (room id : Uuid) (token : String) : Json :=
  .obj [("profileVersion", profileVersion), ("requestId", (5 : Uuid)), ("roomId", room),
    ("agentId", codexAgentId), ("occurredAt", "1970-01-01T00:00:00Z"), ("text", "hi"),
    ("mentions", .arr [ChatMention.toJson (.participant codexAgentId "codex-agent"),
      ChatMention.toJson (.participant id token)])]

section Agreement

variable {db : Db} {room id : Uuid} {token : String} {presence : List ParticipantPresence}

theorem one_turnParticipant (id : Uuid) (htoken : isTokenText token = true) :
    one [turnParticipantSchema, aliasMentionSchema]
      (ChatMention.toJson (.participant id token)) = true := by
  have hid : idSchema (Json.str id.text) = true := idSchema_text id
  have hsome : 1 ≤ token.length := by
    by_contra hlength
    obtain rfl : token = "" := String.length_eq_zero_iff.mp (by omega)
    exact absurd htoken (by decide)
  have hparticipant :
      turnParticipantSchema (ChatMention.toJson (.participant id token)) = true := by
    simp [turnParticipantSchema, record, ChatMention.toJson, hid, htoken, string, minLength, text,
      hsome]
  have halias : aliasMentionSchema (ChatMention.toJson (.participant id token)) = false := by
    simp [aliasMentionSchema, record, ChatMention.toJson]
  rw [one_pair, hparticipant, halias]
  rfl

theorem turnMentionsSchema_pair {a b : Json}
    (ha : one [turnParticipantSchema, aliasMentionSchema] a = true)
    (hb : one [turnParticipantSchema, aliasMentionSchema] b = true) (hne : a ≠ b) :
    turnMentionsSchema (.arr [a, b]) = true := by
  simp [turnMentionsSchema, ha, hb, hne]

theorem turnSchema_minimal (room agent : Uuid) {mentions : Json}
    (hinstant : formats.dateTime "1970-01-01T00:00:00Z" = true)
    (hmentions : turnMentionsSchema mentions = true) :
    turnSchema formats (.obj [("profileVersion", profileVersion), ("requestId", (5 : Uuid)),
      ("roomId", room), ("agentId", agent), ("occurredAt", "1970-01-01T00:00:00Z"),
      ("text", "hi"), ("mentions", mentions)]) = true := by
  have hoccurred : instantSchema formats (Json.str "1970-01-01T00:00:00Z") = true := by
    have hlength : 1 ≤ "1970-01-01T00:00:00Z".length := by decide
    simp [instantSchema, string, minLength, text, hinstant, hlength]
  have htext : 1 ≤ "hi".length ∧ "hi".length ≤ 8000 := by decide
  simp [turnSchema, record, hmentions, hoccurred, htext]

theorem fits_turnMentioning (hinstant : formats.dateTime "1970-01-01T00:00:00Z" = true)
    (hid : id ≠ codexAgentId) (htoken : isTokenText token = true) :
    Fits (turnSchema formats) (turnMentioning room id token) := by
  have hne : ChatMention.toJson (.participant codexAgentId "codex-agent") ≠
      ChatMention.toJson (.participant id token) := by
    simp only [ChatMention.toJson, ne_eq, Json.obj.injEq, List.cons.injEq, Prod.mk.injEq,
      Json.str.injEq]
    exact fun h => hid (Uuid.text_injective h.2.1.2.symm)
  have hmentions := turnMentionsSchema_pair
    (one_turnParticipant codexAgentId (by decide +kernel)) (one_turnParticipant id htoken) hne
  refine ⟨turnSchema_minimal room codexAgentId hinstant hmentions, ?_⟩
  unfold turnMentioning
  generalize codexAgentId = agent
  simp [ChatMention.toJson]

theorem checkTurnMention_codex (agent : Uuid) :
    checkTurnMention (Json.str agent.text) ([], [], false)
        (ChatMention.toJson (.participant agent "codex-agent")) =
      .ok ([agent.text], [], true) := by
  simp [checkTurnMention, isParticipantMention, ChatMention.toJson]

theorem checkTurnMention_other {agent : Uuid} (hid : id ≠ agent) :
    checkTurnMention (Json.str agent.text) ([agent.text], [], true)
        (ChatMention.toJson (.participant id token)) =
      .ok ([id.text, agent.text], [], true) := by
  have htext : id.text ≠ agent.text := fun h => hid (Uuid.text_injective h)
  simp [checkTurnMention, isParticipantMention, ChatMention.toJson, htext]

theorem checkTurnMentions_pair {agent : Uuid} (hid : id ≠ agent) :
    [ChatMention.toJson (.participant agent "codex-agent"),
        ChatMention.toJson (.participant id token)].foldlM
      (checkTurnMention (Json.str agent.text)) ([], [], false) =
    .ok ([id.text, agent.text], [], true) := by
  rw [List.foldlM_cons]
  refine Loops.bind_ok.mpr ⟨_, checkTurnMention_codex agent, ?_⟩
  rw [List.foldlM_cons]
  exact Loops.bind_ok.mpr ⟨_, checkTurnMention_other hid, List.foldlM_nil⟩

theorem validateTurnRequest_mentioning
    (hinstant : formats.dateTime "1970-01-01T00:00:00Z" = true) (hid : id ≠ codexAgentId)
    (htoken : isTokenText token = true) :
    validateTurnRequest (env.underProfile formats) (turnMentioning room id token) =
      .ok (turnMentioning room id token) := by
  have hprofile : validateProfileValue (env.underProfile formats) .turn
      (turnMentioning room id token) = .ok () :=
    validateProfileValue_ok.mpr (fits_turnMentioning hinstant hid htoken)
  have hagent : (turnMentioning room id token)["agentId"] = Json.str codexAgentId.text := rfl
  have hmentions : (turnMentioning room id token)["mentions"].asArray =
      some [ChatMention.toJson (.participant codexAgentId "codex-agent"),
        ChatMention.toJson (.participant id token)] := rfl
  unfold validateTurnRequest
  rw [hprofile, hagent, hmentions]
  refine Loops.bind_ok.mpr ⟨(), rfl, ?_⟩
  dsimp only
  rw [if_neg (not_not.mpr rfl)]
  exact Loops.bind_ok.mpr ⟨_, checkTurnMentions_pair hid, rfl⟩

theorem mention_ofJson_toJson (id : Uuid) (token : String) :
    ChatMention.ofJson (ChatMention.toJson (.participant id token)) =
      some (.participant id token) := by
  simp [ChatMention.ofJson, ChatMention.toJson, Uuid.parse_text]

theorem ofJsonList_mentioning (room id : Uuid) (token : String) :
    ChatMention.ofJsonList (turnMentioning room id token)["mentions"] =
      some [.participant codexAgentId "codex-agent", .participant id token] := by
  have hmentions : (turnMentioning room id token)["mentions"] =
      .arr [ChatMention.toJson (.participant codexAgentId "codex-agent"),
        ChatMention.toJson (.participant id token)] := rfl
  rw [hmentions]
  simp only [ChatMention.ofJsonList, List.mapM_cons, List.mapM_nil, mention_ofJson_toJson]
  rfl

/-- A mention beside that of Codex is canonical if it gives the token. -/
theorem canonical_mentioning (hlower : env.Lowercases) (roster : Roster)
    (hcodex : codexParticipant ∈ roster.participants) (hid : id ≠ codexAgentId) :
    MentionsCanonical env roster
        [.participant codexAgentId "codex-agent", .participant id token] ↔
      roster.token env id = some token := by
  constructor
  · exact fun h => h.1 id token (by simp)
  · intro h
    refine ⟨fun x t hmem => ?_, by simp [ChatMention.target, Ne.symm hid]⟩
    simp only [List.mem_cons, ChatMention.participant.injEq, List.not_mem_nil, or_false] at hmem
    rcases hmem with ⟨rfl, rfl⟩ | ⟨rfl, rfl⟩
    · exact roster.token_codexAgent hlower hcodex
    · exact h

/-- A mention of Codex and the groups is canonical wherever Codex is. -/
theorem canonical_shortcut (hlower : env.Lowercases) (roster : Roster)
    (hcodex : codexParticipant ∈ roster.participants) {mentions : List ChatMention}
    (hnodup : (mentions.map ChatMention.target).Nodup)
    (htokens : ∀ token, .participant codexAgentId token ∈ mentions → token = "codex-agent")
    (hother : mentions.any mentionsOther = false) : MentionsCanonical env roster mentions := by
  refine ⟨fun id token hmem => ?_, hnodup⟩
  obtain rfl : id = codexAgentId := by
    simpa [mentionsOther] using List.any_eq_false.mp hother _ hmem
  rw [htokens token hmem]
  exact roster.token_codexAgent hlower hcodex

theorem agree_of_tokensKept (hlower : env.Lowercases)
    (hlog : ∀ e ∈ db.roomEvents.rows, e.roomId = room → 0 < e.sequence)
    (h : conversationRoster (latestByActor db room) presence = .error .contextTooLarge ∨
      TokensKept (env.underProfile formats) db room presence) :
    MentionsAgree (env.underProfile formats) db room presence := by
  intro request intent hvalid _
  obtain ⟨mentions, hread, hnodup, htokens⟩ := validateTurnRequest_mentions hvalid
  refine ⟨mentions, hread, fun hanswer => ?_⟩
  have hlower' := hlower.underProfile formats
  have hroom : validateMentions (env.underProfile formats)
      (participantSnapshot db room presence true) mentions = .ok () ↔ _ :=
    (snapshotRoster db room presence).validateMentions_iff
  rw [hroom]
  cases hother : mentions.any mentionsOther with
  | false =>
      refine iff_of_true ?_ (canonical_shortcut hlower' _ codex_mem_snapshot hnodup htokens hother)
      rw [turnMentionsAnswer_eq hread, hother]
      rfl
  | true =>
      have hfits : conversationRoster (latestByActor db room) presence ≠
          .error .contextTooLarge := by
        intro hlarge
        rw [turnMentionsAnswer_eq hread, hother, hlarge] at hanswer
        exact hanswer rfl
      have hkept := h.resolve_left hfits
      rw [turnMentionsAnswer_iff hlower' hlog hread hother hfits, MentionsCanonical,
        MentionsCanonical]
      simp only [hkept _]

end Agreement

theorem tokensKept_of_agree (hlower : env.Lowercases)
    (hinstant : formats.dateTime "1970-01-01T00:00:00Z" = true) {db : Db} {room : Uuid}
    {presence : List ParticipantPresence}
    (hlog : ∀ e ∈ db.roomEvents.rows, e.roomId = room → 0 < e.sequence)
    (hfits : conversationRoster (latestByActor db room) presence ≠ .error .contextTooLarge)
    (hagree : MentionsAgree (env.underProfile formats) db room presence) :
    TokensKept (env.underProfile formats) db room presence := by
  have hlower' := hlower.underProfile formats
  refine fun id => Option.ext fun token => ?_
  by_cases hid : id = codexAgentId
  · rw [hid, Roster.token_codexAgent hlower' _ codex_mem_snapshot,
      Roster.token_codexAgent hlower' _ codex_mem_builtIn]
  · by_cases htoken : isTokenText token = true
    · -- The turn that mentions `id` by `token` tells the two rosters apart.
      obtain ⟨mentions, hread, hsame⟩ := hagree _ _
        (validateTurnRequest_mentioning hinstant hid htoken) rfl
      obtain rfl := Option.some.inj (hread.symm.trans (ofJsonList_mentioning room id token))
      have hother : [ChatMention.participant codexAgentId "codex-agent",
          .participant id token].any mentionsOther = true := by
        simp [mentionsOther, hid]
      have hturn := turnMentionsAnswer_iff hlower' hlog hread hother hfits
      have hroom : validateMentions (env.underProfile formats)
          (participantSnapshot db room presence true)
          [.participant codexAgentId "codex-agent", .participant id token] = .ok () ↔ _ :=
        (snapshotRoster db room presence).validateMentions_iff
      rw [canonical_mentioning hlower' _ codex_mem_builtIn hid] at hturn
      rw [canonical_mentioning hlower' _ codex_mem_snapshot hid] at hroom
      have hanswers := hsame (turnMentionsAnswer_ne hread hfits)
      exact (hroom.symm.trans hanswers.symm).trans hturn
    · refine iff_of_false (fun h => htoken ?_) fun h => htoken ?_
      · exact Roster.isTokenText_of_token hlower' _ h
      · exact Roster.isTokenText_of_token hlower' _ h

/-! ### The name of Action Items -/

section Name

variable (env : Env) (db : Db) (room : Uuid) (presence : List ParticipantPresence)

/-- The name that was recorded last for Action Items: that of its connection, or
else that of its last event. -/
def itemsName : Option String :=
  (recorded (eventsAfter db room 0) presence actionItemsAgentId).map (·.displayName)

/-- The name recorded for Action Items, if there is one, is written like the
built-in one in tokens. -/
def ItemsNameKept : Prop :=
  ∀ name ∈ itemsName db room presence, normalizedParticipantName env name =
    normalizedParticipantName env actionItemsAgentDisplayName

/-- The recorded name and the built-in one differ in tokens by digits of the id
of Action Items at the end of one of them. -/
def ItemsNameTagged : Prop :=
  ∃ name ∈ itemsName db room presence,
    Tagged env actionItemsAgentId (normalizedParticipantName env name)
        (normalizedParticipantName env actionItemsAgentDisplayName) ∨
      Tagged env actionItemsAgentId (normalizedParticipantName env actionItemsAgentDisplayName)
        (normalizedParticipantName env name)

/-- Action Items as the room shows it. -/
def itemsShown : RoomParticipant :=
  (recorded (eventsAfter db room 0) presence actionItemsAgentId).getD actionItemsParticipant

variable {env db room presence}

theorem at?_itemsShown :
    at? RoomParticipant.id (snapshotRoster db room presence).participants actionItemsAgentId =
      some (itemsShown db room presence) := by
  refine (at?_participantSnapshot ..).trans ?_
  rw [if_neg (by decide), itemsShown]
  cases recorded (eventsAfter db room 0) presence actionItemsAgentId <;> rfl

theorem itemsShown_mem :
    itemsShown db room presence ∈ (snapshotRoster db room presence).participants :=
  (mem_of_at? at?_itemsShown).1

theorem itemsShown_id : (itemsShown db room presence).id = actionItemsAgentId :=
  (mem_of_at? at?_itemsShown).2

theorem mem_tokenPairs_of_token (hlower : env.Lowercases) {roster : Roster} {p : RoomParticipant}
    {id : Uuid} {t : String} (hp : p ∈ roster.participants) (hid : p.id = id)
    (h : roster.token env id = some t) : (p, t) ∈ tokenPairs env roster.participants := by
  obtain ⟨q, hq, hqid⟩ := (roster.token_iff hlower).mp h
  obtain rfl := roster.eq_of_id (mem_of_mem_tokenPairs hlower roster hq) hp (hqid.trans hid.symm)
  exact hq

theorem not_pinned_of_items {p : RoomParticipant} (h : p.id = actionItemsAgentId) :
    pinnedCodex p = false := by
  have hne : actionItemsAgentId ≠ codexAgentId := by decide
  simp [pinnedCodex, h, hne]

/-- The name with which the room shows Action Items is the recorded one, or the
built-in one. -/
theorem itemsShown_name :
    (itemsShown db room presence).displayName =
      (itemsName db room presence).getD actionItemsAgentDisplayName := by
  rw [itemsShown, itemsName]
  cases recorded (eventsAfter db room 0) presence actionItemsAgentId <;> rfl

theorem builtInRoster_eq_map : (builtInRoster db room presence).participants =
    (snapshotRoster db room presence).participants.map fun q =>
      if q.id = actionItemsAgentId then actionItemsParticipant else q := by
  refine if_pos (List.any_eq_true.mpr ⟨_, itemsShown_mem, ?_⟩)
  simp [itemsShown_id, actionItemsParticipant]

variable (db room presence) in
/-- A participant with the built-in entry in place of Action Items as it is shown. -/
def builtInItems (q : RoomParticipant) : RoomParticipant :=
  if q = itemsShown db room presence then actionItemsParticipant else q

/-- What the two entries of Action Items have in common, the replacement keeps. -/
theorem builtInItems_same {β : Type} {f : RoomParticipant → β}
    (h : f actionItemsParticipant = f (itemsShown db room presence)) (q : RoomParticipant) :
    f (builtInItems db room presence q) = f q := by
  unfold builtInItems
  split_ifs with hq
  · rw [hq, h]
  · rfl

theorem builtInRoster_eq_items : (builtInRoster db room presence).participants =
    (snapshotRoster db room presence).participants.map (builtInItems db room presence) := by
  rw [builtInRoster_eq_map]
  refine List.map_congr_left fun q hq => ?_
  have hiff : q.id = actionItemsAgentId ↔ q = itemsShown db room presence := by
    constructor
    · exact fun hid => Roster.eq_of_id _ hq itemsShown_mem (hid.trans itemsShown_id.symm)
    · rintro rfl
      exact itemsShown_id
  simp only [builtInItems, hiff]

theorem slug_itemsShown (h : ItemsNameKept env db room presence) :
    slugOf env actionItemsParticipant = slugOf env (itemsShown db room presence) := by
  unfold slugOf
  rw [itemsShown_name]
  cases hname : itemsName db room presence with
  | none => rfl
  | some name => exact (h name hname).symm

theorem tokensKept_of_name (h : ItemsNameKept env db room presence) :
    TokensKept env db room presence := by
  have hid : ∀ q, (builtInItems db room presence q).id = q.id :=
    builtInItems_same itemsShown_id.symm
  have hpinned : ∀ q, pinnedCodex (builtInItems db room presence q) = pinnedCodex q := by
    refine builtInItems_same ?_
    rw [not_pinned_of_items itemsShown_id, not_pinned_of_items rfl]
  have htokens : participantMentionTokens env
      ((snapshotRoster db room presence).participants.map (builtInItems db room presence)) = _ :=
    participantMentionTokens_map hid (builtInItems_same (slug_itemsShown h)) hpinned
  intro id
  unfold Roster.token knownTokens
  rw [builtInRoster_eq_items, htokens, List.map_map]
  congr 2
  exact (List.map_congr_left fun q _ => hid q).symm

/-- The token of Action Items tells its name, but for digits of the id. -/
theorem name_of_tokensKept (hlower : env.Lowercases) (h : TokensKept env db room presence) :
    ItemsNameKept env db room presence ∨ ItemsNameTagged env db room presence := by
  obtain ⟨t, ht⟩ : ∃ t, (snapshotRoster db room presence).token env actionItemsAgentId = some t :=
    itemsShown_id ▸ Roster.exists_token _ itemsShown_mem
  have hbuiltIn : actionItemsParticipant ∈ (builtInRoster db room presence).participants := by
    rw [builtInRoster_eq_map]
    exact List.mem_map.mpr ⟨_, itemsShown_mem, if_pos itemsShown_id⟩
  have hshown := mem_tokenPairs_of_token hlower itemsShown_mem itemsShown_id ht
  have hitems := mem_tokenPairs_of_token hlower hbuiltIn rfl (h actionItemsAgentId ▸ ht)
  have hslugs := slug_of_same_token hlower hshown hitems itemsShown_id.symm
    (not_pinned_of_items itemsShown_id) (not_pinned_of_items rfl)
  rw [itemsShown_id, slugOf, itemsShown_name] at hslugs
  cases hname : itemsName db room presence with
  | none => exact .inl fun name hmem => by simp [hname] at hmem
  | some name =>
      rw [hname, Option.getD_some] at hslugs
      rcases hslugs with heq | htagged
      · refine .inl fun other hother => ?_
        rw [hname, Option.mem_some_iff] at hother
        exact hother ▸ heq
      · exact .inr ⟨name, hname, htagged⟩

end Name

/-- After every run, the two checks agree on the turns of a room if the name
recorded for Action Items is written like the built-in one. If the names do not
differ by digits of the id only, they agree for no other reason, except that the
room is too large for a turn. -/
theorem mentions_agree_iff (env : Env) (formats : Formats) (hlower : env.Lowercases)
    (hinstant : formats.dateTime "1970-01-01T00:00:00Z" = true) (ops : List Op) (room : Uuid)
    (presence : List ParticipantPresence) :
    (ItemsNameKept env ((gateway (env.underProfile formats)).run ops).db room presence →
      MentionsAgree (env.underProfile formats) ((gateway (env.underProfile formats)).run ops).db
        room presence) ∧
    (¬ ItemsNameTagged env ((gateway (env.underProfile formats)).run ops).db room presence →
      (MentionsAgree (env.underProfile formats) ((gateway (env.underProfile formats)).run ops).db
          room presence ↔
        conversationRoster (latestByActor ((gateway (env.underProfile formats)).run ops).db room)
            presence = .error .contextTooLarge ∨
          ItemsNameKept env ((gateway (env.underProfile formats)).run ops).db room presence)) := by
  have hlog : ∀ e ∈ ((gateway (env.underProfile formats)).run ops).db.roomEvents.rows,
      e.roomId = room → 0 < e.sequence := fun e he _ => (gateway_numbered ops).pos he
  generalize ((gateway (env.underProfile formats)).run ops).db = db at hlog ⊢
  have hkept : ItemsNameKept env db room presence →
      TokensKept (env.underProfile formats) db room presence := fun h => tokensKept_of_name h
  refine ⟨fun h => agree_of_tokensKept hlower hlog (.inr (hkept h)), fun hclear => ?_⟩
  refine ⟨fun hagree => ?_, fun h => agree_of_tokensKept hlower hlog (h.imp_right hkept)⟩
  by_cases hfits : conversationRoster (latestByActor db room) presence = .error .contextTooLarge
  · exact .inl hfits
  · have htokens := tokensKept_of_agree hlower hinstant hlog hfits hagree
    exact .inr ((name_of_tokensKept (hlower.underProfile formats) htokens).resolve_right hclear)

def askItems : ChatSend where
  id := "ask"
  contractVersion := "n2n.room.v1"
  requestId := 5
  roomId := 1
  occurredAt := 0
  text := "@action-items\n- ship it"
  mentions := [.participant actionItemsAgentId "action-items"]
  delivery := .room

/-- Maya asks Action Items in the room. -/
def askedItems : List Op :=
  [.process sampleActor (.chatSend askItems) [] true (seconds 100) fun n => .ofNat (20 + n)]

/-- Two people are there, and Action Items under a name of other letters. -/
def mixedPresence : List ParticipantPresence :=
  [⟨7, .human, "Maya Chen", 1⟩, ⟨8, .human, "Noor", 2⟩,
    ⟨actionItemsAgentId, .agent, "ACTION items", 1⟩]

/-- They agree where Action Items has answered and is connected. -/
theorem mentions_agree_sample :
    ((gateway (sampleEnv.underProfile sampleFormats)).run askedItems).db.roomEvents.rows.any
        (·.actorId = actionItemsAgentId) = true ∧
      MentionsAgree (sampleEnv.underProfile sampleFormats)
        ((gateway (sampleEnv.underProfile sampleFormats)).run askedItems).db 1 mixedPresence := by
  refine ⟨by decide +kernel, (mentions_agree_iff sampleEnv sampleFormats sampleEnv_lowercases
    (by decide) askedItems 1 mixedPresence).1 ?_⟩
  unfold ItemsNameKept
  decide +kernel

/-- Someone is connected under the id of Action Items and another name. The turn
that mentions Action Items is accepted, the message is not. -/
theorem renamed_action_items :
    ¬ MentionsAgree (sampleEnv.underProfile sampleFormats)
        ((gateway (sampleEnv.underProfile sampleFormats)).run []).db 1
        [⟨actionItemsAgentId, .agent, "Bot", 1⟩] := by
  intro hagree
  obtain ⟨mentions, hread, hsame⟩ := hagree (turnMentioning 1 actionItemsAgentId "action-items") _
    (validateTurnRequest_mentioning (by decide) (by decide) (by decide +kernel)) rfl
  obtain rfl := Option.some.inj (hread.symm.trans (ofJsonList_mentioning _ _ _))
  have hanswers : turnMentionsAnswer (sampleEnv.underProfile sampleFormats) {} 1
        (turnMentioning 1 actionItemsAgentId "action-items")["mentions"]
        [⟨actionItemsAgentId, .agent, "Bot", 1⟩] = .ok () ∧
      validateMentions (sampleEnv.underProfile sampleFormats)
        (participantSnapshot {} 1 [⟨actionItemsAgentId, .agent, "Bot", 1⟩] true)
        [.participant codexAgentId "codex-agent",
          .participant actionItemsAgentId "action-items"] ≠ .ok () := by
    decide +kernel
  obtain ⟨hturn, hroom⟩ := hanswers
  exact hroom ((hsame (hturn ▸ by simp)).mp hturn)

end RoomGateway
