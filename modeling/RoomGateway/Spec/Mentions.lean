import RoomGateway.Lib.Loops
import RoomGateway.Model.Roster

/-!
The check of a message's mentions. It passes exactly if each of them is known
by its token and none is made twice.
-/

namespace RoomGateway

variable {env : Env}

/-! ### Checking mentions -/

/-- Whom a mention names. -/
def ChatMention.target : ChatMention → Uuid ⊕ ChatMentionAlias
  | .participant id _ => .inl id
  | .alias name => .inr name

def mentioned (seen : List Uuid × List ChatMentionAlias) : Uuid ⊕ ChatMentionAlias → Prop
  | .inl id => id ∈ seen.1
  | .inr name => name ∈ seen.2

/-- The mention's target is known, under the token that the mention gives. -/
def ChatMention.Known (known : List (Uuid × String)) : ChatMention → Prop
  | .participant id token => known.lookup id = some token
  | .alias _ => True

/-- What is mentioned once a mention was checked. -/
def noteMention (seen : List Uuid × List ChatMentionAlias) :
    ChatMention → List Uuid × List ChatMentionAlias
  | .participant id _ => (id :: seen.1, seen.2)
  | .alias name => (seen.1, name :: seen.2)

theorem mentioned_noteMention {seen : List Uuid × List ChatMentionAlias} {mention : ChatMention}
    {x : Uuid ⊕ ChatMentionAlias} :
    mentioned (noteMention seen mention) x ↔ x = mention.target ∨ mentioned seen x := by
  cases mention <;> cases x <;> simp [mentioned, noteMention, ChatMention.target]

theorem checkMention_ok_iff {known : List (Uuid × String)}
    {seen next : List Uuid × List ChatMentionAlias} {mention : ChatMention} :
    checkMention known seen mention = .ok next ↔
      mention.Known known ∧ ¬ mentioned seen mention.target ∧ next = noteMention seen mention := by
  cases mention with
  | participant id token =>
      unfold checkMention
      cases hknown : known.lookup id with
      | none => simp [ChatMention.Known, hknown]
      | some canonicalToken =>
          by_cases hseen : id ∈ seen.1
          · simp [hknown, mentioned, ChatMention.target, hseen]
          · by_cases htoken : token = canonicalToken
            · subst htoken
              simp [ChatMention.Known, hknown, mentioned, ChatMention.target, hseen, noteMention,
                eq_comm]
            · simp [ChatMention.Known, hknown, htoken, hseen, Ne.symm htoken]
  | «alias» name =>
      by_cases hseen : name ∈ seen.2 <;>
        simp [checkMention, ChatMention.Known, mentioned, ChatMention.target, hseen, noteMention,
          eq_comm]

/-- All mentions pass if each is known, new, and made once. -/
theorem checkMentions_ok_iff (known : List (Uuid × String)) (mentions : List ChatMention)
    (seen : List Uuid × List ChatMentionAlias) :
    (∃ out, mentions.foldlM (checkMention known) seen = .ok out) ↔
      (∀ m ∈ mentions, m.Known known ∧ ¬ mentioned seen m.target) ∧
        (mentions.map ChatMention.target).Nodup := by
  induction mentions generalizing seen with
  | nil => simp [pure, Except.pure]
  | cons mention mentions ih =>
      rw [List.foldlM_cons, List.forall_mem_cons, List.map_cons, List.nodup_cons]
      constructor
      · rintro ⟨out, h⟩
        obtain ⟨next, hfirst, hrest⟩ := Loops.bind_ok.mp h
        obtain ⟨hknown, hnew, rfl⟩ := checkMention_ok_iff.mp hfirst
        obtain ⟨hall, hnodup⟩ := (ih _).mp ⟨out, hrest⟩
        simp only [mentioned_noteMention, not_or] at hall
        refine ⟨⟨⟨hknown, hnew⟩, fun m hm => ⟨(hall m hm).1, (hall m hm).2.2⟩⟩, ?_, hnodup⟩
        intro hmem
        obtain ⟨m, hm, heq⟩ := List.mem_map.mp hmem
        exact (hall m hm).2.1 heq
      · rintro ⟨⟨⟨hknown, hnew⟩, hall⟩, hfresh, hnodup⟩
        have hrest : ∃ out, mentions.foldlM (checkMention known) (noteMention seen mention) =
            .ok out := by
          refine (ih _).mpr ⟨fun m hm => ⟨(hall m hm).1, ?_⟩, hnodup⟩
          rw [mentioned_noteMention, not_or]
          exact ⟨fun heq => hfresh (heq ▸ List.mem_map_of_mem hm), (hall m hm).2⟩
        obtain ⟨out, hout⟩ := hrest
        exact ⟨out, Loops.bind_ok.mpr ⟨_, checkMention_ok_iff.mpr ⟨hknown, hnew, rfl⟩, hout⟩⟩

theorem not_mentioned_nil {x : Uuid ⊕ ChatMentionAlias} : ¬ mentioned ([], []) x := by
  cases x <;> simp [mentioned]

theorem forall_known_iff {known : List (Uuid × String)} {mentions : List ChatMention} :
    (∀ m ∈ mentions, m.Known known) ↔
      ∀ id token, .participant id token ∈ mentions → known.lookup id = some token := by
  constructor
  · intro h id token hmem
    exact h _ hmem
  · intro h m hm
    cases m with
    | participant id token => exact h id token hm
    | «alias» name => trivial

/-- The participants that a list of participants knows, by their tokens. -/
def knownTokens (env : Env) (participants : List RoomParticipant) : List (Uuid × String) :=
  (participants.map (·.id)).zip (participantMentionTokens env participants)

theorem validateMentions_ok_iff {participants : List RoomParticipant}
    {mentions : List ChatMention} :
    validateMentions env participants mentions = .ok () ↔
      (∀ id token, .participant id token ∈ mentions →
        (knownTokens env participants).lookup id = some token) ∧
        (mentions.map ChatMention.target).Nodup := by
  have hchecked := checkMentions_ok_iff (knownTokens env participants) mentions ([], [])
  simp only [not_mentioned_nil, not_false_eq_true, and_true, forall_known_iff] at hchecked
  refine Iff.trans ?_ hchecked
  change (mentions.foldlM (checkMention (knownTokens env participants)) ([], [])).map _ = _ ↔ _
  cases mentions.foldlM (checkMention (knownTokens env participants)) ([], []) with
  | error e => simp [Except.map]
  | ok out => simp [Except.map]

/-! ### Rosters -/

/-- The participants of a room, each once. -/
structure Roster where
  participants : List RoomParticipant
  distinct : (participants.map (·.id)).Nodup

/-- The token under which a participant of the roster is mentioned. -/
def Roster.token (env : Env) (roster : Roster) (id : Uuid) : Option String :=
  (knownTokens env roster.participants).lookup id

/-- The mentions pass: every direct target is in the roster under its token, and
nobody and no alias is mentioned twice. -/
def MentionsCanonical (env : Env) (roster : Roster) (mentions : List ChatMention) : Prop :=
  (∀ id token, .participant id token ∈ mentions → roster.token env id = some token) ∧
    (mentions.map ChatMention.target).Nodup

theorem Roster.validateMentions_iff (roster : Roster) {mentions : List ChatMention} :
    validateMentions env roster.participants mentions = .ok () ↔
      MentionsCanonical env roster mentions :=
  validateMentions_ok_iff

end RoomGateway
