import RoomGateway.Lib.Loops
import RoomGateway.Spec.Acceptance

/-!
The settings of the turns of one generation. A turn that names none takes those
of the turn before it, which its conversation remembers; the first turn of a
generation takes the policy's.
-/

namespace RoomGateway

open Table

variable {env : Env}

namespace Reservation

/-- The generation a turn runs in. -/
def conversation (r : Reservation) : Json := r.accepted["conversationId"]

def settings (r : Reservation) : Json := r.accepted["selectedSettings"]

/-- The turns have the same model and the same effort. -/
def SamePair (r : Reservation) (selected : Json) : Prop :=
  r.settings["model"] = selected["model"] ∧
    r.settings["reasoningEffort"] = selected["reasoningEffort"]

end Reservation

/-- The last turn of a generation, if there is one. -/
def lastTurn (reservations : List Reservation) (conversation : Json) : Option Reservation :=
  (reservations.filter (·.conversation = conversation)).getLast?

/-- What a turn selects, given the turns accepted before it. -/
structure Selected (earlier : List Reservation) (r : Reservation) : Prop where
  requested : ∀ settings, r.request.get? "settings" = some settings → r.SamePair settings
  inherited : r.request.get? "settings" = none → ∀ previous,
    lastTurn earlier r.conversation = some previous → r.SamePair previous.settings
  default : r.request.get? "settings" = none → lastTurn earlier r.conversation = none →
    r.settings["model"] = Json.str r.policy.model ∧
      r.settings["reasoningEffort"] = Json.str r.policy.reasoningEffort
  catalog : r.settings["catalogRevision"] = Json.str r.policy.catalogRevision
  allowed : r.policy.allows r.settings["model"] r.settings["reasoningEffort"] = true

/-- Every turn of a history selects as it should. -/
def AllSelected (history : List Reservation) : Prop :=
  ∀ earlier r later, history = earlier ++ r :: later → Selected earlier r

/-! ### One turn -/

theorem validateTurnRequest_eq {request intent : Json}
    (h : validateTurnRequest env request = .ok intent) : intent = request := by
  unfold validateTurnRequest at h
  obtain ⟨_, -, h⟩ := Loops.bind_ok.mp h
  dsimp only at h
  split_ifs at h
  · cases h
  · split at h
    · cases h
    · obtain ⟨out, -, h⟩ := Loops.bind_ok.mp h
      split_ifs at h
      cases h
      rfl

theorem resolveSettings_ok {policy : ConversationPolicy} {settings : Option Json} {selected : Json}
    (h : policy.resolveSettings settings = .ok selected) :
    selected = settings.getD (.obj [("model", policy.model),
      ("reasoningEffort", policy.reasoningEffort), ("catalogRevision", policy.catalogRevision)]) ∧
    selected["catalogRevision"] = Json.str policy.catalogRevision ∧
    policy.allows selected["model"] selected["reasoningEffort"] = true := by
  unfold ConversationPolicy.resolveSettings at h
  dsimp only at h
  split_ifs at h with hinvalid
  cases h
  simpa using hinvalid

theorem turnSettings_ok {policy : ConversationPolicy} {request : Json} {mode : String}
    {current : Option AgentConversation} {catalog : Option CatalogQuery} {settings : Json}
    (h : turnSettings env policy request mode current catalog = .ok settings) :
    policy.resolveSettings ((request.get? "settings").or
      (if mode = "continue" then sharedSettings policy current else none)) = .ok settings := by
  unfold turnSettings at h
  obtain ⟨resolved, hresolved, h⟩ := Loops.bind_ok.mp h
  cases catalog with
  | none =>
      cases h
      exact hresolved
  | some catalog =>
      obtain ⟨_, -, h⟩ := Loops.bind_ok.mp h
      cases h
      exact hresolved

/-! ### Runs -/

/-- Every conversation remembers the settings of its last turn, and every turn has
a conversation. -/
structure TurnsRemembered (db : Db) (history : List Reservation) : Prop where
  stored : ∀ c ∈ db.agentConversations.rows, ∃ r,
    lastTurn history (Json.str c.conversationId.text) = some r ∧ r.settings = c.selectedSettings
  known : ∀ r ∈ history, ∃ c ∈ db.agentConversations.rows,
    r.conversation = Json.str c.conversationId.text

theorem lastTurn_append (history : List Reservation) (r : Reservation) (conversation : Json) :
    lastTurn (history ++ [r]) conversation =
      if r.conversation = conversation then some r else lastTurn history conversation := by
  unfold lastTurn
  rw [List.filter_append]
  split_ifs with h
  · simp [h]
  · simp [h]

theorem AllSelected.append {history : List Reservation} {r : Reservation} (h : AllSelected history)
    (hr : Selected history r) : AllSelected (history ++ [r]) := by
  intro earlier x later heq
  rcases List.eq_nil_or_concat later with rfl | ⟨later, last, rfl⟩
  · obtain ⟨rfl, hx⟩ := List.append_inj' heq rfl
    cases hx
    exact hr
  · rw [List.concat_eq_append, ← List.cons_append, ← List.append_assoc] at heq
    exact h earlier x later (List.append_inj' heq rfl).1

/-- The other conversations after a reservation keep their settings. -/
theorem BoundConversation.settingsKept {db : Db} {policy : ConversationPolicy} {room taskId : Uuid}
    {base : Int} {settings : Json} {c : AgentConversation} {rows : List AgentConversation}
    (h : BoundConversation db policy room taskId base settings c rows) :
    ∀ y ∈ rows, y = c ∨ ∃ x ∈ db.agentConversations.rows, x.conversationId ≠ c.conversationId ∧
      SettingsKept x y := by
  intro y hy
  cases h with
  | @continued c₀ now current _ _ eq rows_eq =>
      have hc₀ := (currentConversation_some current).1
      have hid : c.conversationId = c₀.conversationId := by rw [eq]
      rw [rows_eq, mem_put hc₀ (by simp)] at hy
      refine hy.imp id fun ⟨hy, hne⟩ => ⟨y, hy, ?_, .refl y⟩
      rw [hid]
      simpa [conversationIs] using hne
  | opened _ _ _ _ unused rows_eq =>
      rw [rows_eq, List.mem_append, mem_supersededRows, List.mem_singleton] at hy
      rcases hy with (⟨x, hx, rfl⟩ | ⟨hy, -⟩) | rfl
      · have hx := (currentConversation_some hx).1
        exact .inr ⟨x, hx, unused x hx, ⟨rfl, rfl, rfl, rfl⟩, rfl⟩
      · exact .inr ⟨y, hy, unused y hy, .refl y⟩
      · exact .inl rfl

theorem BoundConversation.own_settings {db : Db} {policy : ConversationPolicy}
    {room taskId : Uuid} {base : Int} {settings : Json} {c : AgentConversation}
    {rows : List AgentConversation}
    (h : BoundConversation db policy room taskId base settings c rows) :
    c.selectedSettings = settings := by
  cases h with
  | continued _ _ _ eq _ => rw [eq]
  | opened _ _ eq _ _ _ => rw [eq, openedConversation]

section Accepted

variable {db db' : Db} {policy : ConversationPolicy} {actor : Actor} {request : Json}
  {requestedExpiry : Time} {catalog : Option CatalogQuery} {clock : Nat → Time}
  {turn : TurnRequest} {t : ConversationTask} {c : AgentConversation} {prompt : RoomEvent}
  {base : Int} {items : List ContextItem} {context : Json} {history : List Reservation}

theorem ReservedTurn.accepted_conversation
    (r : ReservedTurn env db db' policy actor turn t c prompt base items context) :
    t.acceptedTurn["conversationId"] = Json.str c.conversationId.text := by
  obtain ⟨target, _, hid, -, -, haccepted⟩ := r.input
  rw [haccepted, (ownsTask_iff.mp r.owns).1, hid]
  simp [acceptedTurn]

theorem ReservedTurn.accepted_settings
    (r : ReservedTurn env db db' policy actor turn t c prompt base items context) :
    t.acceptedTurn["selectedSettings"] = t.selectedSettings := by
  obtain ⟨_, _, -, -, -, haccepted⟩ := r.input
  rw [haccepted]
  simp [acceptedTurn]

theorem TurnsRemembered.accepted (h : TurnsRemembered db history)
    (r : ReservedTurn env db db' policy actor turn t c prompt base items context)
    {entry : Reservation} (hentry : entry.accepted = t.acceptedTurn) :
    TurnsRemembered db' (history ++ [entry]) := by
  have hconversation : entry.conversation = Json.str c.conversationId.text := by
    rw [Reservation.conversation, hentry, r.accepted_conversation]
  refine ⟨fun y hy => ?_, fun x hx => ?_⟩
  · rcases r.bound.settingsKept y hy with rfl | ⟨x, hx, hne, hkept⟩
    · refine ⟨entry, ?_, ?_⟩
      · rw [lastTurn_append, if_pos hconversation]
      · rw [Reservation.settings, hentry, r.accepted_settings, r.bound.own_settings]
    · obtain ⟨q, hq, hsettings⟩ := h.stored x hx
      refine ⟨q, ?_, hsettings.trans hkept.settings.symm⟩
      rw [hkept.same.conversationId, lastTurn_append, if_neg, hq]
      rw [hconversation]
      exact fun heq => hne (Uuid.text_injective (Json.str.inj heq)).symm
  · rcases List.mem_append.mp hx with hx | hx
    · obtain ⟨y, hy, hid⟩ := h.known x hx
      obtain ⟨y', hy', hsame⟩ := r.bound.rebound.kept y hy
      exact ⟨y', hy', hid.trans (by rw [hsame.conversationId])⟩
    · rw [List.mem_singleton.mp hx]
      exact ⟨c, r.bound.rebound.mem, hconversation⟩

/-- A turn of a generation that is not in use yet is its first. -/
theorem TurnsRemembered.lastTurn_none (h : TurnsRemembered db history) {conversation : Uuid}
    (hunused : ∀ x ∈ db.agentConversations.rows, x.conversationId ≠ conversation) :
    lastTurn history (Json.str conversation.text) = none := by
  rw [lastTurn, List.getLast?_eq_none_iff, List.filter_eq_nil_iff]
  intro r hr hid
  obtain ⟨x, hx, hknown⟩ := h.known r hr
  have heq := (hknown.symm.trans (of_decide_eq_true hid))
  exact hunused x hx (Uuid.text_injective (Json.str.inj heq))

theorem TurnsRemembered.selected (h : TurnsRemembered db history)
    (hadmitted : Admitted env policy actor request requestedExpiry clock turn)
    (r : ReservedTurn env db db' policy actor turn t c prompt base items context)
    (hresolved : Resolved env db policy turn catalog c t.selectedSettings) :
    Selected history ⟨policy, actor, request, requestedExpiry, t.acceptedTurn⟩ := by
  have hrequest := validateTurnRequest_eq hadmitted.valid
  obtain ⟨hselected, hcatalog, hallowed⟩ := resolveSettings_ok (turnSettings_ok hresolved.settings)
  have hcontinued := hresolved.continued
  have hopened := hresolved.opened
  rw [hrequest] at hselected hcontinued hopened
  have hsettings : Reservation.settings ⟨policy, actor, request, requestedExpiry,
      t.acceptedTurn⟩ = t.selectedSettings := r.accepted_settings
  have hconversation : Reservation.conversation ⟨policy, actor, request, requestedExpiry,
      t.acceptedTurn⟩ = Json.str c.conversationId.text := r.accepted_conversation
  refine ⟨fun settings hrequested => ?_, fun hnone previous hprevious => ?_, fun hnone hfirst => ?_,
    by rw [hsettings]; exact hcatalog, by rw [hsettings]; exact hallowed⟩
  · dsimp only at hrequested
    rw [hrequested] at hselected
    rw [Reservation.SamePair, hsettings, hselected]
    exact ⟨rfl, rfl⟩
  · dsimp only at hnone
    rw [hconversation] at hprevious
    rw [hnone, Option.none_or] at hselected
    by_cases hmode : turnMode request (currentConversation db turn.room) = "continue"
    · obtain ⟨x, hx, hid⟩ := hcontinued hmode
      obtain ⟨q, hq, hstored⟩ := h.stored x (currentConversation_some hx).1
      rw [hid] at hq
      obtain rfl := Option.some.inj (hq.symm.trans hprevious)
      rw [if_pos hmode, hx, sharedSettings, Option.map_some, Option.getD_some] at hselected
      rw [Reservation.SamePair, hsettings, hselected, hstored]
      simp
    · rw [h.lastTurn_none (hopened hmode)] at hprevious
      cases hprevious
  · dsimp only at hnone
    rw [hconversation] at hfirst
    rw [hnone, Option.none_or] at hselected
    by_cases hmode : turnMode request (currentConversation db turn.room) = "continue"
    · obtain ⟨x, hx, hid⟩ := hcontinued hmode
      obtain ⟨q, hq, -⟩ := h.stored x (currentConversation_some hx).1
      rw [hid, hfirst] at hq
      cases hq
    · rw [if_neg hmode, Option.getD_none] at hselected
      rw [hsettings, hselected]
      simp

end Accepted

theorem TurnsRemembered.carried {s : Sys} {op : Op} {db' : Db} {history : List Reservation}
    (h : TurnsRemembered s.db history) (hcarried : Carried s op db') :
    TurnsRemembered db' history := by
  refine ⟨fun y hy => ?_, fun r hr => ?_⟩
  · obtain ⟨x, hx, hkept⟩ := exists_of_forall₂ hcarried.conversations hy
    obtain ⟨r, hr, hsettings⟩ := h.stored x hx
    exact ⟨r, by rw [hkept.same.conversationId, hr], hsettings.trans hkept.settings.symm⟩
  · obtain ⟨x, hx, hid⟩ := h.known r hr
    obtain ⟨y, hy, hkept⟩ := exists_of_forall₂ hcarried.conversations.flip hx
    exact ⟨y, hy, hid.trans (by rw [SettingsKept.same hkept |>.conversationId])⟩

/-- In every run, every accepted turn has the settings it asked for, or else those
of the turn before it in its generation, or else the policy's defaults; all under
the policy in force. -/
theorem settings_sticky (env : Env) (ops : List Op) :
    AllSelected ((gateway env).collect (acceptedReservations env) (gateway env).init ops) := by
  have hboth : TurnsRemembered ((gateway env).run ops).db
      ((gateway env).collect (acceptedReservations env) (gateway env).init ops) ∧
      AllSelected ((gateway env).collect (acceptedReservations env) (gateway env).init ops) := by
    refine Machine.collect_invariant
      (P := fun (s : Sys) history => TurnsRemembered s.db history ∧ AllSelected history)
      ⟨⟨by simp [gateway], by simp⟩, by simp [AllSelected]⟩ (fun s history op h => ?_) ops
    cases gateway_acceptance env s op with
    | accepted _ entry admitted reserved resolved =>
        rw [entry]
        exact ⟨h.1.accepted reserved rfl, h.2.append (h.1.selected admitted reserved resolved)⟩
    | other entry carried =>
        rw [entry, List.append_nil]
        exact ⟨h.1.carried carried, h.2⟩
  exact hboth.2

end RoomGateway
