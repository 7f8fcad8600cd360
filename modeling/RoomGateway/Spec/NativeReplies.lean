import RoomGateway.Spec.Disclosure
import RoomGateway.Spec.ProfileContract

/-!
The agent's replies: what the gateway stores about them, and where they lie in
the log. The reply of a turn comes after the turn's trigger and before the
trigger of the next turn of its conversation.
-/

namespace RoomGateway

open Schema

variable {env : Env} {formats : Formats} {db db' : Db}

/-! ### Stored replies -/

/-- The reply of a completed task, and what is stored with the task about it. -/
structure StoredReply (env : Env) (t : ConversationTask) (e : RoomEvent) (text : String) :
    Prop where
  eventId : t.replyEventId = some e.eventId
  room : e.roomId = t.roomId
  message : e.eventType = .messageCreated
  author : e.actorId = codexAgentId ∧ e.actorRole = .agent
  payload : e.payload = .obj [("text", text), ("delivery", "room"), ("mentions", .arr []),
    ("audienceIds", .arr [])]
  nonempty : text ≠ ""
  short : text.utf8ByteSize ≤ 65536
  ack : t.receiptAcknowledgement = some (acknowledgement env t e text)
  valid : validateProfileValue env .ack (acknowledgement env t e text) = .ok ()

theorem StoredReply.continues {t t' : ConversationTask} {e : RoomEvent} {text : String}
    (hc : Continues t t') (hcompleted : t.state = .completed) (h : StoredReply env t e text) :
    StoredReply env t' e text := by
  rw [hc.completed hcompleted] at h
  exact ⟨h.1, h.2, h.3, h.4, h.5, h.6, h.7, h.8, h.9⟩

/-- A completing update leaves its reply stored. -/
theorem CompletedTurn.storedReply {t : ConversationTask} {c : AgentConversation}
    {lease updateId : Uuid} {ordinal : Int} {request : Json} {now : Time} {eventId : Uuid}
    {reply : RoomEvent} {text : String}
    (h : CompletedTurn (env.underProfile formats) db db' t c lease updateId ordinal request now
      eventId reply text) :
    StoredReply (env.underProfile formats)
      { completedTask (env.underProfile formats) t request["data"] reply text now with
        lastUpdateOrdinal := ordinal } reply text := by
  obtain ⟨policy, -, hchecked⟩ := h.checked
  have hrow := h.appended.row
  refine ⟨rfl, ?_, ?_, ?_, ?_, ?_, hchecked.short, rfl, hchecked.ack⟩
  · rw [hrow]
    rfl
  · rw [hrow]
    rfl
  · rw [hrow]
    exact ⟨rfl, rfl⟩
  · rw [hrow, ← h.text_eq]
    rfl
  · -- the contract does not let an empty text pass
    have hresult : replySchema formats request["data"] = true :=
      (validateProfileValue_ok.mp hchecked.result).1
    have htext : textBetween 1 65536 request["data"]["assistantText"] = true :=
      record_field hresult (by simp) (by simp)
    rw [h.text_eq] at htext
    rintro rfl
    simp at htext

/-- Every completed task has its reply stored. -/
def RepliesStored (env : Env) (db : Db) : Prop :=
  ∀ t ∈ db.conversationTasks.rows, t.state = .completed →
    ∃ e ∈ db.roomEvents.rows, ∃ text, StoredReply env t e text

namespace RepliesStored

theorem init : RepliesStored env {} := by simp [RepliesStored]

/-- What was completed before keeps its reply. -/
theorem kept (h : RepliesStored env db) (hlog : LogExtends db db') {x y : ConversationTask}
    (hy : y ∈ db.conversationTasks.rows) (hstate : y.state = .completed) (hc : Continues y x) :
    ∃ e ∈ db'.roomEvents.rows, ∃ text, StoredReply env x e text := by
  obtain ⟨e, he, text, hstored⟩ := h y hy hstate
  exact ⟨e, hlog.mem he, text, hstored.continues hc hstate⟩

theorem step {update : Prop} (h : RepliesStored (env.underProfile formats) db)
    (hlog : LogExtends db db') (hstep : ReplyStep (env.underProfile formats) update db db') :
    RepliesStored (env.underProfile formats) db' := by
  intro x hx hstate
  cases hstep with
  | same tasks => exact h.kept hlog (tasks ▸ hx) hstate (.refl x)
  | added a =>
      rw [a.tasks, List.mem_append, List.mem_singleton] at hx
      rcases hx with hx | rfl
      · exact h.kept hlog hx hstate (.refl x)
      · exact absurd hstate a.uncompleted
  | kept k =>
      obtain ⟨y, hy, hcompleted, hc⟩ := k.completed_before hx hstate
      exact h.kept hlog hy hcompleted hc
  | @completed t c lease updateId ordinal request now eventId reply text _ hturn =>
      rcases hturn.change.mem_tasks.mp hx with rfl | ⟨hx, -⟩
      · refine ⟨reply, ?_, text, hturn.storedReply⟩
        rw [hturn.appended.rows]
        exact List.mem_append_right _ List.mem_cons_self
      · exact h.kept hlog hx hstate (.refl x)

end RepliesStored

/-! ### Replies between the triggers -/

/-- The event is the reply of the completed task. -/
structure Replied (db : Db) (t : ConversationTask) (e : RoomEvent) : Prop where
  completed : t.state = .completed
  event : e ∈ db.roomEvents.rows
  reply : t.replyEventId = some e.eventId

/-- A reply comes before whatever its conversation takes up next: only the reply
of the turn that moved the cursor last may lie beyond the cursor, and none lies
beyond the trigger of a turn under way. -/
structure RepliesPlaced (db : Db) : Prop where
  placed : ∀ t c e, Joined db t c → Replied db t e →
    e.sequence ≤ c.consumedRevision ∨ t.contextRevision = c.consumedRevision
  upcoming : ∀ t u c e, Joined db t c → t.state.live = true → Joined db u c → Replied db u e →
    e.sequence < t.contextRevision

theorem Replied.replyOf {t : ConversationTask} {e : RoomEvent} (h : Replied db t e)
    (hanswered : Answered env db) (ht : t ∈ db.conversationTasks.rows) : ReplyOf env t e := by
  obtain ⟨e₀, he₀, hreply⟩ := hanswered.answered t ht h.completed
  obtain rfl := Db.eventId_unique he₀ h.event
    (Option.some.inj (hreply.eventId.symm.trans h.reply))
  exact hreply

/-- A task that was completed before had its reply then. -/
theorem Replied.before {t t' : ConversationTask} {e : RoomEvent} (hanswered : Answered env db)
    (hlog : LogExtends db db') (h : Replied db' t' e) (ht : t ∈ db.conversationTasks.rows)
    (hstate : t.state = .completed) (hc : Continues t t') : Replied db t e := by
  obtain ⟨e₀, he₀, hreply⟩ := hanswered.answered t ht hstate
  have hafter := (hreply.continues hc hstate).eventId
  obtain rfl := Db.eventId_unique (hlog.mem he₀) h.event
    (Option.some.inj (hafter.symm.trans h.reply))
  exact ⟨hstate, he₀, hreply.eventId⟩

namespace RepliesPlaced

theorem init : RepliesPlaced {} where
  placed := fun _ _ _ h => absurd h.task (by simp)
  upcoming := fun _ _ _ _ h => absurd h.task (by simp)

section Moved

variable {t t' : ConversationTask} {c c' : AgentConversation} (h : RepliesPlaced db)
  (hturns : Turns db) (hanswered : Answered env db) (hlog : LogExtends db db')
  (htasks : TasksContinue db db') (m : Moved db db' t t' c c')

include htasks m in
theorem moved_continues : Continues t t' := by
  obtain ⟨x, hx, hc⟩ := htasks t m.task
  obtain rfl := Db.task_unique hx m.joined_new.task (hc.taskId_eq.trans m.taskId_eq.symm)
  exact hc

include h hanswered hlog htasks m

theorem moved_placed : ∀ x y e, Joined db' x y → Replied db' x e →
    e.sequence ≤ y.consumedRevision ∨ x.contextRevision = y.consumedRevision := by
  intro x y e hxy hreplied
  rcases m.joined_cases hxy with ⟨rfl, rfl⟩ | ⟨hx, hne, rfl⟩ | ⟨hx, -, -⟩
  · have hcompleted := hreplied.completed
    cases m.move with
    | note state same =>
        have hbefore := hreplied.before hanswered hlog m.task (state ▸ hcompleted)
          (moved_continues htasks m)
        rw [same, m.contextRevision_eq]
        exact h.placed t c e m.toJoined hbefore
    | claim _ _ running =>
        rw [running] at hcompleted
        cases hcompleted
    | complete _ _ _ _ consumed =>
        right
        rw [consumed, m.contextRevision_eq]
    | fail _ failed =>
        rw [failed] at hcompleted
        cases hcompleted
  · have hbefore := hreplied.before hanswered hlog hx.task hreplied.completed (.refl x)
    cases m.move with
    | note _ same =>
        rw [same]
        exact h.placed x c e hx hbefore
    | claim _ _ _ _ _ consumed =>
        rw [consumed]
        exact h.placed x c e hx hbefore
    | complete hu _ _ _ consumed =>
        left
        rw [consumed]
        exact (h.upcoming t x c e m.toJoined hu.live hx hbefore).le
    | fail _ _ _ _ consumed =>
        rw [consumed]
        exact h.placed x c e hx hbefore
  · have hbefore := hreplied.before hanswered hlog hx.task hreplied.completed (.refl x)
    exact h.placed x y e hx hbefore

include hturns in
theorem moved_upcoming : ∀ x u y e, Joined db' x y → x.state.live = true → Joined db' u y →
    Replied db' u e → e.sequence < x.contextRevision := by
  intro x u y e hxy hlive huy hreplied
  have hold : ∀ {u₀}, u₀ ∈ db.conversationTasks.rows → u₀.state = .completed → Continues u₀ u →
      Replied db u₀ e := fun hu₀ hstate hc => hreplied.before hanswered hlog hu₀ hstate hc
  rcases m.joined_cases hxy with ⟨rfl, rfl⟩ | ⟨hx, hxne, rfl⟩ | ⟨hx, hxne, hyne⟩
  · have hlive₀ : t.state.live = true := by
      cases m.move with
      | note state => exact state ▸ hlive
      | claim hu => exact hu.live
      | complete hu => exact hu.live
      | fail hu => exact hu.live
    rcases m.joined_cases huy with ⟨rfl, -⟩ | ⟨hu, -, -⟩ | ⟨-, -, hne⟩
    · rw [hreplied.completed] at hlive
      cases hlive
    · rw [m.contextRevision_eq]
      exact h.upcoming t u c e m.toJoined hlive₀ hu (hold hu.task hreplied.completed (.refl u))
    · exact absurd m.conversation_same.conversationId hne
  · -- the conversation is busy with another task, so it did not move
    have hsame := m.move.of_other_active (hturns.busy x c hx hlive).1 hxne
    rcases m.joined_cases huy with ⟨rfl, -⟩ | ⟨hu, -, -⟩ | ⟨-, -, hne⟩
    · have hnoted : t.state = .completed := by
        cases m.move with
        | note state => exact state ▸ hreplied.completed
        | claim _ _ running => exact absurd (running.symm.trans hreplied.completed) (by simp)
        | complete _ _ ready =>
            have hbusy := (hturns.busy x c hx hlive).2.live.2
            rw [← hsame, ready] at hbusy
            cases hbusy
        | fail _ failed => exact absurd (failed.symm.trans hreplied.completed) (by simp)
      exact h.upcoming x t c e hx hlive m.toJoined
        (hold m.task hnoted (moved_continues htasks m))
    · exact h.upcoming x u c e hx hlive hu (hold hu.task hreplied.completed (.refl u))
    · exact absurd m.conversation_same.conversationId hne
  · rcases m.joined_cases huy with ⟨-, rfl⟩ | ⟨-, -, rfl⟩ | ⟨hu, -, -⟩
    · exact absurd m.conversation_same.conversationId hyne
    · exact absurd m.conversation_same.conversationId hyne
    · exact h.upcoming x u y e hx hlive hu (hold hu.task hreplied.completed (.refl u))

end Moved

section Reserved

variable {policy : ConversationPolicy} {actor : Actor} {turn : TurnRequest} {t : ConversationTask}
  {c : AgentConversation} {prompt : RoomEvent} {base : Int} {items : List ContextItem}
  {context : Json} (h : RepliesPlaced db) (hturns : Turns db) (hanswered : Answered env db)
  (r : ReservedTurn env db db' policy actor turn t c prompt base items context)

include hturns hanswered r in
/-- A completed task and its reply are from before the reservation. -/
theorem reserved_before {x : ConversationTask} {y : AgentConversation} {e : RoomEvent}
    (hxy : Joined db' x y) (hreplied : Replied db' x e) :
    ∃ y₀, Joined db x y₀ ∧ SameConversation y₀ y ∧ y.consumedRevision = y₀.consumedRevision ∧
      Replied db x e := by
  obtain ⟨_, _, happended⟩ := r.appended
  rcases hturns.reserved_cases r hxy with ⟨rfl, -⟩ | ⟨y₀, hx, hsame, hconsumed, -⟩
  · have hcompleted := hreplied.completed
    rw [r.task_state] at hcompleted
    cases hcompleted
  · exact ⟨y₀, hx, hsame, hconsumed, hreplied.before hanswered happended.extends hx.task
      hreplied.completed (.refl x)⟩

include h hturns hanswered r

theorem reserved_placed : ∀ x y e, Joined db' x y → Replied db' x e →
    e.sequence ≤ y.consumedRevision ∨ x.contextRevision = y.consumedRevision := by
  intro x y e hxy hreplied
  obtain ⟨y₀, hx, -, hconsumed, hbefore⟩ := reserved_before hturns hanswered r hxy hreplied
  rw [hconsumed]
  exact h.placed x y₀ e hx hbefore

theorem reserved_upcoming : ∀ x u y e, Joined db' x y → x.state.live = true → Joined db' u y →
    Replied db' u e → e.sequence < x.contextRevision := by
  intro x u y e hxy hlive huy hreplied
  obtain ⟨y₀, hu, hsame, -, hbefore⟩ := reserved_before hturns hanswered r huy hreplied
  rcases hturns.reserved_live r hxy hlive with ⟨rfl, rfl⟩ | hx
  · -- the prompt was appended after every event of the room
    obtain ⟨_, _, happended⟩ := r.appended
    rw [r.task_revision]
    refine happended.sequence_lt hbefore.event ?_
    rw [(hbefore.replyOf hanswered hu.task).room, ← (ownsTask_iff.mp huy.owns).2.1]
    exact congrArg Prod.fst r.bound.rebound.owner
  · obtain rfl : y₀ = y := Db.conversation_unique hu.conversation hx.conversation
      hsame.conversationId.symm
    exact h.upcoming x u y₀ e hx hlive hu hbefore

end Reserved

theorem step (h : RepliesPlaced db) (hturns : Turns db) (hanswered : Answered env db)
    (hlog : LogExtends db db') (htasks : TasksContinue db db') (hstep : TurnStep env db db') :
    RepliesPlaced db' := by
  cases hstep with
  | same tasks conversations =>
      have hjoined : ∀ {x y}, Joined db' x y → Joined db x y := fun hxy =>
        ⟨tasks ▸ hxy.task, conversations ▸ hxy.conversation, hxy.owns⟩
      have hbefore : ∀ {x y e}, Joined db' x y → Replied db' x e → Replied db x e :=
        fun hxy hreplied => hreplied.before hanswered hlog (hjoined hxy).task
          hreplied.completed (.refl _)
      exact ⟨fun x y e hxy hreplied => h.placed x y e (hjoined hxy) (hbefore hxy hreplied),
        fun x u y e hxy hlive huy hreplied =>
          h.upcoming x u y e (hjoined hxy) hlive (hjoined huy) (hbefore huy hreplied)⟩
  | reserved r =>
      exact ⟨h.reserved_placed hturns hanswered r, h.reserved_upcoming hturns hanswered r⟩
  | moved m =>
      exact ⟨h.moved_placed hanswered hlog htasks m,
        h.moved_upcoming hturns hanswered hlog htasks m⟩

end RepliesPlaced

/-- The replies of the completed tasks, over every run. -/
theorem gateway_replies (env : Env) (formats : Formats) (ops : List Op) :
    RepliesStored (env.underProfile formats) ((gateway (env.underProfile formats)).run ops).db ∧
      RepliesPlaced ((gateway (env.underProfile formats)).run ops).db := by
  induction ops using List.reverseRecOn with
  | nil => exact ⟨RepliesStored.init, RepliesPlaced.init⟩
  | append_singleton ops op ih =>
      obtain ⟨hdisclosed, hanswered⟩ := gateway_disclosed (env.underProfile formats) ops
      rw [Machine.run_append]
      have heffect : Effect (env.underProfile formats) _ _ _ _ :=
        gateway_effect ((gateway (env.underProfile formats)).run ops) op
      exact ⟨ih.1.step heffect.log heffect.replyStep,
        ih.2.step hdisclosed.turns hanswered heffect.log heffect.tasksContinue
          (gateway_turnStep hdisclosed.turns op)⟩

end RoomGateway
