import RoomGateway.Spec.Turns

/-!
What a reader of the tables can rely on for one room, in every state the
gateway reaches: at most one turn is under way, it is in the room's last
generation, and a generation's cursor is the last revision it completed.
-/

namespace RoomGateway

open Table

/-- The conversations of a room with the Codex agent. -/
def Db.conversationsOf (db : Db) (room : Uuid) : List AgentConversation :=
  db.agentConversations.rows.filter fun c => c.roomId = room && c.agentId = codexAgentId

/-- The context revisions of a conversation's completed tasks. -/
def Db.completedRevisions (db : Db) (c : AgentConversation) : List Int :=
  (db.conversationTasks.rows.filter fun t => ownsTask t c && t.state = .completed).map
    (·.contextRevision)

/-- The conversations of a room fit its tasks. -/
structure RoomConversations (db : Db) (room : Uuid) : Prop where
  generations : ∃ n : Nat, (db.conversationsOf room).map (·.generation) = SeqLog.countTo n ∧
    (0 < n → ∃ c ∈ db.conversationsOf room, c.state ≠ .superseded ∧ c.generation = n ∧
      ∀ d ∈ db.conversationsOf room, d.state ≠ .superseded → d = c)
  busy_iff : ∀ c ∈ db.conversationsOf room, c.state.live = true ↔ c.activeTaskId.isSome = true
  active : ∀ c ∈ db.conversationsOf room, ∀ id, c.activeTaskId = some id →
    ∃ t ∈ db.conversationTasks.rows, t.taskId = id ∧ t.conversationId = c.conversationId ∧
      t.generation = c.generation ∧ SameState t.state c.state
  live : ∀ t ∈ db.conversationTasks.rows, t.roomId = room → t.state.live = true →
    ∃ c ∈ db.conversationsOf room, c.activeTaskId = some t.taskId ∧ c.state ≠ .superseded
  oneLive : ∀ t ∈ db.conversationTasks.rows, ∀ u ∈ db.conversationTasks.rows,
    t.roomId = room → u.roomId = room → t.state.live = true → u.state.live = true → t = u
  consumed : ∀ c ∈ db.conversationsOf room,
    c.consumedRevision = (db.completedRevisions c).max?.getD 0
  consumed_pos : ∀ c ∈ db.conversationsOf room, c.state = .ready → 0 < c.consumedRevision

/-- A task that is completed between two states moves its conversation's
cursor. -/
def CompletionAdvances (db db' : Db) : Prop := ∀ t c t' c', Joined db t c → Joined db' t' c' →
  t'.taskId = t.taskId → t.state ≠ .completed → t'.state = .completed →
  c.consumedRevision < c'.consumedRevision

section

variable {db db' : Db}

theorem Db.mem_conversationsOf {room : Uuid} {c : AgentConversation} :
    c ∈ db.conversationsOf room ↔ c ∈ db.agentConversations.rows ∧ c.roomId = room := by
  simp only [Db.conversationsOf, List.mem_filter, Bool.and_eq_true, decide_eq_true_eq]
  exact ⟨fun h => ⟨h.1, h.2.1⟩, fun h => ⟨h.1, h.2, Db.conversation_agent h.1⟩⟩

theorem Db.conversationsOf_eq (room : Uuid) : db.conversationsOf room =
    SeqLog.ofKey AgentConversation.owner db.agentConversations.rows (room, codexAgentId) := by
  simp only [Db.conversationsOf, SeqLog.ofKey, AgentConversation.owner, Prod.mk.injEq,
    Bool.decide_and]

theorem Db.conversation_busy_iff {c : AgentConversation} (hc : c ∈ db.agentConversations.rows) :
    c.state.live = c.activeTaskId.isSome := by
  have hcheck := db.agentConversations.checked c hc
  simp only [agentConversationConstraints, Bool.and_eq_true, beq_iff_eq] at hcheck
  exact hcheck.1.2

theorem Db.conversation_ready_pos {c : AgentConversation} (hc : c ∈ db.agentConversations.rows)
    (hready : c.state = .ready) : 0 < c.consumedRevision := by
  have hcheck := db.agentConversations.checked c hc
  simp only [agentConversationConstraints, Bool.and_eq_true] at hcheck
  simpa [hready] using hcheck.2

theorem Db.contextRevision_pos {t : ConversationTask} (ht : t ∈ db.conversationTasks.rows) :
    1 ≤ t.contextRevision := by
  have hcheck := db.conversationTasks.checked t ht
  simp only [conversationTaskConstraints, safeRange, Bool.and_eq_true, decide_eq_true_eq] at hcheck
  exact hcheck.1.1.1.1.1.1.1.1.1.1.2.1

/-- Two conversations of a room that are both in use are one. -/
theorem Db.current_unique {c d : AgentConversation} (hc : c ∈ db.agentConversations.rows)
    (hd : d ∈ db.agentConversations.rows) (hroom : c.roomId = d.roomId)
    (hcs : c.state ≠ .superseded) (hds : d.state ≠ .superseded) : c = d := by
  have hagent : c.agentId = d.agentId :=
    (Db.conversation_agent hc).trans (Db.conversation_agent hd).symm
  refine eq_of_clash hc hd ?_ ?_
  · simp [agentConversationConstraints, hroom, hagent, hcs, hds]
  · simp [agentConversationConstraints, hroom, hagent, hcs, hds]

end

namespace Turns

variable {env : Env} {db db' : Db}

theorem generations (h : Turns db) (room : Uuid) :
    ∃ n : Nat, (db.conversationsOf room).map (·.generation) = SeqLog.countTo n ∧
      (0 < n → ∃ c ∈ db.conversationsOf room, c.state ≠ .superseded ∧ c.generation = n ∧
        ∀ d ∈ db.conversationsOf room, d.state ≠ .superseded → d = c) := by
  refine ⟨(db.conversationsOf room).length, ?_, fun hpos => ?_⟩
  · rw [Db.conversationsOf_eq]
    exact h.numbered (room, codexAgentId)
  · have hnext := h.numbered.next_eq (room, codexAgentId)
    rw [← Db.conversationsOf_eq] at hnext
    obtain ⟨c, hc, howner, hgeneration⟩ := h.numbered.exists_num (k := (room, codexAgentId))
      (n := (db.conversationsOf room).length) (by omega) (by omega)
    have hroom : c.roomId = room := congrArg Prod.fst howner
    have hstate : c.state ≠ .superseded := by
      rw [h.current c hc, howner, hgeneration, nextGeneration, hnext]
    refine ⟨c, Db.mem_conversationsOf.mpr ⟨hc, hroom⟩, hstate, hgeneration, ?_⟩
    intro d hd hds
    obtain ⟨hd, hdroom⟩ := Db.mem_conversationsOf.mp hd
    exact Db.current_unique hd hc (hdroom.trans hroom.symm) hds hstate

theorem consumed_eq_max (h : Turns db) {c : AgentConversation}
    (hc : c ∈ db.agentConversations.rows) :
    c.consumedRevision = (db.completedRevisions c).max?.getD 0 := by
  have hmem : ∀ n, n ∈ db.completedRevisions c ↔
      ∃ t, Joined db t c ∧ t.state = .completed ∧ t.contextRevision = n := by
    intro n
    simp only [Db.completedRevisions, List.mem_map, List.mem_filter, Bool.and_eq_true,
      decide_eq_true_eq]
    constructor
    · rintro ⟨t, ⟨ht, howns, hcompleted⟩, hn⟩
      exact ⟨t, ⟨ht, hc, howns⟩, hcompleted, hn⟩
    · rintro ⟨t, ht, hcompleted, hn⟩
      exact ⟨t, ⟨ht.task, ht.owns, hcompleted⟩, hn⟩
  cases hmax : (db.completedRevisions c).max? with
  | none =>
      rw [List.max?_eq_none_iff] at hmax
      rcases h.consumed_mem c hc with hzero | hsome
      · exact hzero
      · have := (hmem _).mpr hsome
        rw [hmax] at this
        exact absurd this List.not_mem_nil
  | some m =>
      obtain ⟨hm, hle⟩ := List.max?_eq_some_iff.mp hmax
      obtain ⟨t, ht, hcompleted, hrevision⟩ := (hmem m).mp hm
      have hmle := h.consumed_le t c ht hcompleted
      have hpos := Db.contextRevision_pos ht.task
      rw [Option.getD_some]
      rcases h.consumed_mem c hc with hzero | hsome
      · omega
      · have := hle _ ((hmem _).mpr hsome)
        omega

theorem live_current (h : Turns db) {t : ConversationTask} (ht : t ∈ db.conversationTasks.rows)
    (hlive : t.state.live = true) : ∃ c ∈ db.agentConversations.rows, c.roomId = t.roomId ∧
      c.activeTaskId = some t.taskId ∧ c.state ≠ .superseded := by
  obtain ⟨c, hc⟩ := h.owned t ht
  obtain ⟨hactive, hsame⟩ := h.busy t c hc hlive
  exact ⟨c, hc.conversation, (ownsTask_iff.mp hc.owns).2.1, hactive,
    ConversationState.ne_superseded_of_live hsame.live.2⟩

theorem roomConversations (h : Turns db) (room : Uuid) : RoomConversations db room where
  generations := h.generations room
  busy_iff := by
    intro c hc
    rw [Db.conversation_busy_iff (Db.mem_conversationsOf.mp hc).1]
  active := by
    intro c hc id hactive
    obtain ⟨t, ht, hid, hsame⟩ := h.active c (Db.mem_conversationsOf.mp hc).1 id hactive
    obtain ⟨hconversation, -, -, hgeneration⟩ := ownsTask_iff.mp ht.owns
    exact ⟨t, ht.task, hid, hconversation.symm, hgeneration.symm, hsame⟩
  live := by
    intro t ht hroom hlive
    obtain ⟨c, hc, hcroom, hactive, hstate⟩ := h.live_current ht hlive
    exact ⟨c, Db.mem_conversationsOf.mpr ⟨hc, hcroom.trans hroom⟩, hactive, hstate⟩
  oneLive := by
    intro t ht u hu htroom huroom htlive hulive
    obtain ⟨c, hc, hcroom, hcactive, hcstate⟩ := h.live_current ht htlive
    obtain ⟨d, hd, hdroom, hdactive, hdstate⟩ := h.live_current hu hulive
    have hroom : c.roomId = d.roomId := by rw [hcroom, htroom, hdroom, huroom]
    rw [Db.current_unique hc hd hroom hcstate hdstate, hdactive] at hcactive
    exact Db.task_unique ht hu (Option.some.inj hcactive).symm
  consumed := fun c hc => h.consumed_eq_max (Db.mem_conversationsOf.mp hc).1
  consumed_pos := fun c hc => Db.conversation_ready_pos (Db.mem_conversationsOf.mp hc).1

/-- Only a completion makes a task completed, and it moves the cursor past
every earlier revision. -/
theorem completion_advances (h : Turns db) (hstep : TurnStep env db db') :
    CompletionAdvances db db' := by
  intro t c t' c' hj hj' hid hbefore hafter
  cases hstep with
  | same tasks _ =>
      rw [Db.task_unique (tasks ▸ hj'.task) hj.task hid] at hafter
      exact absurd hafter hbefore
  | @reserved _ _ _ u _ _ _ _ _ r =>
      have hmem := hj'.task
      rw [r.tasks, List.mem_append, List.mem_singleton] at hmem
      rcases hmem with hmem | rfl
      · rw [Db.task_unique hmem hj.task hid] at hafter
        exact absurd hafter hbefore
      · exact absurd hid.symm (r.unused t hj.task)
  | @moved u u' d d' m =>
      rcases m.joined_cases hj' with ⟨rfl, rfl⟩ | ⟨hx, -, -⟩ | ⟨hx, -, -⟩
      · obtain rfl := Db.task_unique m.task hj.task (m.taskId_eq.symm.trans hid)
        obtain rfl := Db.conversation_unique m.conversation hj.conversation
          (m.conversationId_eq.trans hj.conversationId_eq.symm)
        cases m.move with
        | note state => exact absurd (state ▸ hafter) hbefore
        | claim _ _ running =>
            rw [running] at hafter
            cases hafter
        | complete hu _ _ _ consumed =>
            rw [consumed]
            exact h.ahead u d hj hu.live
        | fail _ failed =>
            rw [failed] at hafter
            cases hafter
      · rw [Db.task_unique hx.task hj.task hid] at hafter
        exact absurd hafter hbefore
      · rw [Db.task_unique hx.task hj.task hid] at hafter
        exact absurd hafter hbefore

end Turns

/-- In every state the gateway reaches, and across every further step. -/
theorem conversations_fit_tasks (env : Env) (ops : List Op) :
    (∀ room, RoomConversations ((gateway env).run ops).db room) ∧
      ∀ op, CompletionAdvances ((gateway env).run ops).db ((gateway env).run (ops ++ [op])).db := by
  have h := gateway_turns env ops
  refine ⟨h.roomConversations, fun op => ?_⟩
  rw [Machine.run_append]
  exact h.completion_advances (gateway_turnStep h op)

end RoomGateway
