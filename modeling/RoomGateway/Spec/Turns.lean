import RoomGateway.Spec.Lifecycle

/-!
The invariant that ties the tasks to the conversations: every live task has a
conversation that is busy with it and every busy conversation a live task, the
generations of a room count up and only the last is in use, and a conversation
has consumed what its completed tasks covered.
-/

namespace RoomGateway

open Table

/-- The generation the next conversation of an owner gets. -/
def nextGeneration (db : Db) (owner : Uuid × Uuid) : Int :=
  SeqLog.next AgentConversation.owner AgentConversation.generation db.agentConversations.rows owner

/-- The tasks and the conversations fit together. -/
structure Turns (db : Db) : Prop where
  owned : ∀ t ∈ db.conversationTasks.rows, ∃ c, Joined db t c
  busy : LiveTasksBusy db
  active : ActiveTasksLive db
  numbered : SeqLog.Numbered AgentConversation.owner AgentConversation.generation
    db.agentConversations.rows
  current : ∀ c ∈ db.agentConversations.rows,
    c.state ≠ .superseded ↔ c.generation + 1 = nextGeneration db c.owner
  consumed_le : ∀ t c, Joined db t c → t.state = .completed →
    t.contextRevision ≤ c.consumedRevision
  consumed_mem : ∀ c ∈ db.agentConversations.rows, c.consumedRevision = 0 ∨
    ∃ t, Joined db t c ∧ t.state = .completed ∧ t.contextRevision = c.consumedRevision
  ahead : ∀ t c, Joined db t c → t.state.live = true → c.consumedRevision < t.contextRevision

theorem Turns.init : Turns {} where
  owned := by simp
  busy := fun t c h => absurd h.task (by simp)
  active := by
    intro c hc
    simp at hc
  numbered := SeqLog.Numbered.nil
  current := by simp
  consumed_le := fun t c h => absurd h.task (by simp)
  consumed_mem := by simp
  ahead := fun t c h => absurd h.task (by simp)

/-- The tasks of a conversation by what they name. -/
theorem Turns.joined_of_id {db : Db} {c : AgentConversation} {t : ConversationTask}
    (h : Turns db) (hc : c ∈ db.agentConversations.rows) (ht : t ∈ db.conversationTasks.rows)
    (hid : t.conversationId = c.conversationId) : Joined db t c := by
  obtain ⟨y, hy⟩ := h.owned t ht
  obtain rfl := Db.conversation_unique hy.conversation hc (hy.conversationId_eq.trans hid)
  exact hy

theorem nextGeneration_eq (db : Db) (room : Uuid) :
    nextGeneration db (room, codexAgentId) = lastGeneration db room + 1 := by
  simp only [nextGeneration, SeqLog.next, SeqLog.ofKey, lastGeneration, AgentConversation.owner,
    Prod.mk.injEq, Bool.decide_and]

namespace ReservedTurn

variable {env : Env} {db db' : Db} {policy : ConversationPolicy} {actor : Actor}
  {turn : TurnRequest} {t : ConversationTask} {c : AgentConversation} {prompt : RoomEvent}
  {base : Int} {items : List ContextItem} {context : Json}

theorem task_state (r : ReservedTurn env db db' policy actor turn t c prompt base items context) :
    t.state = .reserved := by
  obtain ⟨_, _, _, _, ht⟩ := r.task
  rw [ht, reservedTask]

theorem task_revision
    (r : ReservedTurn env db db' policy actor turn t c prompt base items context) :
    t.contextRevision = prompt.sequence := by
  obtain ⟨_, _, _, _, ht⟩ := r.task
  rw [ht, reservedTask]

end ReservedTurn

namespace Turns

variable {env : Env} {db db' : Db}

theorem same (h : Turns db) (htasks : db'.conversationTasks.rows = db.conversationTasks.rows)
    (hconvs : db'.agentConversations.rows = db.agentConversations.rows) : Turns db' := by
  have hjoined : ∀ t c, Joined db' t c ↔ Joined db t c := by
    intro t c
    constructor
    · exact fun hj => ⟨htasks ▸ hj.task, hconvs ▸ hj.conversation, hj.owns⟩
    · exact fun hj => ⟨htasks ▸ hj.task, hconvs ▸ hj.conversation, hj.owns⟩
  obtain ⟨owned, busy, active, numbered, current, consumed_le, consumed_mem, ahead⟩ := h
  refine ⟨?_, ?_, ?_, hconvs ▸ numbered, ?_, ?_, ?_, ?_⟩
  · simpa only [htasks, hjoined] using owned
  · simpa only [LiveTasksBusy, hjoined] using busy
  · simpa only [ActiveTasksLive, hconvs, hjoined] using active
  · simpa only [nextGeneration, hconvs] using current
  · simpa only [hjoined] using consumed_le
  · simpa only [hconvs, hjoined] using consumed_mem
  · simpa only [hjoined] using ahead

section Moved

variable {t t' : ConversationTask} {c c' : AgentConversation} (h : Turns db)
  (m : Moved db db' t t' c c')

include h m

theorem moved_owned : ∀ x ∈ db'.conversationTasks.rows, ∃ y, Joined db' x y := by
  intro x hx
  rcases m.mem_tasks.mp hx with rfl | ⟨hx, hne⟩
  · exact ⟨c', m.joined_new⟩
  · obtain ⟨y, hy⟩ := h.owned x hx
    by_cases hid : y.conversationId = c.conversationId
    · obtain rfl := Db.conversation_unique hy.conversation m.conversation hid
      exact ⟨c', m.joined_sibling hy hne⟩
    · exact ⟨y, m.joined_other hy hid⟩

theorem moved_busy : LiveTasksBusy db' := by
  intro x y hxy hlive
  have hid := m.taskId_eq
  rcases m.joined_cases hxy with
    ⟨rfl, rfl⟩ | ⟨hx, hne, rfl⟩ | ⟨hx, -, -⟩
  · cases m.move with
    | note state same =>
        rw [state] at hlive
        rw [same, hid, state]
        exact h.busy t c m.toJoined hlive
    | claim hu _ running busy active =>
        rw [active, hu.active, hid, running, busy]
        exact ⟨rfl, .inr ⟨rfl, rfl⟩⟩
    | complete _ completed =>
        rw [completed] at hlive
        cases hlive
    | fail _ failed =>
        rw [failed] at hlive
        cases hlive
  · have hbusy := h.busy x c hx hlive
    rw [m.move.of_other_active hbusy.1 hne]
    exact hbusy
  · exact h.busy x y hx hlive

theorem moved_active : ActiveTasksLive db' := by
  intro y hy id hactive
  have hid := m.taskId_eq
  rcases m.mem_conversations.mp hy with rfl | ⟨hy, hne⟩
  · have hnew := m.joined_new
    cases m.move with
    | note state same =>
        rw [same] at hactive
        obtain ⟨x, hx, hxid, hsame⟩ := h.active c m.conversation id hactive
        by_cases hxt : x.taskId = t.taskId
        · rw [Db.task_unique hx.task m.task hxt] at hxid hsame
          exact ⟨t', hnew, hid.trans hxid, by rwa [state, same]⟩
        · exact ⟨x, m.joined_sibling hx hxt, hxid, by rwa [same]⟩
    | claim hu _ running busy active =>
        rw [active, hu.active] at hactive
        exact ⟨t', hnew, hid.trans (Option.some.inj hactive), .inr ⟨running, busy⟩⟩
    | complete _ _ _ idle =>
        rw [idle] at hactive
        cases hactive
    | fail _ _ _ idle =>
        rw [idle] at hactive
        cases hactive
  · obtain ⟨x, hx, hxid, hsame⟩ := h.active y hy id hactive
    exact ⟨x, m.joined_other hx hne, hxid, hsame⟩

theorem moved_current : ∀ y ∈ db'.agentConversations.rows,
    y.state ≠ .superseded ↔ y.generation + 1 = nextGeneration db' y.owner := by
  intro y hy
  have hnext : ∀ owner, nextGeneration db' owner = nextGeneration db owner := by
    intro owner
    rw [nextGeneration, m.conversations]
    exact SeqLog.next_map (m.conversation_same.keeps_generations m.conversation) owner
  rw [hnext]
  rcases m.mem_conversations.mp hy with rfl | ⟨hy, -⟩
  · rw [m.conversation_same.owner, m.conversation_same.generation, ← h.current c m.conversation, Ne,
      m.move.superseded_iff]
  · exact h.current y hy

theorem moved_consumed_le : ∀ x y, Joined db' x y → x.state = .completed →
    x.contextRevision ≤ y.consumedRevision := by
  intro x y hxy hcompleted
  have hrevision := m.contextRevision_eq
  rcases m.joined_cases hxy with
    ⟨rfl, rfl⟩ | ⟨hx, hne, rfl⟩ | ⟨hx, -, -⟩
  · cases m.move with
    | note state same =>
        rw [same, hrevision]
        exact h.consumed_le t c m.toJoined (state ▸ hcompleted)
    | claim _ _ running =>
        rw [running] at hcompleted
        cases hcompleted
    | complete _ _ _ _ consumed => rw [consumed, hrevision]
    | fail _ failed =>
        rw [failed] at hcompleted
        cases hcompleted
  · have hle := h.consumed_le x c hx hcompleted
    cases m.move with
    | note _ same => rwa [same]
    | claim _ _ _ _ _ consumed => rwa [consumed]
    | complete hu _ _ _ consumed =>
        rw [consumed]
        exact hle.trans (h.ahead t c m.toJoined hu.live).le
    | fail _ _ _ _ consumed => rwa [consumed]
  · exact h.consumed_le x y hx hcompleted

theorem moved_consumed_mem : ∀ y ∈ db'.agentConversations.rows, y.consumedRevision = 0 ∨
    ∃ x, Joined db' x y ∧ x.state = .completed ∧ x.contextRevision = y.consumedRevision := by
  intro y hy
  have hrevision := m.contextRevision_eq
  have hnew := m.joined_new
  rcases m.mem_conversations.mp hy with hy | ⟨hy, hne⟩
  · rw [hy]
    -- a move that leaves the cursor where it is leaves the task it came from completed
    have hkept : c'.consumedRevision = c.consumedRevision →
        (t.state = .completed → t'.state = .completed) → c'.consumedRevision = 0 ∨
        ∃ x, Joined db' x c' ∧ x.state = .completed ∧ x.contextRevision = c'.consumedRevision := by
      intro hconsumed hstate
      rw [hconsumed]
      refine (h.consumed_mem c m.conversation).imp id ?_
      rintro ⟨x, hx, hcompleted, hx_eq⟩
      by_cases hxt : x.taskId = t.taskId
      · obtain rfl := Db.task_unique hx.task m.task hxt
        exact ⟨t', hnew, hstate hcompleted, hrevision.trans hx_eq⟩
      · exact ⟨x, m.joined_sibling hx hxt, hcompleted, hx_eq⟩
    have hlive : UnderWay t c → t.state = .completed → t'.state = .completed := by
      intro hu hcompleted
      have := hu.live
      rw [hcompleted] at this
      cases this
    cases m.move with
    | note state same => exact hkept (by rw [same]) (by rw [state]; exact id)
    | claim hu _ _ _ _ consumed => exact hkept consumed (hlive hu)
    | complete _ completed _ _ consumed =>
        exact .inr ⟨t', hnew, completed, hrevision.trans consumed.symm⟩
    | fail hu _ _ _ consumed => exact hkept consumed (hlive hu)
  · refine (h.consumed_mem y hy).imp id ?_
    rintro ⟨x, hx, hcompleted, hx_eq⟩
    exact ⟨x, m.joined_other hx hne, hcompleted, hx_eq⟩

theorem moved_ahead : ∀ x y, Joined db' x y → x.state.live = true →
    y.consumedRevision < x.contextRevision := by
  intro x y hxy hlive
  have hrevision := m.contextRevision_eq
  rcases m.joined_cases hxy with
    ⟨rfl, rfl⟩ | ⟨hx, hne, rfl⟩ | ⟨hx, -, -⟩
  · cases m.move with
    | note state same =>
        rw [same, hrevision]
        exact h.ahead t c m.toJoined (state ▸ hlive)
    | claim hu _ _ _ _ consumed =>
        rw [consumed, hrevision]
        exact h.ahead t c m.toJoined hu.live
    | complete _ completed =>
        rw [completed] at hlive
        cases hlive
    | fail _ failed =>
        rw [failed] at hlive
        cases hlive
  · rw [m.move.of_other_active (h.busy x c hx hlive).1 hne]
    exact h.ahead x c hx hlive
  · exact h.ahead x y hx hlive

theorem moved : Turns db' where
  owned := h.moved_owned m
  busy := h.moved_busy m
  active := h.moved_active m
  numbered := by
    rw [m.conversations]
    exact h.numbered.map (m.conversation_same.keeps_generations m.conversation)
  current := h.moved_current m
  consumed_le := h.moved_consumed_le m
  consumed_mem := h.moved_consumed_mem m
  ahead := h.moved_ahead m

end Moved

section Reserved

variable {policy : ConversationPolicy} {actor : Actor} {turn : TurnRequest} {t : ConversationTask}
  {c : AgentConversation} {prompt : RoomEvent} {base : Int} {items : List ContextItem}
  {context : Json} (h : Turns db)
  (r : ReservedTurn env db db' policy actor turn t c prompt base items context)

include r in
theorem reserved_new : Joined db' t c where
  task := by
    rw [r.tasks]
    exact List.mem_append_right _ List.mem_cons_self
  conversation := r.bound.rebound.mem
  owns := r.owns

include r in
/-- A task from before the reservation still has its conversation. -/
theorem reserved_kept {x : ConversationTask} {y₀ : AgentConversation} (hx : Joined db x y₀) :
    ∃ y, Joined db' x y ∧ SameConversation y₀ y := by
  obtain ⟨y, hy, hsame⟩ := r.bound.rebound.kept y₀ hx.conversation
  refine ⟨y, ⟨?_, hy, by rw [hsame.ownsTask, hx.owns]⟩, hsame⟩
  rw [r.tasks]
  exact List.mem_append_left _ hx.task

include h r

theorem reserved_cases {x : ConversationTask} {y : AgentConversation} (hxy : Joined db' x y) :
    (x = t ∧ y = c) ∨ ∃ y₀, Joined db x y₀ ∧ SameConversation y₀ y ∧
      y.consumedRevision = y₀.consumedRevision ∧ (y = y₀ ∨ y₀.state.live = false) := by
  have hb := r.bound.rebound
  have htask := hxy.task
  rw [r.tasks, List.mem_append, List.mem_singleton] at htask
  rcases htask with hx | rfl
  · obtain ⟨y₀, hy₀⟩ := h.owned x hx
    have hid : y₀.conversationId = y.conversationId :=
      hy₀.conversationId_eq.trans hxy.conversationId_eq.symm
    refine .inr ⟨y₀, hy₀, ?_⟩
    rcases hb.old y hxy.conversation with rfl | ⟨x₀, hx₀, -, hsame, hconsumed, hstate⟩
    · obtain ⟨hsame, hconsumed, hidle⟩ := hb.before y₀ hy₀.conversation hid
      exact ⟨hsame, hb.consumed.trans hconsumed.symm, .inr hidle⟩
    · obtain rfl := Db.conversation_unique hx₀ hy₀.conversation
        (hsame.conversationId.symm.trans hid.symm)
      exact ⟨hsame, hconsumed, hstate.imp id And.right⟩
  · refine .inl ⟨rfl, Db.conversation_unique hxy.conversation hb.mem ?_⟩
    rw [hxy.conversationId_eq, (ownsTask_iff.mp r.owns).1]

/-- A live task from before the reservation: its conversation did not change. -/
theorem reserved_live {x : ConversationTask} {y : AgentConversation} (hxy : Joined db' x y)
    (hlive : x.state.live = true) : (x = t ∧ y = c) ∨ Joined db x y := by
  refine (h.reserved_cases r hxy).imp id ?_
  rintro ⟨y₀, hx, -, -, rfl | hidle⟩
  · exact hx
  · have := (h.busy x y₀ hx hlive).2.live.2
    rw [hidle] at this
    cases this

theorem reserved_active : ActiveTasksLive db' := by
  have hb := r.bound.rebound
  intro y hy id hactive
  rcases hb.old y hy with rfl | ⟨x₀, hx₀, -, -, -, rfl | ⟨hidle, -⟩⟩
  · rw [hb.active] at hactive
    exact ⟨t, reserved_new r, Option.some.inj hactive, .inl ⟨r.task_state, hb.state⟩⟩
  · obtain ⟨x, hx, hxid, hsame⟩ := h.active y hx₀ id hactive
    refine ⟨x, ⟨?_, hy, hx.owns⟩, hxid, hsame⟩
    rw [r.tasks]
    exact List.mem_append_left _ hx.task
  · rw [hidle] at hactive
    cases hactive

theorem reserved_consumed_mem : ∀ y ∈ db'.agentConversations.rows, y.consumedRevision = 0 ∨
    ∃ x, Joined db' x y ∧ x.state = .completed ∧ x.contextRevision = y.consumedRevision := by
  have hb := r.bound.rebound
  intro y hy
  -- a conversation from before keeps its cursor and the task the cursor came from
  have hkept : ∀ y₀ ∈ db.agentConversations.rows, SameConversation y₀ y →
      y.consumedRevision = y₀.consumedRevision → y.consumedRevision = 0 ∨
      ∃ x, Joined db' x y ∧ x.state = .completed ∧ x.contextRevision = y.consumedRevision := by
    intro y₀ hy₀ hsame hconsumed
    rw [hconsumed]
    refine (h.consumed_mem y₀ hy₀).imp id ?_
    rintro ⟨x, hx, hcompleted, hrevision⟩
    refine ⟨x, ⟨?_, hy, by rw [hsame.ownsTask, hx.owns]⟩, hcompleted, hrevision⟩
    rw [r.tasks]
    exact List.mem_append_left _ hx.task
  rcases hb.old y hy with rfl | ⟨y₀, hy₀, -, hsame, hconsumed, -⟩
  · rcases hb.opened with hbase | ⟨y₀, hy₀, hid⟩
    · exact .inl (hb.consumed.trans hbase)
    · obtain ⟨hsame, hconsumed, -⟩ := hb.before y₀ hy₀ hid
      exact hkept y₀ hy₀ hsame (hb.consumed.trans hconsumed.symm)
  · exact hkept y₀ hy₀ hsame hconsumed

theorem reserved_numbered : SeqLog.Numbered AgentConversation.owner AgentConversation.generation
    db'.agentConversations.rows := by
  have howner := r.bound.rebound.owner
  cases r.bound with
  | @continued c₀ now current _ _ eq rows_eq =>
      have hsame : SameConversation c₀ c := by
        rw [eq]
        exact ⟨rfl, rfl, rfl, rfl⟩
      rw [rows_eq]
      exact h.numbered.map (hsame.keeps_generations (currentConversation_some current).1)
  | @opened target now _ _ eq generation _ rows_eq =>
      obtain ⟨f, hf, hkeep⟩ := exists_map_supersededRows db turn.room now
      rw [rows_eq, hf]
      refine (h.numbered.map hkeep).append ?_
      rw [SeqLog.next_map hkeep, howner]
      change _ = nextGeneration db _
      rw [nextGeneration_eq, ← generation, eq, openedConversation]

theorem reserved_current : ∀ y ∈ db'.agentConversations.rows,
    y.state ≠ .superseded ↔ y.generation + 1 = nextGeneration db' y.owner := by
  have howner := r.bound.rebound.owner
  have hstate : c.state ≠ .superseded := by
    rw [r.bound.rebound.state]
    simp
  intro y hy
  cases r.bound with
  | @continued c₀ now current ready _ eq rows_eq =>
      obtain ⟨hc₀, -, -, hcurrent⟩ := currentConversation_some current
      have hsame : SameConversation c₀ c := by
        rw [eq]
        exact ⟨rfl, rfl, rfl, rfl⟩
      have hnext : nextGeneration db' y.owner = nextGeneration db y.owner := by
        rw [nextGeneration, rows_eq]
        exact SeqLog.next_map (hsame.keeps_generations hc₀) _
      rw [rows_eq, mem_put hc₀ (by simp)] at hy
      rw [hnext]
      rcases hy with rfl | ⟨hy, -⟩
      · rw [hsame.owner, hsame.generation, ← h.current c₀ hc₀]
        exact iff_of_true hstate hcurrent
      · exact h.current y hy
  | @opened target now idle _ eq generation _ rows_eq =>
      obtain ⟨f, hf, hkeep⟩ := exists_map_supersededRows db turn.room now
      have hlast : c.generation = nextGeneration db c.owner := by
        rw [howner, nextGeneration_eq, ← generation, eq, openedConversation]
      have hnext : nextGeneration db' y.owner =
          nextGeneration db y.owner + if c.owner = y.owner then 1 else 0 := by
        rw [nextGeneration, rows_eq, hf, SeqLog.next_append, SeqLog.next_map hkeep]
        · rfl
        · rw [SeqLog.next_map hkeep]
          exact hlast
      have hlt : ∀ x ∈ db.agentConversations.rows, x.generation < nextGeneration db x.owner :=
        fun x hx => SeqLog.lt_next hx
      rw [hnext]
      rw [rows_eq, List.mem_append, mem_supersededRows, List.mem_singleton] at hy
      rcases hy with (⟨x, hx, rfl⟩ | ⟨hy, hother⟩) | rfl
      · obtain ⟨hxmem, hroom, hagent, -⟩ := currentConversation_some hx
        have hsame : c.owner = (supersededConversation x now).owner := by
          rw [howner, ← hroom, ← hagent]
          rfl
        have hxlt : (supersededConversation x now).generation <
            nextGeneration db (supersededConversation x now).owner := hlt x hxmem
        rw [if_pos hsame]
        refine iff_of_false (fun hne => hne rfl) ?_
        omega
      · by_cases hsame : c.owner = y.owner
        · -- the one conversation of the room that was in use is the superseded one
          have hsuperseded : y.state = .superseded := by
            by_contra hne
            have hroom : y.roomId = turn.room := congrArg Prod.fst (hsame.symm.trans howner)
            cases hx : currentConversation db turn.room with
            | none => exact hne (currentConversation_none hx hy hroom (Db.conversation_agent hy))
            | some x =>
                obtain ⟨hxmem, hxroom, -, hxstate⟩ := currentConversation_some hx
                refine hother x hx (congrArg _ (eq_of_clash hy hxmem ?_ ?_))
                · simp [agentConversationConstraints, hroom, hxroom, hne, hxstate,
                    Db.conversation_agent hy, Db.conversation_agent hxmem]
                · simp [agentConversationConstraints, hroom, hxroom, hne, hxstate,
                    Db.conversation_agent hy, Db.conversation_agent hxmem]
          have hylt := hlt y hy
          rw [if_pos hsame]
          refine iff_of_false (fun hne => hne hsuperseded) ?_
          omega
        · rw [if_neg hsame, Int.add_zero]
          exact h.current y hy
      · rw [if_pos rfl, hlast]
        exact iff_of_true hstate rfl

theorem reserved : Turns db' where
  owned := by
    intro x hx
    rw [r.tasks, List.mem_append, List.mem_singleton] at hx
    rcases hx with hx | rfl
    · obtain ⟨y₀, hy₀⟩ := h.owned x hx
      obtain ⟨y, hy, -⟩ := reserved_kept r hy₀
      exact ⟨y, hy⟩
    · exact ⟨c, reserved_new r⟩
  busy := by
    intro x y hxy hlive
    rcases h.reserved_live r hxy hlive with ⟨rfl, rfl⟩ | hx
    · exact ⟨r.bound.rebound.active, .inl ⟨r.task_state, r.bound.rebound.state⟩⟩
    · exact h.busy x y hx hlive
  active := h.reserved_active r
  numbered := h.reserved_numbered r
  current := h.reserved_current r
  consumed_le := by
    intro x y hxy hcompleted
    rcases h.reserved_cases r hxy with ⟨rfl, -⟩ | ⟨y₀, hx, -, hconsumed, -⟩
    · rw [r.task_state] at hcompleted
      cases hcompleted
    · rw [hconsumed]
      exact h.consumed_le x y₀ hx hcompleted
  consumed_mem := h.reserved_consumed_mem r
  ahead := by
    intro x y hxy hlive
    rcases h.reserved_live r hxy hlive with ⟨rfl, rfl⟩ | hx
    · rw [r.bound.rebound.consumed, r.task_revision]
      exact r.built.base_lt
    · exact h.ahead x y hx hlive

end Reserved

theorem step (h : Turns db) (hstep : TurnStep env db db') : Turns db' := by
  cases hstep with
  | same tasks conversations => exact h.same tasks conversations
  | reserved r => exact h.reserved r
  | moved m => exact h.moved m

end Turns

/-- Every step is a move of a turn, a reservation, or leaves the turns alone. -/
theorem gateway_turnStep {env : Env} {s : Sys} (h : Turns s.db) (op : Op) :
    TurnStep env s.db ((gateway env).next s op).db :=
  (gateway_effect s op).turnStep h.busy h.active

theorem gateway_turns (env : Env) (ops : List Op) : Turns ((gateway env).run ops).db :=
  Machine.run_invariant (P := fun s : Sys => Turns s.db) Turns.init
    (fun _ op h => h.step (gateway_turnStep h op)) ops

end RoomGateway
