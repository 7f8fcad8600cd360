import RoomGateway.Spec.Effect

/-!
The life of a turn, which is spread over a task and its conversation. A task is
reserved, may be handed out, and ends completed or failed; its conversation
follows it. `TurnStep` says what a step does in these terms: a turn moves, or a
new one is reserved.
-/

namespace RoomGateway

open Table

/-! ### What a rewrite keeps -/

/-- A task with everything forgotten that its reservation did not fix. -/
def ConversationTask.origin (t : ConversationTask) : ConversationTask :=
  { t with
    state := .reserved
    leaseOwner := none
    leaseExpiresAt := none
    leaseToken := none
    receiptAcknowledgement := none
    replyEventId := none
    updatedAt := t.createdAt
    result := none
    failure := none
    effectiveSettings := none
    usage := none
    lastUpdateOrdinal := 0
    lastProgressAt := none }

/-- The room and agent a conversation belongs to: its generations count there. -/
def AgentConversation.owner (c : AgentConversation) : Uuid × Uuid := (c.roomId, c.agentId)

/-- The columns of a conversation that never change. -/
structure SameConversation (c c' : AgentConversation) : Prop where
  conversationId : c'.conversationId = c.conversationId
  owner : c'.owner = c.owner
  generation : c'.generation = c.generation
  policyRevision : c'.policyRevision = c.policyRevision

theorem SameConversation.refl (c : AgentConversation) : SameConversation c c :=
  ⟨rfl, rfl, rfl, rfl⟩

/-- A task is under way and its conversation is in the task's state. -/
def SameState (t : TaskState) (c : ConversationState) : Prop :=
  (t = .reserved ∧ c = .reserved) ∨ (t = .running ∧ c = .running)

theorem SameState.live {t : TaskState} {c : ConversationState} (h : SameState t c) :
    t.live = true ∧ c.live = true := by
  rcases h with ⟨rfl, rfl⟩ | ⟨rfl, rfl⟩ <;> exact ⟨rfl, rfl⟩

theorem ConversationState.ne_superseded_of_live {c : ConversationState} (h : c.live = true) :
    c ≠ .superseded := by
  rintro rfl
  cases h

section Owns

variable {t t' : ConversationTask} {c c' : AgentConversation}

/-- Two tasks of one origin agree on what the reservation fixed. -/
theorem eq_of_origin {α : Type} (f : ConversationTask → α) (hf : ∀ x, f x.origin = f x)
    (h : t'.origin = t.origin) : f t' = f t := by
  rw [← hf t', h, hf t]

theorem ownsTask_of_origin (h : t'.origin = t.origin) : ownsTask t' c = ownsTask t c :=
  eq_of_origin (ownsTask · c) (fun _ => rfl) h

theorem SameConversation.ownsTask (h : SameConversation c c') :
    RoomGateway.ownsTask t c' = RoomGateway.ownsTask t c := by
  have hroom : c'.roomId = c.roomId := congrArg Prod.fst h.owner
  have hagent : c'.agentId = c.agentId := congrArg Prod.snd h.owner
  simp only [RoomGateway.ownsTask, h.conversationId, hroom, hagent, h.generation]

end Owns

/-! ### Moves of one turn -/

/-- How a task and its conversation move together. -/
inductive Move (t t' : ConversationTask) (c c' : AgentConversation) : Prop where
  | note (state : t'.state = t.state) (same : c' = c)
  | claim (underWay : UnderWay t c) (reserved : t.state = .reserved)
      (running : t'.state = .running) (busy : c'.state = .running)
      (active : c'.activeTaskId = c.activeTaskId)
      (consumed : c'.consumedRevision = c.consumedRevision)
  | complete (underWay : UnderWay t c) (completed : t'.state = .completed)
      (ready : c'.state = .ready) (idle : c'.activeTaskId = none)
      (consumed : c'.consumedRevision = t.contextRevision)
  | fail (underWay : UnderWay t c) (failed : t'.state = .failed)
      (unusable : c'.state = .unusable) (idle : c'.activeTaskId = none)
      (consumed : c'.consumedRevision = c.consumedRevision)

theorem Move.superseded_iff {t t' : ConversationTask} {c c' : AgentConversation}
    (h : Move t t' c c') : c'.state = .superseded ↔ c.state = .superseded := by
  have hbusy : UnderWay t c → c.state ≠ .superseded := fun hu =>
    ConversationState.ne_superseded_of_live hu.busy
  cases h with
  | note state same => rw [same]
  | claim hu _ _ busy => simp [busy, hbusy hu]
  | complete hu _ ready => simp [ready, hbusy hu]
  | fail hu _ unusable => simp [unusable, hbusy hu]

/-- A conversation that is busy with another task does not move. -/
theorem Move.of_other_active {t t' x : ConversationTask} {c c' : AgentConversation}
    (h : Move t t' c c') (hx : c.activeTaskId = some x.taskId) (hne : x.taskId ≠ t.taskId) :
    c' = c := by
  have hidle : ¬ UnderWay t c := by
    intro hu
    rw [hu.active] at hx
    exact hne (Option.some.inj hx).symm
  cases h with
  | note _ same => exact same
  | claim hu => exact absurd hu hidle
  | complete hu => exact absurd hu hidle
  | fail hu => exact absurd hu hidle

/-- A task and its conversation moved, and nothing else of the two tables. -/
structure Moved (db db' : Db) (t t' : ConversationTask) (c c' : AgentConversation) : Prop
    extends TurnChange db db' t t' c c' where
  origin : t'.origin = t.origin
  conversation_same : SameConversation c c'
  move : Move t t' c c'

/-- What a step does to the tasks and the conversations. -/
inductive TurnStep (env : Env) (db db' : Db) : Prop where
  | same (tasks : db'.conversationTasks.rows = db.conversationTasks.rows)
      (conversations : db'.agentConversations.rows = db.agentConversations.rows)
  | reserved {policy actor turn t c prompt base items context}
      (h : ReservedTurn env db db' policy actor turn t c prompt base items context)
  | moved {t t' c c'} (h : Moved db db' t t' c c')

section Moves

variable {env : Env} {stale update : Prop} {db db' : Db}

/-- The conversation of a live task is busy with it. -/
def LiveTasksBusy (db : Db) : Prop := ∀ t c, Joined db t c → t.state.live = true →
  c.activeTaskId = some t.taskId ∧ SameState t.state c.state

/-- A busy conversation has its task. -/
def ActiveTasksLive (db : Db) : Prop := ∀ c ∈ db.agentConversations.rows, ∀ id,
  c.activeTaskId = some id → ∃ t, Joined db t c ∧ t.taskId = id ∧ SameState t.state c.state

theorem endedTask_origin (error : ConversationError) (txNow : Time) (ordinal : Int)
    (t : ConversationTask) :
    ConversationTask.origin { endedTask error txNow t with lastUpdateOrdinal := ordinal } =
      t.origin := by
  unfold endedTask
  split <;> rfl

theorem endedTask_state {error : ConversationError} {txNow : Time} {t : ConversationTask}
    (h : t.state.live = true) : (endedTask error txNow t).state = .failed := by
  rw [endedTask, if_pos h]

theorem endedTask_of_ended {error : ConversationError} {txNow : Time} {t : ConversationTask}
    (h : t.state.live = false) : endedTask error txNow t = t := by
  rw [endedTask, if_neg (by simp [h])]

theorem releasedConversation_same (task : Uuid) (txNow : Time) (c : AgentConversation) :
    SameConversation c (releasedConversation task txNow c) := by
  unfold releasedConversation
  split <;> exact ⟨rfl, rfl, rfl, rfl⟩

/-- Ending a turn that is under way. -/
theorem Move.of_ended {t : ConversationTask} {c : AgentConversation} (hu : UnderWay t c)
    (error : ConversationError) (txNow : Time) (ordinal : Int) :
    Move t { endedTask error txNow t with lastUpdateOrdinal := ordinal } c
      (releasedConversation t.taskId txNow c) := by
  rw [releasedConversation, if_pos hu.active]
  exact .fail hu (endedTask_state hu.live) rfl rfl rfl

theorem FailedTurn.turnStep {t : ConversationTask} {c : AgentConversation}
    {error : ConversationError} {txNow : Time} {updateId : Uuid} (hbusy : LiveTasksBusy db)
    (hactive : ActiveTasksLive db) (h : FailedTurn db db' t c error txNow updateId) :
    TurnStep env db db' := by
  have hjoined := h.change.toJoined
  refine .moved ⟨h.change, endedTask_origin .., releasedConversation_same .., ?_⟩
  cases hlive : t.state.live with
  | true =>
      obtain ⟨hactive, hsame⟩ := hbusy t c hjoined hlive
      exact .of_ended ⟨hlive, hactive, hsame.live.2⟩ ..
  | false =>
      -- nothing is busy with a task that has ended
      have hidle : c.activeTaskId ≠ some t.taskId := by
        intro hid
        obtain ⟨x, hx, hxid, hsame⟩ := hactive c hjoined.conversation _ hid
        rw [Db.task_unique hx.task hjoined.task hxid] at hsame
        exact absurd hsame.live.1 (by simp [hlive])
      rw [endedTask_of_ended hlive, releasedConversation, if_neg hidle]
      exact .note rfl rfl

theorem Effect.turnStep (hbusy : LiveTasksBusy db) (hactive : ActiveTasksLive db)
    (h : Effect env stale update db db') : TurnStep env db db' := by
  cases h with
  | quiet h => exact .same (by rw [h.tasks]) (by rw [h.conversations])
  | reserved h => exact .reserved h
  | claimed h =>
      exact .moved ⟨h.change, rfl, ⟨rfl, rfl, rfl, rfl⟩,
        .claim h.underWay h.reserved rfl rfl rfl rfl⟩
  | completed _ h =>
      exact .moved ⟨h.change, rfl, ⟨rfl, rfl, rfl, rfl⟩, .complete h.underWay rfl rfl rfl rfl⟩
  | reported _ h =>
      exact .moved ⟨h.change, endedTask_origin .., releasedConversation_same ..,
        .of_ended h.underWay ..⟩
  | noted _ h =>
      obtain ⟨_, _, _, _, change⟩ := h.change
      exact .moved ⟨change, rfl, .refl _, .note rfl rfl⟩
  | failed _ h => exact h.turnStep hbusy hactive
  | staleFailed _ _ h => exact h.turnStep hbusy hactive

end Moves

/-- Rewriting a conversation keeps the generations of its owner. -/
theorem SameConversation.keeps_generations {db : Db} {c c' : AgentConversation}
    (h : SameConversation c c') (hc : c ∈ db.agentConversations.rows) :
    ∀ y ∈ db.agentConversations.rows,
      (alter (conversationIs c.conversationId) (fun _ => c') y).owner = y.owner ∧
        (alter (conversationIs c.conversationId) (fun _ => c') y).generation = y.generation := by
  intro y hy
  cases hid : conversationIs c.conversationId y with
  | true =>
      rw [alter_of_pos hid, Db.conversation_unique hy hc (conversationIs_iff.mp hid)]
      exact ⟨h.owner, h.generation⟩
  | false =>
      rw [alter_of_neg hid]
      exact ⟨rfl, rfl⟩

/-! ### The rows after a move -/

namespace TurnChange

variable {db db' : Db} {t t' x : ConversationTask} {c c' y : AgentConversation}

theorem mem_tasks (h : TurnChange db db' t t' c c') :
    x ∈ db'.conversationTasks.rows ↔
      x = t' ∨ (x ∈ db.conversationTasks.rows ∧ x.taskId ≠ t.taskId) := by
  rw [h.tasks, mem_put h.task (by simp)]
  simp [taskIs]

theorem mem_conversations (h : TurnChange db db' t t' c c') :
    y ∈ db'.agentConversations.rows ↔
      y = c' ∨ (y ∈ db.agentConversations.rows ∧ y.conversationId ≠ c.conversationId) := by
  rw [h.conversations, mem_put h.conversation (by simp)]
  simp [conversationIs]

end TurnChange

namespace Moved

variable {db db' : Db} {t t' x : ConversationTask} {c c' y : AgentConversation}

theorem taskId_eq (m : Moved db db' t t' c c') : t'.taskId = t.taskId :=
  eq_of_origin ConversationTask.taskId (fun _ => rfl) m.origin

theorem contextRevision_eq (m : Moved db db' t t' c c') : t'.contextRevision = t.contextRevision :=
  eq_of_origin ConversationTask.contextRevision (fun _ => rfl) m.origin

theorem joined_new (m : Moved db db' t t' c c') : Joined db' t' c' where
  task := m.mem_tasks.mpr (.inl rfl)
  conversation := m.mem_conversations.mpr (.inl rfl)
  owns := by rw [m.conversation_same.ownsTask, ownsTask_of_origin m.origin, m.owns]

/-- Another task of the conversation. -/
theorem joined_sibling (m : Moved db db' t t' c c') (hx : Joined db x c)
    (hne : x.taskId ≠ t.taskId) : Joined db' x c' where
  task := m.mem_tasks.mpr (.inr ⟨hx.task, hne⟩)
  conversation := m.mem_conversations.mpr (.inl rfl)
  owns := by rw [m.conversation_same.ownsTask, hx.owns]

/-- A task of another conversation. -/
theorem joined_other (m : Moved db db' t t' c c') (hx : Joined db x y)
    (hne : y.conversationId ≠ c.conversationId) : Joined db' x y where
  task := by
    refine m.mem_tasks.mpr (.inr ⟨hx.task, fun hid => hne ?_⟩)
    rw [hx.conversationId_eq, Db.task_unique hx.task m.task hid, m.conversationId_eq]
  conversation := m.mem_conversations.mpr (.inr ⟨hx.conversation, hne⟩)
  owns := hx.owns

theorem joined_cases (m : Moved db db' t t' c c') (hxy : Joined db' x y) :
    (x = t' ∧ y = c') ∨ (Joined db x c ∧ x.taskId ≠ t.taskId ∧ y = c') ∨
      (Joined db x y ∧ x.taskId ≠ t.taskId ∧ y.conversationId ≠ c.conversationId) := by
  rcases m.mem_tasks.mp hxy.task with hx | ⟨hx, hxne⟩
  · rcases m.mem_conversations.mp hxy.conversation with hy | ⟨hy, hyne⟩
    · exact .inl ⟨hx, hy⟩
    · refine absurd ?_ hyne
      have hid := eq_of_origin ConversationTask.conversationId (fun _ => rfl) m.origin
      rw [hxy.conversationId_eq, hx, hid, m.conversationId_eq]
  · rcases m.mem_conversations.mp hxy.conversation with hy | ⟨hy, hyne⟩
    · refine .inr (.inl ⟨⟨hx, m.conversation, ?_⟩, hxne, hy⟩)
      rw [← m.conversation_same.ownsTask, ← hy, hxy.owns]
    · exact .inr (.inr ⟨⟨hx, hy, hxy.owns⟩, hxne, hyne⟩)

end Moved

/-- A task that was not there before was reserved. -/
theorem TurnStep.reserved_of_new {env : Env} {db db' : Db} {u : ConversationTask}
    (h : TurnStep env db db') (hu : u ∈ db'.conversationTasks.rows)
    (hnew : ∀ x ∈ db.conversationTasks.rows, x.taskId ≠ u.taskId) :
    ∃ policy actor turn c prompt base items context,
      ReservedTurn env db db' policy actor turn u c prompt base items context := by
  cases h with
  | same tasks => exact absurd rfl (hnew u (tasks ▸ hu))
  | @reserved policy actor turn t c prompt base items context r =>
      rw [r.tasks, List.mem_append, List.mem_singleton] at hu
      rcases hu with hu | rfl
      · exact absurd rfl (hnew u hu)
      · exact ⟨policy, actor, turn, c, prompt, base, items, context, r⟩
  | moved m =>
      rcases m.mem_tasks.mp hu with rfl | ⟨hu, -⟩
      · exact absurd m.taskId_eq.symm (hnew _ m.task)
      · exact absurd rfl (hnew u hu)

/-! ### The rows after a reservation -/

section Reserved

variable {env : Env} {db db' : Db} {room taskId : Uuid} {base : Int} {c : AgentConversation}
  {rows : List AgentConversation}

/-- The conversations after a reservation, whether it continued one or opened
one: `c` runs the turn, and no other conversation changed while it was busy. -/
structure Rebound (db : Db) (room taskId : Uuid) (base : Int) (c : AgentConversation)
    (rows : List AgentConversation) : Prop where
  mem : c ∈ rows
  owner : c.owner = (room, codexAgentId)
  state : c.state = .reserved
  active : c.activeTaskId = some taskId
  consumed : c.consumedRevision = base
  before : ∀ x ∈ db.agentConversations.rows, x.conversationId = c.conversationId →
    SameConversation x c ∧ x.consumedRevision = base ∧ x.state.live = false
  opened : base = 0 ∨ ∃ x ∈ db.agentConversations.rows, x.conversationId = c.conversationId
  old : ∀ y ∈ rows, y = c ∨ ∃ x ∈ db.agentConversations.rows,
    x.conversationId ≠ c.conversationId ∧ SameConversation x y ∧
    y.consumedRevision = x.consumedRevision ∧
    (y = x ∨ (y.activeTaskId = none ∧ x.state.live = false))
  kept : ∀ x ∈ db.agentConversations.rows, ∃ y ∈ rows, SameConversation x y

theorem mem_supersededRows {now : Time} {y : AgentConversation} :
    y ∈ supersededRows (currentConversation db room) now db.agentConversations.rows ↔
      (∃ x, currentConversation db room = some x ∧ y = supersededConversation x now) ∨
      (y ∈ db.agentConversations.rows ∧
        ∀ x, currentConversation db room = some x → y.conversationId ≠ x.conversationId) := by
  cases hcurrent : currentConversation db room with
  | none => simp [supersededRows]
  | some x =>
      rw [supersededRows, mem_put (currentConversation_some hcurrent).1 (by simp)]
      simp [conversationIs]

/-- Superseding a conversation is a rewrite that keeps the generations. -/
theorem exists_map_supersededRows (db : Db) (room : Uuid) (now : Time) :
    ∃ f : AgentConversation → AgentConversation,
    supersededRows (currentConversation db room) now db.agentConversations.rows =
      db.agentConversations.rows.map f ∧
    ∀ y ∈ db.agentConversations.rows, (f y).owner = y.owner ∧ (f y).generation = y.generation := by
  cases hcurrent : currentConversation db room with
  | none => exact ⟨id, (List.map_id _).symm, fun _ _ => ⟨rfl, rfl⟩⟩
  | some x =>
      have hsame : SameConversation x (supersededConversation x now) := ⟨rfl, rfl, rfl, rfl⟩
      exact ⟨_, rfl, hsame.keeps_generations (currentConversation_some hcurrent).1⟩

theorem BoundConversation.rebound {policy : ConversationPolicy} {settings : Json}
    (h : BoundConversation db policy room taskId base settings c rows) :
    Rebound db room taskId base c rows := by
  cases h with
  | @continued c₀ now current ready base_eq eq rows_eq =>
      obtain ⟨hc₀, hroom, hagent, -⟩ := currentConversation_some current
      have hsame : SameConversation c₀ c := by
        rw [eq]
        exact ⟨rfl, rfl, rfl, rfl⟩
      have hmem : ∀ y, y ∈ rows ↔ y = c ∨ (y ∈ db.agentConversations.rows ∧
          y.conversationId ≠ c₀.conversationId) := by
        intro y
        rw [rows_eq, mem_put hc₀ (by simp)]
        simp [conversationIs]
      refine ⟨(hmem c).mpr (.inl rfl), ?_, by rw [eq], by rw [eq], by rw [eq, base_eq], ?_,
        .inr ⟨c₀, hc₀, hsame.conversationId.symm⟩, ?_, ?_⟩
      · rw [hsame.owner, AgentConversation.owner, hroom, hagent]
      · intro x hx hid
        obtain rfl := Db.conversation_unique hx hc₀ (hid.trans hsame.conversationId)
        exact ⟨hsame, base_eq.symm, by rw [ready]; rfl⟩
      · intro y hy
        rcases (hmem y).mp hy with rfl | ⟨hy, hne⟩
        · exact .inl rfl
        · exact .inr ⟨y, hy, by rwa [hsame.conversationId], .refl y, rfl, .inl rfl⟩
      · intro x hx
        by_cases hid : x.conversationId = c₀.conversationId
        · obtain rfl := Db.conversation_unique hx hc₀ hid
          exact ⟨c, (hmem c).mpr (.inl rfl), hsame⟩
        · exact ⟨x, (hmem x).mpr (.inr ⟨hx, hid⟩), .refl x⟩
  | @opened target now idle base_eq eq generation unused rows_eq =>
      have hlast : c ∈ rows := by
        rw [rows_eq]
        exact List.mem_append_right _ List.mem_cons_self
      refine ⟨hlast, by rw [eq]; rfl, by rw [eq]; rfl, by rw [eq]; rfl, by rw [eq, base_eq]; rfl,
        fun x hx hid => absurd hid (unused x hx), .inl base_eq, ?_, ?_⟩
      · intro y hy
        rw [rows_eq, List.mem_append, mem_supersededRows, List.mem_singleton] at hy
        rcases hy with (⟨x, hx, rfl⟩ | ⟨hy, -⟩) | rfl
        · obtain ⟨hxmem, -⟩ := currentConversation_some hx
          rw [hx, Option.any_some] at idle
          exact .inr ⟨x, hxmem, unused x hxmem, ⟨rfl, rfl, rfl, rfl⟩, rfl, .inr ⟨rfl, idle⟩⟩
        · exact .inr ⟨y, hy, unused y hy, .refl y, rfl, .inl rfl⟩
        · exact .inl rfl
      · intro x hx
        by_cases hcurrent : currentConversation db room = some x
        · refine ⟨supersededConversation x now, ?_, ⟨rfl, rfl, rfl, rfl⟩⟩
          rw [rows_eq, List.mem_append, mem_supersededRows]
          exact .inl (.inl ⟨x, hcurrent, rfl⟩)
        · refine ⟨x, ?_, .refl x⟩
          rw [rows_eq, List.mem_append, mem_supersededRows]
          refine .inl (.inr ⟨hx, fun z hz hid => hcurrent ?_⟩)
          rw [hz, Db.conversation_unique hx (currentConversation_some hz).1 hid]

end Reserved

end RoomGateway
