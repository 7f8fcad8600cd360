import RoomGateway.Spec.Conversations
import RoomGateway.Spec.Window

/-!
A generation's completed turns, in the order in which they were completed, show
windows that follow each other from the start of the log to the generation's
cursor. So each public message up to the cursor was shown exactly once.
-/

namespace RoomGateway

variable {env : Env}

/-! ### The order of completion -/

def Db.isCompleted (db : Db) (task : Uuid) : Bool :=
  db.conversationTasks.rows.any fun t => t.taskId = task && t.state = .completed

/-- The tasks that are completed in the second state and were not in the
first. -/
def newlyCompleted (db db' : Db) : List Uuid :=
  (db'.conversationTasks.rows.map (·.taskId)).filter fun task =>
    db'.isCompleted task && !db.isCompleted task

/-- The tasks that a step completes. -/
def completions (env : Env) (s : Sys) (op : Op) : List Uuid :=
  newlyCompleted s.db ((gateway env).next s op).db

/-- A conversation's tasks among those listed, in that order. -/
def Db.tasksAmong (db : Db) (order : List Uuid) (c : AgentConversation) : List ConversationTask :=
  order.filterMap fun task =>
    db.conversationTasks.rows.find? fun t => t.taskId = task && ownsTask t c

section Order

variable {db db' : Db}

theorem Db.isCompleted_iff {task : Uuid} : db.isCompleted task = true ↔
    ∃ t ∈ db.conversationTasks.rows, t.taskId = task ∧ t.state = .completed := by
  simp [Db.isCompleted]

theorem TasksContinue.isCompleted (h : TasksContinue db db') {task : Uuid}
    (hcompleted : db.isCompleted task = true) : db'.isCompleted task = true := by
  obtain ⟨t, ht, hid, hstate⟩ := Db.isCompleted_iff.mp hcompleted
  obtain ⟨t', ht', hcont⟩ := h t ht
  rw [hcont.completed hstate] at hstate
  exact Db.isCompleted_iff.mpr ⟨t', ht', hcont.taskId_eq.trans hid, hstate⟩

theorem mem_newlyCompleted {task : Uuid} : task ∈ newlyCompleted db db' ↔
    db'.isCompleted task = true ∧ db.isCompleted task = false := by
  simp only [newlyCompleted, List.mem_filter, List.mem_map, Bool.and_eq_true, Bool.not_eq_true',
    and_iff_right_iff_imp]
  rintro ⟨hcompleted, -⟩
  obtain ⟨t, ht, hid, -⟩ := Db.isCompleted_iff.mp hcompleted
  exact ⟨t, ht, hid⟩

theorem Db.taskIds_nodup : (db.conversationTasks.rows.map (·.taskId)).Nodup := by
  refine List.pairwise_map.mpr (db.conversationTasks.unique.imp fun hclash hid => ?_)
  simp [conversationTaskConstraints, hid] at hclash

theorem newlyCompleted_nodup : (newlyCompleted db db').Nodup := Db.taskIds_nodup.filter _

theorem newlyCompleted_eq_nil (h : ∀ task, db'.isCompleted task = true →
    db.isCompleted task = true) : newlyCompleted db db' = [] := by
  refine List.eq_nil_iff_forall_not_mem.mpr fun task htask => ?_
  obtain ⟨hafter, hbefore⟩ := mem_newlyCompleted.mp htask
  rw [h task hafter] at hbefore
  cases hbefore

theorem newlyCompleted_eq_singleton {new : Uuid} (h : ∀ task,
    (db'.isCompleted task = true ∧ db.isCompleted task = false) ↔ task = new) :
    newlyCompleted db db' = [new] := by
  refine List.perm_singleton.mp ((List.perm_ext_iff_of_nodup newlyCompleted_nodup
    (List.nodup_singleton new)).mpr fun task => ?_)
  rw [mem_newlyCompleted, h, List.mem_singleton]

/-- The list has the completed tasks, each once. -/
structure CompletionOrder (db : Db) (order : List Uuid) : Prop where
  mem : ∀ task, task ∈ order ↔ db.isCompleted task = true
  nodup : order.Nodup

theorem CompletionOrder.step {order : List Uuid} (h : CompletionOrder db order)
    (hcont : TasksContinue db db') : CompletionOrder db' (order ++ newlyCompleted db db') where
  mem := by
    intro task
    rw [List.mem_append, h.mem, mem_newlyCompleted]
    constructor
    · rintro (hbefore | ⟨hafter, -⟩)
      · exact hcont.isCompleted hbefore
      · exact hafter
    · intro hafter
      cases hbefore : db.isCompleted task with
      | true => exact .inl rfl
      | false => exact .inr ⟨hafter, rfl⟩
  nodup := by
    rw [List.nodup_append]
    refine ⟨h.nodup, newlyCompleted_nodup, fun task htask other hother heq => ?_⟩
    have hbefore := (h.mem task).mp htask
    rw [heq, (mem_newlyCompleted.mp hother).2] at hbefore
    cases hbefore

/-- A task is found under its id in the conversation that owns it. -/
theorem Db.find?_task {t : ConversationTask} (ht : t ∈ db.conversationTasks.rows)
    (c : AgentConversation) :
    db.conversationTasks.rows.find? (fun x => x.taskId = t.taskId && ownsTask x c) =
      if ownsTask t c then some t else none := by
  split_ifs with howns
  · refine Table.find?_eq_some_of_unique ht (by simp [howns]) fun x hx hcond => ?_
    simp only [Bool.and_eq_true, decide_eq_true_eq] at hcond
    exact Db.task_unique hx ht hcond.1
  · refine List.find?_eq_none.mpr fun x hx hcond => howns ?_
    simp only [Bool.and_eq_true, decide_eq_true_eq] at hcond
    rw [← Db.task_unique hx ht hcond.1]
    exact hcond.2

theorem CompletionOrder.mem_tasksAmong {order : List Uuid} (h : CompletionOrder db order)
    {c : AgentConversation} {t : ConversationTask} : t ∈ db.tasksAmong order c ↔
      t ∈ db.conversationTasks.rows ∧ ownsTask t c = true ∧ t.state = .completed := by
  rw [Db.tasksAmong, List.mem_filterMap]
  constructor
  · rintro ⟨task, htask, hfound⟩
    obtain ⟨x, hx, hid, hstate⟩ := Db.isCompleted_iff.mp ((h.mem task).mp htask)
    rw [← hid, Db.find?_task hx] at hfound
    split_ifs at hfound with howns
    cases hfound
    exact ⟨hx, howns, hstate⟩
  · rintro ⟨ht, howns, hstate⟩
    refine ⟨t.taskId, (h.mem _).mpr (Db.isCompleted_iff.mpr ⟨t, ht, rfl, hstate⟩), ?_⟩
    rw [Db.find?_task ht, if_pos howns]

/-- The listed tasks of a conversation go on as they were. -/
theorem CompletionOrder.tasksAmong_continues {order : List Uuid} (h : CompletionOrder db order)
    (hcont : TasksContinue db db') {c c' : AgentConversation} (hsame : SameConversation c c') :
    List.Forall₂ (fun t t' : ConversationTask => t'.origin = t.origin) (db.tasksAmong order c)
      (db'.tasksAmong order c') := by
  let R : Uuid → Uuid → Prop := fun a b => a = b ∧ db.isCompleted a = true
  have horder : List.Forall₂ R order order :=
    List.forall₂_same.mpr fun task htask => ⟨rfl, (h.mem task).mp htask⟩
  refine List.rel_filterMap ?_ horder
  rintro task _ ⟨rfl, hcompleted⟩
  obtain ⟨t, ht, rfl, -⟩ := Db.isCompleted_iff.mp hcompleted
  obtain ⟨t', ht', hc⟩ := hcont t ht
  beta_reduce
  rw [Db.find?_task ht, ← hc.taskId_eq, Db.find?_task ht', hsame.ownsTask,
    ownsTask_of_origin hc.origin]
  split_ifs
  · exact .some hc.origin
  · exact .none

end Order

/-! ### Windows that follow each other -/

/-- The tasks show consecutive windows, from `base` to `last`. -/
def Windows (env : Env) (db : Db) : Int → List ConversationTask → Int → Prop
  | base, [], last => base = last
  | base, t :: ts, last => Covers env db base t ∧ Windows env db t.contextRevision ts last

namespace Windows

variable {db db' : Db} {base last : Int} {ts ts' : List ConversationTask}

theorem continues (hlog : LogExtends db db') (htasks : TasksContinue db db')
    (hts : List.Forall₂ (fun t t' : ConversationTask => t'.origin = t.origin) ts ts')
    (h : Windows env db base ts last) : Windows env db' base ts' last := by
  induction hts generalizing base with
  | nil => exact h
  | @cons t t' ts ts' horigin _ ih =>
      obtain ⟨hcovers, hrest⟩ := h
      have hrevision : t'.contextRevision = t.contextRevision :=
        eq_of_origin ConversationTask.contextRevision (fun _ => rfl) horigin
      refine ⟨hcovers.continues hlog htasks horigin, ?_⟩
      rw [hrevision]
      exact ih hrest

theorem append {t : ConversationTask} (h : Windows env db base ts last)
    (hcovers : Covers env db last t) : Windows env db base (ts ++ [t]) t.contextRevision := by
  induction ts generalizing base with
  | nil =>
      obtain rfl : base = last := h
      exact ⟨hcovers, rfl⟩
  | cons u ts ih => exact ⟨h.1, ih h.2⟩

theorem le (h : Windows env db base ts last) : base ≤ last := by
  induction ts generalizing base with
  | nil => exact h.le
  | cons t ts ih => exact h.1.advances.le.trans (ih h.2)

/-- The sources of consecutive windows are the messages of the joint window. -/
theorem sources_eq {room : Uuid} (h : Windows env db base ts last)
    (hroom : ∀ t ∈ ts, t.roomId = room) :
    (ts.flatMap fun t => (mergedSources t.frozenInput["context"]).map fun source =>
        source["eventId"]) =
      (publicMessages env db room base last).map fun e => Json.str e.eventId.text := by
  induction ts generalizing base with
  | nil =>
      obtain rfl : base = last := h
      have hnone : publicMessages env db room base base = [] := by
        refine List.eq_nil_iff_forall_not_mem.mpr fun e he => ?_
        obtain ⟨-, hlt, hle, -⟩ := publicMessage_iff.mp (mem_publicMessages.mp he).2
        omega
      rw [hnone]
      rfl
  | cons t ts ih =>
      obtain ⟨hcovers, hrest⟩ := h
      have hshown : (mergedSources t.frozenInput["context"]).map (fun source =>
          source["eventId"]) = (publicMessages env db room base t.contextRevision).map fun e =>
          Json.str e.eventId.text := by
        rw [← hroom t List.mem_cons_self]
        rw [← List.forall₂_eq_eq_eq, List.forall₂_map_left_iff, List.forall₂_map_right_iff]
        exact hcovers.shown.flip.imp fun _ _ hs => hs.eventId
      rw [List.flatMap_cons, hshown, ih hrest fun t ht => hroom t (List.mem_cons_of_mem _ ht),
        ← List.map_append, ← publicMessages_append hcovers.advances.le hrest.le]

end Windows

/-! ### Runs -/

/-- Every conversation has been shown the log up to its cursor, and the turn it
is busy with shows what comes next. -/
structure Disclosed (env : Env) (db : Db) (order : List Uuid) : Prop where
  turns : Turns db
  distinct : DistinctReplies db
  completed : CompletionOrder db order
  windows : ∀ c ∈ db.agentConversations.rows,
    Windows env db 0 (db.tasksAmong order c) c.consumedRevision
  upcoming : ∀ t c, Joined db t c → t.state.live = true → Covers env db c.consumedRevision t

namespace Disclosed

variable {db db' : Db} {order : List Uuid}

/-- The windows of a conversation that completes nothing in the step. -/
theorem windows_kept (h : Disclosed env db order) (hlog : LogExtends db db')
    (htasks : TasksContinue db db') {c c' : AgentConversation}
    (hc : c ∈ db.agentConversations.rows) (hsame : SameConversation c c') :
    Windows env db' 0 (db'.tasksAmong order c') c.consumedRevision :=
  (h.windows c hc).continues hlog htasks (h.completed.tasksAmong_continues htasks hsame)

section Moved

variable {t t' : ConversationTask} {c c' : AgentConversation} (h : Disclosed env db order)
  (hlog : LogExtends db db') (htasks : TasksContinue db db') (m : Moved db db' t t' c c')

include m in
/-- What a move completes: its task, if it completes it. -/
theorem moved_newlyCompleted : newlyCompleted db db' =
    if t'.state = .completed ∧ t.state ≠ .completed then [t.taskId] else [] := by
  have hold : ∀ x ∈ db'.conversationTasks.rows, x.state = .completed →
      x = t' ∨ db.isCompleted x.taskId = true := by
    intro x hx hstate
    refine (m.mem_tasks.mp hx).imp id fun hx => ?_
    exact Db.isCompleted_iff.mpr ⟨x, hx.1, rfl, hstate⟩
  split_ifs with hnew
  · refine newlyCompleted_eq_singleton fun task => ⟨?_, ?_⟩
    · rintro ⟨hafter, hbefore⟩
      obtain ⟨x, hx, hid, hstate⟩ := Db.isCompleted_iff.mp hafter
      rcases hold x hx hstate with rfl | hcompleted
      · exact hid.symm.trans m.taskId_eq
      · rw [hid, hbefore] at hcompleted
        cases hcompleted
    · rintro rfl
      refine ⟨Db.isCompleted_iff.mpr ⟨t', m.joined_new.task, m.taskId_eq, hnew.1⟩, ?_⟩
      rw [← Bool.not_eq_true, Db.isCompleted_iff]
      rintro ⟨x, hx, hid, hstate⟩
      rw [Db.task_unique hx m.task hid] at hstate
      exact hnew.2 hstate
  · refine newlyCompleted_eq_nil fun task hafter => ?_
    obtain ⟨x, hx, hid, hstate⟩ := Db.isCompleted_iff.mp hafter
    rcases hold x hx hstate with rfl | hcompleted
    · have hbefore : t.state = .completed := by
        by_contra hne
        exact hnew ⟨hstate, hne⟩
      exact Db.isCompleted_iff.mpr ⟨t, m.task, m.taskId_eq.symm.trans hid, hbefore⟩
    · rwa [← hid]

include h hlog htasks m

theorem moved_windows : ∀ y ∈ db'.agentConversations.rows,
    Windows env db' 0 (db'.tasksAmong (order ++ newlyCompleted db db') y) y.consumedRevision := by
  have hnew : ∀ y, db'.tasksAmong [t.taskId] y = if ownsTask t' y then [t'] else [] := by
    intro y
    have hfind := Db.find?_task m.joined_new.task y
    rw [m.taskId_eq] at hfind
    rw [Db.tasksAmong, List.filterMap_cons, hfind]
    split_ifs <;> rfl
  have happend : ∀ new y, db'.tasksAmong (order ++ new) y =
      db'.tasksAmong order y ++ db'.tasksAmong new y := fun _ _ => List.filterMap_append
  -- a conversation that keeps its cursor and gets no newly completed task
  have hkept : ∀ y₀ ∈ db.agentConversations.rows, ∀ y, SameConversation y₀ y →
      y.consumedRevision = y₀.consumedRevision → db'.tasksAmong (newlyCompleted db db') y = [] →
      Windows env db' 0 (db'.tasksAmong (order ++ newlyCompleted db db') y)
        y.consumedRevision := by
    intro y₀ hy₀ y hsame hconsumed hnone
    rw [happend, hnone, List.append_nil, hconsumed]
    exact h.windows_kept hlog htasks hy₀ hsame
  have hquiet : ¬ (t'.state = .completed ∧ t.state ≠ .completed) →
      c'.consumedRevision = c.consumedRevision →
      Windows env db' 0 (db'.tasksAmong (order ++ newlyCompleted db db') c')
        c'.consumedRevision := by
    intro hsame hconsumed
    refine hkept c m.conversation c' m.conversation_same hconsumed ?_
    rw [moved_newlyCompleted m, if_neg hsame]
    rfl
  intro y hy
  rcases m.mem_conversations.mp hy with hy | ⟨hy, hne⟩
  · rw [hy]
    cases m.move with
    | note state same =>
        refine hquiet (fun ⟨hafter, hbefore⟩ => hbefore (state ▸ hafter)) ?_
        rw [same]
    | claim _ _ running _ _ consumed => exact hquiet (by simp [running]) consumed
    | fail _ failed _ _ consumed => exact hquiet (by simp [failed]) consumed
    | complete hu completed _ _ consumed =>
        have howns : ownsTask t' c' = true := m.joined_new.owns
        have hcovers := (h.upcoming t c m.toJoined hu.live).continues hlog htasks m.origin
        rw [moved_newlyCompleted m, if_pos ⟨completed, ne_completed_of_live hu.live⟩, happend, hnew,
          if_pos howns, consumed, ← m.contextRevision_eq]
        exact (h.windows_kept hlog htasks m.conversation m.conversation_same).append hcovers
  · refine hkept y hy y (.refl y) rfl ?_
    have howns : ¬ ownsTask t' y = true := by
      intro howns
      have hid := m.joined_new.conversationId_eq
      rw [← (ownsTask_iff.mp howns).1, m.conversation_same.conversationId] at hid
      exact hne hid.symm
    rw [moved_newlyCompleted m]
    split_ifs
    · rw [hnew, if_neg howns]
    · rfl

theorem moved_upcoming : ∀ x y, Joined db' x y → x.state.live = true →
    Covers env db' y.consumedRevision x := by
  intro x y hxy hlive
  have hstep : ∀ {x₀ y₀}, Joined db x₀ y₀ → x₀.state.live = true → x.origin = x₀.origin →
      y.consumedRevision = y₀.consumedRevision → Covers env db' y.consumedRevision x := by
    intro x₀ y₀ hj hlive₀ horigin hconsumed
    rw [hconsumed]
    exact (h.upcoming x₀ y₀ hj hlive₀).continues hlog htasks horigin
  rcases m.joined_cases hxy with ⟨rfl, rfl⟩ | ⟨hx, hne, rfl⟩ | ⟨hx, -, -⟩
  · cases m.move with
    | note state same => exact hstep m.toJoined (state ▸ hlive) m.origin (by rw [same])
    | claim hu _ _ _ _ consumed => exact hstep m.toJoined hu.live m.origin consumed
    | complete _ completed =>
        rw [completed] at hlive
        cases hlive
    | fail _ failed =>
        rw [failed] at hlive
        cases hlive
  · refine hstep hx hlive rfl ?_
    rw [m.move.of_other_active (h.turns.busy x c hx hlive).1 hne]
  · exact hstep hx hlive rfl rfl

end Moved

section Reserved

variable {policy : ConversationPolicy} {actor : Actor} {turn : TurnRequest} {t : ConversationTask}
  {c : AgentConversation} {prompt : RoomEvent} {base : Int} {items : List ContextItem}
  {context : Json} (h : Disclosed env db order) (hlog : LogExtends db db')
  (htasks : TasksContinue db db')
  (r : ReservedTurn env db db' policy actor turn t c prompt base items context)

include r in
theorem reserved_newlyCompleted : newlyCompleted db db' = [] := by
  refine newlyCompleted_eq_nil fun task hafter => ?_
  obtain ⟨x, hx, hid, hstate⟩ := Db.isCompleted_iff.mp hafter
  rw [r.tasks, List.mem_append, List.mem_singleton] at hx
  rcases hx with hx | rfl
  · exact Db.isCompleted_iff.mpr ⟨x, hx, hid, hstate⟩
  · rw [r.task_state] at hstate
    cases hstate

include h hlog htasks r

theorem reserved_windows : ∀ y ∈ db'.agentConversations.rows,
    Windows env db' 0 (db'.tasksAmong order y) y.consumedRevision := by
  have hb := r.bound.rebound
  -- a conversation from before the reservation keeps its cursor
  have hkept : ∀ y₀ ∈ db.agentConversations.rows, ∀ y, SameConversation y₀ y →
      y.consumedRevision = y₀.consumedRevision →
      Windows env db' 0 (db'.tasksAmong order y) y.consumedRevision := by
    intro y₀ hy₀ y hsame hconsumed
    rw [hconsumed]
    exact h.windows_kept hlog htasks hy₀ hsame
  intro y hy
  rcases hb.old y hy with rfl | ⟨y₀, hy₀, -, hsame, hconsumed, -⟩
  · by_cases hexists : ∃ x ∈ db.agentConversations.rows, x.conversationId = y.conversationId
    · obtain ⟨x, hx, hid⟩ := hexists
      obtain ⟨hsame, hconsumed, -⟩ := hb.before x hx hid
      exact hkept x hx y hsame (hb.consumed.trans hconsumed.symm)
    · -- a generation that was just opened has completed nothing
      have hbase : base = 0 := hb.opened.resolve_right hexists
      have hnone : db'.tasksAmong order y = [] := by
        refine List.eq_nil_iff_forall_not_mem.mpr fun x hx => hexists ?_
        have horder := h.completed.step htasks
        rw [reserved_newlyCompleted r, List.append_nil] at horder
        obtain ⟨hx, howns, hstate⟩ := horder.mem_tasksAmong.mp hx
        rcases h.turns.reserved_cases r ⟨hx, hy, howns⟩ with ⟨rfl, -⟩ | ⟨y₀, hj, hsame, -⟩
        · rw [r.task_state] at hstate
          cases hstate
        · exact ⟨y₀, hj.conversation, hsame.conversationId.symm⟩
      rw [hnone, hb.consumed, hbase]
      rfl
  · exact hkept y₀ hy₀ y hsame hconsumed

theorem reserved_upcoming : ∀ x y, Joined db' x y → x.state.live = true →
    Covers env db' y.consumedRevision x := by
  intro x y hxy hlive
  rcases h.turns.reserved_live r hxy hlive with ⟨rfl, rfl⟩ | hx
  · rw [r.bound.rebound.consumed]
    exact .of_reserved h.distinct htasks r
  · exact (h.upcoming x y hx hlive).continues hlog htasks rfl

end Reserved

theorem same (h : Disclosed env db order) (hlog : LogExtends db db')
    (htasks : TasksContinue db db') (hturns : Turns db') (hdistinct : DistinctReplies db')
    (tasks : db'.conversationTasks.rows = db.conversationTasks.rows)
    (conversations : db'.agentConversations.rows = db.agentConversations.rows) :
    Disclosed env db' (order ++ newlyCompleted db db') := by
  have hnone : newlyCompleted db db' = [] := by
    refine newlyCompleted_eq_nil fun task hafter => ?_
    rwa [Db.isCompleted, tasks] at hafter
  refine ⟨hturns, hdistinct, h.completed.step htasks, fun y hy => ?_, fun x y hxy hlive => ?_⟩
  · rw [hnone, List.append_nil]
    exact h.windows_kept hlog htasks (conversations ▸ hy) (.refl y)
  · have hold : Joined db x y := ⟨tasks ▸ hxy.task, conversations ▸ hxy.conversation, hxy.owns⟩
    exact (h.upcoming x y hold hlive).continues hlog htasks rfl

theorem step (h : Disclosed env db order) (hlog : LogExtends db db')
    (htasks : TasksContinue db db') (hdistinct : DistinctReplies db')
    (hstep : TurnStep env db db') : Disclosed env db' (order ++ newlyCompleted db db') := by
  have hturns := h.turns.step hstep
  have horder := h.completed.step htasks
  cases hstep with
  | same tasks conversations => exact h.same hlog htasks hturns hdistinct tasks conversations
  | reserved r =>
      refine ⟨hturns, hdistinct, horder, ?_, h.reserved_upcoming hlog htasks r⟩
      rw [reserved_newlyCompleted r, List.append_nil]
      exact h.reserved_windows hlog htasks r
  | moved m =>
      exact ⟨hturns, hdistinct, horder, h.moved_windows hlog htasks m,
        h.moved_upcoming hlog htasks m⟩

end Disclosed

/-- The completed tasks of a run, in the order of their completion. -/
def completionOrder (env : Env) (ops : List Op) : List Uuid :=
  (gateway env).collect (completions env) (gateway env).init ops

theorem gateway_disclosed (env : Env) (ops : List Op) :
    Disclosed env ((gateway env).run ops).db (completionOrder env ops) ∧
      Answered env ((gateway env).run ops).db := by
  refine Machine.collect_invariant
    (P := fun (s : Sys) order => Disclosed env s.db order ∧ Answered env s.db) ?_ ?_ ops
  · refine ⟨⟨Turns.init, by simp [DistinctReplies, gateway], ⟨?_, List.nodup_nil⟩, ?_, ?_⟩,
      Answered.init⟩
    · simp [Db.isCompleted, gateway]
    · simp [gateway]
    · exact fun t c hj => absurd hj.task (by simp [gateway])
  · rintro s order op ⟨h, hanswered⟩
    have heffect : Effect env _ _ s.db ((gateway env).next s op).db := gateway_effect s op
    have hanswered' := hanswered.step heffect.replyStep
    exact ⟨h.step heffect.log heffect.tasksContinue hanswered'.distinct
      (gateway_turnStep h.turns op), hanswered'⟩

/-- What a generation has been shown: the windows of its completed turns follow
each other up to its cursor, and together they show each public message once. -/
structure ShownOnce (env : Env) (db : Db) (order : List Uuid) (c : AgentConversation) : Prop where
  completed : ∀ t, t ∈ db.tasksAmong order c ↔
    t ∈ db.conversationTasks.rows ∧ ownsTask t c = true ∧ t.state = .completed
  windows : Windows env db 0 (db.tasksAmong order c) c.consumedRevision
  shown : ((db.tasksAmong order c).flatMap fun t =>
      (mergedSources t.frozenInput["context"]).map fun source => source["eventId"]) =
    (publicMessages env db c.roomId 0 c.consumedRevision).map fun e => Json.str e.eventId.text
  once : ((publicMessages env db c.roomId 0 c.consumedRevision).map (·.eventId)).Nodup

theorem generation_shown_once (env : Env) (ops : List Op) :
    (completionOrder env ops).Nodup ∧
      ∀ c ∈ ((gateway env).run ops).db.agentConversations.rows,
        ShownOnce env ((gateway env).run ops).db (completionOrder env ops) c := by
  have h := (gateway_disclosed env ops).1
  refine ⟨h.completed.nodup, fun c hc => ?_⟩
  refine ⟨fun t => h.completed.mem_tasksAmong, h.windows c hc, ?_, ?_⟩
  · refine (h.windows c hc).sources_eq fun t ht => ?_
    obtain ⟨-, howns, -⟩ := h.completed.mem_tasksAmong.mp ht
    exact (ownsTask_iff.mp howns).2.1.symm
  · refine List.pairwise_map.mpr ((publicMessages_ascending ..).imp_of_mem ?_)
    intro a b ha hb hlt hid
    rw [Db.eventId_unique (mem_publicMessages.mp ha).1 (mem_publicMessages.mp hb).1 hid] at hlt
    exact lt_irrefl _ hlt

end RoomGateway
