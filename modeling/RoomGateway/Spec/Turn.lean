import RoomGateway.Model.Turn
import RoomGateway.Spec.Writes

/-!
What the calls on a reserved turn do to the tables: a claim, a failure, a
completion and an update in between each rewrite one task row and the row of
its conversation, and add at most one retained update.
-/

namespace RoomGateway

open Table

def taskIs (id : Uuid) (t : ConversationTask) : Bool := t.taskId = id

def conversationIs (id : Uuid) (c : AgentConversation) : Bool := c.conversationId = id

@[simp] theorem taskIs_iff {id : Uuid} {t : ConversationTask} :
    taskIs id t = true ↔ t.taskId = id := by simp [taskIs]

@[simp] theorem conversationIs_iff {id : Uuid} {c : AgentConversation} :
    conversationIs id c = true ↔ c.conversationId = id := by simp [conversationIs]

theorem Db.task_unique {db : Db} {a b : ConversationTask} (ha : a ∈ db.conversationTasks.rows)
    (hb : b ∈ db.conversationTasks.rows) (h : a.taskId = b.taskId) : a = b :=
  eq_of_clash ha hb (by simp [conversationTaskConstraints, h])
    (by simp [conversationTaskConstraints, h])

theorem Db.conversation_unique {db : Db} {a b : AgentConversation}
    (ha : a ∈ db.agentConversations.rows) (hb : b ∈ db.agentConversations.rows)
    (h : a.conversationId = b.conversationId) : a = b :=
  eq_of_clash ha hb (by simp [agentConversationConstraints, h])
    (by simp [agentConversationConstraints, h])

/-- An alteration of one conversation's row, possibly under a further
condition. -/
theorem Db.alter_conversation {db : Db} {c : AgentConversation}
    (hc : c ∈ db.agentConversations.rows) {q : AgentConversation → Bool}
    {f : AgentConversation → AgentConversation}
    (hq : ∀ x, q x = true → x.conversationId = c.conversationId) :
    db.agentConversations.rows.map (alter q f) =
      put (conversationIs c.conversationId) (alter q f c) db.agentConversations.rows := by
  apply map_alter_eq_put
  · intro x hx hid
    exact Db.conversation_unique hx hc (conversationIs_iff.mp hid)
  · intro x hx
    exact conversationIs_iff.mpr (hq x hx)

/-! ### The row of a task -/

/-- A task of the table and the conversation it belongs to. -/
structure Joined (db : Db) (t : ConversationTask) (c : AgentConversation) : Prop where
  task : t ∈ db.conversationTasks.rows
  conversation : c ∈ db.agentConversations.rows
  owns : ownsTask t c = true

theorem ownsTask_iff {t : ConversationTask} {c : AgentConversation} :
    ownsTask t c = true ↔ c.conversationId = t.conversationId ∧ c.roomId = t.roomId ∧
      c.agentId = t.agentId ∧ c.generation = t.generation := by
  simp [ownsTask, and_assoc]

theorem Joined.conversationId_eq {db : Db} {t : ConversationTask} {c : AgentConversation}
    (h : Joined db t c) : c.conversationId = t.conversationId :=
  (ownsTask_iff.mp h.owns).1

theorem findTask_some {db : Db} {id : Uuid} {t : ConversationTask} (h : findTask db id = some t) :
    t ∈ db.conversationTasks.rows ∧ t.taskId = id ∧ t.agentId = codexAgentId := by
  have hcond := List.find?_some h
  simp only [Bool.and_eq_true, decide_eq_true_eq] at hcond
  exact ⟨List.mem_of_find?_eq_some h, hcond.1, hcond.2⟩

theorem joinedTask_some {db : Db} {id : Uuid} {row : TaskRow} (h : joinedTask db id = some row) :
    ∃ c, Joined db row.task c ∧ row.task.taskId = id ∧ row.task.agentId = codexAgentId ∧
      row.conversationState = c.state ∧ row.activeTaskId = c.activeTaskId := by
  simp only [joinedTask, Option.bind_eq_bind, Option.bind_eq_some_iff, Option.some.injEq] at h
  obtain ⟨t, ht, c, hc, rfl⟩ := h
  obtain ⟨hmem, hid, hagent⟩ := findTask_some ht
  exact ⟨c, ⟨hmem, List.mem_of_find?_eq_some hc, List.find?_some hc⟩, hid, hagent, rfl, rfl⟩

theorem findTask_of_joinedTask {db : Db} {id : Uuid} {row : TaskRow}
    (h : joinedTask db id = some row) : findTask db id = some row.task := by
  simp only [joinedTask, Option.bind_eq_bind, Option.bind_eq_some_iff, Option.some.injEq] at h
  obtain ⟨t, ht, _, _, rfl⟩ := h
  exact ht

theorem taskInTransaction_ok {db db' : Db} {task : Uuid} {row : TaskRow}
    (h : (taskInTransaction task).exec db = .ok (row, db')) :
    joinedTask db task = some row ∧ db = db' := by
  simp only [taskInTransaction, Prog.exec_bind_ok, Prog.exec_query_ok, Prog.exec_orFail_ok] at h
  obtain ⟨r, u, ⟨rfl, rfl⟩, hrow, rfl⟩ := h
  exact ⟨hrow, rfl⟩

theorem lockRoom_ok {room : Uuid} {db db' : Db} {u : Unit}
    (h : ((lockRoom room).mapErr ConversationError.ofStore).exec db = .ok (u, db')) : db = db' := by
  simpa [lockRoom, Prog.exec_mapErr_ok, Prog.exec_acquire_ok] using h

/-! ### Changing one turn -/

/-- One task and its conversation were rewritten, and nothing else of the two
tables. -/
structure TurnChange (db db' : Db) (t t' : ConversationTask) (c c' : AgentConversation) : Prop
    extends Joined db t c where
  tasks : db'.conversationTasks.rows = put (taskIs t.taskId) t' db.conversationTasks.rows
  conversations : db'.agentConversations.rows =
    put (conversationIs c.conversationId) c' db.agentConversations.rows

section Joined

variable {db : Db} {t : ConversationTask} {c : AgentConversation}

/-- An alteration of the task's row, possibly under a further condition. -/
theorem Joined.alter_tasks (h : Joined db t c) {q : ConversationTask → Bool}
    {f : ConversationTask → ConversationTask} (hq : ∀ x, q x = true → x.taskId = t.taskId) :
    db.conversationTasks.rows.map (alter q f) =
      put (taskIs t.taskId) (alter q f t) db.conversationTasks.rows := by
  apply map_alter_eq_put
  · intro x hx hid
    exact Db.task_unique hx h.task (taskIs_iff.mp hid)
  · intro x hx
    exact taskIs_iff.mpr (hq x hx)

theorem Joined.put_tasks (h : Joined db t c) :
    put (taskIs t.taskId) t db.conversationTasks.rows = db.conversationTasks.rows :=
  put_self fun _ hx hid => Db.task_unique hx h.task (taskIs_iff.mp hid)

theorem Joined.put_conversations (h : Joined db t c) :
    put (conversationIs c.conversationId) c db.agentConversations.rows =
      db.agentConversations.rows :=
  put_self fun _ hx hid => Db.conversation_unique hx h.conversation (conversationIs_iff.mp hid)

end Joined

/-- A further alteration of a task's row that was already rewritten. -/
theorem alter_put_tasks {rows : List ConversationTask} {t new : ConversationTask}
    {q : ConversationTask → Bool} {f : ConversationTask → ConversationTask}
    (hq : ∀ x, q x = true → x.taskId = t.taskId) :
    (put (taskIs t.taskId) new rows).map (alter q f) =
      put (taskIs t.taskId) (alter q f new) rows :=
  map_alter_put fun x hx => taskIs_iff.mpr (hq x hx)

/-! ### Failing a task -/

/-- A task after `failTaskState`: failed, if it was under way. -/
def endedTask (error : ConversationError) (txNow : Time) (t : ConversationTask) :
    ConversationTask :=
  if t.state.live then
    { t with
      state := .failed
      failure := some (.obj [("code", error.code), ("message", error.code)])
      updatedAt := pgTime txNow }
  else t

@[simp] theorem endedTask_taskId (error : ConversationError) (txNow : Time)
    (t : ConversationTask) : (endedTask error txNow t).taskId = t.taskId := by
  unfold endedTask
  split <;> rfl

/-- A conversation after `failTaskState`: unusable, if it was busy with the
task. -/
def releasedConversation (task : Uuid) (txNow : Time) (c : AgentConversation) :
    AgentConversation :=
  if c.activeTaskId = some task then
    { c with state := .unusable, activeTaskId := none, updatedAt := pgTime txNow }
  else c

theorem failTaskState_ok {db db' : Db} {row : TaskRow} {c : AgentConversation}
    {error : ConversationError} {txNow : Time} {u : Unit} (hrow : Joined db row.task c)
    (h : (failTaskState row error txNow).exec db = .ok (u, db')) :
    ∃ ts cs, db' = { db with conversationTasks := ts, agentConversations := cs } ∧
      TurnChange db db' row.task (endedTask error txNow row.task) c
        (releasedConversation row.task.taskId txNow c) := by
  simp only [failTaskState, Prog.exec_bind_ok, Prog.exec_execute_ok] at h
  obtain ⟨-, mid, htasks, hconvs⟩ := h
  obtain ⟨ts, hts, rfl⟩ := Db.updateConversationTasks_some htasks
  obtain ⟨cs, hcs, rfl⟩ := Db.updateAgentConversations_some hconvs
  refine ⟨ts, cs, rfl, hrow, ?_, ?_⟩
  · change ts.rows = _
    rw [hts, hrow.alter_tasks (by simp +contextual)]
    simp [endedTask, alter]
  · change cs.rows = _
    rw [hcs, Db.alter_conversation hrow.conversation (by simp +contextual [hrow.conversationId_eq])]
    simp [releasedConversation, alter, hrow.conversationId_eq]

/-- What `failTask` does: the row of a failure is retained and the ordinal moves
on, whatever the state of the task. -/
structure FailedTurn (db db' : Db) (t : ConversationTask) (c : AgentConversation)
    (error : ConversationError) (txNow : Time) (updateId : Uuid) : Prop where
  change : TurnChange db db' t
    { endedTask error txNow t with lastUpdateOrdinal := t.lastUpdateOrdinal + 1 } c
    (releasedConversation t.taskId txNow c)
  updates : db'.conversationUpdates.rows = db.conversationUpdates.rows ++
    [updateRow t.roomId t updateId (t.lastUpdateOrdinal + 1) .failed txNow
      (.obj [("code", error.code)])]
  frame : ∃ ts cs us, db' = { db with
    conversationTasks := ts, agentConversations := cs, conversationUpdates := us }

theorem FailedTurn.events {db db' : Db} {t : ConversationTask} {c : AgentConversation}
    {error : ConversationError} {txNow : Time} {updateId : Uuid}
    (h : FailedTurn db db' t c error txNow updateId) : db'.roomEvents = db.roomEvents := by
  obtain ⟨_, _, _, rfl⟩ := h.frame
  rfl

theorem failTask_ok {db db' : Db} {row : TaskRow} {c : AgentConversation}
    {error : ConversationError} {txNow : Time} {updateId : Uuid} {u : Unit}
    (hrow : Joined db row.task c)
    (h : (failTask row error txNow updateId).exec db = .ok (u, db')) :
    FailedTurn db db' row.task c error txNow updateId := by
  simp only [failTask, setLastOrdinal, Prog.exec_bind_ok, Prog.exec_ensure_ok,
    Prog.exec_execute_ok] at h
  obtain ⟨_, mid, hstate, _, _, ⟨-, rfl⟩, _, mid2, hinsert, hlast⟩ := h
  obtain ⟨ts, cs, rfl, hchange⟩ := failTaskState_ok hrow hstate
  obtain ⟨us, hus, rfl⟩ := Db.insertConversationUpdate_some hinsert
  obtain ⟨ts', hts', rfl⟩ := Db.updateConversationTasks_some hlast
  refine ⟨⟨hrow, ?_, hchange.conversations⟩, hus, ts', cs, us, rfl⟩
  change ts'.rows = _
  rw [hts']
  change ts.rows.map _ = _
  rw [show ts.rows = _ from hchange.tasks, alter_put_tasks (by simp)]
  simp [alter]

/-! ### Authority -/

/-- The turn is under way: its task is live and its conversation is busy with
it. -/
structure UnderWay (t : ConversationTask) (c : AgentConversation) : Prop where
  live : t.state.live = true
  active : c.activeTaskId = some t.taskId
  busy : c.state.live = true

section Authority

variable {policy : ConversationPolicy} {row : TaskRow} {lease : Option Uuid} {now : Time}
  {claim : Bool} {u : Unit}

theorem taskAuthority_ok (h : taskAuthority policy row lease claim now = .ok u) :
    row.task.state.live = true ∧ row.activeTaskId = some row.task.taskId ∧
      row.conversationState.live = true ∧
      (claim = true → row.task.state = .reserved ∧ row.task.leaseToken = none) ∧
      (claim = false → ∃ token, lease = some token ∧ row.task.leaseToken = some token) := by
  cases henabled : requireEnabled policy row.task.agentId with
  | error e => simp [taskAuthority, henabled] at h
  | ok _ =>
    simp only [taskAuthority, henabled] at h
    split_ifs at h with hpolicy hauth hexpires hlive hclaim hreserved hlease hexpiry
    · simp only [Bool.or_eq_true, not_or, Bool.not_eq_true', decide_eq_true_eq, not_not,
        Bool.not_eq_false] at hlive hreserved
      refine ⟨hlive.1.1, hlive.1.2, hlive.2, fun _ => ⟨hreserved.1, ?_⟩, ?_⟩
      · simpa using hreserved.2
      · simp [hclaim]
    · simp only [Bool.or_eq_true, not_or, Bool.not_eq_true', decide_eq_true_eq, not_not,
        Bool.not_eq_false] at hlive hlease
      refine ⟨hlive.1.1, hlive.1.2, hlive.2, by simp [hclaim], fun _ => ?_⟩
      cases lease with
      | none => simp at hlease
      | some token => exact ⟨token, rfl, hlease.2⟩

theorem taskAuthority_underWay {c : AgentConversation}
    (h : taskAuthority policy row lease claim now = .ok u)
    (hstate : row.conversationState = c.state) (hactive : row.activeTaskId = c.activeTaskId) :
    UnderWay row.task c := by
  obtain ⟨hlive, hact, hbusy, -⟩ := taskAuthority_ok h
  exact ⟨hlive, hactive ▸ hact, hstate ▸ hbusy⟩

/-- The policy of the turn is still in force. -/
theorem taskAuthority_policy (h : taskAuthority policy row lease claim now = .ok u) :
    policyCurrent policy row.task = true := by
  by_contra hpolicy
  cases henabled : requireEnabled policy row.task.agentId with
  | error e => simp [taskAuthority, henabled] at h
  | ok _ => simp [taskAuthority, henabled, Bool.eq_false_iff.mpr hpolicy] at h

end Authority

/-! ### Claiming -/

/-- The tables that no call on a turn touches. -/
structure SameRoomTables (db db' : Db) : Prop where
  decisions : db'.decisions = db.decisions
  ledger : db'.roomRequests = db.roomRequests
  agentTasks : db'.agentTasks = db.agentTasks
  agentTaskUpdates : db'.agentTaskUpdates = db.agentTaskUpdates

def claimedTask (t : ConversationTask) (owner : String) (token : Uuid) (leaseExpiry txNow : Time) :
    ConversationTask :=
  { t with
    state := .running
    leaseOwner := some owner
    leaseToken := some token
    leaseExpiresAt := some (pgTime leaseExpiry)
    updatedAt := pgTime txNow }

/-- A reserved task was handed to a worker. -/
structure ClaimedTurn (db db' : Db) (t : ConversationTask) (c : AgentConversation)
    (owner : String) (token : Uuid) (leaseExpiry txNow : Time) : Prop where
  underWay : UnderWay t c
  reserved : t.state = .reserved
  unclaimed : t.leaseToken = none
  change : TurnChange db db' t (claimedTask t owner token leaseExpiry txNow) c
    { c with state := .running, updatedAt := pgTime txNow }
  frame : ∃ ts cs, db' = { db with conversationTasks := ts, agentConversations := cs }

theorem claimLocked_ok {env : Env} {policy : ConversationPolicy} {owner : String}
    {task room : Uuid} {txNow now : Time} {fresh : Uuid} {db db' : Db}
    {ending : Ending ConversationError (Option Claimed)}
    (h : (claimLocked env policy owner task room txNow now fresh).exec db = .ok (ending, db')) :
    ∃ row c, joinedTask db task = some row ∧ Joined db row.task c ∧
      ((∃ error, ending = .commit (.ok none) ∧
          taskAuthority policy row none true now = .error error ∧
          FailedTurn db db' row.task c error txNow fresh) ∨
        ∃ leaseExpiry,
          ending = .commit (.ok (some
            ⟨leasedPacket env row.task (some owner) (some leaseExpiry), fresh⟩)) ∧
          taskAuthority policy row none true now = .ok () ∧
          leaseExpiry = min (row.task.expiresAt + seconds policy.interruptGraceSeconds)
            row.task.authorizationExpiresAt ∧
          ClaimedTurn db db' row.task c owner fresh leaseExpiry txNow) := by
  simp only [claimLocked, Prog.exec_bind_ok] at h
  obtain ⟨_, db1, hlock, row, db2, hrow, h⟩ := h
  obtain rfl := lockRoom_ok hlock
  obtain ⟨hfound, rfl⟩ := taskInTransaction_ok hrow
  obtain ⟨c, hjoined, -, -, hstate, hactive⟩ := joinedTask_some hfound
  refine ⟨row, c, hfound, hjoined, ?_⟩
  cases hauth : taskAuthority policy row none true now with
  | error error =>
      rw [hauth] at h
      simp only [Prog.exec_bind_ok, Prog.exec_pure_ok] at h
      obtain ⟨_, db3, hfail, rfl, rfl⟩ := h
      exact .inl ⟨error, rfl, rfl, failTask_ok hjoined hfail⟩
  | ok _ =>
      rw [hauth] at h
      simp only [Prog.exec_bind_ok, Prog.exec_execute_ok, Prog.exec_ofExcept_ok,
        Prog.exec_pure_ok] at h
      obtain ⟨_, db3, htasks, _, db4, hconvs, _, _, ⟨-, rfl⟩, rfl, rfl⟩ := h
      obtain ⟨ts, hts, rfl⟩ := Db.updateConversationTasks_some htasks
      obtain ⟨cs, hcs, rfl⟩ := Db.updateAgentConversations_some hconvs
      obtain ⟨hreserved, htoken⟩ := (taskAuthority_ok hauth).2.2.2.1 rfl
      refine .inr ⟨_, rfl, rfl, rfl, taskAuthority_underWay hauth hstate hactive, hreserved, htoken,
        ⟨hjoined, ?_, ?_⟩, ts, cs, rfl⟩
      · change ts.rows = _
        rw [hts, hjoined.alter_tasks (by simp)]
        simp [alter, claimedTask]
      · change cs.rows = _
        rw [hcs, Db.alter_conversation hjoined.conversation (by simp [hjoined.conversationId_eq])]
        simp [alter, hjoined.conversationId_eq]

section Packet

variable {env : Env} {policy : ConversationPolicy} {task lease : Uuid} {txNow now : Time}
  {fresh : Uuid} {db db' : Db}

/-- The packet is read under the lease: it is returned, or the turn fails. -/
theorem packet_exec {e : Ending ConversationError Json}
    (h : (packet env policy task lease txNow now fresh).exec db = .ok (e, db')) :
    ∃ row c, joinedTask db task = some row ∧ Joined db row.task c ∧
      row.task.leaseToken = some lease ∧
      ((∃ error, row.task.state.live = true ∧ e = .commit (.error error) ∧
          FailedTurn db db' row.task c error txNow fresh) ∨
        e = .rollback (leasedPacket env row.task row.task.leaseOwner row.task.leaseExpiresAt)) := by
  simp only [packet, Prog.exec_bind_ok, Prog.exec_query_ok, Prog.exec_orFail_ok] at h
  obtain ⟨_, _, ⟨rfl, rfl⟩, found, _, ⟨-, rfl⟩, _, db1, hlock, row, db2, hrow, h⟩ := h
  obtain rfl := lockRoom_ok hlock
  obtain ⟨hfound, rfl⟩ := taskInTransaction_ok hrow
  obtain ⟨c, hjoined, -⟩ := joinedTask_some hfound
  refine ⟨row, c, hfound, hjoined, ?_⟩
  cases hauth : taskAuthority policy row (some lease) false now with
  | error error =>
      rw [hauth] at h
      simp only [Prog.exec_ite] at h
      split_ifs at h with hends
      · simp only [Bool.and_eq_true, decide_eq_true_eq] at hends
        simp only [Prog.exec_bind_ok, Prog.exec_pure_ok] at h
        obtain ⟨_, db3, hfail, rfl, rfl⟩ := h
        exact ⟨hends.1.1, .inl ⟨error, hends.2, rfl, failTask_ok hjoined hfail⟩⟩
      · simp [Prog.exec] at h
  | ok _ =>
      rw [hauth] at h
      simp only [Prog.exec_bind_ok, Prog.exec_ofExcept_ok, Prog.exec_pure_ok] at h
      obtain ⟨_, _, -, rfl, -⟩ := h
      obtain ⟨token, htoken, hlease⟩ := (taskAuthority_ok hauth).2.2.2.2 rfl
      cases htoken
      exact ⟨hlease, .inr rfl⟩

theorem packet_ok {r : Except ConversationError Json}
    (h : (packet env policy task lease txNow now fresh).exec db = .ok (.commit r, db')) :
    ∃ row c error, joinedTask db task = some row ∧ Joined db row.task c ∧
      row.task.leaseToken = some lease ∧ row.task.state.live = true ∧ r = .error error ∧
      FailedTurn db db' row.task c error txNow fresh := by
  obtain ⟨row, c, hfound, hjoined, hlease, ⟨error, hlive, hr, hturn⟩ | hr⟩ := packet_exec h
  · cases hr
    exact ⟨row, c, error, hfound, hjoined, hlease, hlive, rfl, hturn⟩
  · cases hr

/-- A packet that is returned is that of a task under the lease. -/
theorem packet_rollback {value : Json}
    (h : (packet env policy task lease txNow now fresh).exec db = .ok (.rollback value, db')) :
    ∃ t c, Joined db t c ∧ t.leaseToken = some lease ∧
      value = leasedPacket env t t.leaseOwner t.leaseExpiresAt := by
  obtain ⟨row, c, -, hjoined, hlease, ⟨error, -, hr, -⟩ | hr⟩ := packet_exec h
  · cases hr
  · cases hr
    exact ⟨row.task, c, hjoined, hlease, rfl⟩

end Packet

end RoomGateway
