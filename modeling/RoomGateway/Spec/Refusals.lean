import RoomGateway.Spec.Turns

/-!
What a refused call of a worker leaves behind: nothing, or the end of the turn
whose lease it presented, recorded as such. Asking again for what was already
recorded changes nothing, whether the request is the one that was recorded or
another under its id.
-/

namespace RoomGateway

open Table

variable {env : Env} {db db' : Db}

/-- A worker's call ended its turn: the task failed with the error, its
conversation was given up, and the failure was recorded under the next ordinal;
nothing else changed. -/
structure EndedByCall (db db' : Db) (task lease : Uuid) (error : ConversationError) (txNow : Time)
    (updateId : Uuid) (t : ConversationTask) (c : AgentConversation) : Prop where
  joined : Joined db t c
  taskId_eq : t.taskId = task
  leased : t.leaseToken = some lease
  live : t.state.live = true
  tasks : db'.conversationTasks.rows = put (taskIs t.taskId)
    { t with
      state := .failed
      failure := some (.obj [("code", error.code), ("message", error.code)])
      updatedAt := pgTime txNow
      lastUpdateOrdinal := t.lastUpdateOrdinal + 1 } db.conversationTasks.rows
  conversations : db'.agentConversations.rows = put (conversationIs c.conversationId)
    { c with state := .unusable, activeTaskId := none, updatedAt := pgTime txNow }
    db.agentConversations.rows
  updates : db'.conversationUpdates.rows = db.conversationUpdates.rows ++
    [updateRow t.roomId t updateId (t.lastUpdateOrdinal + 1) .failed txNow
      (.obj [("code", error.code)])]
  frame : ∃ ts cs us, db' = { db with
    conversationTasks := ts, agentConversations := cs, conversationUpdates := us }

/-- What a failed call changed. -/
def RefusedCleanly (db db' : Db) (task lease : Uuid) (error : ConversationError) (txNow : Time)
    (updateId : Uuid) : Prop :=
  db' = db ∨ ∃ t c, EndedByCall db db' task lease error txNow updateId t c

/-- The turn of a task under way is the one its conversation is busy with. -/
theorem FailedTurn.endedByCall {t : ConversationTask} {c : AgentConversation} {task lease : Uuid}
    {error : ConversationError} {txNow : Time} {updateId : Uuid} (hbusy : LiveTasksBusy db)
    (h : FailedTurn db db' t c error txNow updateId) (htask : t.taskId = task)
    (hlive : t.state.live = true) (hlease : t.leaseToken = some lease) :
    EndedByCall db db' task lease error txNow updateId t c where
  joined := h.change.toJoined
  taskId_eq := htask
  leased := hlease
  live := hlive
  tasks := by
    rw [h.change.tasks, endedTask, if_pos hlive]
  conversations := by
    have hactive : c.activeTaskId = some t.taskId := (hbusy t c h.change.toJoined hlive).1
    rw [h.change.conversations, releasedConversation, if_pos hactive]
  updates := h.updates
  frame := h.frame

section Calls

variable {policy : ConversationPolicy} {task lease : Uuid} {request : Json} {txNow now : Time}
  {clock : Nat → Time} {fresh : Uuid} {error : ConversationError}

theorem packet_refused (hbusy : LiveTasksBusy db)
    (h : ((packet env policy task lease txNow now fresh).runTx db).1 = .error error) :
    RefusedCleanly db ((packet env policy task lease txNow now fresh).runTx db).2 task lease error
      txNow fresh := by
  obtain hsame | hcommit := Prog.runTx_error h
  · exact .inl hsame
  · obtain ⟨row, c, e, hfound, -, hlease, hlive, heq, hfailed⟩ := packet_ok hcommit
    obtain rfl : error = e := Except.error.inj heq
    obtain ⟨_, -, htask, -⟩ := joinedTask_some hfound
    exact .inr ⟨row.task, c, hfailed.endedByCall hbusy htask hlive hlease⟩

theorem recordUpdate_refused (hbusy : LiveTasksBusy db)
    (h : ((recordUpdate env policy task lease request txNow clock fresh).runTx db).1 =
      .error error) :
    RefusedCleanly db ((recordUpdate env policy task lease request txNow clock fresh).runTx db).2
      task lease error txNow fresh := by
  obtain hsame | hcommit := Prog.runTx_error h
  · exact .inl hsame
  · obtain ⟨row, c, hfound, -, -, hlease, _, -, hcases⟩ := recordUpdate_ok hcommit
    obtain ⟨_, -, htask, -⟩ := joinedTask_some hfound
    obtain ⟨_, _, hending, -⟩ | ⟨-, ⟨e, hending, hlive, hfailed⟩ | ⟨_, hending, -⟩⟩ := hcases
    · cases hending
    · obtain rfl : error = e := Except.error.inj (Ending.commit.inj hending)
      exact .inr ⟨row.task, c, hfailed.endedByCall hbusy htask hlive hlease⟩
    · cases hending

/-- The request that was recorded under the id that this request names. -/
def priorUpdate (db : Db) (task : Uuid) (request : Json) : Option ConversationUpdateRequest :=
  match uuidField request "updateId" with
  | .error _ => none
  | .ok updateId => db.conversationUpdateRequests.rows.find? fun u =>
      u.taskId = task && u.updateId = updateId

theorem recordUpdate_replayed {prior : ConversationUpdateRequest}
    (hprior : priorUpdate db task request = some prior) {outcome : ConversationUpdateOutcome}
    (h : ((recordUpdate env policy task lease request txNow clock fresh).runTx db).1 =
      .ok outcome) :
    ((recordUpdate env policy task lease request txNow clock fresh).runTx db).2 = db ∧
      prior.request = request ∧ outcome = ⟨prior.response, none⟩ := by
  obtain ⟨_, hrollback, hsame⟩ | hcommit := Prog.runTx_ok h
  · obtain ⟨_, _, -, -, -, -, updateId, hid, hcases⟩ := recordUpdate_ok hrollback
    rw [priorUpdate, hid] at hprior
    obtain ⟨_, _, hending, -, hfound, hreplay⟩ | ⟨hnone, -⟩ := hcases
    · cases hending
      cases hfound.symm.trans hprior
      exact ⟨hsame, replayUpdate_ok hreplay⟩
    · cases hnone.symm.trans hprior
  · obtain ⟨_, _, -, -, -, -, updateId, hid, hcases⟩ := recordUpdate_ok hcommit
    rw [priorUpdate, hid] at hprior
    obtain ⟨_, _, hending, -⟩ | ⟨hnone, -⟩ := hcases
    · cases hending
    · cases hnone.symm.trans hprior

/-- Under an id that is recorded, no call commits. -/
theorem recordUpdate_prior_same {prior : ConversationUpdateRequest}
    (hprior : priorUpdate db task request = some prior) :
    ((recordUpdate env policy task lease request txNow clock fresh).runTx db).2 = db := by
  obtain hsame | ⟨r, hcommit⟩ := Prog.runTx_store
    (recordUpdate env policy task lease request txNow clock fresh) db
  · exact hsame
  · obtain ⟨_, _, -, -, -, -, updateId, hid, hcases⟩ := recordUpdate_ok hcommit
    rw [priorUpdate, hid] at hprior
    obtain ⟨_, _, hending, -⟩ | ⟨hnone, -⟩ := hcases
    · cases hending
    · cases hnone.symm.trans hprior

end Calls

/-- What the two calls of a worker do to a database when they are refused, and
when they are repeated. -/
structure CallsClean (env : Env) (db : Db) : Prop where
  packet : ∀ policy task lease txNow now fresh error,
    ((packet env policy task lease txNow now fresh).runTx db).1 = .error error →
      RefusedCleanly db ((packet env policy task lease txNow now fresh).runTx db).2 task lease
        error txNow fresh
  update : ∀ policy task lease request txNow clock fresh error,
    ((recordUpdate env policy task lease request txNow clock fresh).runTx db).1 = .error error →
      RefusedCleanly db
        ((recordUpdate env policy task lease request txNow clock fresh).runTx db).2 task lease
        error txNow fresh
  replay : ∀ policy task lease request txNow clock fresh prior outcome,
    priorUpdate db task request = some prior →
      ((recordUpdate env policy task lease request txNow clock fresh).runTx db).1 = .ok outcome →
        ((recordUpdate env policy task lease request txNow clock fresh).runTx db).2 = db ∧
          outcome.response = prior.response
  conflict : ∀ policy task lease request txNow clock fresh prior,
    priorUpdate db task request = some prior → prior.request ≠ request →
      ∃ error, (recordUpdate env policy task lease request txNow clock fresh).runTx db =
        (.error error, db)

theorem calls_clean (env : Env) (ops : List Op) : CallsClean env ((gateway env).run ops).db where
  packet _ _ _ _ _ _ _ h := packet_refused (gateway_turns env ops).busy h
  update _ _ _ _ _ _ _ _ h := recordUpdate_refused (gateway_turns env ops).busy h
  replay _ _ _ _ _ _ _ _ _ hprior h := by
    obtain ⟨hsame, -, rfl⟩ := recordUpdate_replayed hprior h
    exact ⟨hsame, rfl⟩
  conflict policy task lease request txNow clock fresh prior hprior hother := by
    have hsame : ((recordUpdate env policy task lease request txNow clock fresh).runTx
        ((gateway env).run ops).db).2 = ((gateway env).run ops).db :=
      recordUpdate_prior_same hprior
    cases hresult : ((recordUpdate env policy task lease request txNow clock fresh).runTx
        ((gateway env).run ops).db).1 with
    | error error => exact ⟨error, Prod.ext hresult hsame⟩
    | ok outcome => exact absurd (recordUpdate_replayed hprior hresult).2.1 hother

end RoomGateway
