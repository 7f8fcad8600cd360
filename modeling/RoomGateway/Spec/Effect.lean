import RoomGateway.Model.Gateway
import RoomGateway.Spec.Reservation
import RoomGateway.Spec.Rooms
import RoomGateway.Spec.Update

/-!
Everything one step of the gateway can do to the conversation tables. Each
invariant of the conversations is a case analysis over `Effect`.
-/

namespace RoomGateway

/-- A claim resumes on a task that ended after the claim selected it. -/
def staleClaim (s : Sys) : Op → Bool
  | .claimFinish _ _ =>
      (s.claiming.bind fun p => joinedTask s.db p.task).any fun row => !row.task.state.live
  | _ => false

/-- The call records a worker's update. -/
def Op.isUpdate : Op → Bool
  | .recordUpdate .. => true
  | _ => false

/-- What a step does; `stale` says whether it is a stale claim and `update`
whether it records an update. -/
inductive Effect (env : Env) (stale update : Prop) (db db' : Db) : Prop where
  | quiet (h : Quiet db db')
  | reserved {policy actor turn t c prompt base items context}
      (h : ReservedTurn env db db' policy actor turn t c prompt base items context)
  | claimed {t c owner token leaseExpiry txNow}
      (h : ClaimedTurn db db' t c owner token leaseExpiry txNow)
  | completed {t c lease updateId ordinal request now eventId reply text} (hupdate : update)
      (h : CompletedTurn env db db' t c lease updateId ordinal request now eventId reply text)
  | reported {t c lease updateId ordinal request txNow now error} (hupdate : update)
      (h : ReportedFailure env db db' t c lease updateId ordinal request txNow now error)
  | noted {t c lease updateId ordinal kind request now} (hupdate : update)
      (h : NotedTurn env db db' t c lease updateId ordinal kind request now)
  | failed {t c error txNow updateId} (live : t.state.live = true)
      (h : FailedTurn db db' t c error txNow updateId)
  | staleFailed {t c error txNow updateId} (hstale : stale) (ended : t.state.live = false)
      (h : FailedTurn db db' t c error txNow updateId)

variable {env : Env}

@[simp] theorem Sys.claimSelect_db (s : Sys) (policy : ConversationPolicy) (owner : String)
    (txNow : Time) : (s.claimSelect policy owner txNow).1.db = s.db := by
  unfold Sys.claimSelect
  split
  · rfl
  · rfl
  · split <;> rfl

/-- No step changes or removes an event. -/
theorem Effect.log {stale update : Prop} {db db' : Db} (h : Effect env stale update db db') :
    LogExtends db db' := by
  cases h with
  | quiet h => exact h.log
  | reserved h =>
      obtain ⟨_, _, happended⟩ := h.appended
      exact happended.extends
  | claimed h =>
      obtain ⟨_, _, rfl⟩ := h.frame
      exact .refl
  | completed _ h => exact h.appended.extends
  | reported _ h =>
      rw [LogExtends, h.events]
      exact .refl
  | noted _ h =>
      rw [LogExtends, h.events]
      exact .refl
  | failed _ h =>
      rw [LogExtends, h.events]
      exact .refl
  | staleFailed _ _ h =>
      rw [LogExtends, h.events]
      exact .refl

theorem reserve_effect {stale update : Prop} (db : Db) (policy : ConversationPolicy) (actor : Actor)
    (request : Json) (expiry : Time) (catalog : Option CatalogQuery)
    (presence : Option (List ParticipantPresence)) (clock : Nat → Time) (fresh : Nat → Uuid) :
    Effect env stale update db ((reserveInner env policy actor request expiry catalog presence clock
      fresh).runTx db).2 := by
  obtain hsame | ⟨r, hcommit⟩ := Prog.runTx_store
    (reserveInner env policy actor request expiry catalog presence clock fresh) db
  · rw [hsame]
    exact .quiet (Quiet.refl db)
  · obtain ⟨_, _, _, _, _, _, _, -, -, h⟩ := reserveInner_ok hcommit
    exact .reserved h

theorem packet_effect {stale update : Prop} (db : Db) (policy : ConversationPolicy)
    (task lease : Uuid)
    (txNow now : Time) (fresh : Uuid) :
    Effect env stale update db ((packet env policy task lease txNow now fresh).runTx db).2 := by
  obtain hsame | ⟨r, hcommit⟩ := Prog.runTx_store
    (packet env policy task lease txNow now fresh) db
  · rw [hsame]
    exact .quiet (Quiet.refl db)
  · obtain ⟨row, c, error, -, -, -, hlive, -, h⟩ := packet_ok hcommit
    exact .failed hlive h

/-- Recording an update leaves the database alone, fails the task, or applies
the update. -/
theorem recordUpdate_cases (db : Db) (policy : ConversationPolicy) (task lease : Uuid)
    (request : Json) (txNow : Time) (clock : Nat → Time) (fresh : Uuid) :
    let db' := ((recordUpdate env policy task lease request txNow clock fresh).runTx db).2
    db' = db ∨
      (∃ t c error, t.state.live = true ∧ FailedTurn db db' t c error txNow fresh) ∨
      ∃ t c updateId outcome, UpdateEffect env db db' t c lease updateId request txNow (clock 5)
        fresh outcome := by
  intro db'
  obtain hsame | ⟨r, hcommit⟩ := Prog.runTx_store
    (recordUpdate env policy task lease request txNow clock fresh) db
  · exact .inl hsame
  · obtain ⟨row, c, -, -, -, -, updateId, -, h⟩ := recordUpdate_ok hcommit
    obtain ⟨_, _, hending, -⟩ | ⟨-, ⟨error, -, hlive, h⟩ | ⟨outcome, -, h⟩⟩ := h
    · cases hending
    · exact .inr (.inl ⟨row.task, c, error, hlive, h⟩)
    · exact .inr (.inr ⟨row.task, c, updateId, outcome, h⟩)

theorem recordUpdate_effect {stale update : Prop} (hupdate : update) (db : Db)
    (policy : ConversationPolicy) (task lease : Uuid) (request : Json) (txNow : Time)
    (clock : Nat → Time) (fresh : Uuid) :
    Effect env stale update db
      ((recordUpdate env policy task lease request txNow clock fresh).runTx db).2 := by
  obtain hsame | ⟨t, c, error, hlive, h⟩ | ⟨t, c, updateId, outcome, h⟩ :=
    recordUpdate_cases db policy task lease request txNow clock fresh
  · rw [hsame]
    exact .quiet (Quiet.refl db)
  · exact .failed hlive h
  · cases h with
    | completed h => exact .completed hupdate h
    | failed h => exact .reported hupdate h
    | noted h => exact .noted hupdate h

theorem claimFinish_effect {update : Prop} (s : Sys) (now : Time) (fresh : Uuid) :
    Effect env (staleClaim s (.claimFinish now fresh) = true) update s.db
      (s.claimFinish env now fresh).1.db := by
  unfold Sys.claimFinish
  cases hpending : s.claiming with
  | none => exact .quiet (Quiet.refl s.db)
  | some p =>
      obtain hsame | ⟨r, hcommit⟩ := Prog.runTx_store
        (claimLocked env p.policy p.owner p.task p.room p.txNow now fresh) s.db
      · change Effect env _ _ s.db (Prog.runTx _ s.db).2
        rw [hsame]
        exact .quiet (Quiet.refl s.db)
      · obtain ⟨row, c, hrow, hjoined, ⟨error, -, -, h⟩ | ⟨expiry, -, -, -, h⟩⟩ :=
          claimLocked_ok hcommit
        · cases hlive : row.task.state.live with
          | true => exact .failed hlive h
          | false =>
              refine .staleFailed ?_ hlive h
              simp [staleClaim, hpending, hrow, hlive]
        · exact .claimed h

/-- Every step is one of these. -/
theorem gateway_effect (s : Sys) (op : Op) :
    Effect env (staleClaim s op = true) (op.isUpdate = true) s.db
      ((gateway env).next s op).db := by
  cases op with
  | reserve policy actor request expiry catalog presence clock fresh =>
      exact reserve_effect s.db policy actor request expiry catalog presence clock fresh
  | claimSelect policy owner txNow =>
      refine .quiet ?_
      change Quiet s.db (s.claimSelect policy owner txNow).1.db
      rw [Sys.claimSelect_db]
      exact Quiet.refl s.db
  | claimFinish now fresh => exact claimFinish_effect s now fresh
  | claimAbort => exact .quiet (Quiet.refl s.db)
  | packet policy task lease txNow now fresh =>
      exact packet_effect s.db policy task lease txNow now fresh
  | recordUpdate policy task lease request txNow clock fresh =>
      exact recordUpdate_effect rfl s.db policy task lease request txNow clock fresh
  | process actor request presence conversationsEnabled txNow fresh =>
      exact .quiet ((process_quiet env actor request presence conversationsEnabled txNow
        fresh).runTx Quiet.refl s.db)
  | startAgentTask requesterId name start txNow fresh =>
      exact .quiet ((startAgentTask_quiet env requesterId name start txNow fresh).runTx
        Quiet.refl s.db)
  | claimAgentTask task owner now =>
      exact .quiet ((claimAgentTask_quiet task owner now).runTx Quiet.refl s.db)
  | claimOldestQueuedAgentTask agent owner now =>
      exact .quiet ((claimOldestQueuedAgentTask_quiet agent owner now).runTx Quiet.refl s.db)
  | recordAgentTaskUpdate lease update txNow now fresh =>
      exact .quiet ((recordAgentTaskUpdateWithOutcome_quiet env lease update txNow now
        fresh).runTx Quiet.refl s.db)

end RoomGateway
