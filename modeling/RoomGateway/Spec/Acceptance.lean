import RoomGateway.Spec.ClaimQueue

/-!
The reservations of a run. A call that reserves a turn leaves a record of the
policy it ran under, what it was asked and what it accepted; every other step
leaves the reservations that were made as they are.
-/

namespace RoomGateway

open Table

variable {env : Env}

/-- An accepted reservation, with what the call was given. -/
structure Reservation where
  policy : ConversationPolicy
  actor : Actor
  request : Json
  requestedExpiry : Time
  accepted : Json
  deriving DecidableEq, Repr

/-- The reservation that a step accepts. A repeated request gets the turn that was
accepted before, and has no prompt. -/
def acceptedReservations (env : Env) (s : Sys) : Op → List Reservation
  | .reserve policy actor request requestedExpiry catalog presence clock fresh =>
      match ((reserveInner env policy actor request requestedExpiry catalog presence clock
        fresh).runTx s.db).1 with
      | .ok ⟨accepted, some _⟩ => [⟨policy, actor, request, requestedExpiry, accepted⟩]
      | _ => []
  | _ => []

/-- How a task comes from a task of the state before. -/
inductive TaskCarried (s : Sys) (op : Op) (t t' : ConversationTask) : Prop where
  | kept (origin : t'.origin = t.origin) (lease : t'.leaseExpiresAt = t.leaseExpiresAt)
      (running : t'.state = .running → t.state = .running)
  | claimed {p now fresh} (op_eq : op = .claimFinish now fresh) (pending : s.claiming = some p)
      (eq : t' = claimedTask t p.owner fresh (claimExpiry p.policy t) p.txNow)

theorem TaskCarried.refl (s : Sys) (op : Op) (t : ConversationTask) : TaskCarried s op t t :=
  .kept rfl rfl id

theorem TaskCarried.origin {s : Sys} {op : Op} {t t' : ConversationTask}
    (h : TaskCarried s op t t') : t'.origin = t.origin := by
  cases h with
  | kept origin => exact origin
  | claimed _ _ eq =>
      rw [eq]
      rfl

/-- A conversation stays what it is, with the settings it has. -/
structure SettingsKept (c c' : AgentConversation) : Prop where
  same : SameConversation c c'
  settings : c'.selectedSettings = c.selectedSettings

theorem SettingsKept.refl (c : AgentConversation) : SettingsKept c c := ⟨.refl c, rfl⟩

/-- What a step that reserves nothing leaves. -/
structure Carried (s : Sys) (op : Op) (db' : Db) : Prop where
  tasks : List.Forall₂ (TaskCarried s op) s.db.conversationTasks.rows db'.conversationTasks.rows
  conversations : List.Forall₂ SettingsKept s.db.agentConversations.rows
    db'.agentConversations.rows

/-- A step of the gateway: it reserves a turn, or not. -/
inductive AcceptanceStep (env : Env) (s : Sys) (op : Op) : Prop where
  | accepted {policy actor request requestedExpiry catalog presence clock fresh turn t c prompt base
      items context}
      (op_eq : op = .reserve policy actor request requestedExpiry catalog presence clock fresh)
      (entry : acceptedReservations env s op =
        [⟨policy, actor, request, requestedExpiry, t.acceptedTurn⟩])
      (admitted : Admitted env policy actor request requestedExpiry clock turn)
      (reserved : ReservedTurn env s.db ((gateway env).next s op).db policy actor turn t c prompt
        base items context)
      (resolved : Resolved env s.db policy turn catalog c t.selectedSettings)
  | other (entry : acceptedReservations env s op = [])
      (carried : Carried s op ((gateway env).next s op).db)

section Steps

variable {s : Sys} {op : Op} {db' : Db} {t t' : ConversationTask} {c c' : AgentConversation}

theorem Carried.of_same (htasks : db'.conversationTasks = s.db.conversationTasks)
    (hconversations : db'.agentConversations = s.db.agentConversations) : Carried s op db' where
  tasks := by
    rw [htasks]
    exact List.forall₂_same.mpr fun t _ => .refl s op t
  conversations := by
    rw [hconversations]
    exact List.forall₂_same.mpr fun c _ => .refl c

theorem TurnChange.carried (h : TurnChange s.db db' t t' c c') (htask : TaskCarried s op t t')
    (hkept : SettingsKept c c') : Carried s op db' where
  tasks := by
    rw [h.tasks]
    refine forall₂_put (.refl s op) fun x hx hid => ?_
    rw [Db.task_unique hx h.task (taskIs_iff.mp hid)]
    exact htask
  conversations := by
    rw [h.conversations]
    refine forall₂_put .refl fun x hx hid => ?_
    rw [Db.conversation_unique hx h.conversation (conversationIs_iff.mp hid)]
    exact hkept

theorem taskCarried_endedTask (error : ConversationError) (txNow : Time) (ordinal : Int) :
    TaskCarried s op t { endedTask error txNow t with lastUpdateOrdinal := ordinal } := by
  refine .kept (endedTask_origin ..) ?_ ?_
  · unfold endedTask
    split <;> rfl
  · unfold endedTask
    split
    · nofun
    · exact id

theorem settingsKept_released (task : Uuid) (txNow : Time) :
    SettingsKept c (releasedConversation task txNow c) := by
  refine ⟨releasedConversation_same .., ?_⟩
  unfold releasedConversation
  split <;> rfl

theorem FailedTurn.carried {error : ConversationError} {txNow : Time} {updateId : Uuid}
    (h : FailedTurn s.db db' t c error txNow updateId) : Carried s op db' :=
  h.change.carried (taskCarried_endedTask ..) (settingsKept_released ..)

theorem UpdateEffect.carried {lease updateId eventId : Uuid} {request : Json} {txNow now : Time}
    {outcome : ConversationUpdateOutcome}
    (h : UpdateEffect env s.db db' t c lease updateId request txNow now eventId outcome) :
    Carried s op db' := by
  cases h with
  | completed h => exact h.change.carried (.kept rfl rfl nofun) ⟨⟨rfl, rfl, rfl, rfl⟩, rfl⟩
  | failed h => exact h.change.carried (taskCarried_endedTask ..) (settingsKept_released ..)
  | noted h =>
      obtain ⟨_, _, _, _, change⟩ := h.change
      exact change.carried (.kept rfl rfl id) (.refl c)

/-- A reservation that commits nothing repeats an earlier one. -/
theorem reserveInner_rollback {policy : ConversationPolicy} {actor : Actor} {request : Json}
    {requestedExpiry : Time} {catalog : Option CatalogQuery}
    {presence : Option (List ParticipantPresence)} {clock : Nat → Time} {fresh : Nat → Uuid}
    {db : Db} {r : ConversationReservation}
    (h : (reserveInner env policy actor request requestedExpiry catalog presence clock fresh).exec
      db = .ok (.rollback r, db')) : r.prompt = none := by
  simp only [reserveInner, Prog.exec_bind_ok] at h
  obtain ⟨turn, _, -, prior, _, -, h⟩ := h
  cases prior with
  | some prior =>
      simp only [replayTurn, Prog.exec_bind_ok, Prog.exec_pure_ok, Ending.rollback.injEq] at h
      obtain ⟨_, _, ⟨_, _, -, _, _, -, _, _, -, rfl, -⟩, rfl, -⟩ := h
      rfl
  | none => simp [Prog.exec_bind_ok, Prog.exec_pure_ok] at h

theorem reserve_acceptance (policy : ConversationPolicy) (actor : Actor) (request : Json)
    (requestedExpiry : Time) (catalog : Option CatalogQuery)
    (presence : Option (List ParticipantPresence)) (clock : Nat → Time) (fresh : Nat → Uuid) :
    AcceptanceStep env s
      (.reserve policy actor request requestedExpiry catalog presence clock fresh) := by
  have hnext : ((gateway env).next s
      (.reserve policy actor request requestedExpiry catalog presence clock fresh)).db =
      ((reserveInner env policy actor request requestedExpiry catalog presence clock
        fresh).runTx s.db).2 := rfl
  cases hexec : (reserveInner env policy actor request requestedExpiry catalog presence clock
      fresh).exec s.db with
  | error e =>
      have hrun : (reserveInner env policy actor request requestedExpiry catalog presence clock
          fresh).runTx s.db = (.error e, s.db) := by rw [Prog.runTx, hexec]
      rw [hrun] at hnext
      refine .other (by rw [acceptedReservations, hrun]) ?_
      rw [hnext]
      exact .of_same rfl rfl
  | ok result =>
      obtain ⟨ending, db'⟩ := result
      cases ending with
      | rollback r =>
          have hprompt := reserveInner_rollback hexec
          obtain ⟨accepted, prompt⟩ := r
          obtain rfl : prompt = none := hprompt
          have hrun := Prog.runTx_eq_of_rollback hexec
          rw [hrun] at hnext
          refine .other (by rw [acceptedReservations, hrun]) ?_
          rw [hnext]
          exact .of_same rfl rfl
      | commit r =>
          obtain ⟨turn, t, c, prompt, base, items, context, hadmitted, rfl, hreserved, hresolved⟩ :=
            reserveInner_resolved hexec
          have hrun := Prog.runTx_eq_of_commit hexec
          rw [hrun] at hnext
          rw [show db' = _ from hnext.symm] at hreserved
          exact .accepted rfl (by rw [acceptedReservations, hrun]) hadmitted hreserved hresolved

theorem claimFinish_carried (now : Time) (fresh : Uuid) :
    Carried s (.claimFinish now fresh) (s.claimFinish env now fresh).1.db := by
  unfold Sys.claimFinish
  cases hpending : s.claiming with
  | none => exact .of_same rfl rfl
  | some p =>
      obtain hsame | ⟨r, hcommit⟩ := Prog.runTx_store
        (claimLocked env p.policy p.owner p.task p.room p.txNow now fresh) s.db
      · change Carried s _ (Prog.runTx _ s.db).2
        rw [hsame]
        exact .of_same rfl rfl
      · obtain ⟨row, c, -, -, ⟨error, -, -, h⟩ | ⟨expiry, -, -, rfl, h⟩⟩ := claimLocked_ok hcommit
        · exact h.carried
        · exact h.change.carried (.claimed rfl hpending rfl) ⟨⟨rfl, rfl, rfl, rfl⟩, rfl⟩

theorem packet_carried (policy : ConversationPolicy) (task lease : Uuid) (txNow now : Time)
    (fresh : Uuid) :
    Carried s op ((packet env policy task lease txNow now fresh).runTx s.db).2 := by
  obtain hsame | ⟨r, hcommit⟩ := Prog.runTx_store
    (packet env policy task lease txNow now fresh) s.db
  · rw [hsame]
    exact .of_same rfl rfl
  · obtain ⟨_, _, _, -, -, -, -, -, h⟩ := packet_ok hcommit
    exact h.carried

theorem recordUpdate_carried (policy : ConversationPolicy) (task lease : Uuid) (request : Json)
    (txNow : Time) (clock : Nat → Time) (fresh : Uuid) :
    Carried s op ((recordUpdate env policy task lease request txNow clock fresh).runTx s.db).2 := by
  obtain hsame | ⟨_, _, _, -, h⟩ | ⟨_, _, _, _, h⟩ :=
    @recordUpdate_cases env s.db policy task lease request txNow clock fresh
  · rw [hsame]
    exact .of_same rfl rfl
  · exact h.carried
  · exact h.carried

theorem Quiet.carried (h : Quiet s.db db') : Carried s op db' := .of_same h.tasks h.conversations

theorem gateway_acceptance (env : Env) (s : Sys) (op : Op) : AcceptanceStep env s op := by
  cases op with
  | reserve policy actor request requestedExpiry catalog presence clock fresh =>
      exact reserve_acceptance ..
  | claimSelect policy owner txNow =>
      refine .other rfl ?_
      change Carried s _ (s.claimSelect policy owner txNow).1.db
      rw [Sys.claimSelect_db]
      exact .of_same rfl rfl
  | claimFinish now fresh => exact .other rfl (claimFinish_carried now fresh)
  | claimAbort => exact .other rfl (.of_same rfl rfl)
  | packet policy task lease txNow now fresh =>
      exact .other rfl (packet_carried policy task lease txNow now fresh)
  | recordUpdate policy task lease request txNow clock fresh =>
      exact .other rfl (recordUpdate_carried policy task lease request txNow clock fresh)
  | process actor request presence conversationsEnabled txNow fresh =>
      exact .other rfl ((process_quiet env actor request presence conversationsEnabled txNow
        fresh).runTx Quiet.refl s.db).carried
  | startAgentTask requesterId name start txNow fresh =>
      exact .other rfl ((startAgentTask_quiet env requesterId name start txNow fresh).runTx
        Quiet.refl s.db).carried
  | claimAgentTask task owner now =>
      exact .other rfl ((claimAgentTask_quiet task owner now).runTx Quiet.refl s.db).carried
  | claimOldestQueuedAgentTask agent owner now =>
      exact .other rfl ((claimOldestQueuedAgentTask_quiet agent owner now).runTx
        Quiet.refl s.db).carried
  | recordAgentTaskUpdate lease update txNow now fresh =>
      exact .other rfl ((recordAgentTaskUpdateWithOutcome_quiet env lease update txNow now
        fresh).runTx Quiet.refl s.db).carried

end Steps

end RoomGateway
