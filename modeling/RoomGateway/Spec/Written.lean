import RoomGateway.Spec.Ledger

/-!
All the events that the gateway ever writes. Each of them is built by one of the
writers of `Written`, so that a property of the events in a log is a case
analysis over the writers.
-/

namespace RoomGateway

open Table

variable {env : Env} {db db' : Db}

inductive Written (env : Env) : NewEvent → Prop where
  | message {actor request participants audienceIds}
      (audience : resolveChatAudience env actor participants request = .ok audienceIds) :
      Written env (messageEvent actor request audienceIds)
  | actionItems {request taskId eventId requesterId new}
      (mem : new ∈ actionItemsEvents request (actionItemsTaskPayload taskId eventId requesterId)) :
      Written env new
  | decision {actor room request eventType payload occurredAt}
      (type : eventType.ofDecision = true)
      (human : eventType = .decisionProposed ∨ actor.role = .human) :
      Written env (decisionEvent actor room request eventType payload occurredAt)
  | requested {requesterId name start taskId revision} :
      Written env (requestedEvent requesterId name start taskId revision)
  | prompt {actor room requestId request occurredAt} :
      Written env (promptEvent actor room requestId request occurredAt)
  | reply {room t data now} : Written env (replyEvent room t data now)
  | update {t update payload requestId state}
      (state_eq : stateForUpdate update.eventType = .ok state) :
      Written env (updateEvent t update payload requestId)

/-- The events of a request have a writer; `human` is the role check. -/
theorem Performed.written {actor : Actor} {request : ValidatedRequest} {events : List RoomEvent}
    (h : Performed env actor db db' request events)
    (human : request.governed = true → actor.role = .human) :
    ∃ news, Logged db news events db'.roomEvents ∧ ∀ new ∈ news, Written env new := by
  cases h with
  | @message request audienceIds participants _ _ taskId eventId audience logged eq =>
      subst eq
      refine ⟨_, logged, fun new hnew => ?_⟩
      rcases List.mem_cons.mp hnew with rfl | hnew
      · exact .message audience
      · split_ifs at hnew
        · exact .actionItems hnew
        · cases hnew
  | proposed _ _ _ _ logged eq =>
      subst eq
      exact ⟨_, logged, List.forall_mem_singleton.mpr (.decision rfl (.inl rfl))⟩
  | deleted _ _ _ logged _ eq =>
      subst eq
      exact ⟨_, logged, List.forall_mem_singleton.mpr (.decision rfl (.inr (human rfl)))⟩
  | @settled request _ status eventType _ _ _ _ action _ _ _ _ logged _ eq =>
      subst eq
      have htype : eventType.ofDecision = true := by
        cases haction : request.action <;> rw [haction] at action <;> cases action <;> rfl
      exact ⟨_, logged, List.forall_mem_singleton.mpr (.decision htype (.inr (human rfl)))⟩
  | edited _ _ _ _ _ _ _ _ _ _ _ logged eq =>
      subst eq
      refine ⟨_, logged, List.forall_mem_cons.mpr ⟨.decision rfl (.inr (human rfl)), ?_⟩⟩
      exact List.forall_mem_singleton.mpr (.decision rfl (.inr (human rfl)))
  | started h =>
      obtain rfl := h.eq
      exact ⟨_, h.logged, List.forall_mem_singleton.mpr .requested⟩

/-- The role check of a request that was performed. -/
theorem process_human {actor : Actor} {request : ValidatedRequest}
    {presence : List ParticipantPresence} {conversationsEnabled : Bool} {txNow : Time}
    {fresh : Nat → Uuid} {ending : Ending RpcError ProcessedRequest}
    (h : (process env actor request presence conversationsEnabled txNow fresh).exec db =
      .ok (ending, db')) (hgoverned : request.governed = true) : actor.role = .human := by
  simp only [process, Prog.exec_bind_ok, Prog.exec_ensure_ok] at h
  obtain ⟨-, -, ⟨hrole, -⟩, -⟩ := h
  simpa [hgoverned] using hrole

/-- The log grew by events that have a writer. -/
def Writes (env : Env) (db db' : Db) : Prop :=
  ∃ news events, Logged db news events db'.roomEvents ∧ ∀ new ∈ news, Written env new

namespace Writes

theorem of_same (h : db'.roomEvents = db.roomEvents) : Writes env db db' :=
  ⟨[], [], h ▸ .nil db, by simp⟩

theorem refl (db : Db) : Writes env db db := of_same rfl

theorem of_appended {new : NewEvent} {eventId : Uuid} {e : RoomEvent}
    (h : Appended db new eventId e db'.roomEvents) (hnew : Written env new) : Writes env db db' :=
  ⟨[new], [e], h.logged, List.forall_mem_singleton.mpr hnew⟩

end Writes

theorem process_writes (actor : Actor) (request : ValidatedRequest)
    (presence : List ParticipantPresence) (conversationsEnabled : Bool) (txNow : Time)
    (fresh : Nat → Uuid) (db : Db) :
    Writes env db ((process env actor request presence conversationsEnabled txNow
      fresh).runTx db).2 := by
  refine Prog.runTx_of_commit (.refl db) fun r db' hcommit => ?_
  obtain ⟨_, _, -, -, ⟨_, -, -, hending⟩ | ⟨-, events, mid, -, hperformed, hledgered⟩⟩ :=
    process_ok hcommit
  · cases hending
  · obtain ⟨news, logged, hnews⟩ := hperformed.written (process_human hcommit)
    exact ⟨news, events, hledgered.log ▸ logged, hnews⟩

theorem CallEffect.writes {who : Actor → Prop} (h : CallEffect env who db db') :
    Writes env db db' := by
  cases h with
  | same _ events => exact .of_same events
  | replied h => exact .of_appended h.appended .reply
  | claimed h =>
      obtain ⟨_, _, rfl⟩ := h.frame
      exact .of_same rfl
  | updated h =>
      obtain ⟨_, _, _, _, _, -, happended, -, -, rfl⟩ := h.frame
      exact .of_appended happended (.update h.state_eq)
  | started _ h ledgered =>
      rw [Writes, ledgered.log, h.eq]
      exact ⟨_, _, h.logged, List.forall_mem_singleton.mpr .requested⟩
  | reserved _ _ h =>
      obtain ⟨_, _, happended⟩ := h.appended
      exact .of_appended happended .prompt

theorem gateway_writes (s : Sys) (op : Op) : Writes env s.db ((gateway env).next s op).db := by
  cases hop : op.ofRequest with
  | false => exact (gateway_callEffect s hop).writes
  | true =>
      cases op with
      | process actor request presence conversationsEnabled txNow fresh =>
          exact process_writes actor request presence conversationsEnabled txNow fresh s.db
      | _ => cases hop

/-- Every event of the log has a writer. -/
def AllWritten (env : Env) (db : Db) : Prop :=
  ∀ e ∈ db.roomEvents.rows, ∃ new eventId sequence, e = new.row eventId sequence ∧ Written env new

theorem Writes.allWritten (h : Writes env db db') (hall : AllWritten env db) :
    AllWritten env db' := by
  obtain ⟨news, events, logged, hnews⟩ := h
  intro e he
  rw [logged.rows] at he
  rcases List.mem_append.mp he with he | he
  · exact hall e he
  · obtain ⟨new, hnew, eventId, sequence, hrow⟩ := logged.of_new he
    exact ⟨new, eventId, sequence, hrow, hnews new hnew⟩

theorem gateway_allWritten (ops : List Op) : AllWritten env ((gateway env).run ops).db :=
  Machine.run_invariant (P := fun s => AllWritten env s.db) (by simp [AllWritten, gateway])
    (fun s op h => (gateway_writes s op).allWritten h) ops

end RoomGateway
