import RoomGateway.Model.Rooms
import RoomGateway.Spec.Writes

/-!
The room requests and the external agent tasks leave the conversation tables
alone, and of the event table they only extend the log.
-/

namespace RoomGateway

/-- The conversation tables are the same and the log was at most extended. -/
structure Quiet (db db' : Db) : Prop where
  tasks : db'.conversationTasks = db.conversationTasks
  conversations : db'.agentConversations = db.agentConversations
  updates : db'.conversationUpdates = db.conversationUpdates
  requests : db'.conversationUpdateRequests = db.conversationUpdateRequests
  disclosures : db'.conversationDisclosures = db.conversationDisclosures
  log : LogExtends db db'

namespace Quiet

theorem refl (db : Db) : Quiet db db := ⟨rfl, rfl, rfl, rfl, rfl, .refl⟩

theorem trans (a b c : Db) (hab : Quiet a b) (hbc : Quiet b c) : Quiet a c :=
  ⟨hbc.tasks.trans hab.tasks, hbc.conversations.trans hab.conversations,
    hbc.updates.trans hab.updates, hbc.requests.trans hab.requests,
    hbc.disclosures.trans hab.disclosures, hab.log.trans hbc.log⟩

end Quiet

section Quiet

variable (env : Env) {ε : Type}

open Prog

theorem appendEventInTransaction_quiet (eventId : Uuid) (event : NewEvent) :
    (appendEventInTransaction env eventId event).Keeps Quiet := by
  intro db e db' h
  obtain ⟨events, happended, -, rfl⟩ := appendEventInTransaction_ok h
  exact ⟨rfl, rfl, rfl, rfl, rfl, happended.extends⟩

theorem priorRequest_quiet (room requestId : Uuid) : (priorRequest room requestId).Keeps Quiet := by
  refine .bind Quiet.trans (.query Quiet.refl _ _) fun record => ?_
  cases record with
  | none => exact .pure Quiet.refl _
  | some record => exact .bind Quiet.trans (.query Quiet.refl _ _) fun _ => .pure Quiet.refl _

theorem recordRequest_quiet (room requestId : Uuid) (fingerprint : Json)
    (events : List RoomEvent) : (recordRequest room requestId fingerprint events).Keeps Quiet := by
  refine .execute fun db db' h => ?_
  obtain ⟨rs, -, -, rfl⟩ := Db.insertRoomRequest_some h
  exact ⟨rfl, rfl, rfl, rfl, rfl, .refl⟩

theorem insertAgentTask_quiet {fault : ε} (t : AgentTaskRecord) :
    (execute fault (Db.insertAgentTask t) : Tx ε Unit).Keeps Quiet := by
  refine .execute fun db db' h => ?_
  obtain ⟨ts, -, rfl⟩ := Db.insertAgentTask_some h
  exact ⟨rfl, rfl, rfl, rfl, rfl, .refl⟩

theorem updateAgentTasks_quiet {p : AgentTaskRecord → Bool} {f : AgentTaskRecord → AgentTaskRecord}
    {db db' : Db} (h : Db.updateAgentTasks p f db = some db') : Quiet db db' := by
  obtain ⟨ts, -, rfl⟩ := Db.updateAgentTasks_some h
  exact ⟨rfl, rfl, rfl, rfl, rfl, .refl⟩

theorem insertDecision_quiet {fault : ε} (d : Decision) :
    (execute fault (Db.insertDecision d) : Tx ε Unit).Keeps Quiet := by
  refine .execute fun db db' h => ?_
  obtain ⟨ds, -, -, rfl⟩ := Db.insertDecision_some h
  exact ⟨rfl, rfl, rfl, rfl, rfl, .refl⟩

theorem updateDecisions_quiet {fault : ε} (p : Decision → Bool) (f : Decision → Decision) :
    (execute fault (Db.updateDecisions p f) : Tx ε Unit).Keeps Quiet := by
  refine .execute fun db db' h => ?_
  obtain ⟨ds, -, rfl⟩ := Db.updateDecisions_some h
  exact ⟨rfl, rfl, rfl, rfl, rfl, .refl⟩

theorem deleteDecisions_quiet {fault : ε} (p : Decision → Bool) :
    (execute fault (Db.deleteDecisions p) : Tx ε Unit).Keeps Quiet := by
  refine .execute fun db db' h => ?_
  cases h
  exact ⟨rfl, rfl, rfl, rfl, rfl, .refl⟩

/-! ### Requests -/

theorem startAgentTaskInTransaction_quiet (requesterId : Uuid) (name : String)
    (start : AgentTaskStart) (recordIdempotency : Bool) (txNow : Time) (fresh : Nat → Uuid) :
    (startAgentTaskInTransaction env requesterId name start recordIdempotency txNow fresh).Keeps
      Quiet := by
  refine .bind Quiet.trans (.acquire Quiet.refl _) fun _ => ?_
  refine .bind Quiet.trans (priorRequest_quiet _ _) fun prior => ?_
  cases prior with
  | some prior =>
      refine .bind Quiet.trans (.ensure Quiet.refl _ _) fun _ => ?_
      refine .bind Quiet.trans (.query Quiet.refl _ _) fun _ => ?_
      exact .bind Quiet.trans (.orFail Quiet.refl _ _) fun _ => .pure Quiet.refl _
  | none =>
      refine .bind Quiet.trans (.query Quiet.refl _ _) fun _ => ?_
      refine .bind Quiet.trans (appendEventInTransaction_quiet env _ _) fun _ => ?_
      refine .bind Quiet.trans (.ensure Quiet.refl _ _) fun _ => ?_
      refine .bind Quiet.trans (insertAgentTask_quiet _) fun _ => ?_
      dsimp only
      split
      · exact .bind Quiet.trans (recordRequest_quiet _ _ _ _) fun _ => .pure Quiet.refl _
      · exact .pure Quiet.refl _

theorem sendMessage_quiet (actor : Actor) (request : ChatSend)
    (presence : List ParticipantPresence) (conversationsEnabled : Bool) (fresh : Nat → Uuid) :
    (sendMessage env actor request presence conversationsEnabled fresh).Keeps Quiet := by
  have happend : ∀ eventType payload eventId,
      (appendActionItemsEvent env request eventType payload eventId).Keeps Quiet :=
    fun _ _ _ => .mapErr (appendEventInTransaction_quiet env _ _)
  refine .bind Quiet.trans (.query Quiet.refl _ _) fun _ => ?_
  refine .bind Quiet.trans (.ofExcept Quiet.refl _) fun _ => ?_
  refine .bind Quiet.trans (.mapErr (appendEventInTransaction_quiet env _ _)) fun _ => ?_
  split
  · refine .bind Quiet.trans (happend _ _ _) fun _ => ?_
    refine .bind Quiet.trans (happend _ _ _) fun _ => ?_
    exact .bind Quiet.trans (happend _ _ _) fun _ => .pure Quiet.refl _
  · exact .pure Quiet.refl _

theorem findDecision_quiet (decisionId room : Uuid) : (findDecision decisionId room).Keeps Quiet :=
  .bind Quiet.trans (.query Quiet.refl _ _) fun _ => .orFail Quiet.refl _ _

theorem proposeDecision_quiet (actor : Actor) (request : DecisionPropose) (fresh : Nat → Uuid) :
    (proposeDecision env actor request fresh).Keeps Quiet := by
  refine .bind Quiet.trans (insertDecision_quiet _) fun _ => ?_
  exact .bind Quiet.trans (.mapErr (appendEventInTransaction_quiet env _ _))
    fun _ => .pure Quiet.refl _

theorem deleteDecision_quiet (actor : Actor) (request : DecisionDelete) (fresh : Nat → Uuid) :
    (deleteDecision env actor request fresh).Keeps Quiet := by
  refine .bind Quiet.trans (findDecision_quiet _ _) fun _ => ?_
  refine .bind Quiet.trans (.mapErr (appendEventInTransaction_quiet env _ _)) fun _ => ?_
  exact .bind Quiet.trans (deleteDecisions_quiet _) fun _ => .pure Quiet.refl _

theorem settleDecision_quiet (actor : Actor) (request : DecisionTransition) (row : Decision)
    (status : DecisionStatus) (eventType : EventType) (fresh : Nat → Uuid) :
    (settleDecision env actor request row status eventType fresh).Keeps Quiet := by
  refine .bind Quiet.trans (updateDecisions_quiet _ _) fun _ => ?_
  exact .bind Quiet.trans (.mapErr (appendEventInTransaction_quiet env _ _))
    fun _ => .pure Quiet.refl _

theorem editDecision_quiet (actor : Actor) (request : DecisionTransition) (row : Decision)
    (fresh : Nat → Uuid) : (editDecision env actor request row fresh).Keeps Quiet := by
  refine .bind Quiet.trans (.orFail Quiet.refl _ _) fun _ => ?_
  refine .bind Quiet.trans (.orFail Quiet.refl _ _) fun _ => ?_
  refine .bind Quiet.trans (updateDecisions_quiet _ _) fun _ => ?_
  refine .bind Quiet.trans (insertDecision_quiet _) fun _ => ?_
  refine .bind Quiet.trans (.mapErr (appendEventInTransaction_quiet env _ _)) fun _ => ?_
  exact .bind Quiet.trans (.mapErr (appendEventInTransaction_quiet env _ _))
    fun _ => .pure Quiet.refl _

theorem transitionDecision_quiet (actor : Actor) (request : DecisionTransition)
    (fresh : Nat → Uuid) : (transitionDecision env actor request fresh).Keeps Quiet := by
  refine .bind Quiet.trans (findDecision_quiet _ _) fun row => ?_
  refine .bind Quiet.trans (.ensure Quiet.refl _ _) fun _ => ?_
  cases request.action with
  | confirm => exact settleDecision_quiet env actor request row _ _ fresh
  | dismiss => exact settleDecision_quiet env actor request row _ _ fresh
  | edit => exact editDecision_quiet env actor request row fresh

theorem performRequest_quiet (actor : Actor) (request : ValidatedRequest)
    (presence : List ParticipantPresence) (conversationsEnabled : Bool) (txNow : Time)
    (fresh : Nat → Uuid) :
    (performRequest env actor request presence conversationsEnabled txNow fresh).Keeps Quiet := by
  cases request with
  | chatSend request => exact sendMessage_quiet env actor request _ _ fresh
  | decisionPropose request => exact proposeDecision_quiet env actor request fresh
  | decisionTransition request => exact transitionDecision_quiet env actor request fresh
  | decisionDelete request => exact deleteDecision_quiet env actor request fresh
  | agentTaskStart request =>
      exact .bind Quiet.trans (.mapErr (startAgentTaskInTransaction_quiet env _ _ _ _ _ _))
        fun _ => .pure Quiet.refl _
  | join request => exact .fail _
  | sessionAuthenticate request => exact .fail _

theorem process_quiet (actor : Actor) (request : ValidatedRequest)
    (presence : List ParticipantPresence) (conversationsEnabled : Bool) (txNow : Time)
    (fresh : Nat → Uuid) :
    (process env actor request presence conversationsEnabled txNow fresh).Keeps Quiet := by
  refine .bind Quiet.trans (.ensure Quiet.refl _ _) fun _ => ?_
  refine .bind Quiet.trans (.orFail Quiet.refl _ _) fun _ => ?_
  refine .bind Quiet.trans (.orFail Quiet.refl _ _) fun _ => ?_
  refine .bind Quiet.trans (.mapErr (.acquire Quiet.refl _)) fun _ => ?_
  refine .bind Quiet.trans (.mapErr (priorRequest_quiet _ _)) fun prior => ?_
  cases prior with
  | some prior => exact .bind Quiet.trans (.ensure Quiet.refl _ _) fun _ => .pure Quiet.refl _
  | none =>
      refine .bind Quiet.trans (performRequest_quiet env actor request _ _ _ _) fun _ => ?_
      exact .bind Quiet.trans (.mapErr (recordRequest_quiet _ _ _ _)) fun _ => .pure Quiet.refl _

/-! ### External agent tasks -/

theorem startAgentTask_quiet (requesterId : Uuid) (name : String) (start : AgentTaskStart)
    (txNow : Time) (fresh : Nat → Uuid) :
    (startAgentTask env requesterId name start txNow fresh).Keeps Quiet :=
  .bind Quiet.trans (startAgentTaskInTransaction_quiet env _ _ _ _ _ _) fun _ => .pure Quiet.refl _

theorem claimAgentTask_quiet (task owner : Uuid) (now : Time) :
    (claimAgentTask task owner now).Keeps Quiet := by
  refine .bind Quiet.trans (.acquire Quiet.refl _) fun _ => ?_
  exact .bind Quiet.trans (.returning fun _ _ _ h => updateAgentTasks_quiet h)
    fun _ => .pure Quiet.refl _

/-- Looking for a row to lock changes nothing. -/
theorem lockFirst_ok {agent : Uuid} {now : Time} {rows : List AgentTaskRecord} {db db' : Db}
    {row : Option AgentTaskRecord}
    (h : (lockFirst agent now rows).exec db = .ok (row, db')) :
    db' = db ∧ ∀ t ∈ row, t ∈ db.agentTasks.rows ∧ t.agentId = agent ∧ claimable now t = true := by
  induction rows with
  | nil =>
      obtain ⟨rfl, rfl⟩ := Prog.exec_pure_ok.mp h
      exact ⟨rfl, by simp⟩
  | cons t rows ih =>
      simp only [lockFirst, Prog.exec_bind_ok, Prog.exec_acquire_ok, Prog.exec_query_ok] at h
      obtain ⟨_, _, rfl, found, _, ⟨rfl, rfl⟩, h⟩ := h
      cases hfind : db.agentTasks.rows.find? _ with
      | none =>
          rw [hfind] at h
          exact ih h
      | some x =>
          rw [hfind] at h
          obtain ⟨rfl, rfl⟩ := Prog.exec_pure_ok.mp h
          have hcond := List.find?_some hfind
          simp only [Bool.and_eq_true, decide_eq_true_eq] at hcond
          refine ⟨rfl, fun y hy => ?_⟩
          obtain rfl := Option.mem_some.mp hy
          exact ⟨List.mem_of_find?_eq_some hfind, hcond.1.2, hcond.2⟩

theorem lockFirst_keeps {R : Db → Db → Prop} (refl : ∀ db, R db db) (agent : Uuid) (now : Time)
    (rows : List AgentTaskRecord) : (lockFirst agent now rows).Keeps R :=
  .of_eq refl fun _ _ _ h => (lockFirst_ok h).1.symm

theorem claimOldestQueuedAgentTask_quiet (agent owner : Uuid) (now : Time) :
    (claimOldestQueuedAgentTask agent owner now).Keeps Quiet := by
  refine .bind Quiet.trans (.acquire Quiet.refl _) fun _ => ?_
  refine .bind Quiet.trans (.query Quiet.refl _ _) fun rows => ?_
  unfold claimFirst
  refine .bind Quiet.trans (lockFirst_keeps Quiet.refl _ _ rows) fun row => ?_
  cases row with
  | none => exact .pure Quiet.refl _
  | some row =>
      exact .bind Quiet.trans (.execute fun _ _ h => updateAgentTasks_quiet h)
        fun _ => .pure Quiet.refl _

theorem recordAgentTaskUpdateWithOutcome_quiet (lease : AgentTaskLease) (update : AgentTaskUpdate)
    (txNow now : Time) (fresh : Nat → Uuid) :
    (recordAgentTaskUpdateWithOutcome env lease update txNow now fresh).Keeps Quiet := by
  refine .bind Quiet.trans (.acquire Quiet.refl _) fun _ => ?_
  refine .bind Quiet.trans (.query Quiet.refl _ _) fun _ => ?_
  refine .bind Quiet.trans (.orFail Quiet.refl _ _) fun _ => ?_
  refine .bind Quiet.trans (.acquire Quiet.refl _) fun _ => ?_
  refine .bind Quiet.trans (.ofExcept Quiet.refl _) fun _ => ?_
  refine .bind Quiet.trans (.query Quiet.refl _ _) fun known => ?_
  have hwrite : ∀ (u : AgentTaskUpdateRow),
      (execute StoreError.database (Db.insertAgentTaskUpdate u) : Tx StoreError Unit).Keeps
        Quiet := by
    refine fun u => .execute fun db db' h => ?_
    obtain ⟨us, -, rfl⟩ := Db.insertAgentTaskUpdate_some h
    exact ⟨rfl, rfl, rfl, rfl, rfl, .refl⟩
  cases known with
  | some known =>
      refine .bind Quiet.trans (.query Quiet.refl _ _) fun _ => ?_
      exact .bind Quiet.trans (.ensure Quiet.refl _ _) fun _ => .pure Quiet.refl _
  | none =>
      refine .bind Quiet.trans (.ensure Quiet.refl _ _) fun _ => ?_
      refine .bind Quiet.trans (.ofExcept Quiet.refl _) fun _ => ?_
      refine .bind Quiet.trans (.ofExcept Quiet.refl _) fun _ => ?_
      refine .bind Quiet.trans (appendEventInTransaction_quiet env _ _) fun _ => ?_
      refine .bind Quiet.trans (hwrite _) fun _ => ?_
      refine .bind Quiet.trans (.execute fun _ _ h => updateAgentTasks_quiet h) fun _ => ?_
      exact .pure Quiet.refl _

end Quiet

end RoomGateway
