import RoomGateway.Spec.Handout
import RoomGateway.Spec.Record

/-!
A turn is answered at most once: the replies that recording updates appends are
one for each completed task, acknowledged to the worker with the
acknowledgement that the task stores.
-/

namespace RoomGateway

open Table

variable {env : Env}

/-- The acknowledgement names the reply and what the turn consumed. -/
structure AckOf (env : Env) (t : ConversationTask) (e : RoomEvent) (text : String) (ack : Json) :
    Prop where
  replyEventId : ack["replyEventId"] = Json.str e.eventId.text
  replySequence : ack["replySequence"] = Json.ofInt e.sequence
  textDigest : ack["textDigest"] = Json.str (env.sha256Hex text)
  consumedRevision : ack["consumedRevision"] = Json.ofInt t.contextRevision
  contextDigest : ack["contextDigest"] = t.frozenInput["context"]["digest"]

/-- The event is the reply of the task. -/
structure ReplyOf (env : Env) (t : ConversationTask) (e : RoomEvent) : Prop where
  eventId : t.replyEventId = some e.eventId
  room : e.roomId = t.roomId
  message : e.eventType = .messageCreated
  author : e.actorId = codexAgentId ∧ e.actorRole = .agent
  later : t.contextRevision < e.sequence
  text : ∃ result text ack, t.result = some result ∧ result["assistantText"] = Json.str text ∧
    e.payload["text"] = Json.str text ∧ t.receiptAcknowledgement = some ack ∧
    AckOf env t e text ack

theorem ReplyOf.continues {t t' : ConversationTask} {e : RoomEvent} (hc : Continues t t')
    (hcompleted : t.state = .completed) (h : ReplyOf env t e) : ReplyOf env t' e := by
  rw [hc.completed hcompleted] at h
  obtain ⟨eventId, room, message, author, later, result, text, ack, hresult, htext, hpayload,
    hack, hackOf⟩ := h
  exact ⟨eventId, room, message, author, later, result, text, ack, hresult, htext, hpayload, hack,
    hackOf.1, hackOf.2, hackOf.3, hackOf.4, hackOf.5⟩

/-- A task was added, with the message that triggered it. -/
structure TaskAdded (db db' : Db) (t : ConversationTask) (prompt : RoomEvent) : Prop where
  tasks : db'.conversationTasks.rows = db.conversationTasks.rows ++ [t]
  unused : ∀ x ∈ db.conversationTasks.rows, x.taskId ≠ t.taskId
  uncompleted : t.state ≠ .completed
  unanswered : t.replyEventId = none ∧ t.receiptAcknowledgement = none
  updates : db'.conversationUpdates.rows = db.conversationUpdates.rows
  requests : db'.conversationUpdateRequests.rows = db.conversationUpdateRequests.rows
  trigger : prompt ∈ db'.roomEvents.rows ∧ prompt.roomId = t.roomId ∧
    prompt.sequence = t.contextRevision
  log : LogExtends db db'

/-- A task was changed without a reply. -/
structure TaskKept (db db' : Db) (t t' : ConversationTask) : Prop where
  mem : t ∈ db.conversationTasks.rows
  tasks : ∀ x, x ∈ db'.conversationTasks.rows ↔
    x = t' ∨ (x ∈ db.conversationTasks.rows ∧ x.taskId ≠ t.taskId)
  continues : Continues t t'
  uncompleted : t.state ≠ .completed → t'.state ≠ .completed ∧
    t'.replyEventId = t.replyEventId ∧ t'.receiptAcknowledgement = t.receiptAcknowledgement
  updates : ∀ u ∈ db'.conversationUpdates.rows, u ∈ db.conversationUpdates.rows ∨
    (u.taskId = t.taskId ∧ u.kind ≠ .completed)
  requests : ∀ p ∈ db'.conversationUpdateRequests.rows,
    p ∈ db.conversationUpdateRequests.rows ∨ (p.taskId = t.taskId ∧ t.state ≠ .completed)
  events : db'.roomEvents = db.roomEvents

/-- What a step does to the tasks, their updates and the log. -/
inductive ReplyStep (env : Env) (update : Prop) (db db' : Db) : Prop where
  | same (tasks : db'.conversationTasks.rows = db.conversationTasks.rows)
      (updates : db'.conversationUpdates.rows = db.conversationUpdates.rows)
      (requests : db'.conversationUpdateRequests.rows = db.conversationUpdateRequests.rows)
      (log : LogExtends db db')
  | added {t prompt} (h : TaskAdded db db' t prompt)
  | kept {t t'} (h : TaskKept db db' t t')
  | completed {t c lease updateId ordinal request now eventId reply text} (hupdate : update)
      (h : CompletedTurn env db db' t c lease updateId ordinal request now eventId reply text)

section ReplySteps

variable {stale update : Prop} {db db' : Db} {t : ConversationTask} {c : AgentConversation}

theorem ne_completed_of_live {t : ConversationTask} (h : t.state.live = true) :
    t.state ≠ .completed := by
  intro hcompleted
  rw [hcompleted] at h
  cases h

theorem endedTask_unanswered {error : ConversationError} {txNow : Time} (ordinal : Int)
    (h : t.state ≠ .completed) :
    let t' := { endedTask error txNow t with lastUpdateOrdinal := ordinal }
    t'.state ≠ .completed ∧ t'.replyEventId = t.replyEventId ∧
      t'.receiptAcknowledgement = t.receiptAcknowledgement := by
  unfold endedTask
  split
  · exact ⟨by simp, rfl, rfl⟩
  · exact ⟨h, rfl, rfl⟩

theorem FailedTurn.replyStep {error : ConversationError} {txNow : Time} {updateId : Uuid}
    (h : FailedTurn db db' t c error txNow updateId) : ReplyStep env update db db' := by
  refine .kept ⟨h.change.task, fun x => h.change.mem_tasks, continues_endedTask ..,
    endedTask_unanswered _, ?_, ?_, ?_⟩
  · intro u hu
    rw [h.updates, List.mem_append, List.mem_singleton] at hu
    refine hu.imp id ?_
    rintro rfl
    exact ⟨rfl, by simp [updateRow]⟩
  · obtain ⟨_, _, _, rfl⟩ := h.frame
    exact fun p hp => .inl hp
  · exact h.events

/-- The ledger after a new update of a task that is under way. -/
theorem NewUpdate.mem_requests {lease updateId : Uuid} {ordinal : Int} {request response : Json}
    {now : Time} (h : NewUpdate env db db' t c lease updateId ordinal request response now)
    {p : ConversationUpdateRequest} (hp : p ∈ db'.conversationUpdateRequests.rows) :
    p ∈ db.conversationUpdateRequests.rows ∨ (p.taskId = t.taskId ∧ t.state ≠ .completed) := by
  rw [h.requests, List.mem_append, List.mem_singleton] at hp
  refine hp.imp id ?_
  rintro rfl
  exact ⟨rfl, ne_completed_of_live h.underWay.live⟩

theorem ReportedFailure.replyStep {lease updateId : Uuid} {ordinal : Int} {request : Json}
    {txNow now : Time} {error : ConversationError}
    (h : ReportedFailure env db db' t c lease updateId ordinal request txNow now error) :
    ReplyStep env update db db' := by
  refine .kept ⟨h.change.task, fun x => h.change.mem_tasks, continues_endedTask ..,
    endedTask_unanswered _, ?_, fun p hp => h.mem_requests hp, h.events⟩
  intro u hu
  rw [h.updates, List.mem_append, List.mem_singleton] at hu
  refine hu.imp id ?_
  rintro rfl
  exact ⟨rfl, by simp [updateRow]⟩

theorem NotedTurn.replyStep {lease updateId : Uuid} {ordinal : Int} {kind : UpdateKind}
    {request : Json} {now : Time}
    (h : NotedTurn env db db' t c lease updateId ordinal kind request now) :
    ReplyStep env update db db' := by
  obtain ⟨_, _, _, _, change⟩ := h.change
  refine .kept ⟨change.task, fun x => change.mem_tasks,
    .of_live h.underWay.live rfl fun _ htoken => htoken, fun hstate => ⟨hstate, rfl, rfl⟩, ?_,
    fun p hp => h.mem_requests hp, h.events⟩
  intro u hu
  rcases h.updates with ⟨-, hupdates⟩ | ⟨-, hupdates⟩
  · exact .inl (hupdates ▸ hu)
  · rw [hupdates, List.mem_append, List.mem_singleton] at hu
    rcases hu with hu | rfl
    · exact .inl (List.mem_filter.mp hu).1
    · refine .inr ⟨rfl, fun hkind => ?_⟩
      have hway := h.onTheWay
      rw [show kind = .completed from hkind] at hway
      cases hway

theorem ReservedTurn.replyStep {policy : ConversationPolicy} {actor : Actor} {turn : TurnRequest}
    {prompt : RoomEvent} {base : Int} {items : List ContextItem} {context : Json}
    (h : ReservedTurn env db db' policy actor turn t c prompt base items context) :
    ReplyStep env update db db' := by
  obtain ⟨eventId, occurredAt, happended⟩ := h.appended
  have hrow := happended.row
  refine .added (?_ : TaskAdded db db' t prompt)
  refine ⟨h.tasks, h.unused, ?_, ?_, ?_, ?_, ⟨?_, ?_, h.task_revision.symm⟩, happended.extends⟩
  · rw [h.task_state]
    simp
  · obtain ⟨_, _, _, _, ht⟩ := h.task
    rw [ht]
    exact ⟨rfl, rfl⟩
  · obtain ⟨_, _, _, _, rfl⟩ := h.frame
    rfl
  · obtain ⟨_, _, _, _, rfl⟩ := h.frame
    rfl
  · rw [happended.rows]
    exact List.mem_append_right _ List.mem_cons_self
  · obtain ⟨_, _, _, _, ht⟩ := h.task
    rw [hrow, ht]
    rfl

theorem Effect.replyStep (h : Effect env stale update db db') : ReplyStep env update db db' := by
  cases h with
  | quiet h => exact .same (by rw [h.tasks]) (by rw [h.updates]) (by rw [h.requests]) h.log
  | reserved h => exact h.replyStep
  | claimed h =>
      obtain ⟨ts, cs, hframe⟩ := h.frame
      refine .kept ⟨h.change.task, fun x => h.change.mem_tasks,
        .of_live h.underWay.live rfl fun token htoken => ?_,
        fun _ => ⟨by simp [claimedTask], rfl, rfl⟩, fun u hu => .inl ?_, fun p hp => .inl ?_,
        by rw [hframe]⟩
      · rw [h.unclaimed] at htoken
        cases htoken
      · rwa [hframe] at hu
      · rwa [hframe] at hp
  | completed hupdate h => exact .completed hupdate h
  | reported _ h => exact h.replyStep
  | noted _ h => exact h.replyStep
  | failed _ h => exact h.replyStep
  | staleFailed _ _ h => exact h.replyStep

end ReplySteps

/-- The completed tasks have their replies, and only they. -/
structure Answered (env : Env) (db : Db) : Prop where
  trigger : ∀ t ∈ db.conversationTasks.rows, ∃ e ∈ db.roomEvents.rows, e.roomId = t.roomId ∧
    e.sequence = t.contextRevision
  known : ∀ u ∈ db.conversationUpdates.rows, ∃ t ∈ db.conversationTasks.rows, t.taskId = u.taskId
  unanswered : ∀ t ∈ db.conversationTasks.rows, t.state ≠ .completed →
    t.replyEventId = none ∧ t.receiptAcknowledgement = none
  uncompleted : ∀ t ∈ db.conversationTasks.rows, t.state ≠ .completed →
    ∀ u ∈ db.updatesOf t.taskId, u.kind ≠ .completed
  answered : ∀ t ∈ db.conversationTasks.rows, t.state = .completed →
    ∃ e ∈ db.roomEvents.rows, ReplyOf env t e
  distinct : ∀ t ∈ db.conversationTasks.rows, ∀ u ∈ db.conversationTasks.rows,
    t.state = .completed → u.state = .completed → t.replyEventId = u.replyEventId → t = u
  ledger : ∀ t ∈ db.conversationTasks.rows, t.state = .completed →
    ∀ u ∈ db.updatesOf t.taskId, u.kind = .completed →
    ∀ p ∈ db.conversationUpdateRequests.rows, p.taskId = t.taskId → p.updateId = u.updateId →
      t.receiptAcknowledgement = some p.response

theorem Db.mem_updatesOf {db : Db} {task : Uuid} {u : ConversationUpdate} :
    u ∈ db.updatesOf task ↔ u ∈ db.conversationUpdates.rows ∧ u.taskId = task := by
  simp [Db.updatesOf]

theorem TaskKept.completed_before {db db' : Db} {t t' x : ConversationTask}
    (k : TaskKept db db' t t') (hx : x ∈ db'.conversationTasks.rows)
    (hstate : x.state = .completed) :
    ∃ y ∈ db.conversationTasks.rows, y.state = .completed ∧ Continues y x := by
  rcases (k.tasks x).mp hx with rfl | ⟨hx, -⟩
  · have hcompleted : t.state = .completed := by
      by_contra hne
      exact (k.uncompleted hne).1 hstate
    exact ⟨t, k.mem, hcompleted, k.continues⟩
  · exact ⟨x, hx, hstate, .refl x⟩

/-- Without a completion, a completed task was completed before. -/
theorem ReplyStep.completed_before {db db' : Db} {x : ConversationTask}
    (h : ReplyStep env False db db') (hx : x ∈ db'.conversationTasks.rows)
    (hstate : x.state = .completed) :
    ∃ y ∈ db.conversationTasks.rows, y.state = .completed ∧ Continues y x := by
  cases h with
  | same tasks => exact ⟨x, tasks ▸ hx, hstate, .refl x⟩
  | added a =>
      rw [a.tasks, List.mem_append, List.mem_singleton] at hx
      rcases hx with hx | rfl
      · exact ⟨x, hx, hstate, .refl x⟩
      · exact absurd hstate a.uncompleted
  | kept k => exact k.completed_before hx hstate
  | completed hfalse => exact hfalse.elim

namespace Answered

variable {update : Prop} {db db' : Db}

theorem init : Answered env {} where
  trigger := by simp
  known := by simp
  unanswered := by simp
  uncompleted := by simp
  answered := by simp
  distinct := by simp
  ledger := by simp

theorem same (h : Answered env db)
    (htasks : db'.conversationTasks.rows = db.conversationTasks.rows)
    (hupdates : db'.conversationUpdates.rows = db.conversationUpdates.rows)
    (hrequests : db'.conversationUpdateRequests.rows = db.conversationUpdateRequests.rows)
    (hlog : LogExtends db db') : Answered env db' where
  trigger := by
    intro t ht
    obtain ⟨e, he, hroom, hsequence⟩ := h.trigger t (htasks ▸ ht)
    exact ⟨e, hlog.mem he, hroom, hsequence⟩
  known := htasks ▸ hupdates ▸ h.known
  unanswered := htasks ▸ h.unanswered
  uncompleted := by
    intro t ht hstate
    rw [Db.updatesOf_congr hupdates]
    exact h.uncompleted t (htasks ▸ ht) hstate
  answered := by
    intro t ht hstate
    obtain ⟨e, he, hreply⟩ := h.answered t (htasks ▸ ht) hstate
    exact ⟨e, hlog.mem he, hreply⟩
  distinct := htasks ▸ h.distinct
  ledger := by
    intro t ht hstate
    rw [Db.updatesOf_congr hupdates, hrequests]
    exact h.ledger t (htasks ▸ ht) hstate

theorem added {t : ConversationTask} {prompt : RoomEvent} (h : Answered env db)
    (a : TaskAdded db db' t prompt) : Answered env db' := by
  have hmem : ∀ x, x ∈ db'.conversationTasks.rows ↔ x ∈ db.conversationTasks.rows ∨ x = t := by
    intro x
    rw [a.tasks, List.mem_append, List.mem_singleton]
  have hold : ∀ x ∈ db'.conversationTasks.rows, x.state = .completed →
      x ∈ db.conversationTasks.rows := by
    intro x hx hstate
    rcases (hmem x).mp hx with hx | rfl
    · exact hx
    · exact absurd hstate a.uncompleted
  refine ⟨fun x hx => ?_, fun u hu => ?_, fun x hx hstate => ?_, fun x hx hstate => ?_,
    fun x hx hstate => ?_, fun x hx y hy hxs hys => ?_, fun x hx hstate => ?_⟩
  · rcases (hmem x).mp hx with hx | rfl
    · obtain ⟨e, he, hroom, hsequence⟩ := h.trigger x hx
      exact ⟨e, a.log.mem he, hroom, hsequence⟩
    · exact ⟨prompt, a.trigger⟩
  · obtain ⟨x, hx, hid⟩ := h.known u (a.updates ▸ hu)
    exact ⟨x, (hmem x).mpr (.inl hx), hid⟩
  · rcases (hmem x).mp hx with hx | rfl
    · exact h.unanswered x hx hstate
    · exact a.unanswered
  · rw [Db.updatesOf_congr a.updates]
    rcases (hmem x).mp hx with hx | rfl
    · exact h.uncompleted x hx hstate
    · -- nobody has recorded an update for a task that did not exist
      intro u hu
      obtain ⟨hu, hid⟩ := Db.mem_updatesOf.mp hu
      obtain ⟨y, hy, hyid⟩ := h.known u hu
      exact absurd (hyid.trans hid) (a.unused y hy)
  · obtain ⟨e, he, hreply⟩ := h.answered x (hold x hx hstate) hstate
    exact ⟨e, a.log.mem he, hreply⟩
  · exact h.distinct x (hold x hx hxs) y (hold y hy hys) hxs hys
  · rw [Db.updatesOf_congr a.updates, a.requests]
    exact h.ledger x (hold x hx hstate) hstate

theorem kept {t t' : ConversationTask} (h : Answered env db) (k : TaskKept db db' t t') :
    Answered env db' := by
  have hid := k.continues.taskId_eq
  have hnot : t'.state ≠ .completed → t.state ≠ .completed := by
    intro hne hcompleted
    rw [k.continues.completed hcompleted] at hcompleted
    exact hne hcompleted
  have hupdate : ∀ x ∈ db.conversationTasks.rows, ∀ u ∈ db'.updatesOf x.taskId,
      u.kind = .completed → u ∈ db.updatesOf x.taskId := by
    intro x hx u hu hkind
    obtain ⟨hu, huid⟩ := Db.mem_updatesOf.mp hu
    rcases k.updates u hu with hu | ⟨-, hne⟩
    · exact Db.mem_updatesOf.mpr ⟨hu, huid⟩
    · exact absurd hkind hne
  refine ⟨fun x hx => ?_, fun u hu => ?_, fun x hx hstate => ?_, fun x hx hstate u hu hkind => ?_,
    fun x hx hstate => ?_, fun x hx y hy hxs hys heq => ?_, fun x hx hstate u hu hkind p hp => ?_⟩
  · rw [k.events]
    rcases (k.tasks x).mp hx with rfl | ⟨hx, -⟩
    · rw [eq_of_origin ConversationTask.roomId (fun _ => rfl) k.continues.origin,
        eq_of_origin ConversationTask.contextRevision (fun _ => rfl) k.continues.origin]
      exact h.trigger t k.mem
    · exact h.trigger x hx
  · have hold : ∃ y ∈ db.conversationTasks.rows, y.taskId = u.taskId := by
      rcases k.updates u hu with hu | ⟨huid, -⟩
      · exact h.known u hu
      · exact ⟨t, k.mem, huid.symm⟩
    obtain ⟨y, hy, hyid⟩ := hold
    by_cases hyt : y.taskId = t.taskId
    · exact ⟨t', (k.tasks t').mpr (.inl rfl), hid.trans (hyt.symm.trans hyid)⟩
    · exact ⟨y, (k.tasks y).mpr (.inr ⟨hy, hyt⟩), hyid⟩
  · rcases (k.tasks x).mp hx with rfl | ⟨hx, -⟩
    · have hne := hnot hstate
      obtain ⟨-, hreply, hack⟩ := k.uncompleted hne
      rw [hreply, hack]
      exact h.unanswered t k.mem hne
    · exact h.unanswered x hx hstate
  · rcases (k.tasks x).mp hx with rfl | ⟨hx, -⟩
    · rw [hid] at hu
      exact h.uncompleted t k.mem (hnot hstate) u (hupdate t k.mem u hu hkind) hkind
    · exact h.uncompleted x hx hstate u (hupdate x hx u hu hkind) hkind
  · rw [k.events]
    obtain ⟨y, hy, hys, hcont⟩ := k.completed_before hx hstate
    obtain ⟨e, he, hreply⟩ := h.answered y hy hys
    exact ⟨e, he, hreply.continues hcont hys⟩
  · obtain ⟨a, ha, has, hax⟩ := k.completed_before hx hxs
    obtain ⟨b, hb, hbs, hby⟩ := k.completed_before hy hys
    have hab : a = b := by
      refine h.distinct a ha b hb has hbs ?_
      rw [hax.completed has, hby.completed hbs]
      exact heq
    have hids : x.taskId = y.taskId := by rw [hax.taskId_eq, hab, hby.taskId_eq]
    exact Db.task_unique hx hy hids
  · intro hpid hpu
    obtain ⟨y, hy, hys, hcont⟩ := k.completed_before hx hstate
    rw [hcont.taskId_eq] at hu hpid
    have hu' := hupdate y hy u hu hkind
    have hp' : p ∈ db.conversationUpdateRequests.rows := by
      rcases k.requests p hp with hp | ⟨hpt, hne⟩
      · exact hp
      · rw [Db.task_unique hy k.mem (hpid.symm.trans hpt)] at hys
        exact absurd hys hne
    have hack := h.ledger y hy hys u hu' hkind p hp' hpid hpu
    rw [hcont.completed hys] at hack
    exact hack

section Completed

variable {t : ConversationTask} {c : AgentConversation} {lease updateId : Uuid} {ordinal : Int}
  {request : Json} {now : Time} {eventId : Uuid} {reply : RoomEvent} {text : String}
  (h : Answered env db)
  (d : CompletedTurn env db db' t c lease updateId ordinal request now eventId reply text)

include h d

theorem completed_reply :
    ReplyOf env { completedTask env t request["data"] reply text now with
      lastUpdateOrdinal := ordinal } reply := by
  have hrow := d.appended.row
  obtain ⟨e, he, hroom, hsequence⟩ := h.trigger t d.change.task
  refine ⟨rfl, by rw [hrow]; rfl, by rw [hrow]; rfl, by rw [hrow]; exact ⟨rfl, rfl⟩, ?_,
    request["data"], text, acknowledgement env t reply text, rfl, d.text_eq, ?_, rfl, ?_⟩
  · exact hsequence ▸ d.appended.sequence_lt he hroom
  · rw [hrow, ← d.text_eq]
    simp [NewEvent.row, replyEvent]
  · constructor <;> simp [acknowledgement, completedTask]

theorem completed_ledger {u : ConversationUpdate} (hu : u ∈ db'.updatesOf t.taskId)
    (hkind : u.kind = .completed) {p : ConversationUpdateRequest}
    (hp : p ∈ db'.conversationUpdateRequests.rows) (hpid : p.taskId = t.taskId)
    (hpu : p.updateId = u.updateId) : p.response = acknowledgement env t reply text := by
  have hlive := ne_completed_of_live d.underWay.live
  have huid : u.updateId = updateId := by
    obtain ⟨hu, huid⟩ := Db.mem_updatesOf.mp hu
    rw [d.updates, List.mem_append, List.mem_singleton] at hu
    rcases hu with hu | rfl
    · exact absurd hkind
        (h.uncompleted t d.change.task hlive u (Db.mem_updatesOf.mpr ⟨hu, huid⟩))
    · rfl
  have hnew : requestRow t.roomId t updateId ordinal request
      (acknowledgement env t reply text) now ∈
      db'.conversationUpdateRequests.rows := by
    rw [d.requests]
    exact List.mem_append_right _ List.mem_cons_self
  have hsame : p = requestRow t.roomId t updateId ordinal request
      (acknowledgement env t reply text) now := by
    refine eq_of_clash hp hnew ?_ ?_
    · simp [conversationUpdateRequestConstraints, requestRow, hpid, hpu, huid]
    · simp [conversationUpdateRequestConstraints, requestRow, hpid, hpu, huid]
  rw [hsame, requestRow]

theorem completed : Answered env db' := by
  have hlog := d.appended.extends
  have htasks := fun x => d.change.mem_tasks (x := x)
  have hevent : reply ∈ db'.roomEvents.rows := by
    rw [d.appended.rows]
    exact List.mem_append_right _ List.mem_cons_self
  have hupdate : ∀ x, x ≠ t.taskId → ∀ u ∈ db'.updatesOf x, u ∈ db.updatesOf x := by
    intro x hne u hu
    obtain ⟨hu, huid⟩ := Db.mem_updatesOf.mp hu
    rw [d.updates, List.mem_append, List.mem_singleton] at hu
    rcases hu with hu | rfl
    · exact Db.mem_updatesOf.mpr ⟨hu, huid⟩
    · exact absurd huid.symm hne
  -- the reply is a new event, so it is the reply of no other task
  have hother : ∀ x ∈ db.conversationTasks.rows, x.state = .completed →
      x.replyEventId ≠ some reply.eventId := by
    intro x hx hstate heq
    obtain ⟨e, he, hreply⟩ := h.answered x hx hstate
    have hfresh := d.appended.fresh e he
    rw [hreply.eventId, Option.some.injEq] at heq
    simp [roomEventConstraints, heq] at hfresh
  refine ⟨fun x hx => ?_, fun u hu => ?_, fun x hx hstate => ?_, fun x hx hstate u hu => ?_,
    fun x hx hstate => ?_, fun x hx y hy hxs hys heq => ?_, fun x hx hstate u hu hkind p hp => ?_⟩
  · rcases (htasks x).mp hx with rfl | ⟨hx, -⟩
    · obtain ⟨e, he, hroom⟩ := h.trigger t d.change.task
      exact ⟨e, hlog.mem he, hroom⟩
    · obtain ⟨e, he, hroom⟩ := h.trigger x hx
      exact ⟨e, hlog.mem he, hroom⟩
  · rw [d.updates, List.mem_append, List.mem_singleton] at hu
    have hold : ∃ y ∈ db.conversationTasks.rows, y.taskId = u.taskId := by
      rcases hu with hu | rfl
      · exact h.known u hu
      · exact ⟨t, d.change.task, rfl⟩
    obtain ⟨y, hy, hyid⟩ := hold
    by_cases hyt : y.taskId = t.taskId
    · exact ⟨_, (htasks _).mpr (.inl rfl), hyt.symm.trans hyid⟩
    · exact ⟨y, (htasks y).mpr (.inr ⟨hy, hyt⟩), hyid⟩
  · rcases (htasks x).mp hx with rfl | ⟨hx, -⟩
    · exact absurd rfl hstate
    · exact h.unanswered x hx hstate
  · rcases (htasks x).mp hx with rfl | ⟨hx, hne⟩
    · exact absurd rfl hstate
    · exact h.uncompleted x hx hstate u (hupdate _ hne u hu)
  · rcases (htasks x).mp hx with rfl | ⟨hx, -⟩
    · exact ⟨reply, hevent, h.completed_reply d⟩
    · obtain ⟨e, he, hreply⟩ := h.answered x hx hstate
      exact ⟨e, hlog.mem he, hreply⟩
  · rcases (htasks x).mp hx with rfl | ⟨hx, -⟩
    · rcases (htasks y).mp hy with rfl | ⟨hy, -⟩
      · rfl
      · exact absurd heq.symm (hother y hy hys)
    · rcases (htasks y).mp hy with rfl | ⟨hy, -⟩
      · exact absurd heq (hother x hx hxs)
      · exact h.distinct x hx y hy hxs hys heq
  · intro hpid hpu
    rcases (htasks x).mp hx with rfl | ⟨hx, hne⟩
    · exact congrArg some (h.completed_ledger d hu hkind hp hpid hpu).symm
    · refine h.ledger x hx hstate u (hupdate _ hne u hu) hkind p ?_ hpid hpu
      rcases d.mem_requests hp with hp | ⟨hpt, -⟩
      · exact hp
      · exact absurd (hpid.symm.trans hpt) hne

end Completed

theorem step (h : Answered env db) (hstep : ReplyStep env update db db') : Answered env db' := by
  cases hstep with
  | same tasks updates requests log => exact h.same tasks updates requests log
  | added a => exact h.added a
  | kept k => exact h.kept k
  | completed _ d => exact h.completed d

end Answered

/-! ### Runs -/

/-- The events that a step appends while it records an update. -/
def appendedReplies (env : Env) (s : Sys) (op : Op) : List RoomEvent :=
  if op.isUpdate then
    ((gateway env).next s op).db.roomEvents.rows.drop s.db.roomEvents.rows.length
  else []

theorem appendedReplies_of_same {s : Sys} {op : Op}
    (h : ((gateway env).next s op).db.roomEvents = s.db.roomEvents) :
    appendedReplies env s op = [] := by
  rw [appendedReplies, h, List.drop_length, ite_self]

/-- A step that appends a reply completes a task, and no other step does. -/
theorem appendedReplies_cases (env : Env) (s : Sys) (op : Op) :
    (appendedReplies env s op = [] ∧ ReplyStep env False s.db ((gateway env).next s op).db) ∨
      ∃ t c lease updateId ordinal request now eventId reply text,
        CompletedTurn env s.db ((gateway env).next s op).db t c lease updateId ordinal request now
          eventId reply text ∧ appendedReplies env s op = [reply] := by
  cases hop : op.isUpdate with
  | false =>
      refine .inl ⟨by rw [appendedReplies, hop]; rfl, ?_⟩
      have hstep := (gateway_effect s op : Effect env _ _ s.db _).replyStep
      cases hstep with
      | same tasks updates requests log => exact .same tasks updates requests log
      | added a => exact .added a
      | kept k => exact .kept k
      | completed hupdate =>
          rw [hop] at hupdate
          cases hupdate
  | true =>
      cases op with
      | recordUpdate policy task lease request txNow clock fresh =>
          rcases recordUpdate_cases s.db policy task lease request txNow clock fresh with
            hsame | ⟨t, c, error, -, h⟩ | ⟨t, c, updateId, outcome, h⟩
          · refine .inl ⟨appendedReplies_of_same (congrArg Db.roomEvents hsame), ?_⟩
            have hnext : ((gateway env).next s (.recordUpdate policy task lease request txNow clock
              fresh)).db = s.db := hsame
            rw [hnext]
            exact .same rfl rfl rfl .refl
          · exact .inl ⟨appendedReplies_of_same h.events, h.replyStep⟩
          · cases h with
            | @completed ordinal reply text h =>
                refine .inr ⟨t, c, lease, updateId, ordinal, request, clock 5, fresh,
                  reply, text, h,
                  ?_⟩
                have hrows : ((gateway env).next s (.recordUpdate policy task lease request txNow
                  clock fresh)).db.roomEvents.rows = s.db.roomEvents.rows ++ [reply] :=
                  h.appended.rows
                rw [appendedReplies, hop, if_pos rfl, hrows, List.drop_left]
            | failed h => exact .inl ⟨appendedReplies_of_same h.events, h.replyStep⟩
            | noted h => exact .inl ⟨appendedReplies_of_same h.events, h.replyStep⟩
      | _ => cases hop

/-- The replies appended so far and the completed tasks. -/
structure Delivered (env : Env) (db : Db) (replies : List RoomEvent) : Prop where
  answered : Answered env db
  stored : ∀ e ∈ replies, e ∈ db.roomEvents.rows
  nodup : replies.Nodup
  reply : ∀ t ∈ db.conversationTasks.rows, t.state = .completed → ∃ e ∈ replies, ReplyOf env t e
  task : ∀ e ∈ replies, ∃ t ∈ db.conversationTasks.rows, t.state = .completed ∧ ReplyOf env t e

theorem Delivered.step {s : Sys} {replies : List RoomEvent} (h : Delivered env s.db replies)
    (op : Op) :
    Delivered env ((gateway env).next s op).db (replies ++ appendedReplies env s op) := by
  have heffect : Effect env _ _ s.db ((gateway env).next s op).db := gateway_effect s op
  have hanswered := h.answered.step heffect.replyStep
  have hstored : ∀ e ∈ replies, e ∈ ((gateway env).next s op).db.roomEvents.rows :=
    fun e he => heffect.log.mem (h.stored e he)
  have htask : ∀ e ∈ replies, ∃ t ∈ ((gateway env).next s op).db.conversationTasks.rows,
      t.state = .completed ∧ ReplyOf env t e := by
    intro e he
    obtain ⟨t, ht, hstate, hreply⟩ := h.task e he
    obtain ⟨t', ht', hcont⟩ := heffect.tasksContinue t ht
    refine ⟨t', ht', ?_, hreply.continues hcont hstate⟩
    rw [hcont.completed hstate] at hstate
    exact hstate
  rcases appendedReplies_cases env s op with
    ⟨hnone, hstep⟩ | ⟨t, c, lease, updateId, ordinal, request, now, eventId, reply, text, d, hone⟩
  · rw [hnone, List.append_nil]
    refine ⟨hanswered, hstored, h.nodup, fun t ht hstate => ?_, htask⟩
    obtain ⟨y, hy, hys, hcont⟩ := hstep.completed_before ht hstate
    obtain ⟨e, he, hreply⟩ := h.reply y hy hys
    exact ⟨e, he, hreply.continues hcont hys⟩
  · have hnew := h.answered.completed_reply d
    have hmem : reply ∈ ((gateway env).next s op).db.roomEvents.rows := by
      rw [d.appended.rows]
      exact List.mem_append_right _ List.mem_cons_self
    rw [hone]
    refine ⟨hanswered, fun e he => ?_, ?_, fun x hx hstate => ?_, fun e he => ?_⟩
    · rcases List.mem_append.mp he with he | he
      · exact hstored e he
      · rwa [List.mem_singleton.mp he]
    · rw [List.nodup_append]
      refine ⟨h.nodup, List.nodup_singleton _, fun e he e' he' heq => ?_⟩
      -- an earlier reply is in the log that the new one was added to
      have hfresh := d.appended.fresh e (h.stored e he)
      rw [heq, List.mem_singleton.mp he'] at hfresh
      simp [roomEventConstraints] at hfresh
    · rcases d.change.mem_tasks.mp hx with rfl | ⟨hx, -⟩
      · exact ⟨reply, List.mem_append_right _ List.mem_cons_self, hnew⟩
      · obtain ⟨e, he, hreply⟩ := h.reply x hx hstate
        exact ⟨e, List.mem_append_left _ he, hreply⟩
    · rcases List.mem_append.mp he with he | he
      · exact htask e he
      · rw [List.mem_singleton.mp he]
        exact ⟨_, d.change.mem_tasks.mpr (.inl rfl), rfl, hnew⟩

theorem gateway_delivered (env : Env) (ops : List Op) :
    Delivered env ((gateway env).run ops).db
      ((gateway env).collect (appendedReplies env) (gateway env).init ops) :=
  Machine.collect_invariant (P := fun s : Sys => Delivered env s.db)
    ⟨Answered.init, by simp, List.nodup_nil, by simp [gateway], by simp⟩ (fun _ _ op h => h.step op)
    ops

/-! ### What the worker is told -/

/-- Whoever submits the completing update successfully, for the first time or
again, is told the stored acknowledgement. -/
theorem recordUpdate_response {db : Db} (hanswered : Answered env db)
    {policy : ConversationPolicy} {task lease : Uuid} {request : Json} {txNow : Time}
    {clock : Nat → Time} {fresh : Uuid} {outcome : ConversationUpdateOutcome}
    (hok : ((recordUpdate env policy task lease request txNow clock fresh).runTx db).1 =
      .ok outcome)
    {t : ConversationTask} {u : ConversationUpdate}
    (ht : t ∈ ((recordUpdate env policy task lease request txNow clock
      fresh).runTx db).2.conversationTasks.rows)
    (hid : t.taskId = task) (hstate : t.state = .completed)
    (hu : u ∈ ((recordUpdate env policy task lease request txNow clock
      fresh).runTx db).2.updatesOf task)
    (hkind : u.kind = .completed) (hupdate : uuidField request "updateId" = .ok u.updateId) :
    t.receiptAcknowledgement = some outcome.response := by
  rcases Prog.runTx_ok hok with ⟨_, hrollback, hsame⟩ | hcommit
  · rw [hsame] at ht hu
    obtain ⟨row, c, -, -, -, -, updateId, hid', h⟩ := recordUpdate_ok hrollback
    obtain rfl := Except.ok.inj (hid'.symm.trans hupdate)
    obtain ⟨prior, _, hending, -, hfound, hreplay⟩ | ⟨-, ⟨_, hending, -⟩ | ⟨_, hending, -⟩⟩ := h
    · cases hending
      have hcond := List.find?_some hfound
      simp only [Bool.and_eq_true, decide_eq_true_eq] at hcond
      rw [(replayUpdate_ok hreplay).2]
      exact hanswered.ledger t ht hstate u (hid ▸ hu) hkind prior
        (List.mem_of_find?_eq_some hfound) (hcond.1.trans hid.symm) hcond.2
    · cases hending
    · cases hending
  · obtain ⟨row, c, hrow, -, -, -, updateId, -, h⟩ := recordUpdate_ok hcommit
    obtain ⟨-, -, hrowid, -⟩ := joinedTask_some hrow
    obtain ⟨_, _, hending, -⟩ | ⟨-, ⟨_, hending, -⟩ | ⟨_, hending, heffect⟩⟩ := h
    · cases hending
    · cases hending
    · cases hending
      -- the task of the new state with this id is the one the update changed
      have hchanged : ∀ {t' : ConversationTask} {c' : AgentConversation},
          TurnChange db ((recordUpdate env policy task lease request txNow clock
            fresh).runTx db).2 row.task t' c c' → t = t' := by
        intro t' c' change
        rcases change.mem_tasks.mp ht with rfl | ⟨-, hne⟩
        · rfl
        · exact absurd (hid.trans hrowid.symm) hne
      cases heffect with
      | completed h => rw [hchanged h.change, completedTask]
      | failed h =>
          rw [hchanged h.change] at hstate
          exact absurd hstate
            (endedTask_unanswered _ (ne_completed_of_live h.underWay.live)).1
      | noted h =>
          obtain ⟨_, _, _, _, change⟩ := h.change
          rw [hchanged change] at hstate
          exact absurd hstate (ne_completed_of_live h.underWay.live)

/-- What holds of the turns of a run, whoever took part in it. -/
structure DeliveredOnce (env : Env) (ops : List Op) : Prop where
  handouts : ((gateway env).collect (handedOut env) (gateway env).init ops).Nodup
  lease : ∀ t ∈ ((gateway env).run ops).db.conversationTasks.rows, ∀ token,
    t.leaseToken = some token → ∀ more,
    ∃ t' ∈ ((gateway env).run (ops ++ more)).db.conversationTasks.rows,
      t'.taskId = t.taskId ∧ t'.leaseToken = some token
  unanswered : ∀ t ∈ ((gateway env).run ops).db.conversationTasks.rows, t.state ≠ .completed →
    t.replyEventId = none ∧ t.receiptAcknowledgement = none
  replies : ((gateway env).collect (appendedReplies env) (gateway env).init ops).Nodup ∧
    ∀ e ∈ (gateway env).collect (appendedReplies env) (gateway env).init ops,
      e ∈ ((gateway env).run ops).db.roomEvents.rows
  reply : ∀ t ∈ ((gateway env).run ops).db.conversationTasks.rows, t.state = .completed →
    ∃! e, e ∈ (gateway env).collect (appendedReplies env) (gateway env).init ops ∧
      ReplyOf env t e
  task : ∀ e ∈ (gateway env).collect (appendedReplies env) (gateway env).init ops,
    ∃! t, t ∈ ((gateway env).run ops).db.conversationTasks.rows ∧ t.state = .completed ∧
      ReplyOf env t e
  response : ∀ policy task lease request txNow clock fresh outcome,
    (gateway env).out ((gateway env).run ops)
      (.recordUpdate policy task lease request txNow clock fresh) = .updated (.ok outcome) →
    ∀ t ∈ ((gateway env).run (ops ++
      [.recordUpdate policy task lease request txNow clock fresh])).db.conversationTasks.rows,
    t.taskId = task → t.state = .completed →
    ∀ u ∈ ((gateway env).run (ops ++
      [.recordUpdate policy task lease request txNow clock fresh])).db.updatesOf task,
    u.kind = .completed → uuidField request "updateId" = .ok u.updateId →
      t.receiptAcknowledgement = some outcome.response

theorem turn_delivered_once (env : Env) (ops : List Op) : DeliveredOnce env ops := by
  have hd := gateway_delivered env ops
  refine ⟨(gateway_handedOut ops).nodup, fun t ht token htoken more => ?_, hd.answered.unanswered,
    ⟨hd.nodup, hd.stored⟩, fun t ht hstate => ?_, fun e he => ?_, ?_⟩
  · obtain ⟨t', ht', hcont⟩ := gateway_tasksContinue ops more t ht
    exact ⟨t', ht', hcont.taskId_eq, hcont.lease token htoken⟩
  · obtain ⟨e, he, hreply⟩ := hd.reply t ht hstate
    refine ⟨e, ⟨he, hreply⟩, fun e' ⟨he', hreply'⟩ => ?_⟩
    have hid : e'.eventId = e.eventId :=
      Option.some.inj (hreply'.eventId.symm.trans hreply.eventId)
    exact Db.eventId_unique (hd.stored e' he') (hd.stored e he) hid
  · obtain ⟨t, ht, hstate, hreply⟩ := hd.task e he
    refine ⟨t, ⟨ht, hstate, hreply⟩, fun t' ⟨ht', hstate', hreply'⟩ => ?_⟩
    exact hd.answered.distinct t' ht' t ht hstate' hstate
      (hreply'.eventId.trans hreply.eventId.symm)
  · intro policy task lease request txNow clock fresh outcome hout t ht hid hstate u
      hu hkind hupdate
    rw [Machine.run_append] at ht hu
    exact recordUpdate_response hd.answered (Out.updated.inj hout) ht hid hstate hu hkind hupdate

end RoomGateway
