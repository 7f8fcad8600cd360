import RoomGateway.Lib.Sort
import RoomGateway.Spec.Reservation
import RoomGateway.Spec.Rooms

/-!
What a room request does when it commits. Each method appends its events to the
log, in order; the decision methods write the decisions table next to it, and
starting a task writes the task. `process` then records the request with the
ids of exactly those events, and a request that is already recorded changes
nothing.
-/

namespace RoomGateway

open Table

variable {env : Env} {db db' : Db} {events : List RoomEvent} {log : Table roomEventConstraints}
  {news : List NewEvent} {e : RoomEvent} {new : NewEvent} {eventId : Uuid}

/-! ### Several events -/

/-- Events were appended, one for each of `news`, under the next sequences. -/
structure Logged (db : Db) (news : List NewEvent) (events : List RoomEvent)
    (log : Table roomEventConstraints) : Prop where
  rows : log.rows = db.roomEvents.rows ++ events
  extended : SeqLog.Extends RoomEvent.roomId RoomEvent.sequence db.roomEvents.rows log.rows
  event : List.Forall₂ (fun new e => ∃ eventId sequence, e = NewEvent.row new eventId sequence)
    news events

theorem Logged.nil (db : Db) : Logged db [] [] db.roomEvents := ⟨by simp, .refl, .nil⟩

/-- One more event, in a database whose log is the one so far. -/
theorem Appended.after {now : Db} (happended : Appended now new eventId e log)
    (h : Logged db news events now.roomEvents) :
    Logged db (news ++ [new]) (events ++ [e]) log where
  rows := by rw [happended.rows, h.rows, List.append_assoc]
  extended := h.extended.trans happended.extends
  event := List.rel_append h.event (.cons ⟨eventId, _, happended.row⟩ .nil)

theorem Appended.logged (h : Appended db new eventId e log) :
    Logged db [new] [e] log :=
  h.after (.nil db)

theorem appendEvent_ok {event : NewEvent} {ending : Ending StoreError RoomEvent}
    (h : (appendEvent env eventId event).exec db = .ok (ending, db')) :
    ∃ e log, Appended db event eventId e log ∧ db' = { db with roomEvents := log } := by
  simp only [appendEvent, lockRoom, Prog.exec_bind_ok, Prog.exec_acquire_ok,
    Prog.exec_pure_ok] at h
  obtain ⟨_, _, rfl, e, _, happend, -, rfl⟩ := h
  obtain ⟨log, happended, -, rfl⟩ := appendEventInTransaction_ok happend
  exact ⟨e, log, happended, rfl⟩

/-! ### What each method does -/

def messageEvent (actor : Actor) (request : ChatSend) (audienceIds : List Uuid) : NewEvent where
  roomId := request.roomId
  requestId := request.requestId
  eventType := .messageCreated
  actorId := actor.id
  actorRole := actor.role
  actorDisplayName := some actor.displayName
  payload := normalizedChatPayload request audienceIds
  occurredAt := request.occurredAt

def actionItemsEvent (request : ChatSend) (eventType : EventType) (payload : Json) :
    NewEvent where
  roomId := request.roomId
  requestId := request.requestId
  eventType := eventType
  actorId := actionItemsAgentId
  actorRole := .agent
  actorDisplayName := some actionItemsAgentDisplayName
  payload := payload
  occurredAt := request.occurredAt

/-- The events of the built-in agent about a message that invokes it. -/
def actionItemsEvents (request : ChatSend) (core : Json) : List NewEvent :=
  let outcome := actionItemsOutcome core request.text
  [actionItemsEvent request .agentTaskQueued core, actionItemsEvent request .agentTaskRunning core,
    actionItemsEvent request outcome.1 outcome.2]

def requestedEvent (requesterId : Uuid) (name : String) (start : AgentTaskStart) (taskId : Uuid)
    (contextRevision : Int) : NewEvent where
  roomId := start.roomId
  requestId := start.requestId
  eventType := .agentTaskRequested
  actorId := requesterId
  actorRole := .human
  actorDisplayName := some name
  payload := requestedTaskPayload taskId requesterId start contextRevision
  occurredAt := start.occurredAt

/-- The status a settling action gives and the event it writes. -/
def settled : DecisionAction → Option (DecisionStatus × EventType)
  | .confirm => some (.active, .decisionConfirmed)
  | .dismiss => some (.dismissed, .decisionDismissed)
  | .edit => none

/-- The row of a task that was just started. -/
def startedRow (requesterId : Uuid) (start : AgentTaskStart) (taskId : Uuid)
    (contextRevision : Int) (txNow : Time) : AgentTaskRecord where
  taskId := taskId
  roomId := start.roomId
  requestId := start.requestId
  requesterId := requesterId
  agentId := start.agentId
  skillId := start.skillId
  input := start.input
  contextRevision := contextRevision
  state := .queued
  leaseOwner := none
  leaseExpiresAt := none
  createdAt := pgTime txNow
  updatedAt := pgTime txNow

/-- A task was started: its event is in the log and names the task's own
revision. -/
structure StartedTask (requesterId : Uuid) (name : String) (start : AgentTaskStart) (db db' : Db)
    (task : AgentTaskRecord) (e : RoomEvent) (log : Table roomEventConstraints)
    (ts : Table agentTaskConstraints) : Prop where
  tasks : ts.rows = db.agentTasks.rows ++ [task]
  revision : task.contextRevision = e.sequence
  room : task.roomId = start.roomId
  requestId : task.requestId = start.requestId
  requester : task.requesterId = requesterId
  row : ∃ txNow, task = startedRow requesterId start task.taskId task.contextRevision txNow
  logged : Logged db
    [requestedEvent requesterId name start task.taskId task.contextRevision] [e] log
  eq : db' = { db with roomEvents := log, agentTasks := ts }

/-- What a first request does to the log, the decisions and the agents' tasks;
`events` are the events it appends. -/
inductive Performed (env : Env) (actor : Actor) (db db' : Db) :
    ValidatedRequest → List RoomEvent → Prop where
  | message {request : ChatSend} {audienceIds participants events log} (taskId eventId : Uuid)
      (audience : resolveChatAudience env actor participants request = .ok audienceIds)
      (logged : Logged db (messageEvent actor request audienceIds ::
        if invokesActionItems actor request then
          actionItemsEvents request (actionItemsTaskPayload taskId eventId actor.id)
        else []) events log)
      (eq : db' = { db with roomEvents := log }) :
      Performed env actor db db' (.chatSend request) events
  | proposed {request : DecisionPropose} {d : Decision} {e log} {ds : Table decisionConstraints}
      (decisions : ds.rows = db.decisions.rows ++ [d])
      (draft : d.status = .draft) (room : d.roomId = request.roomId)
      (fresh : ∀ x ∈ db.decisions.rows, x.decisionId ≠ d.decisionId)
      (logged : Logged db [decisionEvent actor request.roomId request.requestId .decisionProposed
        (decisionPayload d.decisionId .draft request.title request.summary request.sourceEventIds)
        request.occurredAt] [e] log)
      (eq : db' = { db with roomEvents := log, decisions := ds }) :
      Performed env actor db db' (.decisionPropose request) [e]
  | deleted {request : DecisionDelete} {row : Decision} {e log} {ds : Table decisionConstraints}
      (mem : row ∈ db.decisions.rows) (id : row.decisionId = request.decisionId)
      (room : row.roomId = request.roomId)
      (logged : Logged db [decisionEvent actor request.roomId request.requestId .decisionDeleted
        (deletedPayload row) request.occurredAt] [e] log)
      (decisions : ds.rows = db.decisions.rows.filter fun d => !(d.decisionId = row.decisionId))
      (eq : db' = { db with roomEvents := log, decisions := ds }) :
      Performed env actor db db' (.decisionDelete request) [e]
  | settled {request : DecisionTransition} {row : Decision} {status eventType e log}
      {ds : Table decisionConstraints} {updatedAt}
      (action : settled request.action = some (status, eventType))
      (mem : row ∈ db.decisions.rows) (id : row.decisionId = request.decisionId)
      (room : row.roomId = request.roomId) (draft : row.status = .draft)
      (logged : Logged db [decisionEvent actor request.roomId request.requestId eventType
        (decisionPayload row.decisionId status row.title row.summary row.sourceEventIds)
        request.occurredAt] [e] log)
      (decisions : ds.rows = put (fun d => d.decisionId = row.decisionId)
        { row with status := status, updatedAt := updatedAt } db.decisions.rows)
      (eq : db' = { db with roomEvents := log, decisions := ds }) :
      Performed env actor db db' (.decisionTransition request) [e]
  | edited {request : DecisionTransition} {row d : Decision} {events log}
      {ds : Table decisionConstraints} {updatedAt}
      (action : request.action = .edit)
      (mem : row ∈ db.decisions.rows) (id : row.decisionId = request.decisionId)
      (room : row.roomId = request.roomId) (draft : row.status = .draft)
      (decisions : ds.rows = put (fun d => d.decisionId = row.decisionId)
        { row with status := .superseded, updatedAt := updatedAt } db.decisions.rows ++ [d])
      (active : d.status = .active) (room' : d.roomId = request.roomId)
      (sources : d.sourceEventIds = row.sourceEventIds)
      (derived : d.derivedFromDecisionId = some row.decisionId)
      (fresh : ∀ x ∈ db.decisions.rows, x.decisionId ≠ d.decisionId)
      (logged : Logged db
        [decisionEvent actor request.roomId request.requestId .decisionEdited
          (editedPayload row.decisionId d.decisionId) request.occurredAt,
        decisionEvent actor request.roomId request.requestId .decisionConfirmed
          (replacementPayload d.decisionId row.decisionId d.title d.summary d.sourceEventIds)
          request.occurredAt] events log)
      (eq : db' = { db with roomEvents := log, decisions := ds }) :
      Performed env actor db db' (.decisionTransition request) events
  | started {request : AgentTaskStart} {task e log ts}
      (h : StartedTask actor.id actor.displayName request db db' task e log ts) :
      Performed env actor db db' (.agentTaskStart request) [e]

section Perform

/-- An id names one decision, of whatever room. -/
theorem Db.decision_unique (db : Db) {d row : Decision} (hd : d ∈ db.decisions.rows)
    (hrow : row ∈ db.decisions.rows) (hid : d.decisionId = row.decisionId) : d = row :=
  Table.eq_of_clash hd hrow (by simp [decisionConstraints, hid])
    (by simp [decisionConstraints, hid])

theorem Db.alter_decision (db : Db) {row : Decision} {decisionId : Uuid}
    {f : Decision → Decision} (hrow : row ∈ db.decisions.rows)
    (hid : row.decisionId = decisionId) :
    db.decisions.rows.map (alter (fun d => d.decisionId = decisionId) f) =
      put (fun d => d.decisionId = row.decisionId) (f row) db.decisions.rows := by
  subst hid
  have huniq : ∀ d ∈ db.decisions.rows, decide (d.decisionId = row.decisionId) = true → d = row :=
    fun d hd hid => db.decision_unique hd hrow (of_decide_eq_true hid)
  rw [map_alter_eq_put huniq fun _ h => h, alter_of_pos (by simp)]

variable {actor : Actor} {fresh : Nat → Uuid}

/-- An append inside a request, with its error renamed. -/
theorem appendInRequest_ok {ε : Type} {f : StoreError → ε} {event : NewEvent}
    (h : ((appendEventInTransaction env eventId event).mapErr f).exec db = .ok (e, db')) :
    ∃ log, Appended db event eventId e log ∧ db' = { db with roomEvents := log } := by
  obtain ⟨log, happended, -, rfl⟩ := appendEventInTransaction_ok (Prog.exec_mapErr_ok.mp h)
  exact ⟨log, happended, rfl⟩

theorem sendMessage_ok {request : ChatSend} {presence : List ParticipantPresence}
    {conversationsEnabled : Bool}
    (h : (sendMessage env actor request presence conversationsEnabled fresh).exec db =
      .ok (events, db')) : Performed env actor db db' (.chatSend request) events := by
  simp only [sendMessage, Prog.exec_bind_ok, Prog.exec_query_ok, Prog.exec_ofExcept_ok] at h
  obtain ⟨participants, _, ⟨-, rfl⟩, audienceIds, _, ⟨haudience, rfl⟩, message, _, hmessage, h⟩ := h
  obtain ⟨log, happended, rfl⟩ := appendInRequest_ok hmessage
  have hlogged : Logged db [messageEvent actor request audienceIds] [message] log :=
    happended.logged
  split_ifs at h with hinvokes
  · simp only [Prog.exec_bind_ok, Prog.exec_pure_ok] at h
    obtain ⟨queued, _, hqueued, running, _, hrunning, ended, _, hended, rfl, rfl⟩ := h
    obtain ⟨log₁, happended₁, rfl⟩ := appendInRequest_ok hqueued
    obtain ⟨log₂, happended₂, rfl⟩ := appendInRequest_ok hrunning
    obtain ⟨log₃, happended₃, rfl⟩ := appendInRequest_ok hended
    refine .message (fresh 1) message.eventId haudience ?_ rfl
    rw [if_pos hinvokes]
    exact happended₃.after (happended₂.after (happended₁.after hlogged))
  · obtain ⟨rfl, rfl⟩ := Prog.exec_pure_ok.mp h
    refine .message (fresh 1) message.eventId haudience ?_ rfl
    rw [if_neg hinvokes]
    exact hlogged

theorem proposeDecision_ok {request : DecisionPropose}
    (h : (proposeDecision env actor request fresh).exec db = .ok (events, db')) :
    Performed env actor db db' (.decisionPropose request) events := by
  simp only [proposeDecision, Prog.exec_bind_ok, Prog.exec_execute_ok, Prog.exec_pure_ok] at h
  obtain ⟨_, _, hinsert, e, _, happend, rfl, rfl⟩ := h
  obtain ⟨ds, hds, hfresh, rfl⟩ := Db.insertDecision_some hinsert
  obtain ⟨log, happended, rfl⟩ := appendInRequest_ok happend
  refine .proposed hds rfl rfl (fun x hx hid => ?_) (happended.after (.nil db)) rfl
  have := hfresh x hx
  simp [decisionConstraints, hid] at this

theorem findDecision_ok {decisionId room : Uuid} {row : Decision}
    (h : (findDecision decisionId room).exec db = .ok (row, db')) :
    db = db' ∧ row ∈ db.decisions.rows ∧ row.decisionId = decisionId ∧ row.roomId = room := by
  simp only [findDecision, Prog.exec_bind_ok, Prog.exec_query_ok, Prog.exec_orFail_ok] at h
  obtain ⟨_, _, ⟨rfl, rfl⟩, hfound, rfl⟩ := h
  have hcond := List.find?_some hfound
  simp only [Bool.and_eq_true, decide_eq_true_eq] at hcond
  exact ⟨rfl, List.mem_of_find?_eq_some hfound, hcond⟩

theorem deleteDecision_ok {request : DecisionDelete}
    (h : (deleteDecision env actor request fresh).exec db = .ok (events, db')) :
    Performed env actor db db' (.decisionDelete request) events := by
  simp only [deleteDecision, Prog.exec_bind_ok, Prog.exec_execute_ok, Prog.exec_pure_ok] at h
  obtain ⟨row, _, hrow, e, _, happend, _, _, hdelete, rfl, rfl⟩ := h
  obtain ⟨rfl, hmem, hid, hroom⟩ := findDecision_ok hrow
  obtain ⟨log, happended, rfl⟩ := appendInRequest_ok happend
  cases hdelete
  refine .deleted hmem hid hroom happended.logged ?_ rfl
  -- the decision's id alone identifies it, so the room of the statement adds nothing
  refine List.filter_congr fun d hd => ?_
  by_cases hd' : d.decisionId = row.decisionId
  · obtain rfl : d = row := db.decision_unique hd hmem hd'
    simp [hid, hroom]
  · simp [hd', ← hid]

theorem settleDecision_ok {request : DecisionTransition} {row : Decision} {status : DecisionStatus}
    {eventType : EventType} (haction : settled request.action = some (status, eventType))
    (hmem : row ∈ db.decisions.rows) (hid : row.decisionId = request.decisionId)
    (hroom : row.roomId = request.roomId) (hdraft : row.status = .draft)
    (h : (settleDecision env actor request row status eventType fresh).exec db =
      .ok (events, db')) : Performed env actor db db' (.decisionTransition request) events := by
  simp only [settleDecision, Prog.exec_bind_ok, Prog.exec_execute_ok, Prog.exec_pure_ok] at h
  obtain ⟨_, _, hupdate, e, _, happend, rfl, rfl⟩ := h
  obtain ⟨ds, hds, rfl⟩ := Db.updateDecisions_some hupdate
  obtain ⟨log, happended, rfl⟩ := appendInRequest_ok happend
  rw [db.alter_decision hmem hid] at hds
  rw [← hid] at happended
  exact .settled haction hmem hid hroom hdraft (happended.after (.nil db)) hds rfl

theorem editDecision_ok {request : DecisionTransition} {row : Decision}
    (haction : request.action = .edit) (hmem : row ∈ db.decisions.rows)
    (hid : row.decisionId = request.decisionId) (hroom : row.roomId = request.roomId)
    (hdraft : row.status = .draft)
    (h : (editDecision env actor request row fresh).exec db = .ok (events, db')) :
    Performed env actor db db' (.decisionTransition request) events := by
  simp only [editDecision, Prog.exec_bind_ok, Prog.exec_orFail_ok, Prog.exec_execute_ok,
    Prog.exec_pure_ok] at h
  obtain ⟨title, _, ⟨-, rfl⟩, summary, _, ⟨-, rfl⟩, _, _, hupdate, _, _, hinsert, edited, _,
    hedited, activated, _, hactivated, rfl, rfl⟩ := h
  obtain ⟨ds, hds, rfl⟩ := Db.updateDecisions_some hupdate
  obtain ⟨ds', hds', hfresh, rfl⟩ := Db.insertDecision_some hinsert
  obtain ⟨log, happended, rfl⟩ := appendInRequest_ok hedited
  obtain ⟨log', happended', rfl⟩ := appendInRequest_ok hactivated
  rw [db.alter_decision hmem hid] at hds
  rw [← hid] at happended happended'
  rw [hds] at hds'
  refine .edited haction hmem hid hroom hdraft hds' rfl rfl rfl (congrArg some hid.symm)
    (fun x hx hid' => ?_) (happended'.after (happended.after (.nil db))) rfl
  -- a row under the replacement's id would still be there after the first update
  have hstill : ∃ y ∈ ds.rows, y.decisionId = x.decisionId := by
    rw [hds]
    by_cases hx' : x.decisionId = row.decisionId
    · exact ⟨_, (mem_put hmem (by simp)).mpr (.inl rfl), hx'.symm⟩
    · exact ⟨x, (mem_put hmem (by simp)).mpr (.inr ⟨hx, by simp [hx']⟩), rfl⟩
  obtain ⟨y, hy, hyid⟩ := hstill
  have := hfresh y hy
  simp [decisionConstraints, hyid, hid'] at this

theorem transitionDecision_ok {request : DecisionTransition}
    (h : (transitionDecision env actor request fresh).exec db = .ok (events, db')) :
    Performed env actor db db' (.decisionTransition request) events := by
  simp only [transitionDecision, Prog.exec_bind_ok, Prog.exec_ensure_ok, decide_eq_true_eq] at h
  obtain ⟨row, _, hrow, _, _, ⟨hdraft, rfl⟩, h⟩ := h
  obtain ⟨rfl, hmem, hid, hroom⟩ := findDecision_ok hrow
  cases haction : request.action with
  | confirm =>
      rw [haction] at h
      exact settleDecision_ok (by rw [haction]; rfl) hmem hid hroom hdraft h
  | dismiss =>
      rw [haction] at h
      exact settleDecision_ok (by rw [haction]; rfl) hmem hid hroom hdraft h
  | edit =>
      rw [haction] at h
      exact editDecision_ok haction hmem hid hroom hdraft h

end Perform

/-! ### Starting a task -/

/-- A task is found again, or started. -/
theorem startAgentTaskInTransaction_ok {requesterId : Uuid} {name : String}
    {start : AgentTaskStart} {record : Bool} {txNow : Time} {fresh : Nat → Uuid}
    {result : AgentTaskStartResult}
    (h : (startAgentTaskInTransaction env requesterId name start record txNow fresh).exec db =
      .ok (result, db')) :
    (∃ r task, findRequest db start.roomId start.requestId = some r ∧
      r.requestFingerprint = agentTaskFingerprint env start ∧ task ∈ db.agentTasks.rows ∧
      task.roomId = start.roomId ∧ task.requestId = start.requestId ∧
      result = ⟨task.taskId, eventsById db r.eventIds⟩ ∧ db' = db) ∨
    (findRequest db start.roomId start.requestId = none ∧
      ∃ mid task e log ts, StartedTask requesterId name start db mid task e log ts ∧
        result = ⟨task.taskId, [e]⟩ ∧
        if record then Ledgered mid db' start.roomId start.requestId
          (agentTaskFingerprint env start) [e]
        else db' = mid) := by
  simp only [startAgentTaskInTransaction, lockRoom, Prog.exec_bind_ok, Prog.exec_acquire_ok] at h
  obtain ⟨-, _, rfl, prior, _, hprior, h⟩ := h
  obtain ⟨rfl, hfound⟩ := priorRequest_ok hprior
  cases hfind : findRequest db start.roomId start.requestId with
  | some r =>
      rw [hfind, Option.map_some] at hfound
      subst hfound
      simp only [Prog.exec_bind_ok, Prog.exec_ensure_ok, Prog.exec_query_ok, Prog.exec_orFail_ok,
        Prog.exec_pure_ok, decide_eq_true_eq] at h
      obtain ⟨_, _, ⟨hsame, rfl⟩, _, _, ⟨rfl, rfl⟩, task, _, ⟨htask, rfl⟩, rfl, rfl⟩ := h
      have hkey := List.find?_some htask
      simp only [Bool.and_eq_true, decide_eq_true_eq] at hkey
      exact .inl ⟨r, task, rfl, hsame, List.mem_of_find?_eq_some htask, hkey.1, hkey.2, rfl, rfl⟩
  | none =>
      rw [hfind, Option.map_none] at hfound
      subst hfound
      simp only [Prog.exec_bind_ok, Prog.exec_ensure_ok, Prog.exec_query_ok,
        Prog.exec_execute_ok, decide_eq_true_eq] at h
      obtain ⟨_, _, ⟨rfl, rfl⟩, e, _, happend, _, _, ⟨hseq, rfl⟩, _, mid, hinsert, h⟩ := h
      obtain ⟨log, happended, -, rfl⟩ := appendEventInTransaction_ok happend
      obtain ⟨ts, hts, rfl⟩ := Db.insertAgentTask_some hinsert
      refine .inr ⟨rfl, _, _, e, log, ts,
        ⟨hts, hseq.symm, rfl, rfl, rfl, ⟨txNow, rfl⟩, happended.logged, rfl⟩, ?_⟩
      cases record with
      | false =>
          obtain ⟨rfl, rfl⟩ := Prog.exec_pure_ok.mp h
          exact ⟨rfl, rfl⟩
      | true =>
          simp only [Prog.exec_bind_ok, Prog.exec_pure_ok, if_true] at h
          obtain ⟨_, _, hrecord, rfl, rfl⟩ := h
          exact ⟨rfl, recordRequest_ok hrecord⟩

theorem startAgentTask_ok {requesterId : Uuid} {name : String} {start : AgentTaskStart}
    {txNow : Time} {fresh : Nat → Uuid} {ending : Ending StoreError AgentTaskStartResult}
    (h : (startAgentTask env requesterId name start txNow fresh).exec db = .ok (ending, db')) :
    ∃ result, ending = .commit (.ok result) ∧
      (startAgentTaskInTransaction env requesterId name start true txNow fresh).exec db =
        .ok (result, db') := by
  simp only [startAgentTask, Prog.exec_bind_ok, Prog.exec_pure_ok] at h
  obtain ⟨result, _, hstart, rfl, rfl⟩ := h
  exact ⟨result, rfl, hstart⟩

/-! ### Requests and the ledger -/

theorem performRequest_ok {actor : Actor} {request : ValidatedRequest} {room requestId : Uuid}
    {presence : List ParticipantPresence} {conversationsEnabled : Bool} {txNow : Time}
    {fresh : Nat → Uuid} (hroom : request.roomId = some room)
    (hrequest : request.requestId = some requestId) (hnew : findRequest db room requestId = none)
    (h : (performRequest env actor request presence conversationsEnabled txNow fresh).exec db =
      .ok (events, db')) : Performed env actor db db' request events := by
  cases request with
  | chatSend request => exact sendMessage_ok h
  | decisionPropose request => exact proposeDecision_ok h
  | decisionTransition request => exact transitionDecision_ok h
  | decisionDelete request => exact deleteDecision_ok h
  | agentTaskStart request =>
      simp only [performRequest, Prog.exec_bind_ok, Prog.exec_mapErr_ok, Prog.exec_pure_ok] at h
      obtain ⟨result, _, hstart, rfl, rfl⟩ := h
      cases hroom
      cases hrequest
      obtain ⟨r, _, hfound, -⟩ | ⟨-, mid, task, e, log, ts, hstarted, rfl, rfl⟩ :=
        startAgentTaskInTransaction_ok hstart
      · rw [hnew] at hfound
        cases hfound
      · exact .started hstarted
  | join request => cases h
  | sessionAuthenticate request => cases h

/-- A request is found again, or performed and recorded. -/
theorem process_ok {actor : Actor} {request : ValidatedRequest}
    {presence : List ParticipantPresence} {conversationsEnabled : Bool} {txNow : Time}
    {fresh : Nat → Uuid} {ending : Ending RpcError ProcessedRequest}
    (h : (process env actor request presence conversationsEnabled txNow fresh).exec db =
      .ok (ending, db')) :
    ∃ room requestId, request.roomId = some room ∧ request.requestId = some requestId ∧
      ((∃ r, findRequest db room requestId = some r ∧
          r.requestFingerprint = request.fingerprint env ∧
          ending = .rollback ⟨eventsById db r.eventIds, true⟩) ∨
        (findRequest db room requestId = none ∧
          ∃ events mid, ending = .commit (.ok ⟨events, false⟩) ∧
            Performed env actor db mid request events ∧
            Ledgered mid db' room requestId (request.fingerprint env) events)) := by
  simp only [process, Prog.exec_bind_ok, Prog.exec_ensure_ok, Prog.exec_orFail_ok,
    Prog.exec_mapErr_ok] at h
  obtain ⟨_, _, ⟨-, rfl⟩, room, _, ⟨hroom, rfl⟩, requestId, _, ⟨hrequest, rfl⟩, _, _, hlock,
    prior, _, hprior, h⟩ := h
  obtain rfl := Prog.exec_acquire_ok.mp hlock
  obtain ⟨rfl, hfound⟩ := priorRequest_ok hprior
  have hroom : request.roomId = some room := by
    cases request <;> simp_all
  refine ⟨room, requestId, hroom, hrequest, ?_⟩
  cases hfind : findRequest db room requestId with
  | some r =>
      rw [hfind, Option.map_some] at hfound
      subst hfound
      simp only [Prog.exec_bind_ok, Prog.exec_ensure_ok, Prog.exec_pure_ok,
        decide_eq_true_eq] at h
      obtain ⟨_, _, ⟨hsame, rfl⟩, rfl, rfl⟩ := h
      exact .inl ⟨r, rfl, hsame, rfl⟩
  | none =>
      rw [hfind, Option.map_none] at hfound
      subst hfound
      simp only [Prog.exec_bind_ok, Prog.exec_pure_ok, Prog.exec_mapErr_ok] at h
      obtain ⟨events, mid, hperform, _, _, hrecord, rfl, rfl⟩ := h
      exact .inr ⟨rfl, events, mid, rfl, performRequest_ok hroom hrequest hfind hperform,
        recordRequest_ok hrecord⟩

/-! ### What the methods have in common -/

/-- The event is meant for some participants only. -/
def RoomEvent.targeted (e : RoomEvent) : Prop := e.payload["delivery"].asStr = some "mentioned"

theorem eventVisibleTo_of_not_targeted (h : ¬ e.targeted) (actor : Uuid) :
    eventVisibleTo e actor = true := by
  unfold eventVisibleTo
  split
  · rename_i hdelivery
    exact absurd hdelivery h
  · rfl

theorem Logged.of_new (h : Logged db news events log) (he : e ∈ events)
    : ∃ new ∈ news, ∃ eventId sequence, e = new.row eventId sequence := by
  obtain ⟨hlength, hget⟩ := List.forall₂_iff_get.mp h.event
  obtain ⟨i, hi, rfl⟩ := List.getElem_of_mem he
  obtain ⟨eventId, sequence, hrow⟩ := hget i (hlength ▸ hi) hi
  exact ⟨_, List.get_mem news ⟨i, hlength ▸ hi⟩, eventId, sequence, hrow⟩

theorem Logged.single (h : Logged db [new] [e] log)
    : ∃ eventId sequence, e = new.row eventId sequence := by
  obtain ⟨x, hx, eventId, sequence, rfl⟩ := h.of_new List.mem_cons_self
  rw [List.mem_singleton.mp hx]
  exact ⟨eventId, sequence, rfl⟩

theorem Logged.pair {a b : NewEvent} (h : Logged db [a, b] events log) : ∃ e e', events = [e, e'] ∧
      (∃ eventId sequence, e = a.row eventId sequence) ∧
      ∃ eventId sequence, e' = b.row eventId sequence := by
  obtain ⟨e, _, he, hrest, rfl⟩ := List.forall₂_cons_left_iff.mp h.event
  obtain ⟨e', _, he', hnil, rfl⟩ := List.forall₂_cons_left_iff.mp hrest
  rw [List.forall₂_nil_left_iff] at hnil
  subst hnil
  exact ⟨e, e', rfl, he, he'⟩

theorem Logged.not_targeted (h : Logged db news events log)
    (hnews : ∀ new ∈ news, new.payload["delivery"].asStr ≠ some "mentioned") (he : e ∈ events)
    : ¬ e.targeted := by
  obtain ⟨new, hnew, eventId, sequence, rfl⟩ := h.of_new he
  exact hnews new hnew

/-- The task of a message ends with a field of its own. -/
theorem actionItemsOutcome_payload (core : Json) (text : String) :
    ∃ key value, key ≠ "delivery" ∧ (actionItemsOutcome core text).2 = core.set key value := by
  unfold actionItemsOutcome
  cases extractActionItems text with
  | ok items => exact ⟨"result", _, by simp, rfl⟩
  | error _ => exact ⟨"failure", _, by simp, rfl⟩

theorem actionItemsEvents_delivery {request : ChatSend} {taskId eventId actorId : Uuid}
    (h : new ∈ actionItemsEvents request (actionItemsTaskPayload taskId eventId actorId)) :
    new.payload["delivery"] = .null := by
  have hcore : (actionItemsTaskPayload taskId eventId actorId)["delivery"] = .null := by
    simp [actionItemsTaskPayload]
  simp only [actionItemsEvents, List.mem_cons, List.not_mem_nil, or_false] at h
  rcases h with rfl | rfl | rfl
  · exact hcore
  · exact hcore
  · obtain ⟨key, value, hkey, hset⟩ := actionItemsOutcome_payload
      (actionItemsTaskPayload taskId eventId actorId) request.text
    change (actionItemsOutcome _ request.text).2["delivery"] = _
    rw [hset, Json.getElem_set_of_ne hkey, hcore]

/-- The events of one request are numbered upwards. -/
theorem Logged.ascending (h : Logged db news events log) {room : Uuid}
    (hroom : ∀ e ∈ events, e.roomId = room) : Ascending RoomEvent.sequence events := by
  obtain ⟨new, hrows, hnew⟩ := h.extended.pairwise_new
  obtain rfl : new = events := List.append_cancel_left (hrows.symm.trans h.rows)
  exact hnew.imp_of_mem fun hx hy hlt => hlt ((hroom _ hx).trans (hroom _ hy).symm)

namespace Performed

variable {actor : Actor} {request : ValidatedRequest}

theorem logged (h : Performed env actor db db' request events) :
    ∃ news, Logged db news events db'.roomEvents ∧
      ∀ new ∈ news, request.roomId = some new.roomId := by
  cases h with
  | @message request audienceIds _ _ _ taskId eventId _ logged eq =>
      subst eq
      refine ⟨_, logged, fun new hnew => ?_⟩
      split_ifs at hnew
      · simp only [actionItemsEvents, List.mem_cons, List.not_mem_nil, or_false] at hnew
        rcases hnew with rfl | rfl | rfl | rfl <;> rfl
      · rw [List.mem_singleton.mp hnew]
        rfl
  | proposed _ _ _ _ logged eq =>
      subst eq
      exact ⟨_, logged, by simp [decisionEvent, ValidatedRequest.roomId]⟩
  | deleted _ _ _ logged _ eq =>
      subst eq
      exact ⟨_, logged, by simp [decisionEvent, ValidatedRequest.roomId]⟩
  | settled _ _ _ _ _ logged _ eq =>
      subst eq
      exact ⟨_, logged, by simp [decisionEvent, ValidatedRequest.roomId]⟩
  | edited _ _ _ _ _ _ _ _ _ _ _ logged eq =>
      subst eq
      exact ⟨_, logged, by simp [decisionEvent, ValidatedRequest.roomId]⟩
  | started h =>
      obtain rfl := h.eq
      exact ⟨_, h.logged, by simp [requestedEvent, ValidatedRequest.roomId]⟩

theorem requests (h : Performed env actor db db' request events) :
    db'.roomRequests = db.roomRequests := by
  cases h with
  | started h => rw [h.eq]
  | _ => simp_all

/-- Only a message that is delivered to those it mentions is meant for some
participants, and it is the one event of its request. -/
theorem targeted (h : Performed env actor db db' request events) (he : e ∈ events)
    (htargeted : e.targeted) :
    events = [e] ∧ ∃ chat : ChatSend, request = .chatSend chat ∧ chat.delivery = .mentioned := by
  cases h with
  | @message chat audienceIds _ _ _ taskId eventId _ logged eq =>
      by_cases hmentioned : chat.delivery = .mentioned
      · have hinvokes : invokesActionItems actor chat = false := by
          simp [invokesActionItems, hmentioned]
        rw [hinvokes] at logged
        obtain ⟨x, rest, -, hrest, rfl⟩ := List.forall₂_cons_left_iff.mp logged.event
        obtain rfl := List.forall₂_nil_left_iff.mp hrest
        obtain rfl := List.mem_singleton.mp he
        exact ⟨rfl, chat, rfl, hmentioned⟩
      · refine absurd htargeted (logged.not_targeted (fun new hnew => ?_) he)
        have hmessage : (messageEvent actor chat audienceIds).payload["delivery"].asStr ≠
            some "mentioned" := by
          cases hdelivery : chat.delivery with
          | mentioned => exact absurd hdelivery hmentioned
          | room => simp [messageEvent, normalizedChatPayload, hdelivery, ChatDelivery.asStr]
        split_ifs at hnew
        · simp only [List.mem_cons] at hnew
          rcases hnew with rfl | hnew
          · exact hmessage
          · rw [actionItemsEvents_delivery hnew]
            simp [Json.asStr]
        · rw [List.mem_singleton.mp hnew]
          exact hmessage
  | proposed _ _ _ _ logged eq =>
      exact absurd htargeted
        (logged.not_targeted (by simp [decisionEvent, decisionPayload, Json.asStr]) he)
  | deleted _ _ _ logged _ eq =>
      exact absurd htargeted
        (logged.not_targeted (by simp [decisionEvent, deletedPayload, Json.asStr]) he)
  | settled _ _ _ _ _ logged _ eq =>
      exact absurd htargeted
        (logged.not_targeted (by simp [decisionEvent, decisionPayload, Json.asStr]) he)
  | edited _ _ _ _ _ _ _ _ _ _ _ logged eq =>
      exact absurd htargeted (logged.not_targeted
        (by simp [decisionEvent, editedPayload, replacementPayload, Json.asStr]) he)
  | started h =>
      exact absurd htargeted (h.logged.not_targeted
        (by simp [requestedEvent, requestedTaskPayload, Json.asStr]) he)

end Performed

end RoomGateway
