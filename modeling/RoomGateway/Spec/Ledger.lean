import RoomGateway.Spec.AgentTasks
import RoomGateway.Spec.Effect

/-!
Everything one step of the gateway can do to the request ledger, the decisions
and the agents' tasks, and the ledger's invariant: a row lists exactly the
events of the call that wrote it, in their order, and they are in the log.
-/

namespace RoomGateway

open Table

variable {env : Env} {db db' : Db} {room requestId : Uuid}

/-! ### Steps beside the ledger -/

theorem FailedTurn.rooms {t : ConversationTask} {c : AgentConversation}
    {error : ConversationError} {txNow : Time} {updateId : Uuid}
    (h : FailedTurn db db' t c error txNow updateId) : SameRoomTables db db' := by
  obtain ⟨_, _, _, rfl⟩ := h.frame
  exact ⟨rfl, rfl, rfl, rfl⟩

/-- What a task keeps for good: all but its state, its lease and the time of
the last change. -/
def AgentTaskRecord.identity (t : AgentTaskRecord) : AgentTaskRecord :=
  { t with
    state := .queued
    leaseOwner := none
    leaseExpiresAt := none
    updatedAt := t.createdAt }

def EventType.ofDecision : EventType → Bool
  | decisionProposed | decisionConfirmed | decisionEdited | decisionDismissed
  | decisionDeleted => true
  | _ => false

/-- Neither the ledger nor a decision changes, the tasks stay the same tasks,
and nothing about a decision is logged. -/
structure Aside (db db' : Db) : Prop where
  requests : db'.roomRequests = db.roomRequests
  decisions : db'.decisions = db.decisions
  tasks : db'.agentTasks.rows.map AgentTaskRecord.identity =
    db.agentTasks.rows.map AgentTaskRecord.identity
  log : LogExtends db db'
  events : ∀ e ∈ db'.roomEvents.rows, e ∈ db.roomEvents.rows ∨ e.eventType.ofDecision = false

namespace Aside

theorem refl (db : Db) : Aside db db := ⟨rfl, rfl, rfl, .refl, fun _ => .inl⟩

/-- The conversation tables are not part of it. -/
theorem of_same (hrooms : SameRoomTables db db') (hevents : db'.roomEvents = db.roomEvents) :
    Aside db db' where
  requests := hrooms.ledger
  decisions := hrooms.decisions
  tasks := by rw [hrooms.agentTasks]
  log := by
    rw [LogExtends, hevents]
    exact .refl
  events e he := .inl (hevents ▸ he)

theorem of_appended {new : NewEvent} {eventId : Uuid} {e : RoomEvent}
    {log : Table roomEventConstraints} (h : Appended db new eventId e log)
    (htype : new.eventType.ofDecision = false) : Aside db { db with roomEvents := log } where
  requests := rfl
  decisions := rfl
  tasks := rfl
  log := h.extends
  events x hx := by
    change x ∈ log.rows at hx
    rw [h.rows] at hx
    rcases List.mem_append.mp hx with hx | hx
    · exact .inl hx
    · rw [List.mem_singleton.mp hx, h.row]
      exact .inr htype

theorem of_claimed {t : AgentTaskRecord} {owner : Uuid} {now : Time} {state : AgentTaskState}
    (h : ClaimedTask db db' t owner now state) : Aside db db' := by
  obtain ⟨ts, hts, rfl⟩ := h.frame
  refine ⟨rfl, rfl, ?_, .refl, fun _ => .inl⟩
  change ts.rows.map _ = _
  rw [hts]
  exact db.map_put_agentTask h.mem rfl

/-- The events a worker may report are about its task. -/
theorem stateForUpdate_ofDecision {eventType : EventType} {state : AgentTaskState}
    (h : stateForUpdate eventType = .ok state) : eventType.ofDecision = false := by
  cases eventType <;> first | rfl | cases h

theorem of_updated {t : AgentTaskRecord} {lease : AgentTaskLease} {txNow : Time}
    {update : AgentTaskUpdate} {state : AgentTaskState} {payload : Json} {e : RoomEvent}
    (h : UpdatedTask env db db' t lease txNow update state payload e) : Aside db db' := by
  obtain ⟨_, _, log, _, ts, -, happended, -, hts, rfl⟩ := h.frame
  have hlogged : Aside db { db with roomEvents := log } :=
    .of_appended happended (stateForUpdate_ofDecision h.state_eq)
  refine { hlogged with tasks := ?_ }
  change ts.rows.map _ = _
  rw [hts]
  exact db.map_put_agentTask (leasedTask_some h.leased).1 rfl

end Aside

/-! ### What a step does -/

/-- A step leaves the ledger alone, or it is a first request: it was not in the
ledger, and its effects and its ledger row are committed together. -/
inductive RequestEffect (env : Env) (db db' : Db) : Prop where
  | aside (h : Aside db db') (agents : AgentStep env db db')
  | processed {actor request room requestId events mid} (hroom : request.roomId = some room)
      (unrecorded : findRequest db room requestId = none)
      (performed : Performed env actor db mid request events)
      (ledgered : Ledgered mid db' room requestId (request.fingerprint env) events)
  | started {requesterId name start mid task e log ts}
      (unrecorded : findRequest db start.roomId start.requestId = none)
      (h : StartedTask requesterId name start db mid task e log ts)
      (ledgered : Ledgered mid db' start.roomId start.requestId (agentTaskFingerprint env start)
        [e])
  | reserved {policy actor turn t c prompt base items context}
      (h : ReservedTurn env db db' policy actor turn t c prompt base items context)

theorem RequestEffect.refl (db : Db) : RequestEffect env db db := .aside (.refl db) (.refl db)

theorem process_requestEffect (actor : Actor) (request : ValidatedRequest)
    (presence : List ParticipantPresence) (conversationsEnabled : Bool) (txNow : Time)
    (fresh : Nat → Uuid) (db : Db) :
    RequestEffect env db ((process env actor request presence conversationsEnabled txNow
      fresh).runTx db).2 := by
  refine Prog.runTx_of_commit (.refl db) fun r db' hcommit => ?_
  obtain ⟨room, requestId, hroom, -, ⟨_, -, -, hending⟩ | ⟨hnew, events, mid, -, hperformed,
    hledgered⟩⟩ := process_ok hcommit
  · cases hending
  · exact .processed hroom hnew hperformed hledgered

/-- What the other calls do to the tables of the rooms: of them only the start
of a task and the reservation of a turn have rows in the ledger. `who` are those
who may reserve. -/
inductive CallEffect (env : Env) (who : Actor → Prop) (db db' : Db) : Prop where
  | same (rooms : SameRoomTables db db') (events : db'.roomEvents = db.roomEvents)
  | replied {t c lease updateId ordinal request now eventId reply text}
      (h : CompletedTurn env db db' t c lease updateId ordinal request now eventId reply text)
  | claimed {t owner now state} (h : ClaimedTask db db' t owner now state)
  | updated {t lease txNow update state payload e}
      (h : UpdatedTask env db db' t lease txNow update state payload e)
  | started {requesterId name start mid task e log ts}
      (unrecorded : findRequest db start.roomId start.requestId = none)
      (h : StartedTask requesterId name start db mid task e log ts)
      (ledgered : Ledgered mid db' start.roomId start.requestId (agentTaskFingerprint env start)
        [e])
  | reserved {policy actor request expiry clock turn t c prompt base items context}
      (hwho : who actor) (admitted : Admitted env policy actor request expiry clock turn)
      (h : ReservedTurn env db db' policy actor turn t c prompt base items context)

theorem CallEffect.refl (who : Actor → Prop) (db : Db) : CallEffect env who db db :=
  .same ⟨rfl, rfl, rfl, rfl⟩ rfl

theorem CallEffect.of_failed {who : Actor → Prop} {t : ConversationTask} {c : AgentConversation}
    {error : ConversationError} {txNow : Time} {updateId : Uuid}
    (h : FailedTurn db db' t c error txNow updateId) : CallEffect env who db db' :=
  .same h.rooms h.events

theorem CallEffect.requestEffect {who : Actor → Prop} (h : CallEffect env who db db') :
    RequestEffect env db db' := by
  cases h with
  | same rooms events => exact .aside (.of_same rooms events) (.of_rooms rooms)
  | @replied _ _ _ _ _ _ _ _ _ _ h =>
      have hlogged := Aside.of_appended h.appended rfl
      refine .aside ⟨h.rooms.ledger, h.rooms.decisions, ?_, hlogged.log, hlogged.events⟩
        (.of_rooms h.rooms)
      rw [h.rooms.agentTasks]
  | claimed h => exact .aside (.of_claimed h) (.claimed h)
  | updated h => exact .aside (.of_updated h) (.updated h)
  | started unrecorded h ledgered => exact .started unrecorded h ledgered
  | reserved _ _ h => exact .reserved h

/-- The call is a room request. -/
def Op.ofRequest : Op → Bool
  | process .. => true
  | _ => false

/-- Who the call reserves a turn for. -/
def Op.reserver : Op → Actor → Prop
  | reserve _ actor _ _ _ _ _ _, who => who = actor
  | _, _ => False

theorem startAgentTask_callEffect (requesterId : Uuid) (name : String) (start : AgentTaskStart)
    (txNow : Time) (fresh : Nat → Uuid) (who : Actor → Prop) (db : Db) :
    CallEffect env who db
      ((startAgentTask env requesterId name start txNow fresh).runTx db).2 := by
  refine Prog.runTx_of_commit (.refl who db) fun r db' hcommit => ?_
  obtain ⟨result, -, hstart⟩ := startAgentTask_ok hcommit
  obtain ⟨_, _, -, -, -, -, -, -, rfl⟩ | ⟨hnew, mid, task, e, log, ts, hstarted, -,
    hledgered⟩ := startAgentTaskInTransaction_ok hstart
  · exact .refl who _
  · exact .started hnew hstarted hledgered

theorem claimFinish_callEffect (s : Sys) (now : Time) (fresh : Uuid) (who : Actor → Prop) :
    CallEffect env who s.db (s.claimFinish env now fresh).1.db := by
  unfold Sys.claimFinish
  cases s.claiming with
  | none => exact .refl who s.db
  | some p =>
      refine Prog.runTx_of_commit (.refl who s.db) fun r db' hcommit => ?_
      obtain ⟨_, _, -, -, ⟨_, -, -, h⟩ | ⟨_, -, -, -, h⟩⟩ := claimLocked_ok hcommit
      · exact .of_failed h
      · obtain ⟨_, _, rfl⟩ := h.frame
        exact .same ⟨rfl, rfl, rfl, rfl⟩ rfl

theorem recordUpdate_callEffect (db : Db) (policy : ConversationPolicy) (task lease : Uuid)
    (request : Json) (txNow : Time) (clock : Nat → Time) (fresh : Uuid) (who : Actor → Prop) :
    CallEffect env who db
      ((recordUpdate env policy task lease request txNow clock fresh).runTx db).2 := by
  obtain hsame | ⟨_, _, _, -, h⟩ | ⟨_, _, _, _, h⟩ :=
    recordUpdate_cases db policy task lease request txNow clock fresh
  · rw [hsame]
    exact .refl who db
  · exact .of_failed h
  · cases h with
    | completed h => exact .replied h
    | failed h => exact .same h.rooms h.events
    | noted h => exact .same h.rooms h.events

/-- Every call but a room request is one of these. -/
theorem gateway_callEffect (s : Sys) {op : Op} (hop : op.ofRequest = false) :
    CallEffect env op.reserver s.db ((gateway env).next s op).db := by
  cases op with
  | reserve policy actor request expiry catalog presence clock fresh =>
      refine Prog.runTx_of_commit (.refl _ s.db) fun r db' hcommit => ?_
      obtain ⟨_, _, _, _, _, _, _, hadmitted, -, h⟩ := reserveInner_ok hcommit
      exact .reserved rfl hadmitted h
  | claimSelect policy owner txNow =>
      change CallEffect env _ s.db (s.claimSelect policy owner txNow).1.db
      rw [Sys.claimSelect_db]
      exact .refl _ s.db
  | claimFinish now fresh => exact claimFinish_callEffect s now fresh _
  | claimAbort => exact .refl _ s.db
  | packet policy task lease txNow now fresh =>
      refine Prog.runTx_of_commit (.refl _ s.db) fun r db' hcommit => ?_
      obtain ⟨_, _, _, -, -, -, -, -, h⟩ := packet_ok hcommit
      exact .of_failed h
  | recordUpdate policy task lease request txNow clock fresh =>
      exact recordUpdate_callEffect s.db policy task lease request txNow clock fresh _
  | process actor request presence conversationsEnabled txNow fresh => cases hop
  | startAgentTask requesterId name start txNow fresh =>
      exact startAgentTask_callEffect requesterId name start txNow fresh _ s.db
  | claimAgentTask task owner now =>
      refine Prog.runTx_of_commit (.refl _ s.db) fun r db' hcommit => ?_
      obtain ⟨-, rfl⟩ | ⟨t, state, -, h, -⟩ := claimAgentTask_ok hcommit
      · exact .refl _ _
      · exact .claimed h
  | claimOldestQueuedAgentTask agent owner now =>
      refine Prog.runTx_of_commit (.refl _ s.db) fun r db' hcommit => ?_
      obtain ⟨-, rfl⟩ | ⟨t, -, h, -⟩ := claimOldestQueuedAgentTask_ok hcommit
      · exact .refl _ _
      · exact .claimed h
  | recordAgentTaskUpdate lease update txNow now fresh =>
      refine Prog.runTx_of_commit (.refl _ s.db) fun r db' hcommit => ?_
      obtain ⟨_, _, -, -, rfl⟩ | ⟨_, _, _, _, h, -⟩ := recordAgentTaskUpdateWithOutcome_ok hcommit
      · exact .refl _ _
      · exact .updated h

/-- Every step of the gateway is one of these. -/
theorem gateway_requestEffect (s : Sys) (op : Op) :
    RequestEffect env s.db ((gateway env).next s op).db := by
  cases hop : op.ofRequest with
  | false => exact (gateway_callEffect s hop).requestEffect
  | true =>
      cases op with
      | process actor request presence conversationsEnabled txNow fresh =>
          exact process_requestEffect actor request presence conversationsEnabled txNow fresh s.db
      | _ => cases hop

/-! ### The rows of the ledger -/

/-- `events` are the events of the call that wrote the row. -/
structure Entry (env : Env) (db : Db) (r : RoomRequest) (events : List RoomEvent) : Prop where
  ids : r.eventIds = events.map (·.eventId)
  mem : ∀ e ∈ events, e ∈ db.roomEvents.rows
  room : ∀ e ∈ events, e.roomId = r.roomId
  ascending : Ascending RoomEvent.sequence events
  targeted : ∀ e ∈ events, e.targeted → events = [e] ∧ ∃ chat : ChatSend,
    chat.delivery = .mentioned ∧
      r.requestFingerprint = (ValidatedRequest.chatSend chat).fingerprint env

namespace Entry

variable {r : RoomRequest} {events : List RoomEvent}

theorem grow (h : Entry env db r events) (hlog : LogExtends db db') : Entry env db' r events :=
  { h with mem := fun e he => hlog.mem (h.mem e he) }

theorem of_logged {news : List NewEvent}
    (logged : Logged db news events db'.roomEvents) (hids : r.eventIds = events.map (·.eventId))
    (hroom : ∀ new ∈ news, new.roomId = r.roomId)
    (htargeted : ∀ e ∈ events, e.targeted → events = [e] ∧ ∃ chat : ChatSend,
      chat.delivery = .mentioned ∧
        r.requestFingerprint = (ValidatedRequest.chatSend chat).fingerprint env) :
    Entry env db' r events := by
  have hrooms : ∀ e ∈ events, e.roomId = r.roomId := by
    intro e he
    obtain ⟨new, hnew, eventId, sequence, rfl⟩ := logged.of_new he
    exact hroom new hnew
  refine ⟨hids, fun e he => ?_, hrooms, logged.ascending hrooms, htargeted⟩
  rw [logged.rows]
  exact List.mem_append_right _ he

/-- The ledger's lookup gives the events of the call, in their order. -/
theorem eventsById_eq (h : Entry env db r events) : eventsById db r.eventIds = events := by
  have hmem : ∀ e, e ∈ db.roomEvents.rows.filter (r.eventIds.contains ·.eventId) ↔
      e ∈ events := by
    intro e
    simp only [List.mem_filter, List.contains_iff_mem, h.ids, List.mem_map]
    constructor
    · rintro ⟨he, x, hx, hid⟩
      exact Db.eventId_unique (h.mem x hx) he hid ▸ hx
    · exact fun he => ⟨h.mem e he, e, he, rfl⟩
  have hnodup : (db.roomEvents.rows.filter (r.eventIds.contains ·.eventId)).Nodup :=
    (db.roomEvents.unique.imp fun hclash heq => by
      simp [roomEventConstraints, heq] at hclash).filter _
  exact h.ascending.sortOn_eq ((List.perm_ext_iff_of_nodup hnodup h.ascending.nodup).mpr hmem)

end Entry

/-- Every row of the ledger lists the events of its call. -/
def Entries (env : Env) (db : Db) : Prop :=
  ∀ r ∈ db.roomRequests.rows, ∃ events, Entry env db r events

/-- The ledger only grows, and its log with it. -/
structure LedgerGrows (env : Env) (db db' : Db) : Prop where
  log : LogExtends db db'
  rows : ∃ new, db'.roomRequests.rows = db.roomRequests.rows ++ new ∧
    ∀ r ∈ new, ∃ events, Entry env db' r events

theorem LedgerGrows.entries (h : LedgerGrows env db db') (hentries : Entries env db) :
    Entries env db' := by
  obtain ⟨new, hrows, hnew⟩ := h.rows
  intro r hr
  rw [hrows] at hr
  rcases List.mem_append.mp hr with hr | hr
  · obtain ⟨events, hentry⟩ := hentries r hr
    exact ⟨events, hentry.grow h.log⟩
  · exact hnew r hr

/-- A row that is found is found for good. -/
theorem LedgerGrows.findRequest_eq (h : LedgerGrows env db db') {r : RoomRequest}
    (hfound : findRequest db room requestId = some r) :
    findRequest db' room requestId = some r := by
  obtain ⟨new, hrows, -⟩ := h.rows
  rw [findRequest, hrows, List.find?_append, show db.roomRequests.rows.find? _ = _ from hfound,
    Option.some_or]

theorem Ledgered.log {mid : Db} {fingerprint : Json} {events : List RoomEvent}
    (h : Ledgered mid db' room requestId fingerprint events) :
    db'.roomEvents = mid.roomEvents := by
  obtain ⟨_, _, rfl⟩ := h.frame
  rfl

theorem Ledgered.rows {mid : Db} {fingerprint : Json} {events : List RoomEvent}
    (h : Ledgered mid db' room requestId fingerprint events) :
    db'.roomRequests.rows =
      mid.roomRequests.rows ++ [⟨room, requestId, fingerprint, events.map (·.eventId)⟩] := by
  obtain ⟨_, hrows, rfl⟩ := h.frame
  exact hrows

/-- The row of a request that was performed. -/
theorem Performed.entry {actor : Actor} {request : ValidatedRequest} {events : List RoomEvent}
    {mid : Db} (h : Performed env actor db mid request events) (hroom : request.roomId = some room)
    (ledgered : Ledgered mid db' room requestId (request.fingerprint env) events) :
    Entry env db' ⟨room, requestId, request.fingerprint env, events.map (·.eventId)⟩ events := by
  obtain ⟨news, logged, hrooms⟩ := h.logged
  rw [← ledgered.log] at logged
  refine .of_logged logged rfl (fun new hnew => ?_) fun e he htargeted => ?_
  · exact Option.some.inj ((hrooms new hnew).symm.trans hroom)
  · obtain ⟨hone, chat, rfl, hdelivery⟩ := h.targeted he htargeted
    exact ⟨hone, chat, hdelivery, rfl⟩

/-- The row of a task that was started. -/
theorem StartedTask.entry {requesterId : Uuid} {name : String} {start : AgentTaskStart} {mid : Db}
    {task : AgentTaskRecord} {e : RoomEvent} {log : Table roomEventConstraints}
    {ts : Table agentTaskConstraints} (h : StartedTask requesterId name start db mid task e log ts)
    (ledgered : Ledgered mid db' start.roomId start.requestId (agentTaskFingerprint env start)
      [e]) :
    Entry env db' ⟨start.roomId, start.requestId, agentTaskFingerprint env start, [e.eventId]⟩
      [e] := by
  have hlog : db'.roomEvents = log := ledgered.log.trans (by rw [h.eq])
  refine .of_logged (hlog ▸ h.logged) rfl (by simp [requestedEvent]) fun e he htargeted => ?_
  exact absurd htargeted (h.logged.not_targeted
    (by simp [requestedEvent, requestedTaskPayload, Json.asStr]) he)

/-- The row of a turn that was reserved. -/
theorem ReservedTurn.entry {policy : ConversationPolicy} {actor : Actor} {turn : TurnRequest}
    {t : ConversationTask} {c : AgentConversation} {prompt : RoomEvent} {base : Int}
    {items : List ContextItem} {context : Json}
    (h : ReservedTurn env db db' policy actor turn t c prompt base items context) :
    Entry env db' ⟨turn.room, turn.requestId, turnFingerprint actor turn.request,
      [prompt.eventId]⟩ [prompt] := by
  obtain ⟨_, _, happended⟩ := h.appended
  refine .of_logged happended.logged rfl (by simp [promptEvent]) fun e he htargeted => ?_
  exact absurd htargeted (happended.logged.not_targeted (by simp [promptEvent]) he)

theorem RequestEffect.grows (h : RequestEffect env db db') : LedgerGrows env db db' := by
  cases h with
  | aside h _ => exact ⟨h.log, [], by rw [h.requests, List.append_nil], by simp⟩
  | processed hroom _ performed ledgered =>
      obtain ⟨news, logged, -⟩ := performed.logged
      refine ⟨?_, [_], performed.requests ▸ ledgered.rows, ?_⟩
      · rw [LogExtends, ledgered.log]
        exact logged.extended
      · simpa using ⟨_, performed.entry hroom ledgered⟩
  | started _ h ledgered =>
      have hlog : db'.roomEvents = _ := ledgered.log.trans (by rw [h.eq])
      refine ⟨?_, [_], ledgered.rows.trans (by rw [h.eq]), ?_⟩
      · rw [LogExtends, hlog]
        exact h.logged.extended
      · simpa using ⟨_, h.entry ledgered⟩
  | reserved h =>
      obtain ⟨_, _, happended⟩ := h.appended
      exact ⟨happended.extends, [_], h.ledger, by simpa using ⟨_, h.entry⟩⟩

/-! ### Repeated requests -/

/-- Where the ledger keeps a request, if it does. -/
def ValidatedRequest.ledgerKey : ValidatedRequest → Option (Uuid × Uuid)
  | chatSend request => some (request.roomId, request.requestId)
  | decisionPropose request => some (request.roomId, request.requestId)
  | decisionTransition request => some (request.roomId, request.requestId)
  | decisionDelete request => some (request.roomId, request.requestId)
  | agentTaskStart request => some (request.roomId, request.requestId)
  | join _ | sessionAuthenticate _ => none

theorem ValidatedRequest.ledgerKey_eq {request : ValidatedRequest} {room id : Uuid} :
    request.ledgerKey = some (room, id) →
      (match request with | .join _ => none | _ => request.roomId) = some room ∧
        request.requestId = some id := by
  cases request <;> simp [ledgerKey, roomId, requestId]

theorem priorRequest_exec (db : Db) (room requestId : Uuid) :
    (priorRequest room requestId).exec db = .ok ((findRequest db room requestId).map fun r =>
      (r.requestFingerprint, eventsById db r.eventIds), db) := by
  cases hfind : findRequest db room requestId <;>
    simp [priorRequest, Prog.exec_bind, Prog.query, Prog.exec, hfind, pure]

/-- What a request gets that is in the ledger already. -/
theorem process_recorded {actor : Actor} {request : ValidatedRequest}
    {presence : List ParticipantPresence} {conversationsEnabled : Bool} {txNow : Time}
    {fresh : Nat → Uuid} {r : RoomRequest}
    (hallowed : request.governed = true → actor.role = .human)
    (hkey : request.ledgerKey = some (room, requestId))
    (hfound : findRequest db room requestId = some r) :
    (process env actor request presence conversationsEnabled txNow fresh).runTx db =
      (if r.requestFingerprint = request.fingerprint env then .ok ⟨eventsById db r.eventIds, true⟩
        else .error .conflictingDuplicate, db) := by
  obtain ⟨hroom, hrequest⟩ := request.ledgerKey_eq hkey
  have hensure : (!(request.governed && actor.role ≠ .human)) = true := by
    cases hgoverned : request.governed with
    | false => rfl
    | true => simp [hallowed hgoverned]
  have hprior := priorRequest_exec db room requestId
  rw [hfound, Option.map_some] at hprior
  -- everything before the ledger's answer completes without a write
  have hexec : (process env actor request presence conversationsEnabled txNow fresh).exec db =
      (do
        .ensure (r.requestFingerprint = request.fingerprint env) .conflictingDuplicate
        return .rollback ⟨eventsById db r.eventIds, true⟩ :
        Tx RpcError (Ending RpcError ProcessedRequest)).exec db := by
    unfold process
    refine (Prog.exec_bind_of_ok (a := ()) (Prog.exec_ensure_ok.mpr ⟨hensure, rfl⟩)).trans ?_
    refine (Prog.exec_bind_of_ok (Prog.exec_orFail_ok.mpr ⟨hroom, rfl⟩)).trans ?_
    refine (Prog.exec_bind_of_ok (Prog.exec_orFail_ok.mpr ⟨hrequest, rfl⟩)).trans ?_
    refine (Prog.exec_bind_of_ok (a := ())
      (Prog.exec_mapErr_ok.mpr (Prog.exec_acquire_ok.mpr rfl))).trans ?_
    exact Prog.exec_bind_of_ok (Prog.exec_mapErr_ok.mpr hprior)
  unfold Prog.runTx
  rw [hexec]
  by_cases hsame : r.requestFingerprint = request.fingerprint env
  · rw [if_pos hsame, Prog.exec_bind_of_ok (a := ())
      (Prog.exec_ensure_ok.mpr ⟨by simp [hsame], rfl⟩)]
    rfl
  · rw [if_neg hsame, Prog.exec_bind, Prog.ensure, if_neg (by simpa using hsame)]
    rfl

end RoomGateway
