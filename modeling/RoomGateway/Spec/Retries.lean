import RoomGateway.Spec.Handout
import RoomGateway.Spec.Ledger
import RoomGateway.Spec.Record
import RoomGateway.Spec.Snapshot

/-!
Calls that are made again. `process`, `start_agent_task` and `reserve` share
the request ledger: the first call under a key that commits writes the row, and
every later call under that key finds it, changes nothing, and is answered from
what the first call stored if its parameters are the same.
-/

namespace RoomGateway

variable {env : Env} {db db' : Db} {room id : Uuid}

/-! ### Calls and their keys -/

/-- The room and the request id under which a call is in the ledger, and its
canonical parameters. -/
def Op.ledgered (env : Env) : Op → Option (Uuid × Uuid × Json)
  | .process _ request _ _ _ _ =>
      request.ledgerKey.map fun key => (key.1, key.2, request.fingerprint env)
  | .startAgentTask _ _ start _ _ =>
      some (start.roomId, start.requestId, agentTaskFingerprint env start)
  | .reserve _ actor request _ _ _ _ _ =>
      match validateTurnRequest env request with
      | .error _ => none
      | .ok request =>
          match uuidField request "roomId", uuidField request "requestId" with
          | .ok room, .ok id => some (room, id, turnFingerprint actor request)
          | _, _ => none
  | _ => none

theorem Op.ledgered_reserve {policy : ConversationPolicy} {actor : Actor} {request params : Json}
    {expiry : Time} {catalog : Option CatalogQuery} {presence : Option (List ParticipantPresence)}
    {clock : Nat → Time} {fresh : Nat → Uuid}
    (h : (Op.reserve policy actor request expiry catalog presence clock fresh).ledgered env =
      some (room, id, params)) :
    ∃ intent, validateTurnRequest env request = .ok intent ∧
      uuidField intent "roomId" = .ok room ∧ uuidField intent "requestId" = .ok id ∧
      turnFingerprint actor intent = params := by
  unfold ledgered at h
  cases hvalid : validateTurnRequest env request with
  | error e => simp [hvalid] at h
  | ok intent =>
      cases hroom : uuidField intent "roomId" with
      | error e => simp [hvalid, hroom] at h
      | ok room' =>
          cases hid : uuidField intent "requestId" with
          | error e => simp [hvalid, hroom, hid] at h
          | ok id' =>
              simp only [hvalid, hroom, hid] at h
              cases h
              exact ⟨intent, rfl, hroom, hid, rfl⟩

/-- A call passes what is checked before the ledger is read: the role for the
governed methods; for a turn the policy and, twice, the token. -/
def Op.admitted : Op → Prop
  | .process actor request _ _ _ _ => request.governed = true → actor.role = .human
  | .reserve policy actor _ expiry _ _ clock _ => policy.enabled = true ∧
      ∀ i ≤ 1, ∃ granted, authorizeConversationTurn actor expiry (clock i) (turnMinimum policy) =
        .ok granted
  | _ => True

/-- How a call is refused whose key was used with other parameters. -/
def Op.conflict : Op → Out
  | .process _ _ _ _ _ _ => .processed (.error .conflictingDuplicate)
  | .startAgentTask _ _ _ _ _ => .started (.error .conflictingDuplicate)
  | .reserve _ _ _ _ _ _ _ _ => .reserved (.error .duplicateConflict)
  | _ => .none

/-- What a repeated call is told: what the first one, between `db` and `db'`,
stored. -/
inductive AnsweredAgain (db db' : Db) (events : List RoomEvent) : Op → Out → Prop where
  | processed {actor request presence conversationsEnabled txNow fresh} :
      AnsweredAgain db db' events (.process actor request presence conversationsEnabled txNow fresh)
        (.processed (.ok ⟨events, true⟩))
  | started {requesterId name start txNow fresh} {task : AgentTaskRecord}
      (task_eq : db'.agentTasks.rows = db.agentTasks.rows ++ [task]) :
      AnsweredAgain db db' events (.startAgentTask requesterId name start txNow fresh)
        (.started (.ok ⟨task.taskId, events⟩))
  | reserved {policy actor request expiry catalog presence clock fresh} {t : ConversationTask}
      (task_eq : db'.conversationTasks.rows = db.conversationTasks.rows ++ [t]) :
      AnsweredAgain db db' events
        (.reserve policy actor request expiry catalog presence clock fresh)
        (.reserved (.ok ⟨t.acceptedTurn, none⟩))

/-! ### What is kept -/

/-- What the answer to a repeated call is made of stays. -/
structure Remembers (env : Env) (db db' : Db) : Prop where
  ledger : LedgerGrows env db db'
  turns : TasksContinue db db'
  tasks : TasksNamed db db'

theorem LedgerGrows.trans {a b c : Db} (hab : LedgerGrows env a b) (hbc : LedgerGrows env b c) :
    LedgerGrows env a c := by
  obtain ⟨new, hnew, hentries⟩ := hab.rows
  obtain ⟨new', hnew', hentries'⟩ := hbc.rows
  refine ⟨hab.log.trans hbc.log, new ++ new', by rw [hnew', hnew, List.append_assoc], ?_⟩
  intro r hr
  rcases List.mem_append.mp hr with hr | hr
  · obtain ⟨events, hentry⟩ := hentries r hr
    exact ⟨events, hentry.grow hbc.log⟩
  · exact hentries' r hr

theorem Remembers.refl (db : Db) : Remembers env db db where
  ledger := ⟨.refl, [], by simp, by simp⟩
  turns := fun t ht => ⟨t, ht, .refl t⟩
  tasks := List.prefix_rfl

theorem Remembers.trans {a b c : Db} (hab : Remembers env a b) (hbc : Remembers env b c) :
    Remembers env a c where
  ledger := hab.ledger.trans hbc.ledger
  turns := hab.turns.trans hbc.turns
  tasks := hab.tasks.trans hbc.tasks

theorem gateway_remembers (s : Sys) (ops : List Op) :
    Remembers env s.db ((gateway env).runFrom s ops).db :=
  Machine.runFrom_trans (R := fun a b : Sys => Remembers env a.db b.db) (P := fun _ => True)
    (fun s => .refl s.db) (fun _ _ _ => Remembers.trans) (fun _ _ _ _ => trivial)
    (fun s op _ _ => ⟨(gateway_requestEffect s op).grows, (gateway_effect s op).tasksContinue,
      (gateway_requestEffect s op).tasksNamed⟩)
    trivial (Machine.guarded_true _ ops)

/-! ### The first call -/

/-- A call under a new key: it appended `events` and wrote the ledger's row with
exactly their ids, and with it the task or the turn it asked for. -/
structure Stored (env : Env) (db db' : Db) (room id : Uuid) (params : Json)
    (events : List RoomEvent) : Prop where
  unrecorded : findRequest db room id = none
  row : db'.roomRequests.rows =
    db.roomRequests.rows ++ [⟨room, id, params, events.map (·.eventId)⟩]
  log : db'.roomEvents.rows = db.roomEvents.rows ++ events
  entry : Entry env db' ⟨room, id, params, events.map (·.eventId)⟩ events
  started : ∀ start, params = agentTaskFingerprint env start → ∃ task : AgentTaskRecord,
    db'.agentTasks.rows = db.agentTasks.rows ++ [task] ∧ task.roomId = room ∧ task.requestId = id
  reserved : ∀ actor request, params = turnFingerprint actor request → ∃ t : ConversationTask,
    db'.conversationTasks.rows = db.conversationTasks.rows ++ [t] ∧ t.roomId = room ∧
      t.requestId = id ∧ t.requesterId = actor.id

/-- The method is part of the parameters. -/
theorem turnFingerprint_ne (actor : Actor) (request : Json) (start : AgentTaskStart) :
    turnFingerprint actor request ≠ agentTaskFingerprint env start := by
  simp [turnFingerprint, agentTaskFingerprint, requestFingerprint]

theorem ValidatedRequest.fingerprint_ne_turn (request : ValidatedRequest) (actor : Actor)
    (turn : Json) : request.fingerprint env ≠ turnFingerprint actor turn := by
  cases request <;> simp [fingerprint, turnFingerprint, requestFingerprint]

theorem ValidatedRequest.fingerprint_eq_start {request : ValidatedRequest}
    {start : AgentTaskStart} (h : request.fingerprint env = agentTaskFingerprint env start) :
    ∃ start', request = .agentTaskStart start' := by
  cases request with
  | agentTaskStart start' => exact ⟨start', rfl⟩
  | _ => simp [fingerprint, agentTaskFingerprint, requestFingerprint] at h

theorem Performed.stored {actor : Actor} {request : ValidatedRequest} {events : List RoomEvent}
    {mid : Db} (h : Performed env actor db mid request events)
    (hkey : request.ledgerKey = some (room, id)) (hnew : findRequest db room id = none)
    (ledgered : Ledgered mid db' room id (request.fingerprint env) events) :
    Stored env db db' room id (request.fingerprint env) events := by
  have hroom : request.roomId = some room := by
    cases request <;> simp_all [ValidatedRequest.ledgerKey, ValidatedRequest.roomId]
  obtain ⟨news, logged, -⟩ := h.logged
  refine ⟨hnew, h.requests ▸ ledgered.rows, ledgered.log ▸ logged.rows, h.entry hroom ledgered,
    fun start hparams => ?_, fun actor turn hparams => ?_⟩
  · obtain ⟨start', rfl⟩ := ValidatedRequest.fingerprint_eq_start hparams
    cases h with
    | started h =>
        cases hkey
        obtain ⟨_, _, rfl⟩ := ledgered.frame
        rw [h.eq]
        exact ⟨_, h.tasks, h.room, h.requestId⟩
  · exact absurd hparams (request.fingerprint_ne_turn actor turn)

theorem StartedTask.stored {requesterId : Uuid} {name : String} {start : AgentTaskStart} {mid : Db}
    {task : AgentTaskRecord} {e : RoomEvent} {log : Table roomEventConstraints}
    {ts : Table agentTaskConstraints} (h : StartedTask requesterId name start db mid task e log ts)
    (hnew : findRequest db start.roomId start.requestId = none)
    (ledgered : Ledgered mid db' start.roomId start.requestId (agentTaskFingerprint env start)
      [e]) :
    Stored env db db' start.roomId start.requestId (agentTaskFingerprint env start) [e] := by
  have hentry := h.entry ledgered
  obtain ⟨_, hrows, rfl⟩ := ledgered.frame
  obtain rfl := h.eq
  refine ⟨hnew, hrows, h.logged.rows, hentry, fun _ _ => ?_, fun actor turn hparams => ?_⟩
  · exact ⟨task, h.tasks, h.room, h.requestId⟩
  · exact absurd hparams.symm (turnFingerprint_ne actor turn start)

theorem ReservedTurn.stored {policy : ConversationPolicy} {actor : Actor} {turn : TurnRequest}
    {t : ConversationTask} {c : AgentConversation} {prompt : RoomEvent} {base : Int}
    {items : List ContextItem} {context : Json}
    (h : ReservedTurn env db db' policy actor turn t c prompt base items context) :
    Stored env db db' turn.room turn.requestId (turnFingerprint actor turn.request) [prompt] := by
  obtain ⟨_, _, happended⟩ := h.appended
  refine ⟨h.unrecorded, h.ledger, happended.rows, h.entry, fun start hparams => ?_,
    fun actor' request' hparams => ?_⟩
  · exact absurd hparams (turnFingerprint_ne actor turn.request start)
  · obtain ⟨_, _, _, _, ht⟩ := h.task
    have hactor : actor.id = actor'.id := by
      simp only [turnFingerprint, Json.obj.injEq, List.cons.injEq, Prod.mk.injEq,
        Json.str.injEq, true_and, and_true] at hparams
      exact Uuid.text_injective hparams.1
    refine ⟨t, h.tasks, ?_, ?_, ?_⟩ <;> rw [ht]
    · rfl
    · rfl
    · exact hactor

/-- A call with a key that changes anything is the first under that key. -/
theorem gateway_stored {s : Sys} {op : Op} {params : Json}
    (hop : op.ledgered env = some (room, id, params))
    (hchange : ((gateway env).next s op).db ≠ s.db) :
    ∃ events, Stored env s.db ((gateway env).next s op).db room id params events := by
  cases op with
  | process actor request presence conversationsEnabled txNow fresh =>
      obtain ⟨⟨key, requestId⟩, hkey, heq⟩ := Option.map_eq_some_iff.mp hop
      cases heq
      obtain hsame | ⟨r, hcommit⟩ := Prog.runTx_store
        (process env actor request presence conversationsEnabled txNow fresh) s.db
      · exact absurd hsame hchange
      · obtain ⟨room', id', hroom, hid, ⟨_, -, -, hending⟩ | ⟨hnew, events, mid, -, hperformed,
          hledgered⟩⟩ := process_ok hcommit
        · cases hending
        · obtain ⟨hroom', hid'⟩ := ValidatedRequest.ledgerKey_eq hkey
          obtain rfl : room' = key := by
            cases request <;> simp_all [ValidatedRequest.roomId]
          obtain rfl : id' = requestId := Option.some.inj (hid.symm.trans hid')
          exact ⟨events, hperformed.stored hkey hnew hledgered⟩
  | startAgentTask requesterId name start txNow fresh =>
      cases hop
      obtain hsame | ⟨r, hcommit⟩ := Prog.runTx_store
        (startAgentTask env requesterId name start txNow fresh) s.db
      · exact absurd hsame hchange
      · obtain ⟨result, -, hstart⟩ := startAgentTask_ok hcommit
        obtain ⟨_, _, -, -, -, -, -, -, hsame⟩ | ⟨hnew, mid, task, e, log, ts, hstarted, -,
          hledgered⟩ := startAgentTaskInTransaction_ok hstart
        · exact absurd hsame hchange
        · exact ⟨[e], hstarted.stored hnew hledgered⟩
  | reserve policy actor request expiry catalog presence clock fresh =>
      obtain hsame | ⟨r, hcommit⟩ := Prog.runTx_store
        (reserveInner env policy actor request expiry catalog presence clock fresh) s.db
      · exact absurd hsame hchange
      · obtain ⟨turn, t, c, prompt, base, items, context, hadmitted, -, h⟩ :=
          reserveInner_ok hcommit
        simp only [Op.ledgered, hadmitted.valid, hadmitted.room, hadmitted.requestId] at hop
        cases hop
        exact ⟨[prompt], h.stored⟩
  | _ => cases hop

/-! ### Later calls -/

theorem Stored.found {params : Json} {events : List RoomEvent}
    (h : Stored env db db' room id params events) :
    findRequest db' room id = some ⟨room, id, params, events.map (·.eventId)⟩ := by
  rw [findRequest, h.row, List.find?_append, show db.roomRequests.rows.find? _ = _ from
    h.unrecorded]
  simp

/-- A key that is in the ledger is used up, whoever calls. -/
theorem gateway_unchanged {s : Sys} {op : Op} {params : Json} {r : RoomRequest}
    (hop : op.ledgered env = some (room, id, params)) (hfound : findRequest s.db room id = some r)
    : (gateway env).next s op = s := by
  have hdb : ((gateway env).next s op).db = s.db := by
    by_contra hchange
    obtain ⟨_, hstored⟩ := gateway_stored hop hchange
    rw [hstored.unrecorded] at hfound
    cases hfound
  have hsys : (gateway env).next s op = { s with db := ((gateway env).next s op).db } := by
    cases op with
    | process => rfl
    | startAgentTask => rfl
    | reserve => rfl
    | _ => cases hop
  rw [hsys, hdb]

section Started

variable {requesterId : Uuid} {name : String} {start : AgentTaskStart} {txNow : Time}
  {fresh : Nat → Uuid} {r : RoomRequest}

/-- A start that is in the ledger already finds its task. -/
theorem startAgentTask_again {task : AgentTaskRecord}
    (hfound : findRequest db start.roomId start.requestId = some r)
    (hsame : r.requestFingerprint = agentTaskFingerprint env start)
    (htask : (db.agentTasks.rows.find? fun t =>
      t.roomId = start.roomId && t.requestId = start.requestId) = some task) :
    ((startAgentTask env requesterId name start txNow fresh).runTx db).1 =
      .ok ⟨task.taskId, eventsById db r.eventIds⟩ := by
  have hprior := priorRequest_exec db start.roomId start.requestId
  rw [hfound, Option.map_some] at hprior
  have hexec : (startAgentTaskInTransaction env requesterId name start true txNow fresh).exec db =
      .ok (⟨task.taskId, eventsById db r.eventIds⟩, db) := by
    unfold startAgentTaskInTransaction
    refine (Prog.exec_bind_of_ok (a := ()) (Prog.exec_acquire_ok.mpr rfl)).trans ?_
    refine (Prog.exec_bind_of_ok hprior).trans ?_
    refine (Prog.exec_bind_of_ok (a := ())
      (Prog.exec_ensure_ok.mpr ⟨by simp [hsame], rfl⟩)).trans ?_
    refine (Prog.exec_bind_of_ok (s := db) (Prog.exec_query_ok.mpr ⟨htask, rfl⟩)).trans ?_
    exact Prog.exec_bind_of_ok (Prog.exec_orFail_ok.mpr ⟨rfl, rfl⟩)
  unfold Prog.runTx startAgentTask
  rw [Prog.exec_bind_of_ok hexec]
  rfl

theorem startAgentTask_conflict
    (hfound : findRequest db start.roomId start.requestId = some r)
    (hother : r.requestFingerprint ≠ agentTaskFingerprint env start) :
    ((startAgentTask env requesterId name start txNow fresh).runTx db).1 =
      .error .conflictingDuplicate := by
  have hprior := priorRequest_exec db start.roomId start.requestId
  rw [hfound, Option.map_some] at hprior
  have hexec : (startAgentTaskInTransaction env requesterId name start true txNow fresh).exec db =
      .error .conflictingDuplicate := by
    unfold startAgentTaskInTransaction
    refine (Prog.exec_bind_of_ok (a := ()) (Prog.exec_acquire_ok.mpr rfl)).trans ?_
    refine (Prog.exec_bind_of_ok hprior).trans ?_
    exact Prog.exec_bind_of_error (Prog.exec_ensure_error (by simpa using hother))
  unfold Prog.runTx startAgentTask
  rw [Prog.exec_bind_of_error hexec]

end Started

section Reserved

variable {policy : ConversationPolicy} {actor : Actor} {request intent : Json} {expiry : Time}
  {catalog : Option CatalogQuery} {presence : Option (List ParticipantPresence)}
  {clock : Nat → Time} {fresh : Nat → Uuid} {room id : Uuid} {r : RoomRequest}

/-- A turn that passes the checks before the ledger and is in the ledger
already is decided by the replay. -/
theorem reserveInner_replay
    (hadmitted : (Op.reserve policy actor request expiry catalog presence clock fresh).admitted)
    (hvalid : validateTurnRequest env request = .ok intent)
    (hroom : uuidField intent "roomId" = .ok room)
    (hid : uuidField intent "requestId" = .ok id) (hfound : findRequest db room id = some r) :
    ∃ granted, (reserveInner env policy actor request expiry catalog presence clock
        fresh).exec db =
      (do
        let reservation ← replayTurn actor ⟨intent, room, id, clock 1, granted⟩
          r.requestFingerprint
        return .rollback reservation :
        Tx ConversationError (Ending ConversationError ConversationReservation)).exec db := by
  obtain ⟨henabled, hauth⟩ := hadmitted
  obtain ⟨_, hbefore⟩ := hauth 0 (by omega)
  obtain ⟨granted, hafter⟩ := hauth 1 (by omega)
  have hprior := priorRequest_exec db room id
  rw [hfound, Option.map_some] at hprior
  have hadmit : (admitTurn env policy actor request expiry clock).exec db =
      .ok (⟨intent, room, id, clock 1, granted⟩, db) := by
    unfold admitTurn
    refine (Prog.exec_bind_of_ok (Prog.exec_ofExcept_ok.mpr ⟨hbefore, rfl⟩)).trans ?_
    refine (Prog.exec_bind_of_ok (a := ()) (Prog.exec_ensure_ok.mpr ⟨henabled, rfl⟩)).trans ?_
    refine (Prog.exec_bind_of_ok (Prog.exec_ofExcept_ok.mpr ⟨hvalid, rfl⟩)).trans ?_
    refine (Prog.exec_bind_of_ok (Prog.exec_ofExcept_ok.mpr ⟨hroom, rfl⟩)).trans ?_
    refine (Prog.exec_bind_of_ok (Prog.exec_ofExcept_ok.mpr ⟨hid, rfl⟩)).trans ?_
    refine (Prog.exec_bind_of_ok (a := ())
      (Prog.exec_mapErr_ok.mpr (Prog.exec_acquire_ok.mpr rfl))).trans ?_
    exact Prog.exec_bind_of_ok (Prog.exec_ofExcept_ok.mpr ⟨hafter, rfl⟩)
  refine ⟨granted, ?_⟩
  unfold reserveInner
  refine (Prog.exec_bind_of_ok hadmit).trans ?_
  exact Prog.exec_bind_of_ok (Prog.exec_mapErr_ok.mpr hprior)

theorem replayTurn_again {turn : TurnRequest} {prior : Json} {t : ConversationTask}
    (hsame : prior = turnFingerprint actor turn.request)
    (htask : (db.conversationTasks.rows.find? fun t =>
      t.roomId = turn.room && t.requestId = turn.requestId && t.requesterId = actor.id) = some t) :
    (replayTurn actor turn prior).exec db = .ok (⟨t.acceptedTurn, none⟩, db) := by
  unfold replayTurn
  refine (Prog.exec_bind_of_ok (a := ()) (Prog.exec_ensure_ok.mpr ⟨by simp [hsame], rfl⟩)).trans ?_
  refine (Prog.exec_bind_of_ok (s := db) (Prog.exec_query_ok.mpr ⟨htask, rfl⟩)).trans ?_
  exact Prog.exec_bind_of_ok (Prog.exec_orFail_ok.mpr ⟨rfl, rfl⟩)

theorem replayTurn_conflict {turn : TurnRequest} {prior : Json}
    (hother : prior ≠ turnFingerprint actor turn.request) :
    (replayTurn actor turn prior).exec db = .error .duplicateConflict :=
  Prog.exec_bind_of_error (Prog.exec_ensure_error (by simpa using hother))

end Reserved

/-- The task of a start is found under its room and request for good. -/
theorem TasksNamed.find? {before : List AgentTaskRecord} {task : AgentTaskRecord}
    (h : TasksNamed db db') (htasks : db.agentTasks.rows = before ++ [task]) :
    ∃ task', task'.taskId = task.taskId ∧ (db'.agentTasks.rows.find? fun t =>
      t.roomId = task.roomId && t.requestId = task.requestId) = some task' := by
  have hmem : task.identity ∈ db'.agentTasks.rows.map AgentTaskRecord.identity :=
    h.subset (List.mem_map_of_mem (by simp [htasks]))
  obtain ⟨task', htask', hsame⟩ := List.mem_map.mp hmem
  simp only [AgentTaskRecord.identity, AgentTaskRecord.mk.injEq] at hsame
  obtain ⟨hid, hroom, hrequest, -⟩ := hsame
  refine ⟨task', hid, Table.find?_eq_some_of_unique htask' (by simp [hroom, hrequest]) ?_⟩
  intro t ht hkey
  simp only [Bool.and_eq_true, decide_eq_true_eq] at hkey
  exact Table.eq_of_clash ht htask' (by simp [agentTaskConstraints, hkey, hroom, hrequest])
    (by simp [agentTaskConstraints, hkey, hroom, hrequest])

/-- The turn of a reservation is found under its room and request for good, as
it was accepted. -/
theorem TasksContinue.find? {before : List ConversationTask} {t : ConversationTask}
    (h : TasksContinue db db') (htasks : db.conversationTasks.rows = before ++ [t]) :
    ∃ t', t'.acceptedTurn = t.acceptedTurn ∧ (db'.conversationTasks.rows.find? fun x =>
      x.roomId = t.roomId && x.requestId = t.requestId && x.requesterId = t.requesterId) =
        some t' := by
  obtain ⟨t', ht', hcontinues⟩ := h t (by simp [htasks])
  have hsame {α : Type} (f : ConversationTask → α) (hf : ∀ x, f x.origin = f x) : f t' = f t :=
    eq_of_origin f hf hcontinues.origin
  have hroom := hsame ConversationTask.roomId fun _ => rfl
  have hrequest := hsame ConversationTask.requestId fun _ => rfl
  have hrequester := hsame ConversationTask.requesterId fun _ => rfl
  refine ⟨t', hsame ConversationTask.acceptedTurn fun _ => rfl,
    Table.find?_eq_some_of_unique ht' (by simp [hroom, hrequest, hrequester]) ?_⟩
  intro x hx hkey
  simp only [Bool.and_eq_true, decide_eq_true_eq] at hkey
  exact Table.eq_of_clash hx ht' (by simp [conversationTaskConstraints, hkey, hroom, hrequest])
    (by simp [conversationTaskConstraints, hkey, hroom, hrequest])

/-- What a later call is told, once the row is there. -/
theorem Stored.answer {before after : Db} {later : Sys} {params params' : Json}
    {events : List RoomEvent} {again : Op} (h : Stored env before after room id params events)
    (hkept : Remembers env after later.db) (hagain : again.ledgered env = some (room, id, params'))
    (hadmitted : again.admitted) :
    if params' = params then
      AnsweredAgain before after events again ((gateway env).out later again)
    else (gateway env).out later again = again.conflict := by
  have hfound := hkept.ledger.findRequest_eq h.found
  have hevents : eventsById later.db (events.map (·.eventId)) = events :=
    (h.entry.grow hkept.ledger.log).eventsById_eq
  cases again with
  | process actor request presence conversationsEnabled txNow fresh =>
      obtain ⟨⟨key, requestId⟩, hkey, heq⟩ := Option.map_eq_some_iff.mp hagain
      cases heq
      have hresult : ((process env actor request presence conversationsEnabled txNow fresh).runTx
          later.db).1 = _ := congrArg Prod.fst (process_recorded hadmitted hkey hfound)
      change if _ then AnsweredAgain before after events _ (.processed (Prog.runTx _ later.db).1)
        else Out.processed (Prog.runTx _ later.db).1 = _
      rw [hresult]
      by_cases hsame : request.fingerprint env = params
      · rw [if_pos hsame, if_pos hsame.symm, hevents]
        exact .processed
      · rw [if_neg hsame, if_neg (Ne.symm hsame)]
        rfl
  | startAgentTask requesterId name start txNow fresh =>
      cases hagain
      change if _ then AnsweredAgain before after events _ (.started (Prog.runTx _ later.db).1)
        else Out.started (Prog.runTx _ later.db).1 = _
      by_cases hsame : agentTaskFingerprint env start = params
      · obtain ⟨task, htasks, hroom, hid⟩ := h.started start hsame.symm
        obtain ⟨task', hname, hfind⟩ := hkept.tasks.find? htasks
        rw [hroom, hid] at hfind
        rw [if_pos hsame, startAgentTask_again hfound hsame.symm hfind, hevents, hname]
        exact .started htasks
      · rw [if_neg hsame, startAgentTask_conflict hfound (Ne.symm hsame)]
        rfl
  | reserve policy actor request expiry catalog presence clock fresh =>
      obtain ⟨intent, hvalid, hroom, hid, rfl⟩ := Op.ledgered_reserve hagain
      obtain ⟨granted, hexec⟩ := reserveInner_replay hadmitted hvalid hroom hid hfound
      change if _ then AnsweredAgain before after events _ (.reserved (Prog.runTx _ later.db).1)
        else Out.reserved (Prog.runTx _ later.db).1 = _
      unfold Prog.runTx
      rw [hexec]
      by_cases hsame : turnFingerprint actor intent = params
      · obtain ⟨t, htasks, htroom, htid, hrequester⟩ := h.reserved actor intent hsame.symm
        obtain ⟨t', haccepted, hfind⟩ := hkept.turns.find? htasks
        rw [htroom, htid, hrequester] at hfind
        rw [if_pos hsame, Prog.exec_bind_of_ok (replayTurn_again hsame.symm hfind), haccepted]
        exact .reserved htasks
      · rw [if_neg hsame, Prog.exec_bind_of_error (replayTurn_conflict (Ne.symm hsame))]
        rfl
  | _ => cases hagain

/-- Under one key at most one call changes anything. Its row in the ledger lists
exactly its events, and every later call under the key changes nothing and is
told what the first one stored, or of the conflict if it asks for something
else. -/
theorem call_executes_once (env : Env) (ops more : List Op) (first again : Op) (room id : Uuid)
    (params params' : Json) (hfirst : first.ledgered env = some (room, id, params))
    (hcommits : ((gateway env).run (ops ++ [first])).db ≠ ((gateway env).run ops).db)
    (hagain : again.ledgered env = some (room, id, params')) :
    ∃ events,
      Stored env ((gateway env).run ops).db ((gateway env).run (ops ++ [first])).db room id params
        events ∧
      (gateway env).next ((gateway env).run (ops ++ [first] ++ more)) again =
        (gateway env).run (ops ++ [first] ++ more) ∧
      (again.admitted → if params' = params then
          AnsweredAgain ((gateway env).run ops).db ((gateway env).run (ops ++ [first])).db events
            again ((gateway env).out ((gateway env).run (ops ++ [first] ++ more)) again)
        else (gateway env).out ((gateway env).run (ops ++ [first] ++ more)) again =
          again.conflict) := by
  have hnext : (gateway env).run (ops ++ [first]) =
      (gateway env).next ((gateway env).run ops) first := by
    rw [Machine.run_append]
    rfl
  rw [hnext] at hcommits
  obtain ⟨events, hstored⟩ := gateway_stored hfirst hcommits
  rw [← hnext] at hstored
  have hkept : Remembers env ((gateway env).run (ops ++ [first])).db
      ((gateway env).run (ops ++ [first] ++ more)).db := by
    rw [(gateway env).run_append (ops ++ [first])]
    exact gateway_remembers _ more
  refine ⟨events, hstored, ?_, hstored.answer hkept hagain⟩
  exact gateway_unchanged hagain (hkept.ledger.findRequest_eq hstored.found)

/-- A start of a task, asked for in the room. -/
def sampleStart : AgentTaskStart where
  id := "1"
  contractVersion := "n2n.room.v1"
  requestId := 5
  roomId := 1
  occurredAt := 0
  agentId := referenceAgentId
  skillId := .summarizeContext
  input := "Summarize."

def sampleAsk : Op :=
  .process sampleActor (.agentTaskStart sampleStart) [] true 0 fun n => .ofNat (20 + n)

/-- The same start through the other entry point. -/
def sampleAskAgain : Op :=
  .startAgentTask 7 "Maya Chen" sampleStart 9 fun n => .ofNat (30 + n)

theorem start_executes_once : ∃ events,
    Stored sampleEnv {} ((gateway sampleEnv).run [sampleAsk]).db 1 5
      (agentTaskFingerprint sampleEnv sampleStart) events ∧
    AnsweredAgain {} ((gateway sampleEnv).run [sampleAsk]).db events sampleAskAgain
      ((gateway sampleEnv).out ((gateway sampleEnv).run [sampleAsk]) sampleAskAgain) := by
  have hchange : ((gateway sampleEnv).run ([] ++ [sampleAsk])).db ≠
      ((gateway sampleEnv).run []).db := by
    intro h
    exact absurd (congrArg (fun db : Db => db.roomRequests.rows.length) h) (by decide +kernel)
  obtain ⟨events, hstored, -, hanswer⟩ := call_executes_once sampleEnv [] [] sampleAsk
    sampleAskAgain 1 5 _ _ rfl hchange rfl
  exact ⟨events, hstored, (if_pos rfl).mp (hanswer trivial)⟩

end RoomGateway
