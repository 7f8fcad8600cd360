import RoomGateway.Model.Reservation
import RoomGateway.Spec.Context
import RoomGateway.Spec.Turn

/-!
What a reservation does when it commits: the prompt is the next event of the
room, the request is in the ledger, and the room's conversation is reserved for
a new task, either the ready one again or a new generation.
-/

namespace RoomGateway

open Table

variable {env : Env} {db db' : Db} {target : TurnTarget} {c : AgentConversation} {settings : Json}
  {mode : String} {turn : TurnRequest} {room : Uuid} {policy : ConversationPolicy}

/-! ### Generations -/

theorem le_lastGeneration (hc : c ∈ db.agentConversations.rows) (hroom : c.roomId = room)
    (hagent : c.agentId = codexAgentId) : c.generation ≤ lastGeneration db room := by
  have hmem : c.generation ∈ (db.agentConversations.rows.filter fun c =>
      c.roomId = room && c.agentId = codexAgentId).map (·.generation) :=
    List.mem_map.mpr ⟨c, List.mem_filter.mpr ⟨hc, by simp [hroom, hagent]⟩, rfl⟩
  unfold lastGeneration
  cases hmax : ((db.agentConversations.rows.filter fun c =>
      c.roomId = room && c.agentId = codexAgentId).map (·.generation)).max? with
  | none =>
      rw [List.max?_eq_none_iff] at hmax
      rw [hmax] at hmem
      exact absurd hmem List.not_mem_nil
  | some m => exact (List.max?_eq_some_iff.mp hmax).2 _ hmem

theorem currentConversation_some (h : currentConversation db room = some c) :
    c ∈ db.agentConversations.rows ∧ c.roomId = room ∧ c.agentId = codexAgentId ∧
      c.state ≠ .superseded := by
  have hcond := List.find?_some h
  simp only [Bool.and_eq_true, decide_eq_true_eq] at hcond
  exact ⟨List.mem_of_find?_eq_some h, hcond.1.1, hcond.1.2, hcond.2⟩

theorem currentConversation_none (h : currentConversation db room = none)
    (hc : c ∈ db.agentConversations.rows) (hroom : c.roomId = room)
    (hagent : c.agentId = codexAgentId) : c.state = .superseded := by
  have := List.find?_eq_none.mp h c hc
  simpa [hroom, hagent] using this

/-! ### The parts that only read -/

theorem validateConversationMentions_ok {mentions : Json} {presence : List ParticipantPresence}
    {u : Unit}
    (h : (validateConversationMentions env room mentions presence).exec db = .ok (u, db')) :
    db = db' := by
  simp only [validateConversationMentions, Prog.exec_bind_ok, Prog.exec_orFail_ok,
    Prog.exec_ite] at h
  obtain ⟨_, _, ⟨-, rfl⟩, h⟩ := h
  split_ifs at h
  · exact (Prog.exec_pure_ok.mp h).2
  · simp only [Prog.exec_bind_ok, Prog.exec_query_ok, Prog.exec_ofExcept_ok] at h
    obtain ⟨_, _, ⟨-, rfl⟩, _, _, ⟨-, rfl⟩, -, rfl⟩ := h
    rfl

theorem checkTurnMentions_ok {presence : Option (List ParticipantPresence)} {u : Unit}
    (h : (checkTurnMentions env turn presence).exec db = .ok (u, db')) : db = db' := by
  cases presence with
  | none => exact (Prog.exec_pure_ok.mp h).2
  | some presence => exact validateConversationMentions_ok h

/-- What is known of a turn once it is admitted. -/
structure Admitted (env : Env) (policy : ConversationPolicy) (actor : Actor) (request : Json)
    (authorizationExpiresAt : Time) (clock : Nat → Time) (turn : TurnRequest) : Prop where
  human : actor.role = .human
  enabled : policy.enabled = true
  valid : validateTurnRequest env request = .ok turn.request
  room : uuidField turn.request "roomId" = .ok turn.room
  requestId : uuidField turn.request "requestId" = .ok turn.requestId
  now : turn.now = clock 1
  authorized : authorizeConversationTurn actor authorizationExpiresAt turn.now
    (turnMinimum policy) = .ok turn.authorizationExpiresAt

theorem authorizeConversationTurn_human {actor : Actor} {requested now minimum expiry : Time}
    (h : authorizeConversationTurn actor requested now minimum = .ok expiry) :
    actor.role = .human := by
  unfold authorizeConversationTurn at h
  split_ifs at h with hrole
  simpa using hrole

theorem admitTurn_ok {actor : Actor} {request : Json} {authorizationExpiresAt : Time}
    {clock : Nat → Time}
    (h : (admitTurn env policy actor request authorizationExpiresAt clock).exec db =
      .ok (turn, db')) :
    db = db' ∧ Admitted env policy actor request authorizationExpiresAt clock turn := by
  simp only [admitTurn, Prog.exec_bind_ok, Prog.exec_ofExcept_ok, Prog.exec_ensure_ok,
    Prog.exec_pure_ok] at h
  obtain ⟨_, _, ⟨hauth, rfl⟩, _, _, ⟨henabled, rfl⟩, request', _, ⟨hvalid, rfl⟩, room, _,
    ⟨hroom, rfl⟩, requestId, _, ⟨hrequest, rfl⟩, _, _, hlock, _, _, ⟨hagain, rfl⟩, rfl, rfl⟩ := h
  obtain rfl := lockRoom_ok hlock
  exact ⟨rfl, authorizeConversationTurn_human hauth, henabled, hvalid, hroom, hrequest, rfl, hagain⟩

/-! ### Where a turn runs -/

/-- The conversation a turn was given: the room's ready one, or the next
generation. -/
inductive Target (db : Db) (policy : ConversationPolicy) (room fresh : Uuid) (mode : String)
    (target : TurnTarget) (current : Option AgentConversation) : Prop where
  | continued {c : AgentConversation} (hmode : mode = "continue") (hcurrent : current = some c)
      (ready : c.state = .ready) (revision : c.policyRevision = policy.policyRevision)
      (eq : target = ⟨c.conversationId, c.generation, c.consumedRevision⟩)
  | opened (hmode : mode ≠ "continue") (idle : current.any (·.state.live) = false)
      (eq : target = ⟨fresh, lastGeneration db room + 1, 0⟩)

theorem Target.congr {db₁ db₂ : Db} {room fresh : Uuid} {current : Option AgentConversation}
    (h : Target db₁ policy room fresh mode target current)
    (heq : db₁.agentConversations = db₂.agentConversations) :
    Target db₂ policy room fresh mode target current := by
  have hlast : lastGeneration db₁ room = lastGeneration db₂ room := by
    simp only [lastGeneration, heq]
  cases h with
  | continued hmode hcurrent ready revision eq =>
      exact .continued hmode hcurrent ready revision eq
  | opened hmode idle eq => exact .opened hmode idle (hlast ▸ eq)

theorem continueTarget_ok {request : Json} {current : Option AgentConversation}
    (h : continueTarget policy request current = .ok target) :
    ∃ c, current = some c ∧ c.state = .ready ∧ c.policyRevision = policy.policyRevision ∧
      target = ⟨c.conversationId, c.generation, c.consumedRevision⟩ := by
  cases current with
  | none => simp [continueTarget] at h
  | some c =>
      simp only [continueTarget] at h
      split_ifs at h with hstale
      cases h
      simp only [Bool.or_eq_true, not_or, decide_eq_true_eq, not_not] at hstale
      exact ⟨c, rfl, hstale.1.1.1, hstale.1.1.2, rfl⟩

theorem chooseTarget_ok {fresh : Nat → Uuid} {current : Option AgentConversation}
    (h : (chooseTarget policy turn fresh).exec db = .ok ((mode, target, current), db')) :
    db = db' ∧ current = currentConversation db turn.room ∧
      mode = turnMode turn.request current ∧
      Target db policy turn.room (fresh 0) mode target current := by
  simp only [chooseTarget, Prog.exec_bind_ok, Prog.exec_query_ok, Prog.exec_ensure_ok,
    Prog.exec_ite] at h
  obtain ⟨_, _, ⟨rfl, rfl⟩, _, _, ⟨hidle, rfl⟩, h⟩ := h
  split_ifs at h with hmode
  · simp only [Prog.exec_bind_ok, Prog.exec_ofExcept_ok, Prog.exec_pure_ok, Prod.mk.injEq] at h
    obtain ⟨_, _, ⟨htarget, rfl⟩, ⟨rfl, rfl, rfl⟩, rfl⟩ := h
    obtain ⟨c, hc, hready, hrevision, rfl⟩ := continueTarget_ok htarget
    exact ⟨rfl, rfl, rfl, .continued hmode hc hready hrevision rfl⟩
  · simp only [Prog.exec_bind_ok, Prog.exec_query_ok, Prog.exec_ensure_ok, Prog.exec_pure_ok,
      Prod.mk.injEq] at h
    obtain ⟨_, _, ⟨rfl, rfl⟩, _, _, ⟨-, rfl⟩, ⟨rfl, rfl, rfl⟩, rfl⟩ := h
    exact ⟨rfl, rfl, rfl, .opened hmode (by simpa using hidle) rfl⟩

/-! ### The conversation of the turn -/

theorem Db.conversation_agent (hc : c ∈ db.agentConversations.rows) :
    c.agentId = codexAgentId := by
  have hcheck := db.agentConversations.checked c hc
  simp only [agentConversationConstraints, Bool.and_eq_true, decide_eq_true_eq] at hcheck
  exact hcheck.1.1.1.1.1.1

def supersededConversation (c : AgentConversation) (now : Time) : AgentConversation :=
  { c with state := .superseded, activeTaskId := none, updatedAt := pgTime now }

/-- The conversations with the current one, if any, superseded. -/
def supersededRows (current : Option AgentConversation) (now : Time)
    (rows : List AgentConversation) : List AgentConversation :=
  match current with
  | none => rows
  | some c => put (conversationIs c.conversationId) (supersededConversation c now) rows

theorem exists_supersededRows {now : Time} {x : AgentConversation}
    (hx : x ∈ db.agentConversations.rows) :
    ∃ y ∈ supersededRows (currentConversation db room) now db.agentConversations.rows,
      y.conversationId = x.conversationId := by
  cases hcurrent : currentConversation db room with
  | none => exact ⟨x, hx, rfl⟩
  | some c =>
      by_cases hid : x.conversationId = c.conversationId
      · refine ⟨supersededConversation c now, ?_, hid.symm⟩
        exact (mem_put (currentConversation_some hcurrent).1 (by simp)).mpr (.inl rfl)
      · refine ⟨x, ?_, rfl⟩
        exact (mem_put (currentConversation_some hcurrent).1 (by simp)).mpr
          (.inr ⟨hx, by simpa [conversationIs] using hid⟩)

/-- How the conversations change under a new turn; `c'` is the one that runs
it. -/
inductive BoundConversation (db : Db) (policy : ConversationPolicy) (room taskId : Uuid)
    (base : Int) (settings : Json) (c' : AgentConversation) (rows : List AgentConversation) :
    Prop where
  | continued {c now} (current : currentConversation db room = some c)
      (ready : c.state = .ready) (base_eq : base = c.consumedRevision)
      (eq : c' = { c with
        state := .reserved
        activeTaskId := some taskId
        selectedSettings := settings
        updatedAt := now })
      (rows_eq : rows = put (conversationIs c.conversationId) c' db.agentConversations.rows)
  | opened {target now}
      (idle : (currentConversation db room).any (·.state.live) = false) (base_eq : base = 0)
      (eq : c' = openedConversation policy room taskId target settings now)
      (generation : target.generation = lastGeneration db room + 1)
      (unused : ∀ x ∈ db.agentConversations.rows, x.conversationId ≠ c'.conversationId)
      (rows_eq : rows =
        supersededRows (currentConversation db room) now db.agentConversations.rows ++ [c'])

theorem BoundConversation.congr {db₁ db₂ : Db} {room taskId : Uuid} {base : Int}
    {c' : AgentConversation} {rows : List AgentConversation}
    (h : BoundConversation db₁ policy room taskId base settings c' rows)
    (heq : db₁.agentConversations = db₂.agentConversations) :
    BoundConversation db₂ policy room taskId base settings c' rows := by
  have hcurrent : currentConversation db₁ room = currentConversation db₂ room := by
    simp only [currentConversation, heq]
  have hlast : lastGeneration db₁ room = lastGeneration db₂ room := by
    simp only [lastGeneration, heq]
  cases h with
  | continued current ready base_eq eq rows_eq =>
      exact .continued (hcurrent ▸ current) ready base_eq eq (heq ▸ rows_eq)
  | opened idle base_eq eq generation unused rows_eq =>
      exact .opened (hcurrent ▸ idle) base_eq eq (hlast ▸ generation) (heq ▸ unused)
        (heq ▸ hcurrent ▸ rows_eq)

theorem supersedeConversation_ok {now : Time} {u : Unit}
    (h : (supersedeConversation (currentConversation db room) now).exec db = .ok (u, db')) :
    ∃ cs, cs.rows = supersededRows (currentConversation db room) now
        db.agentConversations.rows ∧ db' = { db with agentConversations := cs } := by
  cases hcurrent : currentConversation db room with
  | none =>
      rw [hcurrent] at h
      obtain ⟨-, rfl⟩ := Prog.exec_pure_ok.mp h
      exact ⟨db.agentConversations, rfl, rfl⟩
  | some c =>
      rw [hcurrent] at h
      obtain ⟨cs, hcs, rfl⟩ := Db.updateAgentConversations_some (Prog.exec_execute_ok.mp h)
      refine ⟨cs, ?_, rfl⟩
      rw [hcs, Db.alter_conversation (currentConversation_some hcurrent).1 (by simp)]
      simp [supersededRows, supersededConversation, alter]

/-- Binding a conversation, when the task that comes with it refers to one. -/
theorem bindConversation_ok {room taskId fresh : Uuid} {now : Time} {u : Unit}
    (htarget : Target db policy room fresh mode target (currentConversation db room))
    (h : (bindConversation policy room taskId target mode (currentConversation db room) settings
      now).exec db = .ok (u, db'))
    (hrefers : ∃ c ∈ db'.agentConversations.rows, c.conversationId = target.conversationId ∧
      c.roomId = room ∧ c.generation = target.generation) :
    ∃ cs c', db' = { db with agentConversations := cs } ∧
      c'.conversationId = target.conversationId ∧ c'.generation = target.generation ∧
      c'.roomId = room ∧
      BoundConversation db policy room taskId target.base settings c' cs.rows := by
  cases htarget with
  | @continued c hmode hcurrent hready _ htarget =>
      obtain ⟨hc, hroom, -, -⟩ := currentConversation_some hcurrent
      subst htarget
      rw [bindConversation, if_neg (by simp [hmode])] at h
      obtain ⟨cs, hcs, rfl⟩ := Db.updateAgentConversations_some (Prog.exec_execute_ok.mp h)
      refine ⟨cs, { c with
        state := .reserved
        activeTaskId := some taskId
        selectedSettings := settings
        updatedAt := pgTime now }, rfl, rfl, rfl, hroom,
        .continued hcurrent hready rfl rfl ?_⟩
      rw [hcs, Db.alter_conversation hc (by simp)]
      simp [alter]
  | opened hmode hidle htarget =>
      subst htarget
      by_cases hnew : mode = "new"
      · rw [bindConversation, if_pos hnew] at h
        simp only [Prog.exec_bind_ok, Prog.exec_execute_ok] at h
        obtain ⟨_, _, hsupersede, hinsert⟩ := h
        obtain ⟨cs1, hcs1, rfl⟩ := supersedeConversation_ok hsupersede
        obtain ⟨cs, hcs, hunused, rfl⟩ := Db.insertAgentConversation_some hinsert
        refine ⟨cs, openedConversation policy room taskId ⟨fresh, lastGeneration db room + 1, 0⟩
          settings now, rfl, rfl, rfl, rfl, .opened hidle rfl rfl rfl ?_ ?_⟩
        · intro x hx
          have hkept : ∃ y ∈ cs1.rows, y.conversationId = x.conversationId := by
            rw [hcs1]
            exact exists_supersededRows hx
          obtain ⟨y, hy, hid⟩ := hkept
          have := hunused y hy
          rw [← hid]
          simp only [agentConversationConstraints, Bool.or_eq_false_iff,
            decide_eq_false_iff_not] at this
          exact this.1
        · rw [hcs]
          exact congrArg (· ++ _) hcs1
      · -- an unknown mode opens no conversation, and its task has none to refer to
        exfalso
        rw [bindConversation, if_neg hnew] at h
        obtain ⟨cs, hcs, rfl⟩ := Db.updateAgentConversations_some (Prog.exec_execute_ok.mp h)
        obtain ⟨c, hc, -, hroom, hgeneration⟩ := hrefers
        change c ∈ cs.rows at hc
        rw [hcs, mem_map_alter] at hc
        obtain ⟨x, hx, -, rfl⟩ | ⟨hc, -⟩ := hc
        · have := le_lastGeneration hx hroom (Db.conversation_agent hx)
          simp only at hgeneration
          omega
        · have := le_lastGeneration hc hroom (Db.conversation_agent hc)
          simp only at hgeneration
          omega

/-! ### The whole reservation -/

/-- A committed reservation: `t` is the new task, `c` the conversation it runs
in and `prompt` the message it answers. -/
structure ReservedTurn (env : Env) (db db' : Db) (policy : ConversationPolicy) (actor : Actor)
    (turn : TurnRequest) (t : ConversationTask) (c : AgentConversation) (prompt : RoomEvent)
    (base : Int) (items : List ContextItem) (context : Json) : Prop where
  unrecorded : findRequest db turn.room turn.requestId = none
  appended : ∃ eventId occurredAt, Appended db
    (promptEvent actor turn.room turn.requestId turn.request occurredAt) eventId prompt
    db'.roomEvents
  checked : prompt.Checked env
  built : BuiltContext env { db with roomEvents := db'.roomEvents } turn.room t.conversationId
    t.generation base prompt.eventId policy prompt items context
  task : ∃ target settings frozen accepted, t = reservedTask policy actor turn t.taskId target
    settings context frozen accepted prompt.eventId prompt.sequence
  frozen : t.frozenInput["context"] = context
  frozenTask : t.frozenInput["taskId"] = Json.str t.taskId.text
  tasks : db'.conversationTasks.rows = db.conversationTasks.rows ++ [t]
  unused : ∀ x ∈ db.conversationTasks.rows, x.taskId ≠ t.taskId
  owns : ownsTask t c = true
  input : ∃ target mode, t.conversationId = target.conversationId ∧
    t.generation = target.generation ∧
    t.frozenInput = frozenInput env policy actor turn.room t.taskId target mode prompt.eventId
      context t.selectedSettings turn.now (turn.now + seconds policy.turnDeadlineSeconds)
      turn.authorizationExpiresAt ∧
    t.acceptedTurn = acceptedTurn turn.room t.taskId target prompt t.selectedSettings
  policy_eq : c.policyRevision = t.policyRevision
  continues : t.frozenInput["conversation"]["mode"] = Json.str "continue" →
    ∃ x, currentConversation db turn.room = some x ∧ x.conversationId = t.conversationId
  frozenValid : validateProfileValue env .reservedInput t.frozenInput = .ok ()
  acceptedValid : validateProfileValue env .task t.acceptedTurn = .ok ()
  bound : BoundConversation db policy turn.room t.taskId base t.selectedSettings c
    db'.agentConversations.rows
  ledger : db'.roomRequests.rows = db.roomRequests.rows ++
    [⟨turn.room, turn.requestId, turnFingerprint actor turn.request, [prompt.eventId]⟩]
  frame : ∃ es rs ts cs, db' = { db with
    roomEvents := es
    roomRequests := rs
    conversationTasks := ts
    agentConversations := cs }

theorem uuidField_acceptedTurn (room taskId : Uuid) (target : TurnTarget) (prompt : RoomEvent)
    (settings : Json) :
    uuidField (acceptedTurn room taskId target prompt settings) "triggerEventId" =
      .ok prompt.eventId := by
  simp [uuidField, acceptedTurn]

theorem acceptedTurn_revision {room taskId : Uuid} {prompt : RoomEvent} {revision : Int}
    (h : (acceptedTurn room taskId target prompt settings)["contextRevision"].asI64 =
      some revision) : revision = prompt.sequence := by
  have hfield : (acceptedTurn room taskId target prompt settings)["contextRevision"] =
      Json.ofInt prompt.sequence := by simp [acceptedTurn]
  rw [hfield] at h
  exact Json.eq_of_asI64_ofInt h

/-- The trigger of a fresh prompt is that prompt. -/
theorem trigger_eq_prompt {event : NewEvent} {eventId : Uuid} {prompt e : RoomEvent}
    {events : Table roomEventConstraints} (happended : Appended db event eventId prompt events)
    (hfound : events.rows.find? (isTrigger env room prompt.eventId) = some e) : e = prompt := by
  have hcond := List.find?_some hfound
  simp only [isTrigger, Bool.and_eq_true, decide_eq_true_eq] at hcond
  refine eq_of_clash (List.mem_of_find?_eq_some hfound) ?_ ?_ ?_
  · rw [happended.rows]
    simp
  · simp [roomEventConstraints, hcond.1.1.1.1.1]
  · simp [roomEventConstraints, hcond.1.1.1.1.1]

section Reserve

variable {actor : Actor} {request : Json}
  {authorizationExpiresAt : Time} {catalog : Option CatalogQuery}
  {presence : Option (List ParticipantPresence)} {clock : Nat → Time} {fresh : Nat → Uuid}

theorem freezeTurn_ok {taskId : Uuid} {prompt : RoomEvent} {context frozen : Json}
    (h : (freezeTurn env policy actor turn taskId target mode settings fresh).exec db =
      .ok ((prompt, context, frozen), db')) :
    ∃ es occurredAt items, turn.request["occurredAt"].asStr.bind env.parseRfc3339 =
        some occurredAt ∧
      isValidRoomEvent env (fresh 2)
        (promptEvent actor turn.room turn.requestId turn.request occurredAt) = true ∧
      Appended db (promptEvent actor turn.room turn.requestId turn.request occurredAt) (fresh 2)
        prompt es ∧
      asUnsigned prompt.sequence ≤ maxSafeInteger ∧ db' = { db with roomEvents := es } ∧
      BuiltContext env db' turn.room target.conversationId target.generation target.base
        prompt.eventId policy prompt items context ∧
      frozen = frozenInput env policy actor turn.room taskId target mode prompt.eventId context
        settings turn.now (turn.now + seconds policy.turnDeadlineSeconds)
        turn.authorizationExpiresAt ∧
      validateProfileValue env .reservedInput frozen = .ok () := by
  simp only [freezeTurn, Prog.exec_bind_ok, Prog.exec_orFail_ok, Prog.exec_mapErr_ok,
    Prog.exec_ensure_ok, Prog.exec_ofExcept_ok, Prog.exec_pure_ok, Prod.mk.injEq] at h
  obtain ⟨occurredAt, _, ⟨hread, rfl⟩, _, _, happend, _, _, ⟨hsafe, rfl⟩, _, _, hbuild, _, _,
    ⟨hvalid, rfl⟩, ⟨rfl, rfl, rfl⟩, rfl⟩ := h
  obtain ⟨es, happended, hprompt, rfl⟩ := appendEventInTransaction_ok happend
  obtain ⟨rfl, event, items, hbuilt⟩ := buildContext_ok hbuild
  obtain rfl := trigger_eq_prompt happended hbuilt.found
  exact ⟨es, occurredAt, items, hread, hprompt, happended, by simpa using hsafe, rfl, hbuilt, rfl,
    hvalid⟩

theorem recordTurn_ok {taskId id : Uuid} {prompt : RoomEvent} {context frozen : Json} {u : Unit}
    (htarget : Target db policy turn.room id mode target (currentConversation db turn.room))
    (h : (recordTurn policy actor turn taskId target mode (currentConversation db turn.room)
      settings prompt context frozen
      (acceptedTurn turn.room taskId target prompt settings)).exec db = .ok (u, db')) :
    ∃ rs ts cs c, db' = { db with
        roomRequests := rs
        conversationTasks := ts
        agentConversations := cs } ∧
      rs.rows = db.roomRequests.rows ++
        [⟨turn.room, turn.requestId, turnFingerprint actor turn.request, [prompt.eventId]⟩] ∧
      ts.rows = db.conversationTasks.rows ++ [reservedTask policy actor turn taskId target
        settings context frozen (acceptedTurn turn.room taskId target prompt settings)
        prompt.eventId prompt.sequence] ∧
      (∀ x ∈ db.conversationTasks.rows, x.taskId ≠ taskId) ∧
      c.conversationId = target.conversationId ∧ c.generation = target.generation ∧
      c.roomId = turn.room ∧
      BoundConversation db policy turn.room taskId target.base settings c cs.rows := by
  simp only [recordTurn, Prog.exec_bind_ok, Prog.exec_ofExcept_ok, Prog.exec_orFail_ok,
    Prog.exec_execute_ok] at h
  obtain ⟨_, _, hledger, _, db2, hbind, trigger, _, ⟨htrigger, rfl⟩, revision, _,
    ⟨hrevision, rfl⟩, hinsert⟩ := h
  obtain ⟨-, rs, hrs, rfl⟩ := recordRequest_ok (Prog.exec_mapErr_ok.mp hledger)
  obtain rfl := Except.ok.inj ((uuidField_acceptedTurn ..).symm.trans htrigger)
  obtain rfl := acceptedTurn_revision hrevision
  obtain ⟨ts, hts, hrefers, hunused, rfl⟩ := Db.insertConversationTask_some hinsert
  have hrefers : ∃ c ∈ db2.agentConversations.rows, c.conversationId = target.conversationId ∧
      c.roomId = turn.room ∧ c.generation = target.generation := by
    simp only [Db.taskReferences, Bool.and_eq_true, List.any_eq_true, decide_eq_true_eq] at hrefers
    obtain ⟨c, hc, hid⟩ := hrefers.1.2
    exact ⟨c, hc, hid.1.1.1, hid.1.1.2, hid.2⟩
  have htarget : Target { db with roomRequests := rs } policy turn.room id mode target
      (currentConversation db turn.room) := htarget.congr rfl
  obtain ⟨cs, c, rfl, hid, hgeneration, hroom, hbound⟩ :=
    bindConversation_ok htarget hbind hrefers
  refine ⟨rs, ts, cs, c, rfl, hrs, hts, ?_, hid, hgeneration, hroom, hbound.congr rfl⟩
  intro x hx
  have := hunused x hx
  simp only [conversationTaskConstraints, Bool.or_eq_false_iff, decide_eq_false_iff_not] at this
  exact this.1

/-- How a turn that runs in `c` came by its settings: a turn continues the room's
conversation or opens one, and only the former carries settings over. -/
structure Resolved (env : Env) (db : Db) (policy : ConversationPolicy) (turn : TurnRequest)
    (catalog : Option CatalogQuery) (c : AgentConversation) (settings : Json) : Prop where
  settings : turnSettings env policy turn.request
    (turnMode turn.request (currentConversation db turn.room)) (currentConversation db turn.room)
    catalog = .ok settings
  continued : turnMode turn.request (currentConversation db turn.room) = "continue" →
    ∃ x, currentConversation db turn.room = some x ∧ x.conversationId = c.conversationId
  opened : turnMode turn.request (currentConversation db turn.room) ≠ "continue" →
    ∀ x ∈ db.agentConversations.rows, x.conversationId ≠ c.conversationId

/-- The conversation that was bound is the one that was chosen. -/
theorem Target.bound_cases {room fresh taskId : Uuid} {base : Int} {rows : List AgentConversation}
    (h : Target db policy room fresh mode target (currentConversation db room))
    (hid : c.conversationId = target.conversationId)
    (hgeneration : c.generation = target.generation)
    (hbound : BoundConversation db policy room taskId base settings c rows) :
    (mode = "continue" ∧ ∃ x, currentConversation db room = some x ∧
        x.conversationId = c.conversationId) ∨
      (mode ≠ "continue" ∧ ∀ x ∈ db.agentConversations.rows,
        x.conversationId ≠ c.conversationId) := by
  cases h with
  | continued hmode hcurrent _ _ eq =>
      rw [eq] at hid
      exact .inl ⟨hmode, _, hcurrent, hid.symm⟩
  | opened hmode idle eq =>
      cases hbound with
      | continued current _ _ heq _ =>
          -- a continued conversation has no new generation
          obtain ⟨hx, hroom, hagent, -⟩ := currentConversation_some current
          have hle := le_lastGeneration hx hroom hagent
          rw [heq, eq] at hgeneration
          simp only at hgeneration
          omega
      | opened _ _ _ _ unused _ => exact .inr ⟨hmode, unused⟩

/-- A conversation runs its turns under one policy revision. -/
theorem Target.bound_policy {room fresh taskId : Uuid} {base : Int} {rows : List AgentConversation}
    (h : Target db policy room fresh mode target (currentConversation db room))
    (hid : c.conversationId = target.conversationId)
    (hgeneration : c.generation = target.generation)
    (hbound : BoundConversation db policy room taskId base settings c rows) :
    c.policyRevision = policy.policyRevision := by
  have hcases := h.bound_cases hid hgeneration hbound
  cases hbound with
  | @continued x _ current _ _ eq _ =>
      have hx := (currentConversation_some current).1
      cases h with
      | continued _ hcurrent _ revision _ =>
          rw [eq, Option.some.inj (current.symm.trans hcurrent)]
          exact revision
      | opened hmode =>
          have hunused := (hcases.resolve_left fun hcontinue => hmode hcontinue.1).2 x hx
          rw [eq] at hunused
          exact absurd rfl hunused
  | opened _ _ eq _ _ _ => rw [eq, openedConversation]

theorem reserveInner_resolved {r : Except ConversationError ConversationReservation}
    (h : (reserveInner env policy actor request authorizationExpiresAt catalog presence clock
      fresh).exec db = .ok (.commit r, db')) :
    ∃ turn t c prompt base items context,
      Admitted env policy actor request authorizationExpiresAt clock turn ∧
      r = .ok ⟨t.acceptedTurn, some prompt⟩ ∧
      ReservedTurn env db db' policy actor turn t c prompt base items context ∧
      Resolved env db policy turn catalog c t.selectedSettings := by
  simp only [reserveInner, Prog.exec_bind_ok] at h
  obtain ⟨turn, _, hadmit, prior, _, hprior, h⟩ := h
  obtain ⟨rfl, hadmitted⟩ := admitTurn_ok hadmit
  obtain ⟨rfl, hrecord⟩ := priorRequest_ok (Prog.exec_mapErr_ok.mp hprior)
  cases prior with
  | some prior => simp [Prog.exec_bind_ok, Prog.exec_pure_ok] at h
  | none =>
      simp only [Prog.exec_bind_ok, Prog.exec_ofExcept_ok, Prog.exec_pure_ok] at h
      obtain ⟨_, _, hmentions, ⟨mode, target, current⟩, _, htarget, settings, _,
        ⟨hsettings, rfl⟩, ⟨prompt, context, frozen⟩, _, hfreeze, _, _, ⟨haccepted, rfl⟩, _, _,
        hturn, _, _, ⟨-, rfl⟩, hr, rfl⟩ := h
      obtain rfl := checkTurnMentions_ok hmentions
      obtain ⟨rfl, rfl, rfl, hchosen⟩ := chooseTarget_ok htarget
      obtain ⟨es, occurredAt, items, -, hprompt, happended, -, rfl, hbuilt, hfrozen, hvalid⟩ :=
        freezeTurn_ok hfreeze
      have htarget : Target { db with roomEvents := es } policy turn.room (fresh 0)
          (turnMode turn.request (currentConversation db turn.room)) target
          (currentConversation db turn.room) := hchosen.congr rfl
      obtain ⟨rs, ts, cs, c, rfl, hrs, hts, hunused, hid, hgeneration, hroom, hbound⟩ :=
        recordTurn_ok htarget hturn
      have hcases := hchosen.bound_cases hid hgeneration (hbound.congr rfl)
      have hagent : c.agentId = codexAgentId := by
        cases hbound with
        | continued current _ _ eq _ =>
            rw [eq]
            exact (currentConversation_some current).2.2.1
        | opened _ _ eq _ _ _ => rw [eq, openedConversation]
      refine ⟨turn, reservedTask policy actor turn (fresh 1) target settings context frozen
        (acceptedTurn turn.room (fresh 1) target prompt settings) prompt.eventId prompt.sequence,
        c, prompt, target.base, items, context, hadmitted, (Ending.commit.inj hr).symm, ?_,
        hsettings, fun hmode => ?_, fun hmode => ?_⟩
      · exact {
          unrecorded := Option.map_eq_none_iff.mp hrecord.symm
          appended := ⟨_, _, happended⟩
          checked := happended.checked hprompt
          built := hbuilt
          task := ⟨_, _, _, _, rfl⟩
          frozen := by simp [reservedTask, hfrozen, frozenInput]
          frozenTask := by simp [reservedTask, hfrozen, frozenInput]
          input := ⟨target, _, rfl, rfl, hfrozen, rfl⟩
          policy_eq := hchosen.bound_policy hid hgeneration (hbound.congr rfl)
          continues := by
            intro hmode
            simp only [reservedTask, hfrozen, frozenInput] at hmode
            obtain ⟨x, hcurrent, hx⟩ := hcases.elim And.right fun hopened =>
              absurd (by simpa using hmode) hopened.1
            exact ⟨x, hcurrent, hx.trans hid⟩
          frozenValid := hvalid
          acceptedValid := haccepted
          tasks := hts
          unused := hunused
          owns := ownsTask_iff.mpr ⟨hid, hroom, hagent, hgeneration⟩
          bound := hbound.congr rfl
          ledger := hrs
          frame := ⟨_, _, _, _, rfl⟩ }
      · exact hcases.elim And.right fun hopened => absurd hmode hopened.1
      · exact hcases.elim (fun hcontinued => absurd hcontinued.1 hmode) And.right

theorem reserveInner_ok {r : Except ConversationError ConversationReservation}
    (h : (reserveInner env policy actor request authorizationExpiresAt catalog presence clock
      fresh).exec db = .ok (.commit r, db')) :
    ∃ turn t c prompt base items context,
      Admitted env policy actor request authorizationExpiresAt clock turn ∧
      r = .ok ⟨t.acceptedTurn, some prompt⟩ ∧
      ReservedTurn env db db' policy actor turn t c prompt base items context := by
  obtain ⟨turn, t, c, prompt, base, items, context, hadmitted, hr, hreserved, -⟩ :=
    reserveInner_resolved h
  exact ⟨turn, t, c, prompt, base, items, context, hadmitted, hr, hreserved⟩

end Reserve

end RoomGateway
