import RoomGateway.Lib.Interleave
import RoomGateway.Model.Reservation
import RoomGateway.Model.Rooms
import RoomGateway.Model.Turn
import RoomGateway.Spec.Record

/-!
The room log under concurrent transactions. Everything that appends an event
works in one room, whose lock it takes before it looks at the log (`InRoom`,
with one rule for each construct), so the statements of the six writers may
interleave in any way: the committed log is that of whole transactions, one
after the other.
-/

namespace RoomGateway

/-- The calls that append events. -/
inductive Writer where
  | appendEvent (eventId : Uuid) (event : NewEvent)
  | process (actor : Actor) (request : ValidatedRequest) (presence : List ParticipantPresence)
      (conversationsEnabled : Bool) (txNow : Time) (fresh : Nat → Uuid)
  | startAgentTask (requesterId : Uuid) (requesterDisplayName : String) (start : AgentTaskStart)
      (txNow : Time) (fresh : Nat → Uuid)
  | recordAgentTaskUpdate (lease : AgentTaskLease) (update : AgentTaskUpdate) (txNow now : Time)
      (fresh : Nat → Uuid)
  | reserve (policy : ConversationPolicy) (actor : Actor) (request : Json)
      (authorizationExpiresAt : Time) (catalog : Option CatalogQuery)
      (presence : Option (List ParticipantPresence)) (clock : Nat → Time) (fresh : Nat → Uuid)
  | recordUpdate (policy : ConversationPolicy) (task lease : Uuid) (request : Json)
      (txNow : Time) (clock : Nat → Time) (fresh : Uuid)

/-- The log of the rooms, numbered for each room under the room's lock. -/
def roomLog : Numbering Db LockKey RoomEvent Uuid where
  table db := db.roomEvents.rows
  key := RoomEvent.roomId
  num := RoomEvent.sequence
  lockOf := .room

/-- The transaction that a call runs. -/
def Writer.body (env : Env) : Writer → Prog Db LockKey Unit Bool
  | appendEvent eventId event => (RoomGateway.appendEvent env eventId event).committing
  | process actor request presence conversationsEnabled txNow fresh =>
      (RoomGateway.process env actor request presence conversationsEnabled txNow fresh).committing
  | startAgentTask requesterId requesterDisplayName start txNow fresh =>
      (RoomGateway.startAgentTask env requesterId requesterDisplayName start txNow
        fresh).committing
  | recordAgentTaskUpdate lease update txNow now fresh =>
      (recordAgentTaskUpdateWithOutcome env lease update txNow now fresh).committing
  | reserve policy actor request authorizationExpiresAt catalog presence clock fresh =>
      (reserveInner env policy actor request authorizationExpiresAt catalog presence clock
        fresh).committing
  | recordUpdate policy task lease request txNow clock fresh =>
      (RoomGateway.recordUpdate env policy task lease request txNow clock fresh).committing

/-- The writers side by side. -/
def writers (env : Env) :
    Machine (Concurrent Db LockKey RoomEvent Writer) (Act Db Writer)
      (Option (Writer × List RoomEvent)) :=
  interleave (Writer.body env) roomLog.table

/-- An event that asks for an agent's work names its own sequence as the
revision of the context. -/
def RoomEvent.datesItself (e : RoomEvent) : Prop :=
  e.eventType = .agentTaskRequested → e.payload["contextRevision"] = Json.ofInt e.sequence

/-! ### Working in a room -/

/-- The room's lock is held, and no other room's. -/
def OnlyRoom (room : Uuid) (held : List LockKey) : Prop :=
  ∀ r, LockKey.room r ∈ held ↔ r = room

/-- Under the lock of `room` the program keeps to the discipline of the log,
and so that every event it appends dates itself. -/
def InRoom {ε α : Type} (room : Uuid) (p : Tx ε α) : Prop :=
  ∀ held own, OnlyRoom room held → (∀ e ∈ own, e.datesItself) →
    roomLog.Appends p held own fun _ held' own' =>
      OnlyRoom room held' ∧ ∀ e ∈ own', e.datesItself

/-- The same for a program that takes the lock itself. -/
def Enters {ε α : Type} (room : Uuid) (p : Tx ε α) : Prop :=
  ∀ held own, (∀ r, LockKey.room r ∈ held → r = room) → (∀ e ∈ own, e.datesItself) →
    roomLog.Appends p held own fun _ held' own' =>
      OnlyRoom room held' ∧ ∀ e ∈ own', e.datesItself

section Rules

open RoomGateway.Numbering

variable {ε α β : Type} {env : Env} {room : Uuid}

theorem OnlyRoom.oneKey {held : List LockKey} (h : OnlyRoom room held) : roomLog.OneKey held := by
  intro k k' hk hk'
  rw [(h k).mp hk, (h k').mp hk']

theorem InRoom.bind {p : Tx ε α} {f : α → Tx ε β} (hp : InRoom room p)
    (hf : ∀ a, InRoom room (f a)) : InRoom room (p >>= f) := by
  intro held own hheld hown
  refine Appends.bind ((hp held own hheld hown).mono ?_)
  rintro a held own ⟨hheld, hown⟩
  exact hf a held own hheld hown

theorem InRoom.mapErr {ε' : Type} {g : ε → ε'} {p : Tx ε α} (hp : InRoom room p) :
    InRoom room (p.mapErr g) :=
  fun held own hheld hown => (hp held own hheld hown).mapErr

theorem InRoom.pure {a : α} : InRoom room (Pure.pure a : Tx ε α) :=
  fun _ _ hheld hown => Appends.pure ⟨hheld, hown⟩

theorem InRoom.fail {e : ε} : InRoom room (.fail e : Tx ε α) := fun _ _ _ _ => trivial

theorem InRoom.ensure {c : Bool} {e : ε} : InRoom room (.ensure c e : Tx ε Unit) :=
  fun _ _ hheld hown => Appends.ensure fun _ => ⟨hheld, hown⟩

theorem InRoom.orFail {o : Option α} {e : ε} : InRoom room (.orFail o e : Tx ε α) :=
  fun _ _ hheld hown => Appends.orFail fun _ _ => ⟨hheld, hown⟩

theorem InRoom.ofExcept {r : Except ε α} : InRoom room (.ofExcept r : Tx ε α) :=
  fun _ _ hheld hown => Appends.ofExcept fun _ _ => ⟨hheld, hown⟩

theorem InRoom.query {fault : ε} {read : Db → α} : InRoom room (.query fault read : Tx ε α) :=
  fun _ _ hheld hown => Appends.query fun _ => ⟨hheld, hown⟩

/-- A write to another table. -/
theorem InRoom.execute {fault : ε} {write : Db → Option Db}
    (h : ∀ {db db'}, write db = some db' → db'.roomEvents = db.roomEvents) :
    InRoom room (.execute fault write : Tx ε Unit) := by
  intro held own hheld hown
  refine Appends.execute (fun db db' hwrite => ?_) ⟨hheld, hown⟩
  exact congrArg Table.rows (h hwrite)

theorem InRoom.forEach {items : List β} {body : β → Tx ε Unit} (h : ∀ b, InRoom room (body b)) :
    InRoom room (.forEach items body) := by
  induction items with
  | nil => exact .pure
  | cons b items ih => exact .bind (h b) fun _ => ih

theorem Enters.lockRoom : Enters room (lockRoom room) := by
  intro held own hheld hown
  have honly : OnlyRoom room (.room room :: held) := by
    intro r
    rw [List.mem_cons, LockKey.room.injEq]
    exact ⟨fun h => h.elim id (hheld r), .inl⟩
  exact Appends.acquire honly.oneKey ⟨honly, hown⟩

theorem Enters.mapErr {ε' : Type} {g : ε → ε'} {p : Tx ε α} (hp : Enters room p) :
    Enters room (p.mapErr g) :=
  fun held own hheld hown => (hp held own hheld hown).mapErr

theorem Enters.bind {p : Tx ε α} {f : α → Tx ε β} (hp : Enters room p)
    (hf : ∀ a, InRoom room (f a)) : Enters room (p >>= f) := by
  intro held own hheld hown
  refine Appends.bind ((hp held own hheld hown).mono ?_)
  rintro a held own ⟨hheld, hown⟩
  exact hf a held own hheld hown

/-- The lock may be taken again. -/
theorem Enters.inRoom {p : Tx ε α} (hp : Enters room p) : InRoom room p :=
  fun held own hheld => hp held own fun r => (hheld r).mp

/-- A whole transaction: it enters its room, and what it commits dates itself. -/
theorem Enters.dated (r : Uuid) {p : Tx ε α} {held : List LockKey} (hp : Enters r p)
    (hheld : ∀ r, LockKey.room r ∉ held) :
    roomLog.Appends p held [] fun _ _ own => ∀ e ∈ own, e.datesItself :=
  (hp held [] (fun r hr => absurd hr (hheld r)) (by simp)).mono fun _ _ _ h => h.2

/-- The number that an event gets is the next one its statement finds. -/
theorem append_appends {eventId : Uuid} {event : NewEvent} {held : List LockKey}
    {own : List RoomEvent} {post : RoomEvent → List LockKey → List RoomEvent → Prop}
    (hheld : OnlyRoom event.roomId held)
    (h : ∀ n, post (event.row eventId n) held (own ++ [event.row eventId n])) :
    roomLog.Appends (appendEventInTransaction env eventId event) held own post := by
  refine Appends.bind (Appends.ensure fun _ => ?_)
  intro db db' hwrite
  obtain ⟨events, hrows, -, hfresh, rfl⟩ := Db.insertRoomEvent_some hwrite
  refine ⟨_, .entry hrows (fun hmem => ?_) ((hheld _).mpr rfl) rfl, h _⟩
  have := hfresh _ hmem
  simp [roomEventConstraints] at this

theorem InRoom.append {eventId : Uuid} {event : NewEvent} (hroom : event.roomId = room)
    (htype : event.eventType ≠ .agentTaskRequested) :
    InRoom room (appendEventInTransaction env eventId event) := by
  subst hroom
  intro held own hheld hown
  refine append_appends hheld fun n => ⟨hheld, fun e he => ?_⟩
  rcases List.mem_append.mp he with he | he
  · exact hown e he
  · rw [List.mem_singleton.mp he]
    exact fun hrequested => absurd hrequested htype

end Rules

/-! ### The writers -/

section Writers

open RoomGateway.Numbering

variable {env : Env} {room : Uuid} {fresh : Nat → Uuid} {policy : ConversationPolicy}
  {actor : Actor} {txNow : Time}

theorem priorRequest_inRoom {requestId : Uuid} : InRoom room (priorRequest room requestId) := by
  refine .bind .query fun record => ?_
  cases record with
  | none => exact .pure
  | some record => exact .bind .query fun _ => .pure

theorem recordRequest_inRoom {requestId : Uuid} {fingerprint : Json} {events : List RoomEvent} :
    InRoom room (recordRequest room requestId fingerprint events) :=
  .execute fun h => by
    obtain ⟨_, _, _, rfl⟩ := Db.insertRoomRequest_some h
    rfl

theorem sendMessage_inRoom {request : ChatSend} {presence : List ParticipantPresence}
    {conversationsEnabled : Bool} :
    InRoom request.roomId (sendMessage env actor request presence conversationsEnabled fresh) := by
  refine .bind .query fun _ => .bind .ofExcept fun _ => .bind (.mapErr (.append rfl nofun))
    fun message => ?_
  split_ifs
  · refine .bind (.mapErr (.append rfl nofun)) fun _ =>
      .bind (.mapErr (.append rfl nofun)) fun _ => .bind (.mapErr (.append rfl ?_)) fun _ => .pure
    -- the built-in task ends with its result or its failure
    cases extractActionItems request.text <;> nofun
  · exact .pure

theorem findDecision_inRoom {decisionId : Uuid} : InRoom room (findDecision decisionId room) :=
  .bind .query fun _ => .orFail

theorem proposeDecision_inRoom {request : DecisionPropose} :
    InRoom request.roomId (proposeDecision env actor request fresh) := by
  refine .bind (.execute fun h => ?_) fun _ => .bind (.mapErr (.append rfl nofun)) fun _ => .pure
  obtain ⟨_, _, _, rfl⟩ := Db.insertDecision_some h
  rfl

theorem deleteDecision_inRoom {request : DecisionDelete} :
    InRoom request.roomId (deleteDecision env actor request fresh) := by
  refine .bind findDecision_inRoom fun _ => .bind (.mapErr (.append rfl nofun)) fun _ =>
    .bind (.execute fun h => ?_) fun _ => .pure
  cases h
  rfl

theorem updateDecisions_inRoom {p : Decision → Bool} {f : Decision → Decision} :
    InRoom room (.execute .internalError (Db.updateDecisions p f) : Tx RpcError Unit) :=
  .execute fun h => by
    obtain ⟨_, _, rfl⟩ := Db.updateDecisions_some h
    rfl

theorem transitionDecision_inRoom {request : DecisionTransition} :
    InRoom request.roomId (transitionDecision env actor request fresh) := by
  refine .bind findDecision_inRoom fun row => .bind .ensure fun _ => ?_
  have hsettle : ∀ status eventType, eventType ≠ EventType.agentTaskRequested →
      InRoom request.roomId (settleDecision env actor request row status eventType fresh) :=
    fun _ _ htype => .bind updateDecisions_inRoom fun _ =>
      .bind (.mapErr (.append rfl htype)) fun _ => .pure
  cases request.action with
  | confirm => exact hsettle _ _ nofun
  | dismiss => exact hsettle _ _ nofun
  | edit =>
      refine .bind .orFail fun _ => .bind .orFail fun _ => .bind updateDecisions_inRoom fun _ =>
        .bind (.execute fun h => ?_) fun _ => .bind (.mapErr (.append rfl nofun)) fun _ =>
        .bind (.mapErr (.append rfl nofun)) fun _ => .pure
      obtain ⟨_, _, _, rfl⟩ := Db.insertDecision_some h
      rfl

/-- The revision is read before the event is appended; that nothing came in
between is checked, not assumed. -/
theorem startAgentTaskInTransaction_enters {requesterId : Uuid} {name : String}
    {start : AgentTaskStart} {record : Bool} :
    Enters start.roomId
      (startAgentTaskInTransaction env requesterId name start record txNow fresh) := by
  refine Enters.bind .lockRoom fun _ => .bind priorRequest_inRoom fun prior => ?_
  cases prior with
  | some prior =>
      exact .bind .ensure fun _ => .bind .query fun _ => .bind .orFail fun _ => .pure
  | none =>
      refine .bind .query fun contextRevision => ?_
      intro held own hheld hown
      refine Appends.bind (append_appends hheld fun n => ?_)
      refine Appends.bind (Appends.ensure fun hsame => ?_)
      refine InRoom.bind (.execute fun h => ?_) (fun _ => ?_) held _ hheld fun e he => ?_
      · obtain ⟨_, _, rfl⟩ := Db.insertAgentTask_some h
        rfl
      · cases record with
        | true => exact .bind recordRequest_inRoom fun _ => .pure
        | false => exact .pure
      · rcases List.mem_append.mp he with he | he
        · exact hown e he
        · rw [List.mem_singleton.mp he]
          intro _
          rw [of_decide_eq_true hsame]
          rfl

theorem process_dated {request : ValidatedRequest} {presence : List ParticipantPresence}
    {conversationsEnabled : Bool} :
    roomLog.Appends (process env actor request presence conversationsEnabled txNow fresh) [] []
      fun _ _ own => ∀ e ∈ own, e.datesItself := by
  refine Appends.bind (Appends.ensure fun _ => Appends.bind (Appends.orFail fun room hroom =>
    Appends.bind (Appends.orFail fun requestId _ => Enters.dated room ?_ (by simp))))
  refine Enters.bind (Enters.mapErr .lockRoom) fun _ => .bind (.mapErr priorRequest_inRoom)
    fun prior => ?_
  cases prior with
  | some prior => exact .bind .ensure fun _ => .pure
  | none =>
      refine .bind ?_ fun _ => .bind (.mapErr recordRequest_inRoom) fun _ => .pure
      cases request with
      | chatSend request =>
          cases hroom
          exact sendMessage_inRoom
      | decisionPropose request =>
          cases hroom
          exact proposeDecision_inRoom
      | decisionTransition request =>
          cases hroom
          exact transitionDecision_inRoom
      | decisionDelete request =>
          cases hroom
          exact deleteDecision_inRoom
      | agentTaskStart request =>
          cases hroom
          exact .bind (.mapErr startAgentTaskInTransaction_enters.inRoom) fun _ => .pure
      | join request => exact .fail
      | sessionAuthenticate request => exact .fail

/-! #### External agents -/

theorem recordAgentTaskUpdate_dated {lease : AgentTaskLease} {update : AgentTaskUpdate}
    {txNow now : Time} :
    roomLog.Appends (recordAgentTaskUpdateWithOutcome env lease update txNow now fresh) [] []
      fun _ _ own => ∀ e ∈ own, e.datesItself := by
  -- the row of the task is locked before its room
  refine Appends.bind (Appends.acquire (by simp [OneKey, roomLog]) ?_)
  refine Appends.bind (Appends.query fun _ => Appends.bind (Appends.orFail fun task _ =>
    Enters.dated task.roomId ?_ (by simp)))
  refine Enters.bind .lockRoom fun _ => .bind .ofExcept fun payload => .bind .query fun known => ?_
  cases known with
  | some known => exact .bind .query fun _ => .bind .ensure fun _ => .pure
  | none =>
      refine .bind .ensure fun _ => .bind .ofExcept fun _ => ?_
      cases hstate : stateForUpdate update.eventType with
      | error e => exact .fail
      | ok state =>
          refine .bind .pure fun _ => .bind (.append rfl ?_) fun event =>
            .bind (.execute fun h => ?_) fun _ => .bind (.execute fun h => ?_) fun _ => .pure
          · intro htype
            change update.eventType = _ at htype
            rw [htype] at hstate
            cases hstate
          · obtain ⟨_, _, rfl⟩ := Db.insertAgentTaskUpdate_some h
            rfl
          · obtain ⟨_, _, rfl⟩ := Db.updateAgentTasks_some h
            rfl

/-! #### Conversations -/

theorem updateConversationTasks_inRoom {p : ConversationTask → Bool}
    {f : ConversationTask → ConversationTask} :
    InRoom room (.execute .runtimeUnavailable (Db.updateConversationTasks p f) :
      Tx ConversationError Unit) :=
  .execute fun h => by
    obtain ⟨_, _, rfl⟩ := Db.updateConversationTasks_some h
    rfl

theorem updateAgentConversations_inRoom {p : AgentConversation → Bool}
    {f : AgentConversation → AgentConversation} :
    InRoom room (.execute .runtimeUnavailable (Db.updateAgentConversations p f) :
      Tx ConversationError Unit) :=
  .execute fun h => by
    obtain ⟨_, _, rfl⟩ := Db.updateAgentConversations_some h
    rfl

theorem insertConversationUpdate_inRoom {u : ConversationUpdate} :
    InRoom room (.execute .runtimeUnavailable (Db.insertConversationUpdate u) :
      Tx ConversationError Unit) :=
  .execute fun h => by
    obtain ⟨_, _, rfl⟩ := Db.insertConversationUpdate_some h
    rfl

theorem failTaskState_inRoom {row : TaskRow} {error : ConversationError} :
    InRoom room (failTaskState row error txNow) :=
  .bind updateConversationTasks_inRoom fun _ => updateAgentConversations_inRoom

theorem failTask_inRoom {row : TaskRow} {error : ConversationError} {updateId : Uuid}
    : InRoom room (failTask row error txNow updateId) :=
  .bind failTaskState_inRoom fun _ => .bind .ensure fun _ =>
    .bind insertConversationUpdate_inRoom fun _ => updateConversationTasks_inRoom

theorem validateCitations_inRoom {t : ConversationTask} {reply : Json}
    : InRoom room (validateCitations env policy t reply) :=
  .bind .orFail fun _ => .bind .orFail fun _ => .bind .ofExcept fun _ => .bind .query fun _ =>
    .forEach fun _ => .bind .orFail fun _ => .bind .ofExcept fun _ => .bind .query fun _ => .ensure

theorem disclose_inRoom {t : ConversationTask} {source : Json} :
    InRoom room (disclose policy room t source) :=
  .bind .ofExcept fun _ => .bind .orFail fun _ => .execute fun h => by
    obtain ⟨_, rfl⟩ := Db.discloseOnce_some h
    rfl

theorem completeTask_inRoom {t : ConversationTask} {data : Json} {now : Time} {eventId : Uuid} :
    InRoom room (completeTask env policy room t data now eventId) :=
  .bind .ofExcept fun _ => .bind .ensure fun _ => .bind .orFail fun _ => .bind .ensure fun _ =>
    .bind validateCitations_inRoom fun _ => .bind (.mapErr (.append rfl nofun)) fun _ =>
    .bind .ofExcept fun _ => .bind updateConversationTasks_inRoom fun _ =>
    .bind updateAgentConversations_inRoom fun _ => .bind .orFail fun _ =>
    .bind (.forEach fun _ => disclose_inRoom) fun _ => .pure

theorem applyUpdate_inRoom {row : TaskRow} {kind : UpdateKind} {data : Json} {txNow now : Time} :
    InRoom room (applyUpdate row kind data txNow now) := by
  cases kind with
  | failed => exact .bind .orFail fun _ => .bind .ofExcept fun _ => failTaskState_inRoom
  | settings => exact updateConversationTasks_inRoom
  | usage => exact updateConversationTasks_inRoom
  | progress => exact .pure
  | completed => exact .pure
  | other _ => exact .pure

theorem retainUpdate_inRoom {row : TaskRow} {u : ConversationUpdate} {now : Time} :
    InRoom room (retainUpdate env row u now) := by
  refine .bind .query fun folded => ?_
  cases folded with
  | true => exact .pure
  | false =>
      refine .bind (.execute fun h => ?_) fun _ => .bind insertConversationUpdate_inRoom fun _ => ?_
      · cases h
        rfl
      · split_ifs
        · exact updateConversationTasks_inRoom
        · exact .pure

theorem applyNewUpdate_inRoom {row : TaskRow} {lease updateId eventId : Uuid} {request : Json}
    {clock : Nat → Time} :
    InRoom room (applyNewUpdate env policy room row lease updateId request txNow
      clock eventId) := by
  refine .bind .orFail fun _ => .bind .ensure fun _ => .bind .orFail fun _ =>
    .bind .ensure fun _ => .bind .ofExcept fun _ => .bind ?_ fun _ =>
    .bind retainUpdate_inRoom fun _ => .bind updateConversationTasks_inRoom fun _ =>
    .bind (.execute fun h => ?_) fun _ => .bind .ofExcept fun _ => .pure
  · unfold performUpdate
    split_ifs
    · exact .bind completeTask_inRoom fun _ => .pure
    · exact .bind applyUpdate_inRoom fun _ => .pure
  · obtain ⟨_, _, _, rfl⟩ := Db.insertConversationUpdateRequest_some h
    rfl

theorem recordUpdate_dated {task lease eventId : Uuid} {request : Json} {clock : Nat → Time} :
    roomLog.Appends (recordUpdate env policy task lease request txNow clock eventId) [] []
      fun _ _ own => ∀ e ∈ own, e.datesItself := by
  refine Appends.bind (Appends.ofExcept fun _ _ => Appends.bind (Appends.ensure fun _ =>
    Appends.bind (Appends.query fun _ => Appends.bind (Appends.orFail fun found _ =>
    Enters.dated found.roomId ?_ (by simp)))))
  refine Enters.bind (Enters.mapErr .lockRoom) fun _ => .bind (.bind .query fun _ => .orFail)
    fun row => .bind .ofExcept fun _ => .bind .ensure fun _ => .bind .ensure fun _ =>
    .bind .ofExcept fun updateId => .bind .query fun prior => ?_
  cases prior with
  | some prior => exact .bind .ofExcept fun _ => .pure
  | none =>
      cases taskAuthority policy row (some lease) false (clock 4) with
      | ok _ => exact .bind applyNewUpdate_inRoom fun _ => .pure
      | error error =>
          change InRoom _ (if _ then _ else _)
          split_ifs
          · exact .bind failTask_inRoom fun _ => .pure
          · exact .fail

/-- A turn is admitted into its room. -/
theorem admitTurn_appends {request : Json} {authorizationExpiresAt : Time} {clock : Nat → Time} :
    roomLog.Appends (admitTurn env policy actor request authorizationExpiresAt clock) [] []
      fun turn held own => OnlyRoom turn.room held ∧ own = [] := by
  refine Appends.bind (Appends.ofExcept fun _ _ => Appends.bind (Appends.ensure fun _ =>
    Appends.bind (Appends.ofExcept fun _ _ => Appends.bind (Appends.ofExcept fun room _ =>
    Appends.bind (Appends.ofExcept fun _ _ => Appends.bind (Appends.mapErr
    (Appends.acquire ?_ (Appends.bind (Appends.ofExcept fun _ _ => Appends.pure ⟨?_, rfl⟩)))))))))
  · simp [OneKey, roomLog]
  · simp [OnlyRoom]

theorem validateConversationMentions_inRoom {mentions : Json}
    {presence : List ParticipantPresence} :
    InRoom room (validateConversationMentions env room mentions presence) := by
  refine .bind .orFail fun _ => ?_
  split_ifs
  · exact .pure
  · exact .bind .query fun _ => .bind .ofExcept fun _ => .ofExcept

theorem chooseTarget_inRoom {turn : TurnRequest} :
    InRoom room (chooseTarget policy turn fresh) := by
  refine .bind .query fun _ => .bind .ensure fun _ => ?_
  dsimp only
  split_ifs
  · exact .bind .ofExcept fun _ => .pure
  · exact .bind .query fun _ => .bind .ensure fun _ => .pure

theorem freezeContext_inRoom {conversation : Uuid} {generation base revision : Int} :
    InRoom room (freezeContext env room conversation generation base revision policy) :=
  .bind .query fun _ => .bind .ensure fun _ => .bind .ensure fun _ => .bind .query fun _ =>
    .bind .ofExcept fun _ => .bind .query fun _ => .bind .ensure fun _ =>
      .bind .query fun _ => .pure

theorem buildContext_inRoom {conversation trigger : Uuid} {generation base : Int} :
    InRoom room (buildContext env room conversation generation base trigger policy) :=
  .bind (Enters.lockRoom.mapErr.inRoom) fun _ => .bind .query fun _ => .bind .orFail fun _ =>
    .bind .ensure fun _ => .bind freezeContext_inRoom fun _ => .bind .ofExcept fun _ =>
    .bind .ensure fun _ => .pure

theorem freezeTurn_inRoom {turn : TurnRequest} {taskId : Uuid} {target : TurnTarget} {mode : String}
    {settings : Json} :
    InRoom turn.room (freezeTurn env policy actor turn taskId target mode settings fresh) :=
  .bind .orFail fun _ => .bind (.mapErr (.append rfl nofun)) fun _ => .bind .ensure fun _ =>
    .bind buildContext_inRoom fun _ => .bind .ofExcept fun _ => .pure

theorem bindConversation_inRoom {taskId : Uuid} {target : TurnTarget} {mode : String}
    {current : Option AgentConversation} {settings : Json} {now : Time} :
    InRoom room (bindConversation policy room taskId target mode current settings now) := by
  unfold bindConversation
  split_ifs
  · refine .bind ?_ fun _ => .execute fun h => ?_
    · cases current with
      | none => exact .pure
      | some previous => exact updateAgentConversations_inRoom
    · obtain ⟨_, _, _, rfl⟩ := Db.insertAgentConversation_some h
      rfl
  · exact updateAgentConversations_inRoom

theorem recordTurn_inRoom {turn : TurnRequest} {taskId : Uuid} {target : TurnTarget} {mode : String}
    {current : Option AgentConversation} {prompt : RoomEvent}
    {settings context frozen accepted : Json} :
    InRoom turn.room (recordTurn policy actor turn taskId target mode current settings prompt
      context frozen accepted) :=
  .bind recordRequest_inRoom.mapErr fun _ => .bind bindConversation_inRoom fun _ =>
    .bind .ofExcept fun _ => .bind .orFail fun _ => .execute fun h => by
      obtain ⟨_, _, _, _, rfl⟩ := Db.insertConversationTask_some h
      rfl

theorem reserveInner_dated {request : Json} {authorizationExpiresAt : Time}
    {catalog : Option CatalogQuery} {presence : Option (List ParticipantPresence)}
    {clock : Nat → Time} :
    roomLog.Appends (reserveInner env policy actor request authorizationExpiresAt catalog presence
      clock fresh) [] [] fun _ _ own => ∀ e ∈ own, e.datesItself := by
  refine Appends.bind (admitTurn_appends.mono ?_)
  rintro turn held _ ⟨hheld, rfl⟩
  suffices hrest : InRoom turn.room _ from
    (hrest held [] hheld (by simp)).mono fun _ _ _ h => h.2
  refine .bind priorRequest_inRoom.mapErr fun prior => ?_
  cases prior with
  | some prior =>
      exact .bind (.bind .ensure fun _ => .bind .query fun _ => .bind .orFail fun _ => .pure)
        fun _ => .pure
  | none =>
      refine .bind ?_ fun _ => .bind chooseTarget_inRoom fun _ => .bind .ofExcept fun _ =>
        .bind freezeTurn_inRoom fun _ => .bind .ofExcept fun _ => .bind recordTurn_inRoom fun _ =>
        .bind .ofExcept fun _ => .pure
      cases presence with
      | none => exact .pure
      | some presence => exact validateConversationMentions_inRoom

end Writers

/-! ### Any interleaving -/

/-- What is known of the events that a call commits, beyond the discipline:
`append_event` takes its event from the caller, all others date themselves. -/
def Writer.Promises : Writer → List RoomEvent → Prop
  | appendEvent eventId event, events => ∀ e ∈ events, ∃ n, e = event.row eventId n
  | _, events => ∀ e ∈ events, e.datesItself

theorem committing_appends {ε α : Type} {p : Tx ε (Ending ε α)} {Q : List RoomEvent → Prop}
    (h : roomLog.Appends p [] [] fun _ _ own => Q own) :
    roomLog.Appends p.committing [] [] fun commits _ own => commits = true → Q own := by
  refine Numbering.Appends.bind (h.mapErr.mono fun ending _ _ hown => ?_)
  cases ending with
  | commit r => exact fun _ => hown
  | rollback a => exact fun _ => hown

theorem Writer.body_appends (env : Env) (w : Writer) :
    roomLog.Appends (w.body env) [] [] fun commits _ own => commits = true → w.Promises own := by
  cases w with
  | appendEvent eventId event =>
      refine committing_appends (Q := Writer.Promises (.appendEvent eventId event)) ?_
      refine Numbering.Appends.bind (Numbering.Appends.acquire ?_ ?_)
      · simp [Numbering.OneKey, roomLog]
      · refine Numbering.Appends.bind (append_appends (by simp [OnlyRoom]) fun n => ?_)
        simp only [List.nil_append]
        intro e he
        exact ⟨n, List.mem_singleton.mp he⟩
  | process => exact committing_appends process_dated
  | startAgentTask =>
      exact committing_appends
        ((startAgentTaskInTransaction_enters.bind fun _ => .pure).dated _ (by simp))
  | recordAgentTaskUpdate => exact committing_appends recordAgentTaskUpdate_dated
  | reserve => exact committing_appends reserveInner_dated
  | recordUpdate => exact committing_appends recordUpdate_dated

/-- The committed log is that of whole transactions, each with a block of
consecutive sequences of one room. -/
def writerBlocks (env : Env) (acts : List (Act Db Writer)) : List (Writer × List RoomEvent) :=
  (writers env).collect (fun c act => ((writers env).out c act).toList) (writers env).init acts

/-- However the statements of the writers interleave: each room's sequences
are 1, 2, 3 and so on, a transaction's events are consecutive in the order it
appended them, what is committed stays, and the requests for an agent's work
date themselves, unless they were handed in whole. -/
theorem writers_orderly (env : Env) (acts more : List (Act Db Writer)) :
    roomLog.Serial Writer.Promises ((writers env).run acts).committed (writerBlocks env acts) ∧
      ((writers env).run acts).committed <+: ((writers env).run (acts ++ more)).committed :=
  ⟨Numbering.interleave_serial (Writer.body_appends env) acts,
    Numbering.interleave_permanent (Writer.body_appends env) acts more⟩

/-- A request for an agent's work as a caller of `append_event` may write it,
with a revision of its own. -/
def sampleForeignRequest : NewEvent where
  roomId := 1
  requestId := 5
  eventType := .agentTaskRequested
  actorId := 7
  actorRole := .human
  actorDisplayName := some "Maya Chen"
  payload := .obj [("taskId", (20 : Uuid)), ("agentId", referenceAgentId),
    ("requesterId", (7 : Uuid)), ("skillId", "summarize-context"), ("contextRevision", (9 : Int))]
  occurredAt := 0

/-- It is committed under sequence 1 with the revision 9. -/
theorem append_event_undated :
    ((writers sampleEnv).run [.start (.appendEvent 30 sampleForeignRequest), .step 0 {},
        .step 0 {}, .step 0 {}]).committed = [sampleForeignRequest.row 30 1] ∧
      ¬ (sampleForeignRequest.row 30 1).datesItself := by
  constructor
  · decide +kernel
  · intro h
    exact absurd (h rfl) (by decide)

end RoomGateway
