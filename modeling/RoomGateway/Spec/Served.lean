import RoomGateway.Spec.Endings

/-!
What is stored can be shown. The tasks, their updates and the conversations are
written under the schemas of turns, updates and results, and read back under
those of views and inputs; whatever the writers leave, the readers accept.
-/

namespace RoomGateway

open Table Schema

variable {env : Env} {formats : Formats}

/-- Everything that is stored of conversations can be shown. -/
structure Servable (formats : Formats) (db : Db) : Prop where
  tasks : ∀ t ∈ db.conversationTasks.rows, TaskServable formats t
  updates : ∀ u ∈ db.conversationUpdates.rows, Fits (updateDataOf formats u.kind) u.data
  conversations : ∀ c ∈ db.agentConversations.rows,
    Fits (nullable selectedSettingsSchema) c.selectedSettings

/-! ### Failures -/

theorem code_mem_errorCodes (error : ConversationError) : error.code ∈ errorCodes := by
  cases error <;> simp [ConversationError.code, errorCodes]

theorem code_length (error : ConversationError) : error.code.length ≤ 512 := by
  cases error <;> decide

theorem fits_failedData (error : ConversationError) :
    Fits failedDataSchema (.obj [("code", error.code)]) :=
  ⟨by simp [failedDataSchema, record, code_mem_errorCodes], by simp⟩

theorem fits_turnFailure (error : ConversationError) :
    Fits turnFailureSchema (.obj [("code", error.code), ("message", error.code)]) :=
  ⟨by simp [turnFailureSchema, record, code_mem_errorCodes, code_length], by simp⟩

/-! ### Tasks -/

section Tasks

variable {t : ConversationTask}

theorem TaskServable.claimed (h : TaskServable formats t) (hlive : t.state.live = true)
    (owner : String) (token : Uuid) (expiry txNow : Time) :
    TaskServable formats (claimedTask t owner token expiry txNow) := by
  refine ⟨h.agent, h.selected, h.effective, h.usage, ?_, h.frozen⟩
  cases h.outcome with
  | underWay _ result reply failure => exact .underWay rfl result reply failure
  | completed state =>
      rw [state] at hlive
      cases hlive
  | failed state =>
      rw [state] at hlive
      cases hlive

theorem Outcome.underWay_of_live (h : Outcome formats t) (hlive : t.state.live = true) :
    t.result = none ∧ t.replyEventId = none ∧ t.failure = none := by
  cases h with
  | underWay _ result reply failure => exact ⟨result, reply, failure⟩
  | completed state =>
      rw [state] at hlive
      cases hlive
  | failed state =>
      rw [state] at hlive
      cases hlive

/-- Failing a task, whether it was under way or had ended. -/
theorem TaskServable.ended (h : TaskServable formats t) (error : ConversationError) (txNow : Time)
    (ordinal : Int) :
    TaskServable formats { endedTask error txNow t with lastUpdateOrdinal := ordinal } := by
  cases hlive : t.state.live with
  | true =>
      obtain ⟨result, reply, -⟩ := h.outcome.underWay_of_live hlive
      rw [endedTask, if_pos hlive]
      exact ⟨h.agent, h.selected, h.effective, h.usage,
        .failed rfl result reply rfl (fits_turnFailure error), h.frozen⟩
  | false =>
      rw [endedTask_of_ended hlive]
      refine ⟨h.agent, h.selected, h.effective, h.usage, ?_, h.frozen⟩
      cases h.outcome with
      | underWay live result reply failure => exact .underWay live result reply failure
      | completed state result fits reply failure =>
          exact .completed state result fits reply failure
      | failed state result reply failure fits => exact .failed state result reply failure fits

theorem fits_of_nullable {schema : Schema} {value x : Json} (h : Fits (nullable schema) value)
    (hx : optionalJson value = some x) : Fits schema x := by
  unfold optionalJson at hx
  split_ifs at hx with hnull
  cases hx
  refine ⟨?_, h.safe⟩
  have hvalid := h.valid
  simpa [nullable, any, null, hnull] using hvalid

theorem TaskServable.completed (h : TaskServable formats t) {data : Json}
    (hdata : Fits (replySchema formats) data) (env : Env) (reply : RoomEvent) (text : String)
    (now : Time) (ordinal : Int) (hfailure : t.failure = none) :
    TaskServable formats
      { completedTask env t data reply text now with lastUpdateOrdinal := ordinal } := by
  refine ⟨h.agent, h.selected, fun x hx => ?_, fun x hx => ?_,
    .completed rfl rfl hdata rfl hfailure, h.frozen⟩
  · have heffective : Fits (nullable effectiveSettingsSchema) data["effectiveSettings"] :=
      Fits.field hdata (by simp) (by simp)
    exact fits_of_nullable heffective hx
  · have husage : Fits (nullable (usageSchema formats)) data["usage"] :=
      Fits.field hdata (by simp) (by simp)
    exact fits_of_nullable husage hx

theorem TaskServable.noted (h : TaskServable formats t) {kind : UpdateKind} {data : Json}
    {effectiveSettings usage : Option Json}
    (hmetadata : NotedMetadata t kind data effectiveSettings usage)
    (hdata : Fits (updateDataOf formats kind) data) (updatedAt : Time)
    (lastProgressAt : Option Time) (ordinal : Int) :
    TaskServable formats
      { notedTask t effectiveSettings usage updatedAt lastProgressAt with
        lastUpdateOrdinal := ordinal } := by
  refine ⟨h.agent, h.selected, fun x hx => ?_, fun x hx => ?_, ?_, h.frozen⟩
  · rcases hmetadata.settings with heq | ⟨rfl, heq⟩
    · exact h.effective x (heq ▸ hx)
    · cases heq.symm.trans hx
      exact hdata
  · rcases hmetadata.usage with heq | ⟨rfl, heq⟩
    · exact h.usage x (heq ▸ hx)
    · cases heq.symm.trans hx
      exact hdata
  · cases h.outcome with
    | underWay live result reply failure => exact .underWay live result reply failure
    | completed state result fits reply failure =>
        exact .completed state result fits reply failure
    | failed state result reply failure fits => exact .failed state result reply failure fits

end Tasks

/-! ### Steps -/

section Steps

variable {db db' : Db} {t t' : ConversationTask} {c c' : AgentConversation}

/-- A task and its conversation are rewritten, and updates are added. -/
theorem Servable.change (h : Servable formats db) (hchange : TurnChange db db' t t' c c')
    (htask : TaskServable formats t') (hsettings : c'.selectedSettings = c.selectedSettings)
    (hupdates : ∀ u ∈ db'.conversationUpdates.rows, u ∈ db.conversationUpdates.rows ∨
      Fits (updateDataOf formats u.kind) u.data) : Servable formats db' := by
  refine ⟨fun x hx => ?_, fun u hu => ?_, fun y hy => ?_⟩
  · rcases hchange.mem_tasks.mp hx with rfl | ⟨hx, -⟩
    · exact htask
    · exact h.tasks x hx
  · exact (hupdates u hu).elim (h.updates u) id
  · rcases hchange.mem_conversations.mp hy with rfl | ⟨hy, -⟩
    · rw [hsettings]
      exact h.conversations c hchange.conversation
    · exact h.conversations y hy

theorem FailedTurn.servable {error : ConversationError} {txNow : Time} {updateId : Uuid}
    (hturn : FailedTurn db db' t c error txNow updateId) (h : Servable formats db) :
    Servable formats db' := by
  refine h.change hturn.change ((h.tasks t hturn.change.task).ended error txNow _) ?_ fun u hu => ?_
  · unfold releasedConversation
    split <;> rfl
  · rw [hturn.updates, List.mem_append, List.mem_singleton] at hu
    rcases hu with hu | rfl
    · exact .inl hu
    · exact .inr (fits_failedData error)

theorem NotedTurn.servable {lease updateId : Uuid} {ordinal : Int} {kind : UpdateKind}
    {request : Json} {now : Time}
    (hturn : NotedTurn (env.underProfile formats) db db' t c lease updateId ordinal
      kind request now)
    (h : Servable formats db) : Servable formats db' := by
  obtain ⟨name, hname, rfl⟩ := hturn.kind_eq
  have hdata := fits_updateData hturn.valid hname
  obtain ⟨_, _, updatedAt, lastProgressAt, hmetadata, hchange⟩ := hturn.noted
  refine h.change hchange ((h.tasks t hchange.task).noted hmetadata hdata updatedAt lastProgressAt
    ordinal) rfl fun u hu => ?_
  rcases hturn.updates with ⟨-, hrows⟩ | ⟨-, hrows⟩
  · exact .inl (hrows ▸ hu)
  · rw [hrows, List.mem_append, List.mem_singleton] at hu
    rcases hu with hu | rfl
    · exact .inl (List.mem_of_mem_filter hu)
    · exact .inr hdata

theorem CompletedTurn.servable {lease updateId : Uuid} {ordinal : Int} {request : Json}
    {now : Time} {eventId : Uuid} {reply : RoomEvent} {text : String}
    (hturn : CompletedTurn (env.underProfile formats) db db' t c lease updateId ordinal request now
      eventId reply text)
    (h : Servable formats db) : Servable formats db' := by
  have hdata : Fits (replySchema formats) request["data"] := fits_updateData hturn.valid hturn.kind
  have htask := h.tasks t hturn.change.task
  obtain ⟨-, -, hfailure⟩ := htask.outcome.underWay_of_live hturn.underWay.live
  refine h.change hturn.change (htask.completed hdata _ reply text now ordinal hfailure) rfl
    fun u hu => ?_
  rw [hturn.updates, List.mem_append, List.mem_singleton] at hu
  rcases hu with hu | rfl
  · exact .inl hu
  · exact .inr hdata

theorem ReportedFailure.servable {lease updateId : Uuid} {ordinal : Int} {request : Json}
    {txNow now : Time} {error : ConversationError}
    (hturn : ReportedFailure (env.underProfile formats) db db' t c lease updateId ordinal request
      txNow now error)
    (h : Servable formats db) : Servable formats db' := by
  have hdata : Fits failedDataSchema request["data"] := fits_updateData hturn.valid hturn.kind
  refine h.change hturn.change ((h.tasks t hturn.change.task).ended error txNow ordinal) ?_
    fun u hu => ?_
  · unfold releasedConversation
    split <;> rfl
  · rw [hturn.updates, List.mem_append, List.mem_singleton] at hu
    rcases hu with hu | rfl
    · exact .inl hu
    · exact .inr hdata

end Steps

section Reserved

variable {db db' : Db} {policy : ConversationPolicy} {actor : Actor} {turn : TurnRequest}
  {t : ConversationTask} {c : AgentConversation} {prompt : RoomEvent} {base : Int}
  {items : List ContextItem} {context : Json}

/-- What is accepted names settings that can be shown. -/
theorem ReservedTurn.fits_selected
    (r : ReservedTurn (env.underProfile formats) db db' policy actor turn t c prompt base items
      context) : Fits (nullable selectedSettingsSchema) t.selectedSettings := by
  obtain ⟨target, mode, -, -, -, haccepted⟩ := r.input
  obtain ⟨hvalid, hsafe⟩ := validateProfileValue_ok.mp r.acceptedValid
  have hsettings : t.acceptedTurn["selectedSettings"] = t.selectedSettings := by
    rw [haccepted]
    simp [acceptedTurn]
  rw [← hsettings]
  refine ⟨?_, safeNumbers_getElem hsafe _⟩
  obtain ⟨schema, hmem, hschema⟩ := exists_of_one (show one _ t.acceptedTurn = true from hvalid)
  simp only [List.mem_cons, List.not_mem_nil, or_false] at hmem
  rcases hmem with rfl | rfl
  · exact record_field hschema (by simp) (by simp)
  · rw [taskViewSchema, all_cons, Bool.and_eq_true] at hschema
    exact record_field hschema.1 (by simp) (by simp)

theorem ReservedTurn.taskServable
    (r : ReservedTurn (env.underProfile formats) db db' policy actor turn t c prompt base items
      context) : TaskServable formats t := by
  have hfrozen := validateProfileValue_ok.mp r.frozenValid
  have hselected := r.fits_selected
  obtain ⟨target, settings, frozen, accepted, ht⟩ := r.task
  refine ⟨by rw [ht]; rfl, hselected, fun x hx => ?_, fun x hx => ?_, ?_, hfrozen⟩
  · rw [ht] at hx
    cases hx
  · rw [ht] at hx
    cases hx
  · rw [ht]
    exact .underWay rfl rfl rfl rfl

/-- The settings of the conversations after a reservation. -/
theorem BoundConversation.selectedSettings {room taskId : Uuid} {settings : Json}
    {rows : List AgentConversation}
    (h : BoundConversation db policy room taskId base settings c rows) {y : AgentConversation}
    (hy : y ∈ rows) :
    y.selectedSettings = settings ∨
      ∃ x ∈ db.agentConversations.rows, y.selectedSettings = x.selectedSettings := by
  cases h with
  | @continued c₀ now current ready base_eq eq rows_eq =>
      obtain ⟨hc₀, -⟩ := currentConversation_some current
      rw [rows_eq, mem_put hc₀ (by simp)] at hy
      rcases hy with rfl | ⟨hy, -⟩
      · exact .inl (by rw [eq])
      · exact .inr ⟨y, hy, rfl⟩
  | @opened target now idle base_eq eq generation unused rows_eq =>
      rw [rows_eq, List.mem_append, List.mem_singleton] at hy
      rcases hy with hy | rfl
      · right
        cases hcurrent : currentConversation db room with
        | none =>
            rw [hcurrent] at hy
            exact ⟨y, hy, rfl⟩
        | some x =>
            obtain ⟨hx, -⟩ := currentConversation_some hcurrent
            rw [hcurrent, supersededRows, mem_put hx (by simp)] at hy
            rcases hy with rfl | ⟨hy, -⟩
            · exact ⟨x, hx, rfl⟩
            · exact ⟨y, hy, rfl⟩
      · exact .inl (by rw [eq, openedConversation])

theorem ReservedTurn.servable
    (r : ReservedTurn (env.underProfile formats) db db' policy actor turn t c prompt base items
      context) (h : Servable formats db) : Servable formats db' := by
  refine ⟨fun x hx => ?_, fun u hu => ?_, fun y hy => ?_⟩
  · rw [r.tasks, List.mem_append, List.mem_singleton] at hx
    rcases hx with hx | rfl
    · exact h.tasks x hx
    · exact r.taskServable
  · obtain ⟨_, _, _, _, rfl⟩ := r.frame
    exact h.updates u hu
  · rcases r.bound.selectedSettings hy with heq | ⟨x, hx, heq⟩
    · rw [heq]
      exact r.fits_selected
    · rw [heq]
      exact h.conversations x hx

end Reserved

theorem Effect.servable {stale update : Prop} {db db' : Db}
    (heffect : Effect (env.underProfile formats) stale update db db') (h : Servable formats db) :
    Servable formats db' := by
  cases heffect with
  | quiet hquiet =>
      exact ⟨hquiet.tasks ▸ h.tasks, hquiet.updates ▸ h.updates,
        hquiet.conversations ▸ h.conversations⟩
  | reserved r => exact r.servable h
  | claimed hturn =>
      have htask := h.tasks _ hturn.change.task
      refine h.change hturn.change (htask.claimed hturn.underWay.live ..) rfl fun u hu => ?_
      obtain ⟨_, _, rfl⟩ := hturn.frame
      exact .inl hu
  | completed _ hturn => exact hturn.servable h
  | reported _ hturn => exact hturn.servable h
  | noted _ hturn => exact hturn.servable h
  | failed _ hturn => exact hturn.servable h
  | staleFailed _ _ hturn => exact hturn.servable h

theorem gateway_servable (env : Env) (formats : Formats) (ops : List Op) :
    Servable formats ((gateway (env.underProfile formats)).run ops).db :=
  Machine.run_invariant (P := fun s : Sys => Servable formats s.db)
    ⟨by simp [gateway], by simp [gateway], by simp [gateway]⟩
    (fun s op h => (gateway_effect s op).servable h) ops

/-! ### Showing -/

/-- The instant is rendered in the format `date-time`, as those of four-digit
years are. -/
def Renderable (env : Env) (formats : Formats) (t : Time) : Prop :=
  instantSchema formats (env.time t) = true

instance (env : Env) (formats : Formats) (t : Time) : Decidable (Renderable env formats t) :=
  inferInstanceAs (Decidable (_ = true))

/-- Whatever is asked for can be shown: a task with all its updates, the
conversation of a room, and the packet of a task under a lease. -/
structure Served (env : Env) (formats : Formats) (db : Db) : Prop where
  task : ∀ policy : ConversationPolicy, policy.enabled = true → ∀ t ∈ db.conversationTasks.rows,
    (taskView env policy t.roomId t.taskId).runTx db =
      (.ok (taskViewValue env t (orderedUpdates db t.taskId)), db)
  conversation : ∀ policy : ConversationPolicy, policy.enabled = true → ∀ room,
    (conversationView env policy room codexAgentId).runTx db =
      (.ok (conversationViewValue db room codexAgentId), db)
  claimed : ∀ t ∈ db.conversationTasks.rows, ∀ owner expiry, shortText owner = true →
    Renderable env formats expiry →
      validateProfileValue env .input (leasedPacket env t (some owner) (some expiry)) = .ok ()
  packet : ∀ t ∈ db.conversationTasks.rows, t.leaseToken.isSome = true →
    (∀ expiry, t.leaseExpiresAt = some expiry → Renderable env formats expiry) →
      validateProfileValue env .input (leasedPacket env t t.leaseOwner t.leaseExpiresAt) = .ok ()

section Show

variable {db : Db} {policy : ConversationPolicy}

theorem requireEnabled_ok (h : policy.enabled = true) :
    requireEnabled policy codexAgentId = .ok () := by
  simp [requireEnabled, h]

theorem length_orderedUpdates (db : Db) (task : Uuid) :
    (orderedUpdates db task).length = (db.updatesOf task).length :=
  List.length_insertionSort _ _

theorem mem_orderedUpdates {task : Uuid} {u : ConversationUpdate}
    (h : u ∈ orderedUpdates db task) : u ∈ db.conversationUpdates.rows :=
  (List.mem_filter.mp ((List.mem_insertionSort _).mp h)).1

theorem find?_task {t : ConversationTask} (ht : t ∈ db.conversationTasks.rows)
    (hagent : t.agentId = codexAgentId) :
    (db.conversationTasks.rows.find? fun x => x.taskId = t.taskId && x.roomId = t.roomId &&
      x.agentId = codexAgentId) = some t := by
  refine find?_eq_some_of_unique ht (by simp [hagent]) fun x hx hcond => ?_
  simp only [Bool.and_eq_true, decide_eq_true_eq] at hcond
  exact Db.task_unique hx ht hcond.1.1

theorem taskView_ok (henabled : policy.enabled = true) {t : ConversationTask}
    (ht : t ∈ db.conversationTasks.rows) (hagent : t.agentId = codexAgentId)
    (hlength : (db.updatesOf t.taskId).length ≤ 256)
    (hvalid : validateProfileValue env .task
      (taskViewValue env t (orderedUpdates db t.taskId)) = .ok ()) :
    (taskView env policy t.roomId t.taskId).runTx db =
      (.ok (taskViewValue env t (orderedUpdates db t.taskId)), db) := by
  have hall : (orderedUpdates db t.taskId).take 256 = orderedUpdates db t.taskId :=
    List.take_of_length_le (length_orderedUpdates db t.taskId ▸ hlength)
  apply Prog.runTx_eq_of_commit
  simp only [taskView, Prog.exec_bind_ok, Prog.exec_ofExcept_ok, Prog.exec_query_ok,
    Prog.exec_orFail_ok, Prog.exec_pure_ok]
  exact ⟨(), db, ⟨requireEnabled_ok henabled, rfl⟩, some t, db, ⟨find?_task ht hagent, rfl⟩, t, db,
    ⟨rfl, rfl⟩, _, db, ⟨hall, rfl⟩, (), db, ⟨hvalid, rfl⟩, rfl, rfl⟩

theorem conversationView_ok (henabled : policy.enabled = true) {room : Uuid}
    (hvalid : validateProfileValue env .view
      (conversationViewValue db room codexAgentId) = .ok ()) :
    (conversationView env policy room codexAgentId).runTx db =
      (.ok (conversationViewValue db room codexAgentId), db) := by
  apply Prog.runTx_eq_of_rollback (t := db)
  simp only [conversationView, Prog.exec_bind_ok, Prog.exec_ofExcept_ok, Prog.exec_query_ok,
    Prog.exec_pure_ok]
  exact ⟨(), db, ⟨requireEnabled_ok henabled, rfl⟩, _, db, ⟨rfl, rfl⟩, (), db, ⟨hvalid, rfl⟩, rfl,
    rfl⟩

end Show

/-- A task that was claimed has an owner and an expiry. -/
theorem exists_lease {db : Db} {t : ConversationTask} (ht : t ∈ db.conversationTasks.rows)
    (hleased : t.leaseToken.isSome = true) : ∃ owner expiry, t.leaseOwner = some owner ∧
      shortText owner = true ∧ t.leaseExpiresAt = some expiry := by
  have hcheck := db.conversationTasks.checked t ht
  simp only [conversationTaskConstraints, Bool.and_eq_true, beq_iff_eq] at hcheck
  obtain ⟨⟨⟨⟨⟨⟨⟨⟨⟨-, howner⟩, -⟩, -⟩, -⟩, htoken⟩, hexpiry⟩, -⟩, -⟩, -⟩ := hcheck
  rw [hleased] at htoken
  obtain ⟨owner, hownerEq⟩ := Option.isSome_iff_exists.mp htoken
  rw [hownerEq] at hexpiry howner
  obtain ⟨expiry, hexpiryEq⟩ := Option.isSome_iff_exists.mp hexpiry.symm
  exact ⟨owner, expiry, hownerEq, shortText_of_ownerText howner, hexpiryEq⟩

theorem state_served (env : Env) (formats : Formats) (ops : List Op)
    (hinstants : ∀ u ∈ ((gateway (env.underProfile formats)).run ops).db.conversationUpdates.rows,
      Renderable env formats u.occurredAt) :
    Served (env.underProfile formats) formats
      ((gateway (env.underProfile formats)).run ops).db := by
  have hservable := gateway_servable env formats ops
  have hcount := retained_le env formats ops
  generalize ((gateway (env.underProfile formats)).run ops).db = db at hinstants hservable hcount ⊢
  have hlease : ∀ t ∈ db.conversationTasks.rows, ∀ owner expiry, shortText owner = true →
      Renderable env formats expiry → validateProfileValue (env.underProfile formats) .input
        (leasedPacket (env.underProfile formats) t (some owner) (some expiry)) = .ok () := by
    intro t ht owner expiry howner hexpiry
    refine validateProfileValue_ok.mpr ?_
    exact fits_leasedPacket (hservable.tasks t ht).frozen howner hexpiry
  refine ⟨fun policy henabled t ht => ?_, fun policy henabled room => ?_, hlease,
    fun t ht hleased hexpiry => ?_⟩
  · have htask := hservable.tasks t ht
    have hlength : (db.updatesOf t.taskId).length ≤ 256 := (hcount t.taskId).trans (by decide)
    have hgeneration : safeRange 1 t.generation = true := by
      have hcheck := db.conversationTasks.checked t ht
      simp only [conversationTaskConstraints, Bool.and_eq_true] at hcheck
      exact hcheck.1.1.1.1.1.1.1.1.1.1.1
    refine taskView_ok henabled ht htask.agent hlength (validateProfileValue_ok.mpr ?_)
    refine htask.fits_view hgeneration (fun u hu => ?_)
      (length_orderedUpdates db t.taskId ▸ hlength)
    have hmem := mem_orderedUpdates hu
    have hordinal : safeRange 1 u.ordinal = true := by
      have hcheck := db.conversationUpdates.checked u hmem
      simp only [conversationUpdateConstraints, Bool.and_eq_true] at hcheck
      exact hcheck.1
    exact ⟨hservable.updates u hmem, hinstants u hmem, hordinal⟩
  · refine conversationView_ok henabled (validateProfileValue_ok.mpr ?_)
    exact fits_conversationViewValue hservable.conversations hservable.tasks room codexAgentId
  · obtain ⟨owner, expiry, hownerEq, howner, hexpiryEq⟩ := exists_lease ht hleased
    rw [hownerEq, hexpiryEq]
    exact hlease t ht owner expiry howner (hexpiry expiry hexpiryEq)

/-- The worker of the sample turn reports that it accepted it. -/
def sampleProgress : Json :=
  .obj [("contextDigest", "70f4e256944e8050fd6f34256cfa7f86a8946271a505b8977668a6d452655020"),
    ("data", .obj [("phase", "accepted"), ("text", "on it")]), ("generation", (1 : Int)),
    ("kind", "progress"), ("ordinal", (1 : Int)), ("profileVersion", profileVersion),
    ("taskId", (21 : Uuid)), ("updateId", (50 : Uuid))]

def sampleProgressed : List Op :=
  sampleTurn ++ [.recordUpdate samplePolicy 21 30 sampleProgress (seconds 100)
    (fun _ => seconds 100) 60]

/-- The run evaluated: one update is retained, and its instant is rendered. -/
theorem sample_progressed_run :
    ((((gateway (sampleEnv.underProfile sampleFormats)).run sampleProgressed).db.updatesOf 21).map
        fun u => (u.kind, u.ordinal)) = [(.progress, 1)] ∧
      ∀ u ∈ ((gateway (sampleEnv.underProfile sampleFormats)).run
        sampleProgressed).db.conversationUpdates.rows,
        Renderable sampleEnv sampleFormats u.occurredAt := by
  decide +kernel

theorem state_served_sample :
    ((((gateway (sampleEnv.underProfile sampleFormats)).run sampleProgressed).db.updatesOf 21).map
        fun u => (u.kind, u.ordinal)) = [(.progress, 1)] ∧
      Served (sampleEnv.underProfile sampleFormats) sampleFormats
        ((gateway (sampleEnv.underProfile sampleFormats)).run sampleProgressed).db :=
  ⟨sample_progressed_run.1, state_served sampleEnv sampleFormats sampleProgressed
    sample_progressed_run.2⟩

end RoomGateway
