import RoomGateway.Spec.ProfileContract
import RoomGateway.Spec.Record
import RoomGateway.Spec.Refusals

/-!
What is retained of a worker's updates. Every update that is accepted keeps its
row in the ledger; of the updates themselves the first acceptance, the latest
other progress, the latest settings and the latest usage stay, each as it was
accepted, beside what ended the task.
-/

namespace RoomGateway

open Table

variable {env : Env} {db db' : Db}

/-! ### One task -/

def ConversationUpdateRequest.kind (r : ConversationUpdateRequest) : UpdateKind :=
  UpdateKind.ofStr (r.request["kind"].asStr.getD "")

def ConversationUpdateRequest.data (r : ConversationUpdateRequest) : Json := r.request["data"]

/-- The retained row is the accepted update. -/
structure RetainedAs (r : ConversationUpdateRequest) (u : ConversationUpdate) : Prop where
  taskId : u.taskId = r.taskId
  updateId : u.updateId = r.updateId
  ordinal : u.ordinal = r.ordinal
  kind : u.kind = r.kind
  data : u.data = r.data

/-- A failure that the gateway recorded itself. -/
def ConversationUpdate.ByGateway (u : ConversationUpdate) : Prop :=
  u.kind = .failed ∧ ∃ error : ConversationError, u.data = .obj [("code", error.code)]

def isAcceptance (kind : UpdateKind) (data : Json) : Bool :=
  kind = .progress && data["phase"] = Json.str "accepted"

def isOtherProgress (kind : UpdateKind) (data : Json) : Bool :=
  kind = .progress && data["phase"] ≠ Json.str "accepted"

/-- The latest accepted update of a kind. -/
def latestOf (kind : UpdateKind) (accepted : List ConversationUpdateRequest) :
    Option ConversationUpdateRequest :=
  accepted.reverse.find? (·.kind = kind)

/-- What is retained of a task's accepted updates, beside failures that were
recorded otherwise. -/
structure Projected (failures : List ConversationUpdate)
    (accepted : List ConversationUpdateRequest) (retained : List ConversationUpdate) : Prop where
  increasing : accepted.Pairwise fun r r' => r.ordinal < r'.ordinal
  faithful : ∀ u ∈ retained, (∃ r ∈ accepted, RetainedAs r u) ∨ (u ∈ failures ∧ u.ByGateway)
  acceptance : List.Forall₂ RetainedAs
    (accepted.find? fun r => isAcceptance r.kind r.data).toList
    (retained.filter fun u => isAcceptance u.kind u.data)
  progress : (retained.filter fun u => isOtherProgress u.kind u.data).length ≤ 1
  settings : List.Forall₂ RetainedAs (latestOf .settings accepted).toList
    (retained.filter (·.kind = .settings))
  usage : List.Forall₂ RetainedAs (latestOf .usage accepted).toList
    (retained.filter (·.kind = .usage))

/-- Progress names its phase. -/
def Phased (retained : List ConversationUpdate) : Prop :=
  ∀ u ∈ retained, u.kind = .progress → ∃ phase, u.data["phase"] = Json.str phase

theorem text_of_getElem {data : Json} {key s : String} (h : data[key] = Json.str s) :
    env.text data key = some s := by
  rw [Json.getElem_eq, Json.field] at h
  unfold Env.text
  cases hget : data.get? key with
  | none => simp [hget] at h
  | some value =>
      rw [hget, Option.getD_some] at h
      rw [h]

/-- Which rows make place for an update: those of its kind, but no acceptance. -/
theorem replaced_iff {task : Uuid} {kind : UpdateKind} {u : ConversationUpdate}
    (htask : u.taskId = task)
    (hphased : u.kind = .progress → ∃ phase, u.data["phase"] = Json.str phase) :
    replaced env task kind u = true ↔
      u.kind = kind ∧ (kind = .settings ∨ kind = .usage ∨
        isOtherProgress u.kind u.data = true) := by
  by_cases hkind : u.kind = kind
  · subst hkind
    cases hu : u.kind with
    | progress =>
        obtain ⟨phase, hphase⟩ := hphased hu
        simp [replaced, htask, hu, isOtherProgress, hphase, text_of_getElem hphase]
    | settings => simp [replaced, htask, hu]
    | usage => simp [replaced, htask, hu]
    | completed => simp [replaced, hu, isOtherProgress]
    | failed => simp [replaced, hu, isOtherProgress]
    | other name => simp [replaced, hu, isOtherProgress]
  · simp [replaced, hkind]

section Steps

variable {failures : List ConversationUpdate} {accepted : List ConversationUpdateRequest}
  {retained : List ConversationUpdate} {r : ConversationUpdateRequest} {u : ConversationUpdate}

theorem latestOf_append {kind : UpdateKind} :
    latestOf kind (accepted ++ [r]) = if r.kind = kind then some r else latestOf kind accepted := by
  rw [latestOf, List.reverse_append, List.reverse_singleton, List.singleton_append,
    List.find?_cons]
  split_ifs with hkind
  · simp [hkind]
  · simp [hkind, latestOf]

theorem Projected.mono (h : Projected failures accepted retained) (more : List ConversationUpdate) :
    Projected (failures ++ more) accepted retained :=
  { h with
    faithful := fun u hu => (h.faithful u hu).imp_right fun ⟨hmem, hgateway⟩ =>
      ⟨List.mem_append_left _ hmem, hgateway⟩ }

/-- The gateway ends the task by itself. -/
theorem Projected.failed (h : Projected failures accepted retained)
    (hfaithful : u ∈ retained ∨ u ∈ failures) (hu : u.ByGateway) :
    Projected failures accepted (retained ++ [u]) := by
  have hkind := hu.1
  refine ⟨h.increasing, fun v hv => ?_, ?_, ?_, ?_, ?_⟩
  · rcases List.mem_append.mp hv with hv | hv
    · exact h.faithful v hv
    · rw [List.mem_singleton] at hv
      subst hv
      exact hfaithful.elim (h.faithful v) fun hmem => .inr ⟨hmem, hu⟩
  · simpa [List.filter_append, isAcceptance, hkind] using h.acceptance
  · simpa [List.filter_append, isOtherProgress, hkind] using h.progress
  · simpa [List.filter_append, hkind] using h.settings
  · simpa [List.filter_append, hkind] using h.usage

theorem Projected.increasing_append (h : Projected failures accepted retained)
    (hlater : ∀ x ∈ accepted, x.ordinal < r.ordinal) :
    (accepted ++ [r]).Pairwise fun r r' => r.ordinal < r'.ordinal :=
  List.pairwise_append.mpr ⟨h.increasing, List.pairwise_singleton _ _, by simpa using hlater⟩

/-- An update is folded into what is retained. -/
theorem Projected.folded (h : Projected failures accepted retained)
    (hlater : ∀ x ∈ accepted, x.ordinal < r.ordinal) (hkind : r.kind = .progress)
    (hagain : isAcceptance r.kind r.data = true →
      ∃ v ∈ retained, isAcceptance v.kind v.data = true) :
    Projected failures (accepted ++ [r]) retained := by
  refine ⟨h.increasing_append hlater, fun v hv => ?_, ?_, h.progress, ?_, ?_⟩
  · rcases h.faithful v hv with ⟨x, hx, hretained⟩ | hgateway
    · exact .inl ⟨x, List.mem_append_left _ hx, hretained⟩
    · exact .inr hgateway
  · rw [List.find?_append]
    cases hfirst : accepted.find? fun r => isAcceptance r.kind r.data with
    | some first =>
        rw [Option.some_or, ← hfirst]
        exact h.acceptance
    | none =>
        -- no acceptance was retained, so the update is none
        have hnone := h.acceptance
        rw [hfirst, Option.toList_none, List.forall₂_nil_left_iff] at hnone
        have hnot : isAcceptance r.kind r.data = false := by
          rw [Bool.eq_false_iff]
          intro hacceptance
          obtain ⟨v, hv, hvacc⟩ := hagain hacceptance
          exact List.filter_eq_nil_iff.mp hnone v hv hvacc
        rw [Option.none_or, List.find?_singleton, hnot, hnone]
        exact .nil
  · rw [latestOf_append, if_neg (by simp [hkind])]
    exact h.settings
  · rw [latestOf_append, if_neg (by simp [hkind])]
    exact h.usage

/-- What is retained of a kind of which only the latest stays. -/
theorem forall₂_latest {kind : UpdateKind} {kept : List ConversationUpdate}
    (h : List.Forall₂ RetainedAs (latestOf kind accepted).toList (retained.filter (·.kind = kind)))
    (hr : RetainedAs r u) (hsame : r.kind = kind → kept.filter (·.kind = kind) = [])
    (hother : r.kind ≠ kind → kept.filter (·.kind = kind) = retained.filter (·.kind = kind)) :
    List.Forall₂ RetainedAs (latestOf kind (accepted ++ [r])).toList
      ((kept ++ [u]).filter (·.kind = kind)) := by
  rw [latestOf_append, List.filter_append]
  by_cases hkind : r.kind = kind
  · have hu : u.kind = kind := hr.kind.trans hkind
    rw [if_pos hkind, hsame hkind, List.nil_append, List.filter_singleton]
    simpa [hu] using hr
  · have hu : u.kind ≠ kind := fun hu => hkind (hr.kind.symm.trans hu)
    rw [if_neg hkind, hother hkind, List.filter_singleton]
    simpa [hu] using h

/-- The rows that an update replaces, by its kind. -/
structure Replaces (kind : UpdateKind) (retained kept : List ConversationUpdate) : Prop where
  sublist : kept.Sublist retained
  acceptance : (kept.filter fun u => isAcceptance u.kind u.data) =
    retained.filter fun u => isAcceptance u.kind u.data
  progress : kind = .progress → (kept.filter fun u => isOtherProgress u.kind u.data) = []
  latest : kind = .settings ∨ kind = .usage → kept.filter (·.kind = kind) = []
  others : ∀ other, other ≠ kind → kept.filter (·.kind = other) = retained.filter (·.kind = other)

theorem replaces_keptUpdates {task : Uuid} {kind : UpdateKind}
    (htask : ∀ u ∈ retained, u.taskId = task) (hphased : Phased retained) :
    Replaces kind retained (keptUpdates env task kind retained) := by
  have hreplaced : ∀ u ∈ retained, replaced env task kind u = true ↔ u.kind = kind ∧
      (kind = .settings ∨ kind = .usage ∨ isOtherProgress u.kind u.data = true) :=
    fun u hu => replaced_iff (htask u hu) (hphased u hu)
  refine ⟨List.filter_sublist, ?_, fun hkind => ?_, fun hkind => ?_, fun other hother => ?_⟩
  · rw [keptUpdates, List.filter_filter]
    refine List.filter_congr fun u hu => ?_
    rw [Bool.and_eq_left_iff_imp, Bool.not_eq_true', Bool.eq_false_iff]
    intro hacceptance hrep
    obtain ⟨hkind, hcases⟩ := (hreplaced u hu).mp hrep
    simp only [isAcceptance, Bool.and_eq_true, decide_eq_true_eq] at hacceptance
    rw [hacceptance.1] at hkind
    subst hkind
    simp [isOtherProgress, hacceptance.2] at hcases
  · rw [List.filter_eq_nil_iff]
    intro u hu hother
    obtain ⟨hmem, hkept⟩ := List.mem_filter.mp hu
    have hprogress : u.kind = .progress := by
      simp only [isOtherProgress, Bool.and_eq_true, decide_eq_true_eq] at hother
      exact hother.1
    rw [(hreplaced u hmem).mpr ⟨hprogress.trans hkind.symm, .inr (.inr hother)⟩] at hkept
    cases hkept
  · rw [List.filter_eq_nil_iff]
    intro u hu hsame
    obtain ⟨hmem, hkept⟩ := List.mem_filter.mp hu
    rw [(hreplaced u hmem).mpr ⟨by simpa using hsame, hkind.imp_right .inl⟩] at hkept
    cases hkept
  · rw [keptUpdates, List.filter_filter]
    refine List.filter_congr fun u hu => ?_
    rw [Bool.and_eq_left_iff_imp, Bool.not_eq_true', Bool.eq_false_iff]
    intro hkind hrep
    exact hother ((of_decide_eq_true hkind).symm.trans ((hreplaced u hu).mp hrep).1)

/-- An update takes the place of those it replaces. -/
theorem Projected.kept {kept : List ConversationUpdate}
    (h : Projected failures accepted retained)
    (hlater : ∀ x ∈ accepted, x.ordinal < r.ordinal) (hr : RetainedAs r u)
    (hkept : Replaces r.kind retained kept)
    (hfirst : isAcceptance r.kind r.data = true →
      ∀ v ∈ retained, isAcceptance v.kind v.data = false) :
    Projected failures (accepted ++ [r]) (kept ++ [u]) := by
  refine ⟨h.increasing_append hlater, fun v hv => ?_, ?_, ?_, ?_, ?_⟩
  · rcases List.mem_append.mp hv with hv | hv
    · rcases h.faithful v (hkept.sublist.subset hv) with ⟨x, hx, hretained⟩ | hgateway
      · exact .inl ⟨x, List.mem_append_left _ hx, hretained⟩
      · exact .inr hgateway
    · exact .inl ⟨r, List.mem_append_right _ (List.mem_singleton_self r),
        List.mem_singleton.mp hv ▸ hr⟩
  · rw [List.filter_append, hkept.acceptance, List.find?_append, List.filter_singleton,
      List.find?_singleton, hr.kind, hr.data]
    by_cases hacceptance : isAcceptance r.kind r.data = true
    · -- none is retained, so none was accepted before
      have hnone : (retained.filter fun u => isAcceptance u.kind u.data) = [] := by
        rw [List.filter_eq_nil_iff]
        intro v hv
        simp [hfirst hacceptance v hv]
      have hbefore := h.acceptance
      rw [hnone, List.forall₂_nil_right_iff, Option.toList_eq_nil_iff] at hbefore
      simpa [hbefore, hnone, hacceptance] using hr
    · simpa [hacceptance] using h.acceptance
  · rw [List.filter_append, List.length_append]
    by_cases hkind : r.kind = .progress
    · rw [hkept.progress hkind, List.length_nil, Nat.zero_add]
      exact List.length_filter_le _ _
    · have hu : isOtherProgress u.kind u.data = false := by
        simp [isOtherProgress, hr.kind, hkind]
      rw [List.filter_singleton, hu]
      exact (hkept.sublist.filter _).length_le.trans h.progress
  · exact forall₂_latest h.settings hr (fun hkind => hkind ▸ hkept.latest (.inl hkind))
      fun hkind => hkept.others _ (Ne.symm hkind)
  · exact forall₂_latest h.usage hr (fun hkind => hkind ▸ hkept.latest (.inr hkind))
      fun hkind => hkept.others _ (Ne.symm hkind)

end Steps

/-! ### The updates of a contract -/

/-- Progress that the contract admits names its phase. -/
theorem phase_of_update {formats : Formats} {request : Json}
    (hvalid : validateProfileValue (env.underProfile formats) .update request = .ok ())
    (hkind : request["kind"] = Json.str "progress") :
    ∃ phase, request["data"]["phase"] = Json.str phase := by
  have hprogress : Fits progressDataSchema request["data"] := fits_updateData hvalid hkind
  have hphase : Schema.enum ["accepted", "working", "finalizing"] request["data"]["phase"] = true :=
    Schema.record_field hprogress.valid (by simp) (by simp)
  obtain ⟨phase, -, hphase⟩ := Schema.eq_str_of_enum hphase
  exact ⟨phase, hphase⟩

/-! ### The database -/

def Db.requestsOf (db : Db) (task : Uuid) : List ConversationUpdateRequest :=
  db.conversationUpdateRequests.rows.filter (·.taskId = task)

/-- The ledger of accepted updates and what is retained of it. -/
structure Projection (db : Db) (failures : List ConversationUpdate) : Prop where
  named : ∀ r ∈ db.conversationUpdateRequests.rows,
    uuidField r.request "updateId" = .ok r.updateId ∧
    r.request["ordinal"].asI64 = some r.ordinal
  numbered : ∀ r ∈ db.conversationUpdateRequests.rows, ∃ t ∈ db.conversationTasks.rows,
    t.taskId = r.taskId ∧ r.ordinal ≤ t.lastUpdateOrdinal
  phased : Phased db.conversationUpdates.rows
  projected : ∀ task, Projected failures (db.requestsOf task) (db.updatesOf task)

/-- No task is lost and no task's ordinal goes back. -/
def OrdinalsKept (db db' : Db) : Prop := ∀ t ∈ db.conversationTasks.rows,
  ∃ t' ∈ db'.conversationTasks.rows, t'.taskId = t.taskId ∧
    t.lastUpdateOrdinal ≤ t'.lastUpdateOrdinal

section Database

variable {failures : List ConversationUpdate} {t t' : ConversationTask} {c c' : AgentConversation}
  {lease updateId : Uuid} {ordinal : Int} {kind : UpdateKind} {request response : Json}
  {now : Time}

theorem TurnChange.ordinalsKept (h : TurnChange db db' t t' c c') (hid : t'.taskId = t.taskId)
    (hordinal : t.lastUpdateOrdinal ≤ t'.lastUpdateOrdinal) : OrdinalsKept db db' := by
  intro x hx
  by_cases hsame : x.taskId = t.taskId
  · obtain rfl := Db.task_unique hx h.task hsame
    exact ⟨t', h.mem_tasks.mpr (.inl rfl), hid, hordinal⟩
  · exact ⟨x, h.mem_tasks.mpr (.inr ⟨hx, hsame⟩), rfl, le_refl _⟩

theorem Projection.mono (h : Projection db failures) (more : List ConversationUpdate) :
    Projection db (failures ++ more) :=
  { h with projected := fun task => (h.projected task).mono more }

theorem Projection.numbered_of_kept (h : Projection db failures) (htasks : OrdinalsKept db db') :
    ∀ r ∈ db.conversationUpdateRequests.rows, ∃ t ∈ db'.conversationTasks.rows,
      t.taskId = r.taskId ∧ r.ordinal ≤ t.lastUpdateOrdinal := by
  intro r hr
  obtain ⟨t, ht, hid, hle⟩ := h.numbered r hr
  obtain ⟨t', ht', hid', hle'⟩ := htasks t ht
  exact ⟨t', ht', hid'.trans hid, hle.trans hle'⟩

/-- The ledger and what is retained stay the same. -/
theorem Projection.same (h : Projection db failures) (htasks : OrdinalsKept db db')
    (hrequests : db'.conversationUpdateRequests.rows = db.conversationUpdateRequests.rows)
    (hupdates : db'.conversationUpdates.rows = db.conversationUpdates.rows) :
    Projection db' failures := by
  refine ⟨hrequests ▸ h.named, hrequests ▸ h.numbered_of_kept htasks, hupdates ▸ h.phased,
    fun task => ?_⟩
  · rw [Db.updatesOf_congr hupdates, Db.requestsOf, hrequests]
    exact h.projected task

theorem FailedTurn.requests {error : ConversationError} {txNow : Time}
    (h : FailedTurn db db' t c error txNow updateId) :
    db'.conversationUpdateRequests.rows = db.conversationUpdateRequests.rows := by
  obtain ⟨_, _, _, rfl⟩ := h.frame
  rfl

/-- The gateway records a failure. -/
theorem FailedTurn.projection {error : ConversationError} {txNow : Time}
    (hturn : FailedTurn db db' t c error txNow updateId) (h : Projection db failures)
    (hwritten : ∀ u ∈ db'.conversationUpdates.rows,
      u ∈ db.conversationUpdates.rows ∨ u ∈ failures) :
    Projection db' failures := by
  have hkept : OrdinalsKept db db' :=
    hturn.change.ordinalsKept (endedTask_taskId ..) (Int.le_add_one (le_refl _))
  have hrequests := hturn.requests
  refine ⟨hrequests ▸ h.named, hrequests ▸ h.numbered_of_kept hkept, fun u hu hprogress => ?_,
    fun task => ?_⟩
  · rw [hturn.updates, List.mem_append, List.mem_singleton] at hu
    rcases hu with hu | rfl
    · exact h.phased u hu hprogress
    · cases hprogress
  · have hnew := hturn.updates
    generalize hu : updateRow t.roomId t updateId (t.lastUpdateOrdinal + 1) .failed txNow
      (.obj [("code", error.code)]) = u at hnew
    rw [Db.updatesOf_append hnew, Db.requestsOf, hrequests]
    by_cases htask : u.taskId = task
    · rw [if_pos htask]
      refine (h.projected task).failed ?_ (hu ▸ ⟨rfl, error, rfl⟩)
      refine (hwritten u (hnew ▸ by simp)).imp_left fun hmem => ?_
      exact List.mem_filter.mpr ⟨hmem, decide_eq_true htask⟩
    · rw [if_neg htask, List.append_nil]
      exact h.projected task

theorem requestRow_kind {room : Uuid} {name : String} (hname : request["kind"] = Json.str name)
    (hkind : UpdateKind.ofStr name = kind) :
    (requestRow room t updateId ordinal request response now).kind = kind := by
  rw [ConversationUpdateRequest.kind, requestRow, hname]
  exact hkind

theorem UpdateKind.ofStr_eq_progress {name : String} (h : UpdateKind.ofStr name = .progress) :
    name = "progress" := by
  by_contra hne
  simp only [UpdateKind.ofStr, if_neg hne] at h
  split_ifs at h

theorem NewUpdate.requestsOf (hnew : NewUpdate env db db' t c lease updateId ordinal request
    response now) (task : Uuid) : db'.requestsOf task = db.requestsOf task ++
      if t.taskId = task then [requestRow t.roomId t updateId ordinal request response now] else
        [] := by
  rw [Db.requestsOf, hnew.requests, List.filter_append]
  congr 1
  by_cases htask : t.taskId = task <;> simp [htask, requestRow]

/-- An accepted update comes after all that were accepted before. -/
theorem NewUpdate.after
    (hnew : NewUpdate env db db' t c lease updateId ordinal request response now)
    (h : Projection db failures) (hjoined : Joined db t c) :
    ∀ r ∈ db.requestsOf t.taskId, r.ordinal < ordinal := by
  intro r hr
  obtain ⟨hr, htask⟩ := List.mem_filter.mp hr
  obtain ⟨x, hx, hid, hle⟩ := h.numbered r hr
  obtain rfl := Db.task_unique hx hjoined.task (hid.trans (of_decide_eq_true htask))
  exact lt_of_le_of_lt hle hnew.later

/-- An update is accepted, and its task's projection follows. -/
theorem NewUpdate.projection
    (hnew : NewUpdate env db db' t c lease updateId ordinal request response now)
    (h : Projection db failures) (hchange : TurnChange db db' t t' c c')
    (hid : t'.taskId = t.taskId) (hordinal : t'.lastUpdateOrdinal = ordinal)
    (hphased : Phased db'.conversationUpdates.rows)
    (hothers : ∀ task, task ≠ t.taskId → db'.updatesOf task = db.updatesOf task)
    (hprojected : Projected failures
      (db.requestsOf t.taskId ++ [requestRow t.roomId t updateId ordinal request response now])
      (db'.updatesOf t.taskId)) :
    Projection db' failures := by
  have hkept : OrdinalsKept db db' :=
    hchange.ordinalsKept hid (hordinal ▸ le_of_lt hnew.later)
  refine ⟨fun r hr => ?_, fun r hr => ?_, hphased, fun task => ?_⟩
  · rw [hnew.requests, List.mem_append, List.mem_singleton] at hr
    rcases hr with hr | rfl
    · exact h.named r hr
    · exact ⟨hnew.named, hnew.numbered⟩
  · rw [hnew.requests, List.mem_append, List.mem_singleton] at hr
    rcases hr with hr | rfl
    · exact h.numbered_of_kept hkept r hr
    · exact ⟨t', hchange.mem_tasks.mpr (.inl rfl), hid, hordinal ▸ le_refl _⟩
  · rw [hnew.requestsOf]
    by_cases htask : t.taskId = task
    · subst htask
      rw [if_pos rfl]
      exact hprojected
    · rw [if_neg htask, List.append_nil, hothers task (Ne.symm htask)]
      exact h.projected task

/-- What an update replaces is the task's own. -/
theorem keptUpdates_updatesOf {task : Uuid} {u : ConversationUpdate} (hu : u.taskId = task)
    (hupdates : db'.conversationUpdates.rows =
      keptUpdates env task kind db.conversationUpdates.rows ++ [u]) :
    db'.updatesOf task = keptUpdates env task kind (db.updatesOf task) ++ [u] ∧
      ∀ other, other ≠ task → db'.updatesOf other = db.updatesOf other := by
  refine ⟨?_, fun other hne => ?_⟩
  · rw [Db.updatesOf_append hupdates, if_pos hu, keptUpdates, keptUpdates, Db.updatesOf,
      List.filter_comm]
  · rw [Db.updatesOf_append hupdates, if_neg (hu ▸ hne.symm), List.append_nil, keptUpdates,
      List.filter_filter, Db.updatesOf]
    refine List.filter_congr fun v _ => ?_
    rw [Bool.and_eq_left_iff_imp]
    intro hv
    have hv : v.taskId ≠ task := of_decide_eq_true hv ▸ hne
    simp [replaced, hv]

theorem Projection.text_accepted (h : Projection db failures) {u : ConversationUpdate}
    (hu : u ∈ db.conversationUpdates.rows) :
    (u.kind = .progress ∧ env.text u.data "phase" = some "accepted") ↔
      isAcceptance u.kind u.data = true := by
  simp only [isAcceptance, Bool.and_eq_true, decide_eq_true_eq]
  refine and_congr_right fun hkind => ?_
  obtain ⟨phase, hphase⟩ := h.phased u hu hkind
  rw [text_of_getElem hphase, hphase, Option.some.injEq, Json.str.injEq]

section Contract

variable {formats : Formats} {name : String}

/-- The update is retained. -/
theorem NewUpdate.projection_kept
    (hnew : NewUpdate (env.underProfile formats) db db' t c lease updateId ordinal
      request response now)
    (h : Projection db failures) (hchange : TurnChange db db' t t' c c')
    (hid : t'.taskId = t.taskId) (hordinal : t'.lastUpdateOrdinal = ordinal)
    (hname : request["kind"] = Json.str name) (hkind : UpdateKind.ofStr name = kind)
    (hfirst : FirstAcceptance (env.underProfile formats) db t kind request["data"])
    (hupdates : db'.conversationUpdates.rows =
      keptUpdates (env.underProfile formats) t.taskId kind db.conversationUpdates.rows ++
        [updateRow t.roomId t updateId ordinal kind now request["data"]]) :
    Projection db' failures := by
  obtain ⟨hown, hothers⟩ := keptUpdates_updatesOf (updateRow_taskId ..) hupdates
  have hmem : ∀ u ∈ db.updatesOf t.taskId, u ∈ db.conversationUpdates.rows ∧ u.taskId = t.taskId :=
    fun u hu => by simpa [Db.updatesOf] using hu
  have hrow : (requestRow t.roomId t updateId ordinal request response now).kind = kind :=
    requestRow_kind hname hkind
  refine hnew.projection h hchange hid hordinal (fun u hu hprogress => ?_) hothers ?_
  · rw [hupdates, List.mem_append, List.mem_singleton] at hu
    rcases hu with hu | rfl
    · exact h.phased u (List.mem_of_mem_filter hu) hprogress
    · have hname' : name = "progress" :=
        UpdateKind.ofStr_eq_progress (hkind.trans hprogress)
      exact phase_of_update hnew.valid (hname' ▸ hname)
  · rw [hown]
    refine (h.projected t.taskId).kept (hnew.after h hchange.toJoined)
      ⟨rfl, rfl, rfl, hrow.symm, rfl⟩ ?_ fun hacceptance u hu => ?_
    · rw [hrow]
      exact replaces_keptUpdates (fun u hu => (hmem u hu).2)
        fun u hu => h.phased u (hmem u hu).1
    · rw [hrow] at hacceptance
      simp only [isAcceptance, Bool.and_eq_true, decide_eq_true_eq] at hacceptance
      rw [Bool.eq_false_iff]
      intro hu'
      obtain ⟨hprogress, htext⟩ := (h.text_accepted (hmem u hu).1).mpr hu'
      exact hfirst hacceptance.1 hacceptance.2 u (hmem u hu).1 (hmem u hu).2 hprogress htext

/-- The update is folded into what is retained. -/
theorem NewUpdate.projection_folded
    (hnew : NewUpdate env db db' t c lease updateId ordinal request response now)
    (h : Projection db failures) (hchange : TurnChange db db' t t' c c')
    (hid : t'.taskId = t.taskId) (hordinal : t'.lastUpdateOrdinal = ordinal)
    (hname : request["kind"] = Json.str name) (hkind : UpdateKind.ofStr name = kind)
    (hfolded : Folded env db t kind request["data"])
    (hupdates : db'.conversationUpdates.rows = db.conversationUpdates.rows) :
    Projection db' failures := by
  have hrow : (requestRow t.roomId t updateId ordinal request response now).kind = .progress :=
    requestRow_kind hname (hkind.trans hfolded.progress)
  refine hnew.projection h hchange hid hordinal (hupdates ▸ h.phased)
    (fun task _ => Db.updatesOf_congr hupdates task) ?_
  rw [Db.updatesOf_congr hupdates]
  refine (h.projected t.taskId).folded (hnew.after h hchange.toJoined) hrow fun hacceptance => ?_
  simp only [isAcceptance, Bool.and_eq_true, decide_eq_true_eq] at hacceptance
  obtain ⟨u, hu, htask, hprogress, htext⟩ := hfolded.again hacceptance.2
  exact ⟨u, List.mem_filter.mpr ⟨hu, decide_eq_true htask⟩,
    (h.text_accepted hu).mp ⟨hprogress, htext⟩⟩

theorem FirstAcceptance.of_terminal {data : Json} (h : kind.terminal = true) :
    FirstAcceptance env db t kind data := by
  intro hprogress
  rw [hprogress] at h
  cases h

/-- What one step does to the projection. -/
theorem Effect.projection {stale update : Prop}
    (heffect : Effect (env.underProfile formats) stale update db db')
    (h : Projection db failures)
    (hwritten : db'.conversationUpdateRequests.rows = db.conversationUpdateRequests.rows →
      ∀ u ∈ db'.conversationUpdates.rows, u ∈ db.conversationUpdates.rows ∨ u ∈ failures) :
    Projection db' failures := by
  cases heffect with
  | quiet hquiet =>
      refine h.same (fun t ht => ⟨t, hquiet.tasks ▸ ht, rfl, le_refl _⟩) ?_ ?_
      · rw [hquiet.requests]
      · rw [hquiet.updates]
  | reserved hturn =>
      refine h.same (fun t ht => ⟨t, ?_, rfl, le_refl _⟩) ?_ ?_
      · rw [hturn.tasks]
        exact List.mem_append_left _ ht
      · obtain ⟨_, _, _, _, rfl⟩ := hturn.frame
        rfl
      · obtain ⟨_, _, _, _, rfl⟩ := hturn.frame
        rfl
  | claimed hturn =>
      refine h.same (hturn.change.ordinalsKept rfl (le_refl _)) ?_ ?_
      · obtain ⟨_, _, rfl⟩ := hturn.frame
        rfl
      · obtain ⟨_, _, rfl⟩ := hturn.frame
        rfl
  | completed _ hturn =>
      have hkind : UpdateKind.ofStr "completed" = .completed := rfl
      refine hturn.toNewUpdate.projection_kept h hturn.change rfl rfl hturn.kind hkind
        (.of_terminal rfl) ?_
      rw [keptUpdates_terminal rfl]
      exact hturn.updates
  | reported _ hturn =>
      have hkind : UpdateKind.ofStr "failed" = .failed := rfl
      refine hturn.toNewUpdate.projection_kept h hturn.change (endedTask_taskId ..) rfl hturn.kind
        hkind (.of_terminal rfl) ?_
      rw [keptUpdates_terminal rfl]
      exact hturn.updates
  | noted _ hturn =>
      obtain ⟨name, hname, hkind⟩ := hturn.kind_eq
      obtain ⟨_, _, _, _, hchange⟩ := hturn.change
      rcases hturn.updates with ⟨hfolded, hupdates⟩ | ⟨hfirst, hupdates⟩
      · exact hturn.toNewUpdate.projection_folded h hchange rfl rfl hname hkind hfolded hupdates
      · exact hturn.toNewUpdate.projection_kept h hchange rfl rfl hname hkind hfirst hupdates
  | failed _ hturn => exact hturn.projection h (hwritten hturn.requests)
  | staleFailed _ _ hturn => exact hturn.projection h (hwritten hturn.requests)

end Contract

end Database

/-- Only an update is entered in the ledger. -/
theorem Effect.requests {stale update : Prop} (heffect : Effect env stale update db db')
    (hupdate : ¬update) :
    db'.conversationUpdateRequests.rows = db.conversationUpdateRequests.rows := by
  cases heffect with
  | quiet hquiet => rw [hquiet.requests]
  | reserved hturn =>
      obtain ⟨_, _, _, _, rfl⟩ := hturn.frame
      rfl
  | claimed hturn =>
      obtain ⟨_, _, rfl⟩ := hturn.frame
      rfl
  | completed hyes _ => exact absurd hyes hupdate
  | reported hyes _ => exact absurd hyes hupdate
  | noted hyes _ => exact absurd hyes hupdate
  | failed _ hturn => exact hturn.requests
  | staleFailed _ _ hturn => exact hturn.requests

/-! ### Runs -/

/-- The update that a call records as new: it succeeds, and its id was not
recorded before. -/
def acceptedUpdates (env : Env) (s : Sys) : Op → List (Uuid × Json)
  | .recordUpdate policy task lease request txNow clock fresh =>
      match ((recordUpdate env policy task lease request txNow clock fresh).runTx s.db).1,
        priorUpdate s.db task request with
      | .ok _, none => [(task, request)]
      | _, _ => []
  | _ => []

/-- The rows that a step retains without an update being accepted. -/
def gatewayFailures (env : Env) (s : Sys) (op : Op) : List ConversationUpdate :=
  if acceptedUpdates env s op = [] then
    ((gateway env).next s op).db.conversationUpdates.rows.filter
      (· ∉ s.db.conversationUpdates.rows)
  else []

/-- The ledger of accepted updates. -/
def Db.ledger (db : Db) : List (Uuid × Json) :=
  db.conversationUpdateRequests.rows.map fun r => (r.taskId, r.request)

theorem UpdateEffect.ledger {t : ConversationTask} {c : AgentConversation} {lease updateId : Uuid}
    {request : Json} {txNow now : Time} {eventId : Uuid} {outcome : ConversationUpdateOutcome}
    (h : UpdateEffect env db db' t c lease updateId request txNow now eventId outcome) :
    db'.ledger = db.ledger ++ [(t.taskId, request)] := by
  cases h with
  | completed h => rw [Db.ledger, h.requests, List.map_append, List.map_singleton]; rfl
  | failed h => rw [Db.ledger, h.requests, List.map_append, List.map_singleton]; rfl
  | noted h => rw [Db.ledger, h.requests, List.map_append, List.map_singleton]; rfl

theorem recordUpdate_ledger (s : Sys) (policy : ConversationPolicy) (task lease : Uuid)
    (request : Json) (txNow : Time) (clock : Nat → Time) (fresh : Uuid) :
    ((recordUpdate env policy task lease request txNow clock fresh).runTx s.db).2.ledger =
      s.db.ledger ++
        acceptedUpdates env s (.recordUpdate policy task lease request txNow clock fresh) := by
  rw [acceptedUpdates]
  cases hresult : ((recordUpdate env policy task lease request txNow clock fresh).runTx s.db).1 with
  | error error =>
      rw [List.append_nil]
      obtain hsame | hcommit := Prog.runTx_error hresult
      · rw [hsame]
      · obtain ⟨_, _, -, -, -, -, _, -, hcases⟩ := recordUpdate_ok hcommit
        obtain ⟨_, _, hending, -⟩ | ⟨-, ⟨_, -, -, hfailed⟩ | ⟨_, hending, -⟩⟩ := hcases
        · cases hending
        · rw [Db.ledger, hfailed.requests, Db.ledger]
        · cases hending
  | ok outcome =>
      cases hprior : priorUpdate s.db task request with
      | some prior =>
          rw [recordUpdate_prior_same hprior]
          exact (List.append_nil _).symm
      | none =>
          obtain ⟨_, hrollback, -⟩ | hcommit := Prog.runTx_ok hresult
          · obtain ⟨_, _, -, -, -, -, updateId, hid, hcases⟩ := recordUpdate_ok hrollback
            rw [priorUpdate, hid] at hprior
            obtain ⟨_, _, -, -, hfound, -⟩ | ⟨-, ⟨_, hending, -⟩ | ⟨_, hending, -⟩⟩ := hcases
            · cases hfound.symm.trans hprior
            · cases hending
            · cases hending
          · obtain ⟨row, _, hfound, -, -, -, _, -, hcases⟩ := recordUpdate_ok hcommit
            obtain ⟨_, -, htask, -⟩ := joinedTask_some hfound
            obtain ⟨_, _, hending, -⟩ | ⟨-, ⟨_, hending, -⟩ | ⟨_, -, heffect⟩⟩ := hcases
            · cases hending
            · cases hending
            · rw [heffect.ledger, htask]

/-- The ledger grows by what is accepted, in every step. -/
theorem ledger_step (env : Env) (s : Sys) (op : Op) :
    ((gateway env).next s op).db.ledger = s.db.ledger ++ acceptedUpdates env s op := by
  cases hop : op.isUpdate with
  | true =>
      cases op with
      | recordUpdate policy task lease request txNow clock fresh =>
          exact recordUpdate_ledger s policy task lease request txNow clock fresh
      | _ => cases hop
  | false =>
      have hnone : acceptedUpdates env s op = [] := by
        cases op with
        | recordUpdate => cases hop
        | _ => rfl
      rw [hnone, List.append_nil, Db.ledger, Db.ledger]
      have heffect : Effect env _ _ s.db ((gateway env).next s op).db := gateway_effect s op
      rw [heffect.requests (by simp [hop])]

/-- A step that accepts nothing leaves the ledger as it is, and what it retains
is its own. -/
theorem mem_gatewayFailures {s : Sys} {op : Op}
    (hsame : ((gateway env).next s op).db.conversationUpdateRequests.rows =
      s.db.conversationUpdateRequests.rows) :
    ∀ u ∈ ((gateway env).next s op).db.conversationUpdates.rows,
      u ∈ s.db.conversationUpdates.rows ∨ u ∈ gatewayFailures env s op := by
  intro u hu
  have hnone : acceptedUpdates env s op = [] := by
    have hledger := ledger_step env s op
    rw [Db.ledger, hsame] at hledger
    exact List.self_eq_append_right.mp hledger
  by_cases hold : u ∈ s.db.conversationUpdates.rows
  · exact .inl hold
  · rw [gatewayFailures, if_pos hnone]
    exact .inr (List.mem_filter.mpr ⟨hu, decide_eq_true hold⟩)

theorem projection_init (failures : List ConversationUpdate) : Projection {} failures where
  named := by simp
  numbered := by simp
  phased := by simp [Phased]
  projected task := by
    constructor <;> simp [Db.requestsOf, Db.updatesOf, latestOf]

/-- The ledger holds what was accepted, in order, under the ids and the ordinals
that the updates name; and for every task the projection of it is retained. -/
structure Coalesced (db : Db) (accepted : List (Uuid × Json)) (failures : List ConversationUpdate) :
    Prop where
  ledger : db.ledger = accepted
  named : ∀ r ∈ db.conversationUpdateRequests.rows,
    uuidField r.request "updateId" = .ok r.updateId ∧ r.request["ordinal"].asI64 = some r.ordinal
  projected : ∀ task, Projected failures (db.requestsOf task) (db.updatesOf task)

theorem ledger_run (env : Env) (ops : List Op) :
    ((gateway env).run ops).db.ledger =
      (gateway env).collect (acceptedUpdates env) (gateway env).init ops := by
  refine Machine.collect_invariant (P := fun (s : Sys) accepted => s.db.ledger = accepted) rfl
    (fun s accepted op h => ?_) ops
  rw [ledger_step, h]

theorem projection_run (env : Env) (formats : Formats) (ops : List Op) :
    Projection ((gateway (env.underProfile formats)).run ops).db
      ((gateway (env.underProfile formats)).collect (gatewayFailures (env.underProfile formats))
        (gateway (env.underProfile formats)).init ops) := by
  refine Machine.collect_invariant (P := fun (s : Sys) failures => Projection s.db failures)
    (projection_init []) (fun s failures op h => ?_) ops
  refine (gateway_effect s op).projection (h.mono _) fun hsame u hu => ?_
  exact (mem_gatewayFailures hsame u hu).imp_right (List.mem_append_right _)

theorem updates_coalesced (env : Env) (formats : Formats) (ops : List Op) :
    Coalesced ((gateway (env.underProfile formats)).run ops).db
      ((gateway (env.underProfile formats)).collect (acceptedUpdates (env.underProfile formats))
        (gateway (env.underProfile formats)).init ops)
      ((gateway (env.underProfile formats)).collect (gatewayFailures (env.underProfile formats))
        (gateway (env.underProfile formats)).init ops) where
  ledger := ledger_run _ ops
  named := (projection_run env formats ops).named
  projected := (projection_run env formats ops).projected

end RoomGateway
