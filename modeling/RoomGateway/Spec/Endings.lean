import Mathlib.Algebra.Order.BigOperators.Group.List
import RoomGateway.Spec.Coalescing

/-!
How many updates a task retains. Besides what coalescing leaves of the others, a
task under way has no row that ends it, and one that has ended has at most two:
its own, and that of one claim that had selected it before it ended.
-/

namespace RoomGateway

open Table

variable {env : Env}

/-- Whether a claim has selected the task and not come back to it. -/
def Sys.selected (s : Sys) (task : Uuid) : Bool := s.claiming.any (·.task = task)

/-- How many rows end the tasks, and which ordinals they have passed. -/
structure EndingsBounded (s : Sys) : Prop where
  live : ∀ t ∈ s.db.conversationTasks.rows, t.state.live = true → s.db.endingsOf t.taskId = []
  ended : ∀ t ∈ s.db.conversationTasks.rows, t.state.live = false →
    (s.db.endingsOf t.taskId).length ≤ if s.selected t.taskId then 1 else 2
  passed : ∀ t ∈ s.db.conversationTasks.rows, ∀ u ∈ s.db.updatesOf t.taskId,
    u.ordinal ≤ t.lastUpdateOrdinal
  unknown : ∀ id, (∀ t ∈ s.db.conversationTasks.rows, t.taskId ≠ id) → s.db.updatesOf id = []

/-- Claims select only tasks that are under way. -/
def SelectsLive (s s' : Sys) : Prop := ∀ t ∈ s.db.conversationTasks.rows, t.state.live = false →
  s'.selected t.taskId = true → s.selected t.taskId = true

section Steps

variable {s s' : Sys} {t t' : ConversationTask}

theorem Db.endingsOf_congr {db db' : Db} {id : Uuid} (h : db'.updatesOf id = db.updatesOf id) :
    db'.endingsOf id = db.endingsOf id := by
  rw [Db.endingsOf, h, Db.endingsOf]

/-- A task that had ended keeps its bound. -/
theorem EndingsBounded.ended_same (h : EndingsBounded s) (hselects : SelectsLive s s')
    (ht : t ∈ s.db.conversationTasks.rows) (hended : t.state.live = false)
    (heq : s'.db.updatesOf t.taskId = s.db.updatesOf t.taskId) :
    (s'.db.endingsOf t.taskId).length ≤ if s'.selected t.taskId then 1 else 2 := by
  have hbound := h.ended t ht hended
  rw [Db.endingsOf_congr heq]
  by_cases hnow : s'.selected t.taskId = true
  · rw [hselects t ht hended hnow, if_pos rfl] at hbound
    rw [if_pos hnow]
    exact hbound
  · rw [if_neg hnow]
    split_ifs at hbound <;> omega

/-- The change to a task that was under way. -/
theorem RecordChange.endingsBounded (hnone : s.db.endingsOf t.taskId = [])
    (id : t'.taskId = t.taskId)
    (change : RecordChange t t' (s.db.updatesOf t.taskId) (s'.db.updatesOf t.taskId)) :
    (t'.state.live = true → s'.db.endingsOf t'.taskId = []) ∧
      (s'.db.endingsOf t'.taskId).length ≤ 1 := by
  rw [id, Db.endingsOf]
  rcases change.endings hnone with ⟨u, hone, agrees, -⟩ | ⟨-, hnone⟩
  · rw [hone, agrees.terminal.2]
    simp
  · simp [hnone]

/-- A step that is no stale claim. -/
theorem EndingsBounded.step (h : EndingsBounded s) (hselects : SelectsLive s s')
    (hstep : RecordStep s.db s'.db) : EndingsBounded s' := by
  obtain ⟨hpassed, hunknown⟩ := hstep.placed h.passed h.unknown
  cases hstep with
  | same tasks updates =>
      have heq := Db.updatesOf_congr updates
      refine ⟨fun t ht hlive => ?_, fun t ht hended => ?_, hpassed, hunknown⟩
      · rw [Db.endingsOf_congr (heq _)]
        exact h.live t (tasks ▸ ht) hlive
      · exact h.ended_same hselects (tasks ▸ ht) hended (heq _)
  | @reserved new tasks live unused updates =>
      have heq := Db.updatesOf_congr updates
      have hcases : ∀ t ∈ s'.db.conversationTasks.rows,
          t ∈ s.db.conversationTasks.rows ∨ t = new := by
        intro t ht
        rwa [tasks, List.mem_append, List.mem_singleton] at ht
      refine ⟨fun t ht hlive => ?_, fun t ht hended => ?_, hpassed, hunknown⟩
      · rcases hcases t ht with ht | rfl
        · rw [Db.endingsOf_congr (heq _)]
          exact h.live t ht hlive
        · simp [Db.endingsOf, heq, h.unknown t.taskId unused]
      · rcases hcases t ht with ht | rfl
        · exact h.ended_same hselects ht hended (heq _)
        · rw [live] at hended
          cases hended
  | @changed t t' mem live tasks id others record =>
      obtain ⟨hlive', hone⟩ := record.endingsBounded (h.live t mem live) id
      refine ⟨fun x hx hlive => ?_, fun x hx hended => ?_, hpassed, hunknown⟩
      · rcases (tasks x).mp hx with rfl | ⟨hx, hne⟩
        · exact hlive' hlive
        · rw [Db.endingsOf_congr (others _ hne)]
          exact h.live x hx hlive
      · rcases (tasks x).mp hx with rfl | ⟨hx, hne⟩
        · split_ifs <;> omega
        · exact h.ended_same hselects hx hended (others _ hne)

end Steps

/-- A claim that comes back to a task that has ended adds one row, and is over. -/
theorem EndingsBounded.stale {s s' : Sys} {t : ConversationTask} {c : AgentConversation}
    {error : ConversationError} {txNow : Time} {updateId : Uuid} (h : EndingsBounded s)
    (hselected : s.selected t.taskId = true) (hover : s'.claiming = none)
    (hended : t.state.live = false)
    (hturn : FailedTurn s.db s'.db t c error txNow updateId) : EndingsBounded s' := by
  have hnone : ∀ id, s'.selected id = false := fun id => by rw [Sys.selected, hover]; rfl
  have hchange := hturn.change
  rw [endedTask_of_ended hended] at hchange
  have hothers : ∀ id, id ≠ t.taskId → s'.db.updatesOf id = s.db.updatesOf id := by
    intro id hne
    rw [Db.updatesOf_append hturn.updates, updateRow_taskId, if_neg hne.symm, List.append_nil]
    rfl
  have hselects : SelectsLive s s' := by
    intro x _ _ hnow
    rw [hnone] at hnow
    cases hnow
  have hown : s'.db.updatesOf t.taskId = s.db.updatesOf t.taskId ++
      [updateRow t.roomId t updateId (t.lastUpdateOrdinal + 1) .failed txNow
        (.obj [("code", error.code)])] := by
    rw [Db.updatesOf_append hturn.updates, updateRow_taskId, if_pos rfl]
    rfl
  refine ⟨fun x hx hlive => ?_, fun x hx hxended => ?_, fun x hx u hu => ?_, fun other hother => ?_⟩
  · rcases hchange.mem_tasks.mp hx with rfl | ⟨hx, hne⟩
    · rw [hended] at hlive
      cases hlive
    · rw [Db.endingsOf_congr (hothers _ hne)]
      exact h.live x hx hlive
  · rcases hchange.mem_tasks.mp hx with rfl | ⟨hx, hne⟩
    · have hbound := h.ended t hchange.task hended
      rw [hselected, if_pos rfl, Db.endingsOf] at hbound
      rw [hnone, Db.endingsOf, hown, List.filter_append, List.length_append,
        if_neg Bool.false_ne_true]
      have hlast := List.length_filter_le (fun u : ConversationUpdate => u.kind.terminal)
        [updateRow t.roomId t updateId (t.lastUpdateOrdinal + 1) .failed txNow
          (.obj [("code", error.code)])]
      rw [List.length_singleton] at hlast
      omega
    · exact h.ended_same hselects hx hxended (hothers _ hne)
  · rcases hchange.mem_tasks.mp hx with rfl | ⟨hx, hne⟩
    · rw [hown, List.mem_append, List.mem_singleton] at hu
      rcases hu with hu | rfl
      · exact (h.passed t hchange.task u hu).trans (Int.le_add_one (le_refl _))
      · exact le_refl _
    · exact h.passed x hx u (hothers _ hne ▸ hu)
  · have hne : other ≠ t.taskId := by
      rintro rfl
      exact hother _ (hchange.mem_tasks.mpr (.inl rfl)) rfl
    rw [hothers other hne]
    refine h.unknown other fun x hx hid => ?_
    exact hother x (hchange.mem_tasks.mpr (.inr ⟨hx, fun hxt => hne (hid.symm.trans hxt)⟩)) hid

/-! ### Runs -/

theorem mem_of_claimCandidate {db : Db} {now : Time} {t : ConversationTask}
    (h : claimCandidate db now = some t) :
    t ∈ db.conversationTasks.rows ∧ awaitsClaim now t = true := by
  have hmem := (List.mem_insertionSort _).mp (List.mem_of_head? h)
  exact List.mem_filter.mp hmem

theorem live_of_awaitsClaim {now : Time} {t : ConversationTask} (h : awaitsClaim now t = true) :
    t.state.live = true := by
  simp only [awaitsClaim, Bool.and_eq_true, Bool.or_eq_true, decide_eq_true_eq] at h
  rcases h.2 with hstate | ⟨hstate, -⟩
  · rw [hstate]
    rfl
  · rw [hstate]
    rfl

theorem SelectsLive.of_same {s s' : Sys} (h : s'.claiming = s.claiming) : SelectsLive s s' := by
  intro t _ _ hnow
  rw [Sys.selected, h] at hnow
  exact hnow

theorem SelectsLive.of_none {s s' : Sys} (h : s'.claiming = none) : SelectsLive s s' := by
  intro t _ _ hnow
  rw [Sys.selected, h] at hnow
  cases hnow

theorem SelectsLive.of_candidate {s s' : Sys} {p : PendingClaim} {now : Time}
    {t : ConversationTask} (h : s'.claiming = some p) (htask : p.task = t.taskId)
    (hcandidate : claimCandidate s.db now = some t) : SelectsLive s s' := by
  intro x hx hended hnow
  obtain ⟨ht, hawaits⟩ := mem_of_claimCandidate hcandidate
  rw [Sys.selected, h, Option.any_some, htask] at hnow
  rw [Db.task_unique hx ht (of_decide_eq_true hnow).symm, live_of_awaitsClaim hawaits] at hended
  cases hended

theorem gateway_selectsLive (env : Env) (s : Sys) (op : Op) :
    SelectsLive s ((gateway env).next s op) := by
  cases op with
  | claimSelect policy owner txNow =>
      change SelectsLive s (s.claimSelect policy owner txNow).1
      unfold Sys.claimSelect
      split
      · exact .of_same rfl
      · exact .of_same rfl
      · split
        · exact .of_same rfl
        · next hcandidate => exact .of_candidate rfl rfl hcandidate
  | claimFinish now fresh =>
      change SelectsLive s (s.claimFinish env now fresh).1
      unfold Sys.claimFinish
      split
      · exact .of_same rfl
      · exact .of_none rfl
  | claimAbort => exact .of_none rfl
  | _ => exact .of_same rfl

/-- What a stale claim does: nothing, or it fails the task that it selected. -/
theorem staleClaim_cases (env : Env) {s : Sys} {op : Op} (h : staleClaim s op = true) :
    ((gateway env).next s op).db = s.db ∨ ∃ t c error txNow updateId,
      s.selected t.taskId = true ∧ ((gateway env).next s op).claiming = none ∧
      t.state.live = false ∧
      FailedTurn s.db ((gateway env).next s op).db t c error txNow updateId := by
  cases op with
  | claimFinish now fresh =>
      cases hpending : s.claiming with
      | none => simp [staleClaim, hpending] at h
      | some p =>
          have hnext : (gateway env).next s (.claimFinish now fresh) =
              ⟨((claimLocked env p.policy p.owner p.task p.room p.txNow now fresh).runTx s.db).2,
                none⟩ := by
            simp [Machine.next, gateway, gatewayStep, Sys.claimFinish, hpending]
          rw [hnext]
          obtain hsame | ⟨r, hcommit⟩ := Prog.runTx_store
            (claimLocked env p.policy p.owner p.task p.room p.txNow now fresh) s.db
          · exact .inl hsame
          · obtain ⟨row, c, hfound, -, hcases⟩ := claimLocked_ok hcommit
            obtain ⟨_, -, htask, -⟩ := joinedTask_some hfound
            have hended : row.task.state.live = false := by
              simpa [staleClaim, hpending, hfound] using h
            obtain ⟨error, -, -, hturn⟩ | ⟨_, -, -, -, hturn⟩ := hcases
            · refine .inr ⟨row.task, c, error, p.txNow, fresh, ?_, rfl, hended, hturn⟩
              simp [Sys.selected, hpending, htask]
            · rw [hturn.underWay.live] at hended
              cases hended
  | _ => cases h

theorem gateway_endingsBounded (env : Env) (ops : List Op) :
    EndingsBounded ((gateway env).run ops) := by
  refine Machine.run_invariant (P := EndingsBounded) ?_ (fun s op h => ?_) ops
  · exact ⟨by simp [gateway], by simp [gateway], by simp [gateway], fun _ _ => rfl⟩
  · have hselects := gateway_selectsLive env s op
    by_cases hstale : staleClaim s op = true
    · rcases staleClaim_cases env hstale with hsame | ⟨t, c, error, txNow, updateId,
        hselected, hover, hended, hturn⟩
      · exact h.step hselects (.same (by rw [hsame]) (by rw [hsame]))
      · exact h.stale hselected hover hended hturn
    · exact h.step hselects (gateway_recordStep env hstale)

/-! ### How many -/

theorem length_le_filters {α : Type} (tests : List (α → Bool)) (l : List α)
    (h : ∀ a ∈ l, ∃ p ∈ tests, p a = true) :
    l.length ≤ (tests.map fun p => (l.filter p).length).sum := by
  induction tests generalizing l with
  | nil =>
      cases l with
      | nil => exact le_refl _
      | cons a l =>
          obtain ⟨_, hp, -⟩ := h a List.mem_cons_self
          cases hp
  | cons p tests ih =>
      have hsplit : l.length = (l.filter p).length + (l.filter (!p ·)).length :=
        List.length_eq_length_filter_add p
      have hrest := ih (l.filter (!p ·)) fun a ha => by
        obtain ⟨ha, hnot⟩ := List.mem_filter.mp ha
        obtain ⟨q, hq, hqa⟩ := h a ha
        rcases List.mem_cons.mp hq with rfl | hq
        · rw [hqa] at hnot
          cases hnot
        · exact ⟨q, hq, hqa⟩
      have hmono : (tests.map fun q => ((l.filter (!p ·)).filter q).length).sum ≤
          (tests.map fun q => (l.filter q).length).sum := by
        refine List.sum_le_sum fun q _ => ?_
        exact (List.filter_sublist.filter q).length_le
      rw [List.map_cons, List.sum_cons]
      omega

theorem length_of_forall₂_option {α β : Type} {R : α → β → Prop} {x : Option α} {l : List β}
    (h : List.Forall₂ R x.toList l) : l.length ≤ 1 := by
  rw [← h.length_eq]
  cases x <;> simp

/-- The sorts of updates of which a task retains only so many. -/
def retainedTests : List (ConversationUpdate → Bool) :=
  [fun u => isAcceptance u.kind u.data, fun u => isOtherProgress u.kind u.data,
    fun u => decide (u.kind = .settings), fun u => decide (u.kind = .usage),
    fun u => u.kind.terminal]

theorem exists_retainedTest {db : Db} {u : ConversationUpdate}
    (hu : u ∈ db.conversationUpdates.rows) : ∃ p ∈ retainedTests, p u = true := by
  have hkind : u.kind ∈ [.progress, .settings, .usage, .completed, .failed] := by
    have hcheck := db.conversationUpdates.checked u hu
    simp only [conversationUpdateConstraints, Bool.and_eq_true, decide_eq_true_eq] at hcheck
    exact hcheck.2
  simp only [List.mem_cons, List.not_mem_nil, or_false] at hkind
  simp only [retainedTests, List.mem_cons, List.not_mem_nil, or_false, exists_eq_or_imp,
    exists_eq_left]
  rcases hkind with hkind | hkind | hkind | hkind | hkind
  · by_cases hphase : u.data["phase"] = Json.str "accepted"
    · exact .inl (by simp [isAcceptance, hkind, hphase])
    · exact .inr (.inl (by simp [isOtherProgress, hkind, hphase]))
  · exact .inr (.inr (.inl (by simp [hkind])))
  · exact .inr (.inr (.inr (.inl (by simp [hkind]))))
  · exact .inr (.inr (.inr (.inr (by simp [hkind, UpdateKind.terminal]))))
  · exact .inr (.inr (.inr (.inr (by simp [hkind, UpdateKind.terminal]))))

/-- A task retains at most six updates. -/
theorem retained_le (env : Env) (formats : Formats) (ops : List Op) (task : Uuid) :
    (((gateway (env.underProfile formats)).run ops).db.updatesOf task).length ≤ 6 := by
  have hprojected := (projection_run env formats ops).projected task
  have hendings := gateway_endingsBounded (env.underProfile formats) ops
  generalize (gateway (env.underProfile formats)).run ops = s at hprojected hendings ⊢
  have hending : (s.db.endingsOf task).length ≤ 2 := by
    by_cases hknown : ∃ t ∈ s.db.conversationTasks.rows, t.taskId = task
    · obtain ⟨t, ht, rfl⟩ := hknown
      cases hlive : t.state.live with
      | true =>
          rw [hendings.live t ht hlive]
          exact Nat.zero_le 2
      | false =>
          have := hendings.ended t ht hlive
          split_ifs at this <;> omega
    · rw [Db.endingsOf, hendings.unknown task fun t ht hid => hknown ⟨t, ht, hid⟩]
      exact Nat.zero_le 2
  have hkinds := length_le_filters retainedTests (s.db.updatesOf task) fun u hu =>
    exists_retainedTest (List.mem_of_mem_filter hu)
  have hacceptance := length_of_forall₂_option hprojected.acceptance
  have hsettings := length_of_forall₂_option hprojected.settings
  have husage := length_of_forall₂_option hprojected.usage
  have hprogress := hprojected.progress
  rw [Db.endingsOf] at hending
  simp only [retainedTests, List.map_cons, List.map_nil, List.sum_cons, List.sum_nil] at hkinds
  omega

end RoomGateway
