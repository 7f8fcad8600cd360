import RoomGateway.Spec.ClaimQueue

/-!
The ordinals of a task's updates. Every recorded update of a task has an ordinal
that the task has passed, and while the task is under way it has not passed the
last one there is. So the gateway always has an ordinal to end a task with.
-/

namespace RoomGateway

open Table

variable {env : Env} {db db' : Db}

theorem Effect.ordinalsKept {stale update : Prop} (h : Effect env stale update db db') :
    OrdinalsKept db db' := by
  cases h with
  | quiet h => exact fun t ht => ⟨t, h.tasks ▸ ht, rfl, le_refl _⟩
  | reserved h =>
      intro t ht
      refine ⟨t, ?_, rfl, le_refl _⟩
      rw [h.tasks]
      exact List.mem_append_left _ ht
  | claimed h => exact h.change.ordinalsKept rfl (le_refl _)
  | completed _ h => exact h.change.ordinalsKept rfl h.later.le
  | reported _ h => exact h.change.ordinalsKept (endedTask_taskId ..) h.later.le
  | noted _ h =>
      obtain ⟨_, _, _, _, change⟩ := h.change
      exact change.ordinalsKept rfl h.later.le
  | failed _ h => exact h.change.ordinalsKept (endedTask_taskId ..) (Int.le_add_one (le_refl _))
  | staleFailed _ _ h =>
      exact h.change.ordinalsKept (endedTask_taskId ..) (Int.le_add_one (le_refl _))

/-- The accepted updates of a task have ordinals that it has passed. -/
def RequestsPassed (db : Db) : Prop := ∀ r ∈ db.conversationUpdateRequests.rows,
  ∃ t ∈ db.conversationTasks.rows, t.taskId = r.taskId ∧ r.ordinal ≤ t.lastUpdateOrdinal

theorem RequestsPassed.kept (h : RequestsPassed db) (hkept : OrdinalsKept db db') :
    ∀ r ∈ db.conversationUpdateRequests.rows, ∃ t ∈ db'.conversationTasks.rows,
      t.taskId = r.taskId ∧ r.ordinal ≤ t.lastUpdateOrdinal := by
  intro r hr
  obtain ⟨t, ht, hid, hle⟩ := h r hr
  obtain ⟨t', ht', hid', hle'⟩ := hkept t ht
  exact ⟨t', ht', hid'.trans hid, hle.trans hle'⟩

/-- An update moves its task to its ordinal. -/
theorem RequestsPassed.new {t t' : ConversationTask} {c c' : AgentConversation}
    {lease updateId : Uuid} {ordinal : Int} {request response : Json} {now : Time}
    (h : RequestsPassed db) (hkept : OrdinalsKept db db')
    (hnew : NewUpdate env db db' t c lease updateId ordinal request response now)
    (hchange : TurnChange db db' t t' c c') (hid : t'.taskId = t.taskId)
    (hlast : t'.lastUpdateOrdinal = ordinal) : RequestsPassed db' := by
  intro r hr
  rw [hnew.requests, List.mem_append, List.mem_singleton] at hr
  rcases hr with hr | rfl
  · exact h.kept hkept r hr
  · exact ⟨t', hchange.mem_tasks.mpr (.inl rfl), hid, hlast.ge⟩

theorem Effect.requestsPassed {stale update : Prop} (heffect : Effect env stale update db db')
    (h : RequestsPassed db) : RequestsPassed db' := by
  have hkept := heffect.ordinalsKept
  have hsame : db'.conversationUpdateRequests.rows = db.conversationUpdateRequests.rows →
      RequestsPassed db' := fun hrows r hr => h.kept hkept r (hrows ▸ hr)
  cases heffect with
  | completed _ hturn => exact h.new hkept hturn.toNewUpdate hturn.change rfl rfl
  | reported _ hturn =>
      exact h.new hkept hturn.toNewUpdate hturn.change (endedTask_taskId ..) rfl
  | noted _ hturn =>
      obtain ⟨_, _, _, _, hchange⟩ := hturn.change
      exact h.new hkept hturn.toNewUpdate hchange rfl rfl
  | quiet hquiet => exact hsame (by rw [hquiet.requests])
  | reserved hturn =>
      obtain ⟨_, _, _, _, rfl⟩ := hturn.frame
      exact hsame rfl
  | claimed hturn =>
      obtain ⟨_, _, rfl⟩ := hturn.frame
      exact hsame rfl
  | failed _ hturn => exact hsame hturn.requests
  | staleFailed _ _ hturn => exact hsame hturn.requests

theorem gateway_requestsPassed (ops : List Op) : RequestsPassed ((gateway env).run ops).db :=
  Machine.run_invariant (P := fun s : Sys => RequestsPassed s.db)
    (by simp [RequestsPassed, gateway]) (fun s op h => (gateway_effect s op).requestsPassed h) ops

/-- Only Codex has conversation tasks. -/
theorem gateway_agent (ops : List Op) :
    ∀ t ∈ ((gateway env).run ops).db.conversationTasks.rows, t.agentId = codexAgentId := by
  intro t ht
  obtain ⟨c, hjoined⟩ := (gateway_turns env ops).owned t ht
  rw [← (ownsTask_iff.mp hjoined.owns).2.2.1]
  exact Db.conversation_agent hjoined.conversation

/-- The task can be ended by the gateway: its next ordinal is one, no recorded
update has it, and failing the task goes through. -/
structure Endable (db : Db) (t : ConversationTask) : Prop where
  bound : t.lastUpdateOrdinal ≤ 2 ^ 53 - 2
  column : safeRange 1 (t.lastUpdateOrdinal + 1) = true
  retained : ∀ u ∈ db.updatesOf t.taskId, u.ordinal ≠ t.lastUpdateOrdinal + 1
  accepted : ∀ r ∈ db.requestsOf t.taskId, r.ordinal ≠ t.lastUpdateOrdinal + 1
  /-- The identifier of the row is a fresh one. -/
  fails : ∀ (error : ConversationError) (txNow : Time) (fresh : Uuid),
    (∀ u ∈ db.updatesOf t.taskId, u.updateId ≠ fresh) →
    ∃ row db', joinedTask db t.taskId = some row ∧
      (failTask row error txNow fresh).exec db = .ok ((), db') ∧
      (∃ t' ∈ db'.conversationTasks.rows, t'.taskId = t.taskId ∧ t'.state = .failed ∧
        t'.lastUpdateOrdinal = t.lastUpdateOrdinal + 1) ∧
      ∃ c' ∈ db'.agentConversations.rows, c'.conversationId = t.conversationId ∧
        c'.state = .unusable ∧ c'.activeTaskId = none

/-- Whatever ordinals its worker submits, a task under way can be ended by the
gateway. -/
theorem live_task_endable (env : Env) (ops : List Op) (t : ConversationTask)
    (ht : t ∈ ((gateway env).run ops).db.conversationTasks.rows) (hlive : t.state.live = true) :
    Endable ((gateway env).run ops).db t := by
  have hturns := gateway_turns env ops
  have hpassed := (gateway_endingsBounded env ops).passed t ht
  have hrequests : RequestsPassed ((gateway env).run ops).db := gateway_requestsPassed ops
  have hbound := gateway_unfinished env ops t ht hlive
  have hagent := gateway_agent ops t ht
  generalize ((gateway env).run ops).db = db at *
  have hlow : 0 ≤ t.lastUpdateOrdinal := by
    have hcheck := db.conversationTasks.checked t ht
    simp only [conversationTaskConstraints, Bool.and_eq_true, safeRange, decide_eq_true_eq]
      at hcheck
    exact hcheck.2.1
  have hlt : t.lastUpdateOrdinal < 2 ^ 53 - 1 := hbound
  refine ⟨by omega, ?_, fun u hu => ?_, fun r hr => ?_, fun error txNow fresh hfresh => ?_⟩
  · exact Bool.and_eq_true_iff.mpr ⟨decide_eq_true (by omega), decide_eq_true hbound⟩
  · have := hpassed u hu
    omega
  · obtain ⟨hr, hid⟩ := List.mem_filter.mp hr
    obtain ⟨x, hx, hxid, hle⟩ := hrequests r hr
    rw [Db.task_unique hx ht (hxid.trans (of_decide_eq_true hid))] at hle
    omega
  · obtain ⟨c, hjoined⟩ := hturns.owned t ht
    obtain ⟨hactive, -⟩ := hturns.busy t c hjoined hlive
    have htotal : (failTask ⟨t, c.state, c.activeTaskId⟩ error txNow fresh).Total db
        fun _ _ => True := failTask_total ht hlive hagent hbound hpassed hfresh _ _ error
    obtain ⟨⟨⟩, db', hexec, -⟩ := htotal
    have hfailed := failTask_ok hjoined hexec
    refine ⟨_, db', hjoined.joinedTask_eq hagent, hexec, ?_, ?_⟩
    · exact ⟨_, hfailed.change.mem_tasks.mpr (.inl rfl), endedTask_taskId .., endedTask_state hlive,
        rfl⟩
    · refine ⟨_, hfailed.change.mem_conversations.mpr (.inl rfl), ?_⟩
      rw [releasedConversation, if_pos hactive]
      exact ⟨hjoined.conversationId_eq, rfl, rfl⟩

/-- The worker of a turn leaves one ordinal to the gateway. -/
def lastProgress : Op :=
  .recordUpdate samplePolicy 21 30
    (.obj [("contextDigest", sampleEnv.sha256Hex ""), ("data", .obj [("phase", "working")]),
      ("generation", (1 : Int)), ("kind", "progress"),
      ("ordinal", (9007199254740990 : Int)), ("profileVersion", profileVersion),
      ("taskId", (21 : Uuid)), ("updateId", (31 : Uuid))])
    (seconds 102) (fun _ => seconds 102) 32

theorem last_progress_run :
    ((gateway sampleEnv).run (sampleTurn ++ [lastProgress])).db.conversationTasks.rows.map
      (fun t => (t.taskId, t.state, t.lastUpdateOrdinal)) =
      [(21, .running, 9007199254740990)] := by
  decide +kernel

/-- There the task can still be ended. -/
theorem live_task_endable_sample :
    ∃ t ∈ ((gateway sampleEnv).run (sampleTurn ++ [lastProgress])).db.conversationTasks.rows,
      t.lastUpdateOrdinal = 2 ^ 53 - 2 ∧
        Endable ((gateway sampleEnv).run (sampleTurn ++ [lastProgress])).db t := by
  obtain ⟨t, ht, hrow⟩ := List.mem_map.mp (last_progress_run ▸ List.mem_singleton_self _)
  simp only [Prod.mk.injEq] at hrow
  obtain ⟨-, hstate, hlast⟩ := hrow
  exact ⟨t, ht, hlast, live_task_endable _ _ t ht (by rw [hstate]; rfl)⟩

end RoomGateway
