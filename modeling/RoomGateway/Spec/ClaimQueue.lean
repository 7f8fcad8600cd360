import RoomGateway.Lib.Drain
import RoomGateway.Lib.Sort
import RoomGateway.Spec.Conversations
import RoomGateway.Spec.Digest
import RoomGateway.Spec.Served

/-!
The queue of the claims. A round of a claim takes the oldest task that waits,
and either hands it out or fails it; whichever it does, the task waits no
longer. A claim is therefore a call on a queue in the sense of
`RoomGateway.Drain`, and the queue is drained in order.
-/

namespace RoomGateway

open Table Prog

variable {env : Env} {formats : Formats}

/-! ### The queue -/

def claimKey (t : ConversationTask) : Lex (Time × Uuid) := toLex (t.createdAt, t.taskId)

/-- The tasks that wait for a claim, in the order the claims take them. -/
def claimQueue (db : Db) (now : Time) : List ConversationTask :=
  (db.conversationTasks.rows.filter (awaitsClaim now)).insertionSort fun a b =>
    a.createdAt < b.createdAt ∨ (a.createdAt = b.createdAt ∧ a.taskId ≤ b.taskId)

/-- A claim at the instant would hand the task out. -/
def claimAuthority (db : Db) (policy : ConversationPolicy) (now : Time) (t : ConversationTask) :
    Bool :=
  (joinedTask db t.taskId).any fun row => (taskAuthority policy row none true now).isOk

def claimExpiry (policy : ConversationPolicy) (t : ConversationTask) : Time :=
  min (t.expiresAt + seconds policy.interruptGraceSeconds) t.authorizationExpiresAt

section Queue

variable {db db' : Db} {now : Time} {t t' : ConversationTask} {c c' : AgentConversation}
  {queue : List ConversationTask}

theorem claimCandidate_eq (db : Db) (now : Time) :
    claimCandidate db now = (claimQueue db now).head? := rfl

theorem claimQueue_eq (db : Db) (now : Time) : claimQueue db now =
    sortOn claimKey (db.conversationTasks.rows.filter (awaitsClaim now)) :=
  insertionSort_pair _ _ _

theorem mem_claimQueue : t ∈ claimQueue db now ↔
    t ∈ db.conversationTasks.rows ∧ awaitsClaim now t = true := by
  rw [claimQueue_eq, mem_sortOn, List.mem_filter]

theorem claimQueue_ascending (db : Db) (now : Time) : Ascending claimKey (claimQueue db now) := by
  have hids : (db.conversationTasks.rows.map (·.taskId)).Nodup := by
    refine List.pairwise_map.mpr (db.conversationTasks.unique.imp fun h => ?_)
    simp only [conversationTaskConstraints, Bool.or_eq_false_iff, decide_eq_false_iff_not] at h
    exact h.1
  rw [claimQueue_eq]
  apply ascending_sortOn
  refine List.pairwise_map.mpr ((List.pairwise_map.mp hids).filter _ |>.imp fun hne heq => hne ?_)
  exact congrArg (fun key => (ofLex key).2) heq

/-- The task in front was moved on, so the others wait. -/
theorem TurnChange.claimQueue_eq (h : TurnChange db db' t t' c c')
    (hqueue : claimQueue db now = t :: queue) (hleft : awaitsClaim now t' = false) :
    claimQueue db' now = queue := by
  have hsorted : Ascending claimKey (t :: queue) := hqueue ▸ claimQueue_ascending db now
  obtain ⟨hfirst, hrest⟩ := List.pairwise_cons.mp hsorted
  refine (claimQueue_ascending db' now).eq_of_mem_iff hrest fun x => ?_
  have hold : x ∈ t :: queue ↔ _ := hqueue ▸ mem_claimQueue
  rw [mem_claimQueue, h.mem_tasks]
  constructor
  · rintro ⟨rfl | ⟨hx, hne⟩, hawaits⟩
    · rw [hleft] at hawaits
      cases hawaits
    · rcases List.mem_cons.mp (hold.mpr ⟨hx, hawaits⟩) with rfl | hx
      · exact absurd rfl hne
      · exact hx
  · intro hx
    obtain ⟨hmem, hawaits⟩ := hold.mp (List.mem_cons_of_mem t hx)
    refine ⟨.inr ⟨hmem, fun hid => ?_⟩, hawaits⟩
    obtain rfl := Db.task_unique hmem h.task hid
    exact lt_irrefl _ (hfirst x hx)

end Queue

/-! ### States that claims go through in -/

/-- What the writers keep to, and a claim relies on. -/
structure Claimable (env : Env) (formats : Formats) (db : Db) : Prop where
  turns : Turns db
  servable : Servable formats db
  sealed : ∀ t ∈ db.conversationTasks.rows, Sealed env t
  unfinished : ∀ t ∈ db.conversationTasks.rows, t.state.live = true →
    t.lastUpdateOrdinal < maxSafeInteger
  passed : ∀ t ∈ db.conversationTasks.rows, ∀ u ∈ db.updatesOf t.taskId,
    u.ordinal ≤ t.lastUpdateOrdinal

/-- While a task is under way there is an ordinal left to end it with. -/
theorem Effect.unfinished {stale update : Prop} {db db' : Db}
    (heffect : Effect env stale update db db')
    (h : ∀ t ∈ db.conversationTasks.rows, t.state.live = true →
      t.lastUpdateOrdinal < maxSafeInteger) :
    ∀ t ∈ db'.conversationTasks.rows, t.state.live = true →
      t.lastUpdateOrdinal < maxSafeInteger := by
  have hchange : ∀ {t t' c c'}, TurnChange db db' t t' c c' →
      (t'.state.live = true → t'.lastUpdateOrdinal < maxSafeInteger) →
      ∀ x ∈ db'.conversationTasks.rows, x.state.live = true →
        x.lastUpdateOrdinal < maxSafeInteger := by
    intro t t' c c' hchange hnew x hx hlive
    rcases hchange.mem_tasks.mp hx with rfl | ⟨hx, -⟩
    · exact hnew hlive
    · exact h x hx hlive
  have hended : ∀ (error : ConversationError) (txNow : Time) (t : ConversationTask),
      (endedTask error txNow t).state.live = false := by
    intro error txNow t
    unfold endedTask
    split_ifs with hlive
    · rfl
    · simpa using hlive
  cases heffect with
  | quiet hquiet => exact hquiet.tasks ▸ h
  | reserved r =>
      intro x hx hlive
      rw [r.tasks, List.mem_append, List.mem_singleton] at hx
      rcases hx with hx | rfl
      · exact h x hx hlive
      · obtain ⟨_, _, _, _, ht⟩ := r.task
        rw [ht]
        exact show (0 : Int) < maxSafeInteger by decide
  | @claimed t _ _ _ _ _ hturn =>
      refine hchange hturn.change fun _ => ?_
      exact (h t hturn.change.task hturn.underWay.live : t.lastUpdateOrdinal < maxSafeInteger)
  | completed _ hturn => exact hchange hturn.change fun hlive => by cases hlive
  | reported _ hturn =>
      exact hchange hturn.change fun hlive => by
        rw [show _ = false from hended _ _ _] at hlive
        cases hlive
  | noted _ hturn =>
      obtain ⟨_, _, _, _, hnoted⟩ := hturn.change
      refine hchange hnoted fun _ => lt_of_le_of_ne ?_ hturn.notLast
      have hcheck := db'.conversationTasks.checked _ (hnoted.mem_tasks.mpr (.inl rfl))
      simp only [conversationTaskConstraints, Bool.and_eq_true, safeRange, decide_eq_true_eq]
        at hcheck
      exact hcheck.2.2
  | failed _ hturn =>
      exact hchange hturn.change fun hlive => by
        rw [show _ = false from hended _ _ _] at hlive
        cases hlive
  | staleFailed _ _ hturn =>
      exact hchange hturn.change fun hlive => by
        rw [show _ = false from hended _ _ _] at hlive
        cases hlive

theorem gateway_unfinished (env : Env) (ops : List Op) :
    ∀ t ∈ ((gateway env).run ops).db.conversationTasks.rows, t.state.live = true →
      t.lastUpdateOrdinal < maxSafeInteger :=
  Machine.run_invariant
    (P := fun s : Sys => ∀ t ∈ s.db.conversationTasks.rows, t.state.live = true →
      t.lastUpdateOrdinal < maxSafeInteger)
    (by simp [gateway]) (fun s op h => (gateway_effect s op).unfinished h) ops

theorem gateway_claimable (env : Env) (formats : Formats) (ops : List Op) :
    Claimable (env.underProfile formats) formats
      ((gateway (env.underProfile formats)).run ops).db where
  turns := gateway_turns _ ops
  servable := gateway_servable env formats ops
  sealed := Machine.run_invariant
    (P := fun s : Sys => ∀ t ∈ s.db.conversationTasks.rows, Sealed (env.underProfile formats) t)
    (by simp [gateway]) (fun s op h => (gateway_effect s op).sealed h) ops
  unfinished := gateway_unfinished _ ops
  passed := (gateway_endingsBounded _ ops).passed

/-! ### A round goes through -/

section Round

variable {db : Db} {policy : ConversationPolicy} {now txNow : Time} {t : ConversationTask}
  {c : AgentConversation} {fresh : Uuid}

theorem Joined.joinedTask_eq (h : Joined db t c) (hagent : t.agentId = codexAgentId) :
    joinedTask db t.taskId = some ⟨t, c.state, c.activeTaskId⟩ := by
  have htask : findTask db t.taskId = some t := by
    refine find?_eq_some_of_unique h.task (by simp [hagent]) fun x hx hcond => ?_
    simp only [Bool.and_eq_true, decide_eq_true_eq] at hcond
    exact Db.task_unique hx h.task hcond.1
  have hconversation : db.agentConversations.rows.find? (ownsTask t) = some c := by
    refine find?_eq_some_of_unique h.conversation h.owns fun x hx howns => ?_
    exact Db.conversation_unique hx h.conversation
      ((ownsTask_iff.mp howns).1.trans (ownsTask_iff.mp h.owns).1.symm)
  simp [joinedTask, htask, hconversation]

/-- A task under way finds its conversation busy with it, so whether it may be
claimed is decided by its own row. -/
theorem Claimable.claimAuthority_eq (h : Claimable env formats db)
    (ht : t ∈ db.conversationTasks.rows) (hlive : t.state.live = true) :
    claimAuthority db policy now t =
      (taskAuthority policy ⟨t, .reserved, some t.taskId⟩ none true now).isOk := by
  obtain ⟨c, hjoined⟩ := h.turns.owned t ht
  obtain ⟨hactive, hsame⟩ := h.turns.busy t c hjoined hlive
  have hbusy : c.state.live = true := by
    cases hsame <;> simp_all [ConversationState.live]
  rw [claimAuthority, hjoined.joinedTask_eq (h.servable.tasks t ht).agent, Option.any_some, hactive]
  simp only [taskAuthority, hbusy]
  rfl

theorem updateConversationTasks_total {p : ConversationTask → Bool}
    {f : ConversationTask → ConversationTask} {fault : ConversationError} {Q : Unit → Db → Prop}
    (hid : ∀ x, (f x).taskId = x.taskId) (hroom : ∀ x, (f x).roomId = x.roomId)
    (hrequest : ∀ x, (f x).requestId = x.requestId)
    (hcheck : ∀ x ∈ db.conversationTasks.rows, p x = true →
      conversationTaskConstraints.check (f x) = true)
    (hrest : ∀ ts : Table conversationTaskConstraints,
      ts.rows = db.conversationTasks.rows.map (alter p f) →
        Q () { db with conversationTasks := ts }) :
    (execute fault (Db.updateConversationTasks p f) : Tx ConversationError Unit).Total db Q := by
  have hkeep : ∀ x, (alter p f x).taskId = x.taskId ∧ (alter p f x).roomId = x.roomId ∧
      (alter p f x).requestId = x.requestId := by
    intro x
    unfold alter
    split_ifs
    · exact ⟨hid x, hroom x, hrequest x⟩
    · exact ⟨rfl, rfl, rfl⟩
  obtain ⟨ts, hts⟩ := exists_update (t := db.conversationTasks) hcheck
    fun a _ b _ h => by simpa [conversationTaskConstraints, hkeep] using h
  refine total_execute.mpr ⟨_, ?_, hrest ts (rows_update hts)⟩
  rw [Db.updateConversationTasks, hts]
  rfl

/-- A conversation that is busy takes another state than that of a superseded
one. -/
theorem updateAgentConversations_total {p : AgentConversation → Bool}
    {f : AgentConversation → AgentConversation} {fault : ConversationError}
    {Q : Unit → Db → Prop}
    (hkeys : ∀ x, (f x).conversationId = x.conversationId ∧ (f x).roomId = x.roomId ∧
      (f x).agentId = x.agentId ∧ (f x).generation = x.generation)
    (hbusy : ∀ x ∈ db.agentConversations.rows, p x = true → x.state.live = true)
    (hcheck : ∀ x ∈ db.agentConversations.rows, p x = true →
      agentConversationConstraints.check (f x) = true)
    (hrest : ∀ cs, Q () { db with agentConversations := cs }) :
    (execute fault (Db.updateAgentConversations p f) : Tx ConversationError Unit).Total db Q := by
  have hkeep : ∀ x, (alter p f x).conversationId = x.conversationId ∧
      (alter p f x).roomId = x.roomId ∧ (alter p f x).agentId = x.agentId ∧
      (alter p f x).generation = x.generation := by
    intro x
    unfold alter
    split_ifs
    · exact hkeys x
    · exact ⟨rfl, rfl, rfl, rfl⟩
  have hcurrent : ∀ x ∈ db.agentConversations.rows, (alter p f x).state ≠ .superseded →
      x.state ≠ .superseded := by
    intro x hx hstate hold
    cases hp : p x with
    | true =>
        have hlive := hbusy x hx hp
        rw [hold] at hlive
        cases hlive
    | false => exact hstate (by rw [alter_of_neg hp, hold])
  obtain ⟨cs, hcs⟩ := exists_update (t := db.agentConversations) hcheck fun a ha b hb h => by
    simp only [agentConversationConstraints, hkeep, Bool.or_eq_false_iff, Bool.and_eq_false_iff,
      decide_eq_false_iff_not] at h ⊢
    refine ⟨h.1, h.2.imp_right fun h => ⟨h.1, ?_⟩⟩
    exact h.2.imp (fun hne hstate => hne (hcurrent a ha hstate))
      fun hne hstate => hne (hcurrent b hb hstate)
  refine total_execute.mpr ⟨_, ?_, hrest cs⟩
  rw [Db.updateAgentConversations, hcs]
  rfl

theorem insertConversationUpdate_total {u : ConversationUpdate} {fault : ConversationError}
    {Q : Unit → Db → Prop}
    (htask : db.hasTask u.taskId u.conversationId u.roomId u.agentId u.generation = true)
    (hcheck : conversationUpdateConstraints.check u = true)
    (hnew : ∀ x ∈ db.updatesOf u.taskId, x.updateId ≠ u.updateId ∧ x.ordinal ≠ u.ordinal)
    (hrest : ∀ us, Q () { db with conversationUpdates := us }) :
    (execute fault (Db.insertConversationUpdate u) : Tx ConversationError Unit).Total db Q := by
  obtain ⟨us, hus⟩ := exists_insert (t := db.conversationUpdates) hcheck fun x hx => by
    by_cases hid : x.taskId = u.taskId
    · obtain ⟨hupdate, hordinal⟩ := hnew x (List.mem_filter.mpr ⟨hx, by simpa using hid⟩)
      simp [conversationUpdateConstraints, hupdate, hordinal]
    · simp [conversationUpdateConstraints, hid]
  refine total_execute.mpr ⟨_, ?_, hrest us⟩
  rw [Db.insertConversationUpdate, if_pos htask, hus]
  rfl

/-- A task under way can be failed while an ordinal is left. -/
theorem failTask_total (ht : t ∈ db.conversationTasks.rows) (hlive : t.state.live = true)
    (hagent : t.agentId = codexAgentId) (hordinal : t.lastUpdateOrdinal < maxSafeInteger)
    (hpassed : ∀ u ∈ db.updatesOf t.taskId, u.ordinal ≤ t.lastUpdateOrdinal)
    (hfresh : ∀ u ∈ db.updatesOf t.taskId, u.updateId ≠ fresh) (state : ConversationState)
    (active : Option Uuid) (error : ConversationError) :
    (failTask ⟨t, state, active⟩ error txNow fresh).Total db fun _ _ => True := by
  have hcheck := db.conversationTasks.checked t ht
  have hlow : 0 ≤ t.lastUpdateOrdinal := by
    simp only [conversationTaskConstraints, Bool.and_eq_true, safeRange, decide_eq_true_eq]
      at hcheck
    exact hcheck.2.1
  refine total_bind.mpr (total_bind.mpr (updateConversationTasks_total (fun _ => rfl) (fun _ => rfl)
    (fun _ => rfl) (fun x hx _ => db.conversationTasks.checked x hx) fun ts hts => ?_))
  refine updateAgentConversations_total (fun _ => ⟨rfl, rfl, rfl, rfl⟩) (fun x hx hp => ?_)
    (fun x hx hp => ?_) fun cs => ?_
  · simp only [Bool.and_eq_true, decide_eq_true_eq] at hp
    rw [Db.conversation_busy_iff hx, hp.2]
    rfl
  · have hx := db.agentConversations.checked x hx
    simp only [agentConversationConstraints, Bool.and_eq_true] at hx ⊢
    exact ⟨⟨hx.1.1, rfl⟩, rfl⟩
  refine total_bind.mpr (total_ensure.mpr ⟨decide_eq_true (Int.add_one_le_iff.mpr hordinal), ?_⟩)
  refine total_bind.mpr (insertConversationUpdate_total ?_ ?_ (fun u hu => ?_) fun us => ?_)
  · have hmem : alter (fun x => x.taskId = t.taskId && x.state.live) _ t ∈ ts.rows :=
      hts ▸ List.mem_map_of_mem ht
    refine List.any_eq_true.mpr ⟨_, hmem, ?_⟩
    rw [alter_of_pos (by simp [hlive])]
    simp [updateRow, hagent]
  · simp only [conversationUpdateConstraints, updateRow, safeRange, Bool.and_eq_true,
      decide_eq_true_eq]
    exact ⟨⟨by omega, by omega⟩, by decide⟩
  · refine ⟨hfresh u hu, ?_⟩
    have hle := hpassed u hu
    simp only [updateRow]
    omega
  · refine updateConversationTasks_total (fun _ => rfl) (fun _ => rfl) (fun _ => rfl)
      (fun x hx hp => ?_) fun _ _ => trivial
    have hx := ts.checked x hx
    simp only [conversationTaskConstraints, Bool.and_eq_true, safeRange, decide_eq_true_eq]
      at hx ⊢
    exact ⟨hx.1, by omega, by omega⟩

theorem Claimable.failTask_total (h : Claimable env formats db)
    (ht : t ∈ db.conversationTasks.rows) (hlive : t.state.live = true)
    (hfresh : ∀ u ∈ db.updatesOf t.taskId, u.updateId ≠ fresh) (state : ConversationState)
    (active : Option Uuid) (error : ConversationError) :
    (failTask ⟨t, state, active⟩ error txNow fresh).Total db fun _ _ => True :=
  RoomGateway.failTask_total ht hlive (h.servable.tasks t ht).agent (h.unfinished t ht hlive)
    (h.passed t ht) hfresh state active error

theorem Claimable.claimLocked_total (h : Claimable (env.underProfile formats) formats db)
    (ht : t ∈ db.conversationTasks.rows) (hlive : t.state.live = true) {owner : String}
    (howner : ownerText owner = true) (hfresh : ∀ u ∈ db.updatesOf t.taskId, u.updateId ≠ fresh)
    (hexpiry : claimAuthority db policy now t = true →
      Renderable env formats (claimExpiry policy t)) (txNow : Time) :
    (claimLocked (env.underProfile formats) policy owner t.taskId t.roomId txNow now fresh).Total db
      fun _ _ => True := by
  have hservable := h.servable.tasks t ht
  obtain ⟨c, hjoined⟩ := h.turns.owned t ht
  obtain ⟨hactive, -⟩ := h.turns.busy t c hjoined hlive
  have hrow := hjoined.joinedTask_eq hservable.agent
  refine total_bind.mpr (total_mapErr.mpr (total_acquire.mpr ?_))
  refine total_bind.mpr (total_bind.mpr (total_query.mpr (total_orFail.mpr ⟨_, hrow, ?_⟩)))
  cases hauthority : taskAuthority policy ⟨t, c.state, c.activeTaskId⟩ none true now with
  | error error =>
      refine total_bind.mpr ((h.failTask_total ht hlive hfresh _ _ error).mono fun _ _ _ => ?_)
      exact total_pure.mpr trivial
  | ok _ =>
      have hpass : claimAuthority db policy now t = true := by
        rw [claimAuthority, hrow, Option.any_some, hauthority]
        rfl
      refine total_bind.mpr (updateConversationTasks_total (fun _ => rfl) (fun _ => rfl)
        (fun _ => rfl) (fun x hx _ => ?_) fun ts _ => ?_)
      · have hx := db.conversationTasks.checked x hx
        simp only [conversationTaskConstraints, Bool.and_eq_true] at hx ⊢
        simp_all
      refine total_bind.mpr (updateAgentConversations_total (fun _ => ⟨rfl, rfl, rfl, rfl⟩)
        (fun x hx hp => ?_) (fun x hx hp => ?_) fun cs => ?_)
      · obtain rfl := Db.conversation_unique hx hjoined.conversation
          ((of_decide_eq_true hp).trans hjoined.conversationId_eq.symm)
        rw [Db.conversation_busy_iff hx, hactive]
        rfl
      · obtain rfl := Db.conversation_unique hx hjoined.conversation
          ((of_decide_eq_true hp).trans hjoined.conversationId_eq.symm)
        have hx := db.agentConversations.checked x hx
        simp only [agentConversationConstraints, Bool.and_eq_true, hactive] at hx ⊢
        exact ⟨⟨hx.1.1, rfl⟩, rfl⟩
      refine total_bind.mpr (total_ofExcept.mpr ⟨(), ?_, total_pure.mpr trivial⟩)
      exact validateProfileValue_ok.mpr (fits_leasedPacket hservable.frozen
        (shortText_of_ownerText howner) (hexpiry hpass))

theorem taskAuthority_unexpired {row : TaskRow} {lease : Option Uuid} {claim : Bool} {u : Unit}
    (h : taskAuthority policy row lease claim now = .ok u) :
    now < row.task.authorizationExpiresAt ∧ now < row.task.expiresAt := by
  cases henabled : requireEnabled policy row.task.agentId with
  | error e => simp [taskAuthority, henabled] at h
  | ok _ =>
      simp only [taskAuthority, henabled] at h
      split_ifs at h with hpolicy hauth hexpires
      all_goals exact ⟨not_le.mp hauth, not_le.mp hexpires⟩

theorem grace_pos (h : policy.validate = .ok ()) : 1 ≤ policy.interruptGraceSeconds := by
  unfold ConversationPolicy.validate at h
  split_ifs at h with hbounds
  all_goals
    simp only [Bool.or_eq_true, not_or, Bool.not_eq_true', Bool.not_eq_false, Bool.and_eq_true,
      decide_eq_true_eq] at hbounds
    exact hbounds.2.1

/-- A task that was just handed out does not wait: its lease outlasts the
instant. -/
theorem awaitsClaim_claimedTask (hsealed : Sealed env t) (hgrace : 0 ≤ policy.interruptGraceSeconds)
    (hauth : now < t.authorizationExpiresAt) (hexpires : now < t.expiresAt) (owner : String)
    (token : Uuid) (txNow : Time) :
    awaitsClaim (pgTime now) (claimedTask t owner token (claimExpiry policy t) txNow) = false := by
  have hnow := pgTime_le now
  have hgrace : 0 ≤ seconds policy.interruptGraceSeconds := Int.mul_nonneg hgrace (by decide)
  have hexpiry : pgTime (claimExpiry policy t) = claimExpiry policy t := by
    refine pgTime_of_dvd ?_
    rcases min_choice (t.expiresAt + seconds policy.interruptGraceSeconds)
      t.authorizationExpiresAt with h | h
    · rw [claimExpiry, h]
      exact Int.dvd_add hsealed.expiresAt (dvd_seconds _)
    · rw [claimExpiry, h]
      exact hsealed.authorizationExpiresAt
  have hends : pgTime now < t.expiresAt := lt_of_le_of_lt hnow hexpires
  have hauthEnds : pgTime now < t.authorizationExpiresAt := lt_of_le_of_lt hnow hauth
  have hlease : pgTime now < claimExpiry policy t :=
    lt_min (lt_of_lt_of_le hends (Int.le_add_of_nonneg_right hgrace)) hauthEnds
  simp [awaitsClaim, claimedTask, hexpiry, hlease, hends, hauthEnds]

theorem awaitsClaim_endedTask (hlive : t.state.live = true) (now txNow : Time)
    (error : ConversationError) (ordinal : Int) :
    awaitsClaim now { endedTask error txNow t with lastUpdateOrdinal := ordinal } = false := by
  rw [endedTask, if_pos hlive]
  simp [awaitsClaim]

end Round

/-! ### Rounds as steps of the gateway -/

/-- The gateway can be in the state with no claim under way. -/
def Reached (env : Env) (db : Db) : Prop := ∃ ops, (gateway env).run ops = ⟨db, none⟩

section Reached

variable {db db' : Db} {policy : ConversationPolicy} {owner : String} {now : Time} {fresh : Uuid}
  {t : ConversationTask} {queue : List ConversationTask}

theorem reached_run (env : Env) (ops : List Op) : Reached env ((gateway env).run ops).db :=
  ⟨ops ++ [.claimAbort], by rw [Machine.run_append]; rfl⟩

theorem Reached.claimable (h : Reached (env.underProfile formats) db) :
    Claimable (env.underProfile formats) formats db := by
  obtain ⟨ops, hops⟩ := h
  have hrun := gateway_claimable env formats ops
  rwa [hops] at hrun

theorem checkClaim_ok (henabled : policy.enabled = true) (howner : shortText owner = true) :
    checkClaim policy owner = .ok () := by
  simp only [shortText, Bool.and_eq_true, decide_eq_true_eq] at howner
  have hsome : owner ≠ "" := by
    rintro rfl
    exact absurd howner.1 (by decide)
  simp [checkClaim, requireEnabled_ok henabled, hsome, not_lt.mpr howner.2]

theorem Reached.claimLocked (h : Reached env db) (hcheck : checkClaim policy owner = .ok ())
    (hqueue : claimQueue db (pgTime now) = t :: queue) (fresh : Uuid) :
    Reached env ((claimLocked env policy owner t.taskId t.roomId now now fresh).runTx db).2 := by
  obtain ⟨ops, hops⟩ := h
  refine ⟨ops ++ [.claimSelect policy owner now, .claimFinish now fresh], ?_⟩
  have hcandidate : claimCandidate db (pgTime now) = some t := by
    rw [claimCandidate_eq, hqueue]
    rfl
  rw [Machine.run_append, hops]
  simp [Machine.next, gateway, gatewayStep, Sys.claimSelect, Sys.claimFinish, hcheck, hcandidate]

theorem claimRound_empty (hqueue : claimQueue db (pgTime now) = []) :
    (claimRound env policy owner now now fresh).runTx db = (.ok none, db) := by
  have hcandidate : claimCandidate db (pgTime now) = none := by
    rw [claimCandidate_eq, hqueue]
    rfl
  apply runTx_eq_of_rollback (t := db)
  simp only [claimRound, exec_bind_ok, exec_acquire_ok, exec_query_ok]
  exact ⟨(), db, rfl, none, db, ⟨hcandidate, rfl⟩, rfl⟩

theorem claimRound_commit (hqueue : claimQueue db (pgTime now) = t :: queue)
    {answer : Option Claimed}
    (hexec : (claimLocked env policy owner t.taskId t.roomId now now fresh).exec db =
      .ok (.commit (.ok answer), db')) :
    (claimRound env policy owner now now fresh).runTx db = (.ok (some answer), db') := by
  have hcandidate : claimCandidate db (pgTime now) = some t := by
    rw [claimCandidate_eq, hqueue]
    rfl
  apply runTx_eq_of_commit
  simp only [claimRound, exec_bind_ok, exec_acquire_ok, exec_query_ok]
  refine ⟨(), db, rfl, some t, db, ⟨hcandidate, rfl⟩, exec_bind_ok.mpr ⟨_, db', hexec, rfl⟩⟩

end Reached

/-! ### Claims as calls on the queue -/

/-- How far claims at one instant have come: the tasks that still wait are as
they were, and the others that waited were handed out or failed. -/
structure Draining (env : Env) (formats : Formats) (policy : ConversationPolicy) (now : Time)
    (start db : Db) : Prop where
  reached : Reached (env.underProfile formats) db
  waits : ∀ t ∈ claimQueue db (pgTime now), t ∈ claimQueue start (pgTime now)
  untouched : ∀ t ∈ claimQueue db (pgTime now),
    db.updatesOf t.taskId = start.updatesOf t.taskId
  settled : ∀ t ∈ claimQueue start (pgTime now), t ∉ claimQueue db (pgTime now) →
    ∃ t' ∈ db.conversationTasks.rows, t'.taskId = t.taskId ∧
      t'.state = if claimAuthority start policy now t then .running else .failed
  others : ∀ t ∈ start.conversationTasks.rows, t ∉ claimQueue start (pgTime now) →
    t ∈ db.conversationTasks.rows

def claimedPacket (env : Env) (policy : ConversationPolicy) (owner : String)
    (t : ConversationTask) : Json :=
  leasedPacket env t (some owner) (some (claimExpiry policy t))

section Drain

variable {policy : ConversationPolicy} {now : Time} {start db db' : Db} {owner : String}
  {t t' : ConversationTask} {c c' : AgentConversation} {queue : List ConversationTask}

theorem Draining.refl (h : Reached (env.underProfile formats) start) :
    Draining env formats policy now start start :=
  ⟨h, fun _ => id, fun _ _ => rfl, fun _ ht hgone => absurd ht hgone, fun _ ht _ => ht⟩

theorem Draining.authority_eq (h : Draining env formats policy now start db)
    (hstart : Reached (env.underProfile formats) start)
    (ht : t ∈ claimQueue db (pgTime now)) :
    claimAuthority db policy now t = claimAuthority start policy now t := by
  obtain ⟨hmem, hawaits⟩ := mem_claimQueue.mp ht
  obtain ⟨hold, -⟩ := mem_claimQueue.mp (h.waits t ht)
  have hlive := live_of_awaitsClaim hawaits
  rw [h.reached.claimable.claimAuthority_eq hmem hlive,
    hstart.claimable.claimAuthority_eq hold hlive]

/-- The first task that waits is moved on. -/
theorem Draining.step (h : Draining env formats policy now start db)
    (hreached : Reached (env.underProfile formats) db')
    (hqueue : claimQueue db (pgTime now) = t :: queue) (hchange : TurnChange db db' t t' c c')
    (hid : t'.taskId = t.taskId) (hleft : awaitsClaim (pgTime now) t' = false)
    (hstate : t'.state = if claimAuthority start policy now t then .running else .failed)
    (hupdates : ∀ id, id ≠ t.taskId → db'.updatesOf id = db.updatesOf id) :
    Draining env formats policy now start db' := by
  have hrest := hchange.claimQueue_eq hqueue hleft
  have hfront : t ∈ claimQueue db (pgTime now) := hqueue ▸ List.mem_cons_self
  have hbehind : ∀ x ∈ claimQueue db' (pgTime now),
      x ∈ claimQueue db (pgTime now) ∧ x.taskId ≠ t.taskId := by
    intro x hx
    obtain ⟨hmem, hawaits⟩ := mem_claimQueue.mp hx
    rcases hchange.mem_tasks.mp hmem with rfl | ⟨hmem, hne⟩
    · rw [hleft] at hawaits
      cases hawaits
    · exact ⟨mem_claimQueue.mpr ⟨hmem, hawaits⟩, hne⟩
  refine ⟨hreached, fun x hx => h.waits x (hbehind x hx).1, fun x hx => ?_, fun x hx hgone => ?_,
    fun x hx hnot => ?_⟩
  · rw [hupdates x.taskId (hbehind x hx).2]
    exact h.untouched x (hbehind x hx).1
  · by_cases hxt : x.taskId = t.taskId
    · obtain rfl := Db.task_unique (mem_claimQueue.mp hx).1
        (mem_claimQueue.mp (h.waits t hfront)).1 hxt
      exact ⟨t', hchange.mem_tasks.mpr (.inl rfl), hid, hstate⟩
    · have hgoneBefore : x ∉ claimQueue db (pgTime now) := by
        intro hbefore
        rw [hqueue, List.mem_cons, ← hrest] at hbefore
        rcases hbefore with rfl | hbefore
        · exact hxt rfl
        · exact hgone hbefore
      obtain ⟨x', hx', hidx, hstatex⟩ := h.settled x hx hgoneBefore
      exact ⟨x', hchange.mem_tasks.mpr (.inr ⟨hx', hidx ▸ hxt⟩), hidx, hstatex⟩
  · have hne : x.taskId ≠ t.taskId := by
      intro hxt
      obtain ⟨hold, -⟩ := mem_claimQueue.mp (h.waits t hfront)
      obtain rfl := Db.task_unique hx hold hxt
      exact hnot (h.waits x hfront)
    exact hchange.mem_tasks.mpr (.inr ⟨h.others x hx hnot, hne⟩)

/-- One round on a queue that is not empty. -/
theorem Draining.round (h : Draining env formats policy now start db)
    (hstart : Reached (env.underProfile formats) start) (hvalid : policy.validate = .ok ())
    (henabled : policy.enabled = true) (howner : ownerText owner = true) {fresh : Uuid}
    (hfresh : ∀ u ∈ start.conversationUpdates.rows, u.updateId ≠ fresh)
    (hexpiry : ∀ x ∈ claimQueue start (pgTime now), claimAuthority start policy now x = true →
      Renderable env formats (claimExpiry policy x))
    (hqueue : claimQueue db (pgTime now) = t :: queue) :
    ∃ answer db', (claimRound (env.underProfile formats) policy owner now now fresh).runTx db =
        (.ok (some answer), db') ∧
      answer.map Claimed.packet = (if claimAuthority start policy now t then
        some (claimedPacket (env.underProfile formats) policy owner t) else none) ∧
      claimQueue db' (pgTime now) = queue ∧ Draining env formats policy now start db' := by
  have hfront : t ∈ claimQueue db (pgTime now) := hqueue ▸ List.mem_cons_self
  obtain ⟨ht, hawaits⟩ := mem_claimQueue.mp hfront
  have hlive := live_of_awaitsClaim hawaits
  have hclaimable := h.reached.claimable
  have hagent := (hclaimable.servable.tasks t ht).agent
  have hauthority := h.authority_eq hstart hfront
  have hunused : ∀ u ∈ db.updatesOf t.taskId, u.updateId ≠ fresh := by
    intro u hu
    rw [h.untouched t hfront] at hu
    exact hfresh u (List.mem_filter.mp hu).1
  obtain ⟨ending, db', hexec, -⟩ := hclaimable.claimLocked_total ht hlive howner hunused
    (fun hpass => hexpiry t (h.waits t hfront) (hauthority ▸ hpass)) now
  obtain ⟨row, c, hrow, hjoined, hcases⟩ := claimLocked_ok hexec
  obtain ⟨c', hjoined'⟩ := hclaimable.turns.owned t ht
  obtain rfl : row.task = t := by
    rw [hjoined'.joinedTask_eq hagent] at hrow
    cases hrow
    rfl
  have hreached : ∀ answer, ending = .commit (.ok answer) →
      Reached (env.underProfile formats) db' := by
    rintro answer rfl
    have hsteps := h.reached.claimLocked (checkClaim_ok henabled (shortText_of_ownerText howner))
      hqueue fresh
    rwa [runTx_eq_of_commit hexec] at hsteps
  rcases hcases with ⟨error, rfl, hrefused, hturn⟩ | ⟨expiry, rfl, hpass, rfl, hturn⟩
  · have hdenied : claimAuthority start policy now row.task = false := by
      rw [← hauthority, claimAuthority, hrow, Option.any_some, hrefused]
      rfl
    have hleft := awaitsClaim_endedTask hlive (pgTime now) now error
      (row.task.lastUpdateOrdinal + 1)
    refine ⟨none, db', claimRound_commit hqueue hexec, by rw [hdenied]; rfl,
      hturn.change.claimQueue_eq hqueue hleft,
      h.step (hreached none rfl) hqueue hturn.change (by simp) hleft ?_ fun id hid => ?_⟩
    · rw [hdenied, endedTask, if_pos hlive]
      rfl
    · rw [Db.updatesOf, hturn.updates, List.filter_append, List.filter_cons_of_neg, List.filter_nil,
        List.append_nil]
      · rfl
      · exact fun hsame => hid (of_decide_eq_true hsame).symm
  · have hgranted : claimAuthority start policy now row.task = true := by
      rw [← hauthority, claimAuthority, hrow, Option.any_some, hpass]
      rfl
    obtain ⟨hauth, hexpires⟩ := taskAuthority_unexpired hpass
    have hgrace : 0 ≤ policy.interruptGraceSeconds := le_trans (by decide) (grace_pos hvalid)
    have hleft := awaitsClaim_claimedTask (hclaimable.sealed row.task ht) hgrace hauth hexpires
      owner fresh now
    refine ⟨some ⟨_, fresh⟩, db', claimRound_commit hqueue hexec, by rw [hgranted]; rfl,
      hturn.change.claimQueue_eq hqueue hleft,
      h.step (hreached _ rfl) hqueue hturn.change rfl hleft (by rw [hgranted]; rfl) fun id _ => ?_⟩
    obtain ⟨_, _, rfl⟩ := hturn.frame
    rfl

/-- A claim serves one call from the queue. -/
theorem Draining.rounds (h : Draining env formats policy now start db)
    (hstart : Reached (env.underProfile formats) start) (hvalid : policy.validate = .ok ())
    (henabled : policy.enabled = true) (howner : ownerText owner = true) {fresh : Nat → Uuid}
    (hfresh : ∀ i, ∀ u ∈ start.conversationUpdates.rows, u.updateId ≠ fresh i)
    (hexpiry : ∀ x ∈ claimQueue start (pgTime now), claimAuthority start policy now x = true →
      Renderable env formats (claimExpiry policy x)) (rounds : Nat) :
    ∃ answer db', claimRounds (env.underProfile formats) policy owner (fun _ => now) (fun _ => now)
        fresh rounds db = (.ok answer, db') ∧
      (answer.map Claimed.packet, claimQueue db' (pgTime now)) =
        (Drain.serve (claimAuthority start policy now) rounds (claimQueue db (pgTime now))).map
          (Option.map (claimedPacket (env.underProfile formats) policy owner)) id ∧
      Draining env formats policy now start db' := by
  induction rounds generalizing db with
  | zero => exact ⟨none, db, rfl, rfl, h⟩
  | succ rounds ih =>
      cases hqueue : claimQueue db (pgTime now) with
      | nil =>
          refine ⟨none, db, ?_, by rw [hqueue]; rfl, h⟩
          rw [claimRounds, claimRound_empty hqueue]
      | cons t queue =>
          obtain ⟨answer, db', hround, hanswer, hrest, hdraining⟩ :=
            h.round hstart hvalid henabled howner (hfresh rounds) hexpiry hqueue
          rw [Drain.serve]
          cases hauthority : claimAuthority start policy now t with
          | true =>
              rw [hauthority, if_pos rfl] at hanswer
              obtain ⟨claimed, rfl, hpacket⟩ := Option.map_eq_some_iff.mp hanswer
              refine ⟨some claimed, db', ?_, ?_, hdraining⟩
              · rw [claimRounds, hround]
              · rw [hrest, Option.map_some, hpacket]
                rfl
          | false =>
              rw [hauthority, if_neg (by decide)] at hanswer
              obtain rfl := Option.map_eq_none_iff.mp hanswer
              rw [claimRounds, hround, if_neg (by decide), ← hrest]
              exact ih hdraining

end Drain

/-! ### Series of claims -/

/-- What one call of `claim` brings along. -/
structure ClaimCall where
  owner : String
  fresh : Nat → Uuid

/-- Claims one after the other, all at one instant. -/
def claimCalls (env : Env) (policy : ConversationPolicy) (now : Time) :
    List ClaimCall → Db → List (Except ConversationError (Option Claimed)) × Db
  | [], db => ([], db)
  | call :: calls, db =>
      let first := claim env policy call.owner (fun _ => now) (fun _ => now) call.fresh db
      let rest := claimCalls env policy now calls first.2
      (first.1 :: rest.1, rest.2)

/-- The tasks that claims at the instant hand out. -/
def authorizedTasks (db : Db) (policy : ConversationPolicy) (now : Time) :
    List ConversationTask :=
  (claimQueue db (pgTime now)).filter (claimAuthority db policy now)

/-- The tasks that claims at the instant fail. -/
def refusedTasks (db : Db) (policy : ConversationPolicy) (now : Time) : List ConversationTask :=
  (claimQueue db (pgTime now)).filter (!claimAuthority db policy now ·)

/-- The queue is drained: no claim fails, the tasks that are reserved and
authorized are handed out in order, every other one that waits is failed, and
the number of claims that takes is bounded. -/
structure QueueDrains (env : Env) (policy : ConversationPolicy) (now : Time) (db : Db)
    (calls : List ClaimCall) (handed : List (Option ConversationTask)) : Prop where
  authorized : ∀ t, t ∈ authorizedTasks db policy now ↔
    t ∈ db.conversationTasks.rows ∧ t.state = .reserved ∧ claimAuthority db policy now t = true
  refused : ∀ t, t ∈ refusedTasks db policy now ↔
    t ∈ claimQueue db (pgTime now) ∧ t ∉ authorizedTasks db policy now
  ascending : Ascending claimKey (authorizedTasks db policy now)
  answers : (claimCalls env policy now calls db).1.map (·.map (Option.map Claimed.packet)) =
    List.zipWith (fun call t => .ok (t.map (claimedPacket env policy call.owner))) calls handed
  length : handed.length = calls.length
  inOrder : handed.reduceOption <+: authorizedTasks db policy now
  emptied : (authorizedTasks db policy now).length + (refusedTasks db policy now).length / 100 + 1 ≤
      calls.length →
    handed.reduceOption = authorizedTasks db policy now ∧
      claimQueue (claimCalls env policy now calls db).2 (pgTime now) = []
  failed : claimQueue (claimCalls env policy now calls db).2 (pgTime now) = [] →
    ∀ t ∈ refusedTasks db policy now,
      ∃ t' ∈ (claimCalls env policy now calls db).2.conversationTasks.rows,
        t'.taskId = t.taskId ∧ t'.state = .failed
  silent : claimQueue (claimCalls env policy now calls db).2 (pgTime now) = [] →
    ∀ owner, shortText owner = true → ∀ fresh,
      claim env policy owner (fun _ => now) (fun _ => now) fresh
        (claimCalls env policy now calls db).2 = (.ok none, (claimCalls env policy now calls db).2)

section Calls

variable {policy : ConversationPolicy} {now : Time} {start db : Db}

theorem claim_of_empty (henabled : policy.enabled = true) {owner : String}
    (howner : shortText owner = true) (fresh : Nat → Uuid)
    (hqueue : claimQueue db (pgTime now) = []) :
    claim env policy owner (fun _ => now) (fun _ => now) fresh db = (.ok none, db) := by
  rw [claim, checkClaim_ok henabled howner]
  change claimRounds env policy owner _ _ fresh (99 + 1) db = _
  rw [claimRounds, claimRound_empty hqueue]

/-- The claims are the calls on the queue. -/
theorem Draining.calls (h : Draining env formats policy now start db)
    (hstart : Reached (env.underProfile formats) start) (hvalid : policy.validate = .ok ())
    (henabled : policy.enabled = true) {calls : List ClaimCall}
    (howners : ∀ call ∈ calls, ownerText call.owner = true)
    (hfresh : ∀ call ∈ calls, ∀ i, ∀ u ∈ start.conversationUpdates.rows,
      u.updateId ≠ call.fresh i)
    (hexpiry : ∀ x ∈ claimQueue start (pgTime now), claimAuthority start policy now x = true →
      Renderable env formats (claimExpiry policy x)) :
    let served := Drain.serveAll (claimAuthority start policy now) 100 calls.length
      (claimQueue db (pgTime now))
    let result := claimCalls (env.underProfile formats) policy now calls db
    result.1.map (·.map (Option.map Claimed.packet)) = List.zipWith (fun call t =>
        .ok (t.map (claimedPacket (env.underProfile formats) policy call.owner))) calls served.1 ∧
      claimQueue result.2 (pgTime now) = served.2 ∧
      Draining env formats policy now start result.2 := by
  induction calls generalizing db with
  | nil => exact ⟨rfl, rfl, h⟩
  | cons call calls ih =>
      obtain ⟨answer, db', hrounds, hserved, hdraining⟩ := h.rounds hstart hvalid henabled
        (howners call List.mem_cons_self) (hfresh call List.mem_cons_self) hexpiry 100
      have hclaim : claim (env.underProfile formats) policy call.owner (fun _ => now)
          (fun _ => now) call.fresh db = (.ok answer, db') := by
        rw [claim, checkClaim_ok henabled (shortText_of_ownerText
          (howners call List.mem_cons_self))]
        exact hrounds
      obtain ⟨hpacket, hqueue⟩ := Prod.mk.inj hserved
      obtain ⟨hanswers, hleft, hend⟩ := ih hdraining
        (fun call hcall => howners call (List.mem_cons_of_mem _ hcall))
        (fun call hcall => hfresh call (List.mem_cons_of_mem _ hcall))
      rw [hqueue] at hanswers hleft
      simp only [claimCalls, hclaim, List.length_cons, Drain.serveAll, List.map_cons,
        List.zipWith_cons_cons]
      refine ⟨?_, hleft, hend⟩
      rw [hanswers, Except.map, hpacket]
      rfl

end Calls

theorem claims_drain (env : Env) (formats : Formats) (ops : List Op) (policy : ConversationPolicy)
    (hvalid : policy.validate = .ok ()) (henabled : policy.enabled = true) (now : Time)
    (calls : List ClaimCall) (howners : ∀ call ∈ calls, ownerText call.owner = true)
    (hfresh : ∀ call ∈ calls, ∀ i,
      ∀ u ∈ ((gateway (env.underProfile formats)).run ops).db.conversationUpdates.rows,
        u.updateId ≠ call.fresh i)
    (hinstants : ∀ t ∈ authorizedTasks ((gateway (env.underProfile formats)).run ops).db policy now,
      Renderable env formats (claimExpiry policy t)) :
    ∃ handed, QueueDrains (env.underProfile formats) policy now
      ((gateway (env.underProfile formats)).run ops).db calls handed := by
  have hstart := reached_run (env.underProfile formats) ops
  generalize ((gateway (env.underProfile formats)).run ops).db = db at *
  obtain ⟨hanswers, hqueue, hdraining⟩ := (Draining.refl hstart).calls hstart hvalid henabled
    howners hfresh fun t ht hpass => hinstants t (List.mem_filter.mpr ⟨ht, hpass⟩)
  have hsplit := Drain.handed_append_queued (claimAuthority db policy now) 100 calls.length
    (claimQueue db (pgTime now))
  refine ⟨_, fun t => ?_, fun t => ?_, (claimQueue_ascending db (pgTime now)).filter _, hanswers,
    Drain.length_serveAll 100 calls.length _, ⟨_, hsplit⟩, fun hcalls => ?_, fun hempty t ht => ?_,
    fun hempty owner howner fresh => claim_of_empty henabled howner fresh hempty⟩
  · rw [authorizedTasks, List.mem_filter, mem_claimQueue]
    constructor
    · rintro ⟨⟨ht, hawaits⟩, hpass⟩
      rw [hstart.claimable.claimAuthority_eq ht (live_of_awaitsClaim hawaits)] at hpass
      refine ⟨ht, ?_, ?_⟩
      · cases hauthority : taskAuthority policy ⟨t, .reserved, some t.taskId⟩ none true now with
        | error _ =>
            rw [hauthority] at hpass
            cases hpass
        | ok _ => exact ((taskAuthority_ok hauthority).2.2.2.1 rfl).1
      · rwa [hstart.claimable.claimAuthority_eq ht (live_of_awaitsClaim hawaits)]
    · rintro ⟨ht, hstate, hpass⟩
      have hagent := (hstart.claimable.servable.tasks t ht).agent
      exact ⟨⟨ht, by simp [awaitsClaim, hstate, hagent]⟩, hpass⟩
  · simp only [refusedTasks, authorizedTasks, List.mem_filter, not_and, Bool.not_eq_true,
      Bool.not_eq_true']
    tauto
  · have hend := Drain.serveAll_empties (by decide) hcalls
    rw [hend, List.filter_nil, List.append_nil] at hsplit
    exact ⟨hsplit, hqueue.trans hend⟩
  · obtain ⟨hwaited, hdenied⟩ := List.mem_filter.mp ht
    obtain ⟨t', ht', hid, hstate⟩ := hdraining.settled t hwaited (by rw [hempty]; simp)
    rw [Bool.not_eq_true'] at hdenied
    rw [hdenied] at hstate
    exact ⟨t', ht', hid, hstate⟩

/-- Two turns are reserved, one of them under a policy that is no longer in
force. -/
def sampleQueue : List Op :=
  [.reserve { samplePolicy with policyRevision := "p0" } sampleActor
      ((sampleRequest.set "requestId" (6 : Uuid)).set "roomId" (2 : Uuid)) (seconds 1000) none none
      (fun _ => seconds 100) (fun n => .ofNat (10 + n)),
    .reserve samplePolicy sampleActor sampleRequest (seconds 1000) none none
      (fun _ => seconds 100) (fun n => .ofNat (20 + n))]

def sampleClaims : List ClaimCall :=
  [⟨"w1", fun n => .ofNat (30 + n)⟩, ⟨"w2", fun n => .ofNat (200 + n)⟩]

/-- The run evaluated: of the two tasks, the first is to fail. -/
theorem sample_queue_run :
    (authorizedTasks ((gateway (sampleEnv.underProfile sampleFormats)).run sampleQueue).db
        samplePolicy (seconds 101)).map (·.taskId) = [21] ∧
      (refusedTasks ((gateway (sampleEnv.underProfile sampleFormats)).run sampleQueue).db
        samplePolicy (seconds 101)).map (·.taskId) = [11] ∧
      ((gateway (sampleEnv.underProfile sampleFormats)).run
        sampleQueue).db.conversationUpdates.rows.isEmpty = true ∧
      ∀ t ∈ authorizedTasks ((gateway (sampleEnv.underProfile sampleFormats)).run sampleQueue).db
        samplePolicy (seconds 101),
        Renderable sampleEnv sampleFormats (claimExpiry samplePolicy t) := by
  decide +kernel

theorem claims_drain_sample :
    (authorizedTasks ((gateway (sampleEnv.underProfile sampleFormats)).run sampleQueue).db
        samplePolicy (seconds 101)).map (·.taskId) = [21] ∧
      (refusedTasks ((gateway (sampleEnv.underProfile sampleFormats)).run sampleQueue).db
        samplePolicy (seconds 101)).map (·.taskId) = [11] ∧
      ∃ handed, QueueDrains (sampleEnv.underProfile sampleFormats) samplePolicy (seconds 101)
        ((gateway (sampleEnv.underProfile sampleFormats)).run sampleQueue).db
          sampleClaims handed := by
  obtain ⟨hauthorized, hrefused, hnone, hinstants⟩ := sample_queue_run
  have hfresh : ∀ call ∈ sampleClaims, ∀ i,
      ∀ u ∈ ((gateway (sampleEnv.underProfile sampleFormats)).run
        sampleQueue).db.conversationUpdates.rows, u.updateId ≠ call.fresh i := by
    rw [List.isEmpty_iff.mp hnone]
    exact fun _ _ _ u hu => absurd hu List.not_mem_nil
  have hvalid : samplePolicy.validate = .ok () := by decide +kernel
  have howners : ∀ call ∈ sampleClaims, ownerText call.owner = true := by decide
  exact ⟨hauthorized, hrefused, claims_drain sampleEnv sampleFormats sampleQueue samplePolicy hvalid
    (by decide) (seconds 101) sampleClaims howners hfresh hinstants⟩

end RoomGateway
