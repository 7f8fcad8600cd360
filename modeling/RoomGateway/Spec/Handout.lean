import RoomGateway.Spec.Lifecycle

/-!
How tasks go on from step to step: none disappears, a lease stays as it was
given, and a completed task keeps its reply. Hence a task is handed out at most
once.
-/

namespace RoomGateway

open Table

variable {env : Env}

/-! ### How a task goes on -/

/-- A task later: a lease stays as it was given, and a completed task changes
in nothing but its ordinal. -/
structure Continues (t t' : ConversationTask) : Prop where
  origin : t'.origin = t.origin
  lease : ∀ token, t.leaseToken = some token → t'.leaseToken = some token
  completed : t.state = .completed → t = { t' with lastUpdateOrdinal := t.lastUpdateOrdinal }

/-- Every task is still there. -/
def TasksContinue (db db' : Db) : Prop :=
  ∀ t ∈ db.conversationTasks.rows, ∃ t' ∈ db'.conversationTasks.rows, Continues t t'

theorem Continues.refl (t : ConversationTask) : Continues t t := ⟨rfl, fun _ h => h, fun _ => rfl⟩

theorem Continues.taskId_eq {t t' : ConversationTask} (h : Continues t t') :
    t'.taskId = t.taskId :=
  eq_of_origin ConversationTask.taskId (fun _ => rfl) h.origin

theorem Continues.trans {t u v : ConversationTask} (htu : Continues t u) (huv : Continues u v) :
    Continues t v where
  origin := huv.origin.trans htu.origin
  lease := fun token h => huv.lease token (htu.lease token h)
  completed := by
    intro h
    have hu := htu.completed h
    have hstate : u.state = .completed := by
      rw [hu] at h
      exact h
    rw [hu, huv.completed hstate]

theorem TasksContinue.trans {a b c : Db} (hab : TasksContinue a b) (hbc : TasksContinue b c) :
    TasksContinue a c := by
  intro t ht
  obtain ⟨u, hu, htu⟩ := hab t ht
  obtain ⟨v, hv, huv⟩ := hbc u hu
  exact ⟨v, hv, htu.trans huv⟩

theorem Continues.of_live {t t' : ConversationTask} (hlive : t.state.live = true)
    (origin : t'.origin = t.origin)
    (lease : ∀ token, t.leaseToken = some token → t'.leaseToken = some token) :
    Continues t t' := by
  refine ⟨origin, lease, fun h => ?_⟩
  rw [h] at hlive
  cases hlive

section Steps

variable {stale update : Prop} {db db' : Db} {t t' : ConversationTask} {c c' : AgentConversation}

theorem TurnChange.tasksContinue (h : TurnChange db db' t t' c c') (hc : Continues t t') :
    TasksContinue db db' := by
  intro x hx
  by_cases hid : x.taskId = t.taskId
  · rw [Db.task_unique hx h.task hid]
    exact ⟨t', h.mem_tasks.mpr (.inl rfl), hc⟩
  · exact ⟨x, h.mem_tasks.mpr (.inr ⟨hx, hid⟩), .refl x⟩

theorem endedTask_leaseToken (error : ConversationError) (txNow : Time) (t : ConversationTask) :
    (endedTask error txNow t).leaseToken = t.leaseToken := by
  unfold endedTask
  split <;> rfl

/-- Failing a task, whether it was under way or had ended. -/
theorem continues_endedTask (error : ConversationError) (txNow : Time) (ordinal : Int)
    (t : ConversationTask) :
    Continues t { endedTask error txNow t with lastUpdateOrdinal := ordinal } := by
  refine ⟨endedTask_origin .., fun token h => (endedTask_leaseToken ..).trans h, fun h => ?_⟩
  rw [endedTask_of_ended (by rw [h]; rfl)]

theorem Effect.tasksContinue (h : Effect env stale update db db') : TasksContinue db db' := by
  cases h with
  | quiet h => exact fun t ht => ⟨t, h.tasks ▸ ht, .refl t⟩
  | reserved h => exact fun t ht => ⟨t, h.tasks ▸ List.mem_append_left _ ht, .refl t⟩
  | claimed h =>
      refine h.change.tasksContinue (.of_live h.underWay.live rfl fun token htoken => ?_)
      rw [h.unclaimed] at htoken
      cases htoken
  | completed _ h =>
      exact h.change.tasksContinue (.of_live h.underWay.live rfl fun _ htoken => htoken)
  | reported _ h => exact h.change.tasksContinue (continues_endedTask ..)
  | noted _ h =>
      obtain ⟨_, _, _, _, change⟩ := h.change
      exact change.tasksContinue (.of_live h.underWay.live rfl fun _ htoken => htoken)
  | failed _ h => exact h.change.tasksContinue (continues_endedTask ..)
  | staleFailed _ _ h => exact h.change.tasksContinue (continues_endedTask ..)

theorem TurnChange.origin_cases (h : TurnChange db db' t t' c c') (horigin : t'.origin = t.origin)
    {x : ConversationTask} (hx : x ∈ db'.conversationTasks.rows) :
    ∃ y ∈ db.conversationTasks.rows, x.origin = y.origin := by
  rcases h.mem_tasks.mp hx with rfl | ⟨hx, -⟩
  · exact ⟨t, h.task, horigin⟩
  · exact ⟨x, hx, rfl⟩

/-- A task of the new state is one of the old state, or was just reserved. -/
theorem Effect.origin_cases (h : Effect env stale update db db') {x : ConversationTask}
    (hx : x ∈ db'.conversationTasks.rows) :
    (∃ y ∈ db.conversationTasks.rows, x.origin = y.origin) ∨
      ∃ policy actor turn c prompt base items context,
        ReservedTurn env db db' policy actor turn x c prompt base items context := by
  cases h with
  | quiet h => exact .inl ⟨x, h.tasks ▸ hx, rfl⟩
  | reserved r =>
      rw [r.tasks, List.mem_append, List.mem_singleton] at hx
      rcases hx with hx | rfl
      · exact .inl ⟨x, hx, rfl⟩
      · exact .inr ⟨_, _, _, _, _, _, _, _, r⟩
  | claimed h => exact .inl (h.change.origin_cases rfl hx)
  | completed _ h => exact .inl (h.change.origin_cases rfl hx)
  | reported _ h => exact .inl (h.change.origin_cases (endedTask_origin ..) hx)
  | noted _ h =>
      obtain ⟨_, _, _, _, change⟩ := h.change
      exact .inl (change.origin_cases rfl hx)
  | failed _ h => exact .inl (h.change.origin_cases (endedTask_origin ..) hx)
  | staleFailed _ _ h => exact .inl (h.change.origin_cases (endedTask_origin ..) hx)

end Steps

theorem gateway_tasksContinue (ops more : List Op) :
    TasksContinue ((gateway env).run ops).db ((gateway env).run (ops ++ more)).db := by
  rw [Machine.run_append]
  exact Machine.runFrom_trans (R := fun a b : Sys => TasksContinue a.db b.db) (P := fun _ => True)
    (fun _ t ht => ⟨t, ht, .refl t⟩) (fun _ _ _ => TasksContinue.trans) (fun _ _ _ _ => trivial)
    (fun s op _ _ => (gateway_effect s op).tasksContinue) trivial (Machine.guarded_true _ more)

/-! ### Hand-outs -/

/-- The task of the packet that a step hands to a worker. -/
def handedOut (env : Env) (s : Sys) (op : Op) : List Json :=
  match (gateway env).out s op with
  | .claimed (.ok (some claimed)) => [claimed.packet["taskId"]]
  | _ => []

theorem leasedPacket_taskId (t : ConversationTask) (owner : Option String)
    (leaseExpiresAt : Option Time) :
    (leasedPacket env t owner leaseExpiresAt)["taskId"] = t.frozenInput["taskId"] := by
  rw [leasedPacket, Json.getElem_set_of_ne (by decide), Json.getElem_set_of_ne (by decide)]

/-- A claim that returns a task gave it a lease. -/
theorem claimed_of_out {s : Sys} {op : Op} {claimed : Claimed}
    (hout : (gateway env).out s op = .claimed (.ok (some claimed))) :
    ∃ t c owner expiry txNow grace,
      ClaimedTurn s.db ((gateway env).next s op).db t c owner claimed.leaseToken expiry txNow ∧
      expiry = min (t.expiresAt + seconds grace) t.authorizationExpiresAt ∧
      claimed.packet = leasedPacket env t (some owner) (some expiry) := by
  cases op with
  | claimFinish now fresh =>
      cases hpending : s.claiming with
      | none => simp [Machine.out, gateway, gatewayStep, Sys.claimFinish, hpending] at hout
      | some p =>
          have hnext : ((gateway env).next s (.claimFinish now fresh)).db =
              ((claimLocked env p.policy p.owner p.task p.room p.txNow now
                fresh).runTx s.db).2 := by
            simp [Machine.next, gateway, gatewayStep, Sys.claimFinish, hpending]
          have hresult : ((claimLocked env p.policy p.owner p.task p.room p.txNow now
              fresh).runTx s.db).1 = .ok (some claimed) := by
            simpa [Machine.out, gateway, gatewayStep, Sys.claimFinish, hpending] using hout
          rw [hnext]
          rcases Prog.runTx_ok hresult with ⟨_, hrollback, -⟩ | hcommit
          · obtain ⟨_, _, -, -, ⟨_, h, -⟩ | ⟨_, h, -⟩⟩ := claimLocked_ok hrollback
            · cases h
            · cases h
          · obtain ⟨row, c, -, -, ⟨_, h, -⟩ | ⟨expiry, h, -, hexpiry, hturn⟩⟩ :=
              claimLocked_ok hcommit
            · cases h
            · cases h
              exact ⟨row.task, c, p.owner, expiry, p.txNow, _, hturn, hexpiry, rfl⟩
  | claimSelect policy owner txNow =>
      simp only [Machine.out, gateway, gatewayStep, Sys.claimSelect] at hout
      split at hout
      · cases hout
      · cases hout
      · split at hout <;> cases hout
  | _ => cases hout

/-- Only the second half of a claim hands out a task, and it gives it a lease. -/
theorem handedOut_cases (env : Env) (s : Sys) (op : Op) : handedOut env s op = [] ∨
    ∃ t c owner token leaseExpiry txNow,
      ClaimedTurn s.db ((gateway env).next s op).db t c owner token leaseExpiry txNow ∧
      handedOut env s op = [t.frozenInput["taskId"]] := by
  cases hout : (gateway env).out s op with
  | claimed r =>
      obtain _ | _ | claimed := r
      · exact .inl (by rw [handedOut, hout])
      · exact .inl (by rw [handedOut, hout])
      · obtain ⟨t, c, owner, expiry, txNow, _, hturn, -, hpacket⟩ := claimed_of_out hout
        refine .inr ⟨t, c, owner, _, expiry, txNow, hturn, ?_⟩
        have hid : claimed.packet["taskId"] = t.frozenInput["taskId"] := by
          rw [hpacket, leasedPacket_taskId]
        rw [handedOut, hout]
        exact congrArg (fun id => [id]) hid
  | _ => exact .inl (by rw [handedOut, hout])

/-- The frozen input of a task names it. -/
def FrozenNamed (db : Db) : Prop :=
  ∀ t ∈ db.conversationTasks.rows, t.frozenInput["taskId"] = Json.str t.taskId.text

theorem FrozenNamed.step {stale update : Prop} {db db' : Db} (h : FrozenNamed db)
    (heffect : Effect env stale update db db') : FrozenNamed db' := by
  intro t' ht'
  rcases heffect.origin_cases ht' with ⟨t, ht, horigin⟩ | ⟨_, _, _, _, _, _, _, _, r⟩
  · rw [eq_of_origin ConversationTask.frozenInput (fun _ => rfl) horigin, h t ht,
      eq_of_origin ConversationTask.taskId (fun _ => rfl) horigin]
  · exact r.frozenTask

/-- What was handed out so far: tasks that have a lease, each once. -/
structure HandedOut (db : Db) (handed : List Json) : Prop where
  named : FrozenNamed db
  leased : ∀ id ∈ handed, ∃ t ∈ db.conversationTasks.rows, id = Json.str t.taskId.text ∧
    t.leaseToken.isSome = true
  nodup : handed.Nodup

theorem HandedOut.step {s : Sys} {handed : List Json} (h : HandedOut s.db handed) (op : Op) :
    HandedOut ((gateway env).next s op).db (handed ++ handedOut env s op) := by
  have heffect : Effect env _ _ s.db ((gateway env).next s op).db := gateway_effect s op
  have hkept : ∀ id ∈ handed, ∃ t ∈ ((gateway env).next s op).db.conversationTasks.rows,
      id = Json.str t.taskId.text ∧ t.leaseToken.isSome = true := by
    intro id hid
    obtain ⟨t, ht, hname, hlease⟩ := h.leased id hid
    obtain ⟨t', ht', hc⟩ := heffect.tasksContinue t ht
    obtain ⟨token, htoken⟩ := Option.isSome_iff_exists.mp hlease
    exact ⟨t', ht', by rw [hc.taskId_eq, hname], by rw [hc.lease token htoken]; rfl⟩
  rcases handedOut_cases env s op with hnone | ⟨t, c, owner, token, expiry, txNow, hturn, hout⟩
  · rw [hnone, List.append_nil]
    exact ⟨h.named.step heffect, hkept, h.nodup⟩
  · have hname := h.named t hturn.change.task
    rw [hout]
    refine ⟨h.named.step heffect, fun id hid => ?_, ?_⟩
    · rcases List.mem_append.mp hid with hid | hid
      · exact hkept id hid
      · rw [List.mem_singleton.mp hid, hname]
        exact ⟨claimedTask t owner token expiry txNow, hturn.change.mem_tasks.mpr (.inl rfl), rfl,
          rfl⟩
    · rw [List.nodup_append]
      refine ⟨h.nodup, List.nodup_singleton _, fun id hid other hother heq => ?_⟩
      -- a task that was handed out before has a lease, and this one had none
      obtain ⟨x, hx, hxname, hxlease⟩ := h.leased id hid
      rw [List.mem_singleton.mp hother, hname, hxname] at heq
      have hid := Uuid.text_injective (Json.str.inj heq)
      rw [Db.task_unique hx hturn.change.task hid, hturn.unclaimed] at hxlease
      cases hxlease

theorem gateway_handedOut (ops : List Op) :
    HandedOut ((gateway env).run ops).db
      ((gateway env).collect (handedOut env) (gateway env).init ops) :=
  Machine.collect_invariant (P := fun s : Sys => HandedOut s.db)
    ⟨by simp [FrozenNamed, gateway], by simp, List.nodup_nil⟩ (fun _ _ op h => h.step op) ops

end RoomGateway
