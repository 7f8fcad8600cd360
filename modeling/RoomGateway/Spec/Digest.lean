import RoomGateway.Spec.CanonicalText
import RoomGateway.Spec.Handout

/-!
What a worker can check of the packets it receives: the digest of a context is
that of the packet's own fields, whatever order a store gives back their keys
in, and a task's packets are all the same.
-/

namespace RoomGateway

open Table

variable {env : Env}

/-! ### The digest of a packet -/

/-- What a worker hashes, from the packet alone. -/
def packetPreimage (packet : Json) : Json :=
  .obj [("roomId", packet["roomId"]), ("agentId", packet["agentId"]),
    ("conversationId", packet["conversation"]["id"]),
    ("generation", packet["conversation"]["generation"]),
    ("triggerEventId", packet["triggerEventId"]),
    ("guidanceRevision", packet["guidanceRevision"]),
    ("context", packet["context"].erase "digest")]

def DigestMatches (env : Env) (packet : Json) : Prop :=
  ∃ bytes, canonicalContextBytes (packetPreimage packet) = .ok bytes ∧
    packet["context"]["digest"] = Json.str (env.sha256Hex (String.ofList bytes))

/-- What a worker hashes does not depend on the order of the packet's keys. -/
theorem packetPreimage_sorted {p q : Json} (h : q.sortKeys = p.sortKeys) :
    (packetPreimage q).sortKeys = (packetPreimage p).sortKeys := by
  simp only [packetPreimage, Json.sortKeys, Json.sortFields, Json.sortKeys_erase,
    ← Json.getElem_sortKeys, h]

theorem DigestMatches.of_sorted {p q : Json} (hp : DigestMatches env p)
    (h : q.sortKeys = p.sortKeys) : DigestMatches env q := by
  obtain ⟨bytes, hbytes, hdigest⟩ := hp
  refine ⟨bytes, ?_, ?_⟩
  · rw [← canonicalContextBytes_sortKeys, packetPreimage_sorted h, canonicalContextBytes_sortKeys]
    exact hbytes
  · have hsame : q["context"]["digest"].sortKeys = p["context"]["digest"].sortKeys := by
      rw [← Json.getElem_sortKeys, ← Json.getElem_sortKeys, h, Json.getElem_sortKeys,
        Json.getElem_sortKeys]
    rw [hdigest] at hsame
    exact Json.eq_str_of_sortKeys hsame

theorem leasedPacket_getElem {key : String} (howner : key ≠ "leaseOwner")
    (hexpiry : key ≠ "leaseExpiresAt") (t : ConversationTask) (owner : Option String)
    (expiry : Option Time) : (leasedPacket env t owner expiry)[key] = t.frozenInput[key] := by
  rw [leasedPacket, Json.getElem_set_of_ne hexpiry.symm, Json.getElem_set_of_ne howner.symm]

/-- A lease is not part of what is hashed. -/
theorem digestMatches_leasedPacket {t : ConversationTask} (h : DigestMatches env t.frozenInput)
    (owner : Option String) (expiry : Option Time) :
    DigestMatches env (leasedPacket env t owner expiry) := by
  obtain ⟨bytes, hbytes, hdigest⟩ := h
  have hpreimage : packetPreimage (leasedPacket env t owner expiry) =
      packetPreimage t.frozenInput := by
    simp [packetPreimage, leasedPacket_getElem]
  have hcontext : (leasedPacket env t owner expiry)["context"] = t.frozenInput["context"] :=
    leasedPacket_getElem (by decide) (by decide) t owner expiry
  exact ⟨bytes, hpreimage ▸ hbytes, hcontext ▸ hdigest⟩

/-- A turn is frozen with the digest of its own fields. -/
theorem ReservedTurn.digestMatches {db db' : Db} {policy : ConversationPolicy} {actor : Actor}
    {turn : TurnRequest} {t : ConversationTask} {c : AgentConversation} {prompt : RoomEvent}
    {base : Int} {items : List ContextItem} {context : Json}
    (r : ReservedTurn env db db' policy actor turn t c prompt base items context) :
    DigestMatches env t.frozenInput := by
  obtain ⟨target, mode, hconversation, hgeneration, hinput, -⟩ := r.input
  obtain ⟨bytes, hbytes, hcontext⟩ := r.built.digested
  generalize byDecisionId (contextDecisions env { db with roomEvents := db'.roomEvents } turn.room
    prompt.sequence) = decisions at hbytes hcontext
  have herase : context.erase "digest" =
      contextValue policy base prompt.sequence items decisions := by
    rw [hcontext, contextValue]
    exact Json.erase_set _ (by simp)
  refine ⟨bytes, ?_, ?_⟩
  · rw [← hbytes, hinput, hconversation, hgeneration, ← herase]
    simp [packetPreimage, frozenInput, contextPreimage]
  · rw [r.frozen, hcontext, contextValue, Json.getElem_set_self]

/-! ### The lease of a packet -/

/-- A task later: it is frozen as it was, and a lease stays as it was given. -/
structure LeaseKept (t t' : ConversationTask) : Prop where
  origin : t'.origin = t.origin
  lease : t.leaseToken.isSome = true → t'.leaseToken = t.leaseToken ∧ t'.leaseOwner = t.leaseOwner ∧
    t'.leaseExpiresAt = t.leaseExpiresAt

theorem LeaseKept.leasedPacket_eq {t t' : ConversationTask} (h : LeaseKept t t')
    (hleased : t.leaseToken.isSome = true) :
    leasedPacket env t' t'.leaseOwner t'.leaseExpiresAt =
      leasedPacket env t t.leaseOwner t.leaseExpiresAt := by
  obtain ⟨-, howner, hexpiry⟩ := h.lease hleased
  rw [leasedPacket, leasedPacket, howner, hexpiry,
    eq_of_origin ConversationTask.frozenInput (fun _ => rfl) h.origin]

def LeasesKept (db db' : Db) : Prop :=
  ∀ t ∈ db.conversationTasks.rows, ∃ t' ∈ db'.conversationTasks.rows, LeaseKept t t'

section Steps

variable {stale update : Prop} {db db' : Db} {t t' : ConversationTask} {c c' : AgentConversation}

theorem LeaseKept.refl (t : ConversationTask) : LeaseKept t t := ⟨rfl, fun _ => ⟨rfl, rfl, rfl⟩⟩

theorem TurnChange.leasesKept (h : TurnChange db db' t t' c c') (hkept : LeaseKept t t') :
    LeasesKept db db' := by
  intro x hx
  by_cases hid : x.taskId = t.taskId
  · rw [Db.task_unique hx h.task hid]
    exact ⟨t', h.mem_tasks.mpr (.inl rfl), hkept⟩
  · exact ⟨x, h.mem_tasks.mpr (.inr ⟨hx, hid⟩), .refl x⟩

theorem leaseKept_endedTask (error : ConversationError) (txNow : Time) (ordinal : Int)
    (t : ConversationTask) :
    LeaseKept t { endedTask error txNow t with lastUpdateOrdinal := ordinal } := by
  refine ⟨endedTask_origin .., fun _ => ?_⟩
  unfold endedTask
  split <;> exact ⟨rfl, rfl, rfl⟩

theorem Effect.leasesKept (h : Effect env stale update db db') : LeasesKept db db' := by
  cases h with
  | quiet h => exact fun t ht => ⟨t, h.tasks ▸ ht, .refl t⟩
  | reserved h => exact fun t ht => ⟨t, h.tasks ▸ List.mem_append_left _ ht, .refl t⟩
  | claimed h =>
      refine h.change.leasesKept ⟨rfl, fun hleased => ?_⟩
      rw [h.unclaimed] at hleased
      cases hleased
  | completed _ h => exact h.change.leasesKept ⟨rfl, fun _ => ⟨rfl, rfl, rfl⟩⟩
  | reported _ h => exact h.change.leasesKept (leaseKept_endedTask ..)
  | noted _ h =>
      obtain ⟨_, _, _, _, change⟩ := h.change
      exact change.leasesKept ⟨rfl, fun _ => ⟨rfl, rfl, rfl⟩⟩
  | failed _ h => exact h.change.leasesKept (leaseKept_endedTask ..)
  | staleFailed _ _ h => exact h.change.leasesKept (leaseKept_endedTask ..)

end Steps

/-! ### Runs -/

/-- The packet that a step returns to a worker. -/
def returnedPackets (env : Env) (s : Sys) (op : Op) : List Json :=
  match (gateway env).out s op with
  | .claimed (.ok (some claimed)) => [claimed.packet]
  | .packet (.ok packet) => [packet]
  | _ => []

theorem dvd_seconds (n : Int) : (1000 : Int) ∣ seconds n :=
  Dvd.dvd.mul_left (by decide) n

/-- What is known of every task: its frozen input matches its digest, and its
deadlines are instants that the store keeps. -/
structure Sealed (env : Env) (t : ConversationTask) : Prop where
  digest : DigestMatches env t.frozenInput
  expiresAt : (1000 : Int) ∣ t.expiresAt
  authorizationExpiresAt : (1000 : Int) ∣ t.authorizationExpiresAt

theorem ReservedTurn.sealed {db db' : Db} {policy : ConversationPolicy} {actor : Actor}
    {turn : TurnRequest} {t : ConversationTask} {c : AgentConversation} {prompt : RoomEvent}
    {base : Int} {items : List ContextItem} {context : Json}
    (r : ReservedTurn env db db' policy actor turn t c prompt base items context) :
    Sealed env t := by
  obtain ⟨target, settings, frozen, accepted, ht⟩ := r.task
  refine ⟨r.digestMatches, ?_, ?_⟩
  · rw [ht]
    exact dvd_pgTime _
  · rw [ht]
    exact dvd_pgTime _

theorem Effect.sealed {stale update : Prop} {db db' : Db} (heffect : Effect env stale update db db')
    (h : ∀ t ∈ db.conversationTasks.rows, Sealed env t) :
    ∀ t ∈ db'.conversationTasks.rows, Sealed env t := by
  intro t' ht'
  rcases heffect.origin_cases ht' with ⟨t, ht, horigin⟩ | ⟨_, _, _, _, _, _, _, _, r⟩
  · obtain ⟨hdigest, hexpires, hauthorization⟩ := h t ht
    refine ⟨?_, ?_, ?_⟩
    · rw [eq_of_origin ConversationTask.frozenInput (fun _ => rfl) horigin]
      exact hdigest
    · rw [eq_of_origin ConversationTask.expiresAt (fun _ => rfl) horigin]
      exact hexpires
    · rw [eq_of_origin ConversationTask.authorizationExpiresAt (fun _ => rfl) horigin]
      exact hauthorization
  · exact r.sealed

/-- A packet that is read belongs to a task that has a lease. -/
theorem packet_of_out {s : Sys} {op : Op} {value : Json}
    (hout : (gateway env).out s op = .packet (.ok value)) :
    ∃ t ∈ ((gateway env).next s op).db.conversationTasks.rows, t.leaseToken.isSome = true ∧
      value = leasedPacket env t t.leaseOwner t.leaseExpiresAt := by
  cases op with
  | packet policy task lease txNow now fresh =>
      have hresult : ((packet env policy task lease txNow now fresh).runTx s.db).1 = .ok value :=
        Out.packet.inj hout
      have hnext : ((gateway env).next s (.packet policy task lease txNow now fresh)).db =
        ((packet env policy task lease txNow now fresh).runTx s.db).2 := rfl
      rw [hnext]
      rcases Prog.runTx_ok hresult with ⟨_, hrollback, hsame⟩ | hcommit
      · obtain ⟨t, c, hjoined, hlease, rfl⟩ := packet_rollback hrollback
        rw [hsame]
        exact ⟨t, hjoined.task, by rw [hlease]; rfl, rfl⟩
      · obtain ⟨_, _, _, -, -, -, -, herror, -⟩ := packet_ok hcommit
        cases herror
  | claimSelect policy owner txNow =>
      simp only [Machine.out, gateway, gatewayStep, Sys.claimSelect] at hout
      split at hout
      · cases hout
      · cases hout
      · split at hout <;> cases hout
  | claimFinish now fresh =>
      simp only [Machine.out, gateway, gatewayStep, Sys.claimFinish] at hout
      split at hout <;> cases hout
  | _ => cases hout

/-- A packet is returned under a lease, which is recorded as the packet has it. -/
theorem returnedPackets_cases {s : Sys} (hsealed : ∀ t ∈ s.db.conversationTasks.rows, Sealed env t)
    (op : Op) : returnedPackets env s op = [] ∨
      ∃ t ∈ ((gateway env).next s op).db.conversationTasks.rows, t.leaseToken.isSome = true ∧
        returnedPackets env s op = [leasedPacket env t t.leaseOwner t.leaseExpiresAt] := by
  cases hout : (gateway env).out s op with
  | claimed r =>
      obtain _ | _ | claimed := r
      · exact .inl (by rw [returnedPackets, hout])
      · exact .inl (by rw [returnedPackets, hout])
      · right
        obtain ⟨t, c, owner, expiry, txNow, grace, hturn, hexpiry, hpacket⟩ := claimed_of_out hout
        obtain ⟨-, hdeadline, hauthorization⟩ := hsealed t hturn.change.task
        have hstored : pgTime expiry = expiry := by
          refine pgTime_of_dvd ?_
          rw [hexpiry]
          rcases min_choice (t.expiresAt + seconds grace) t.authorizationExpiresAt with h | h
          · rw [h]
            exact Int.dvd_add hdeadline (dvd_seconds grace)
          · rw [h]
            exact hauthorization
        refine ⟨_, hturn.change.mem_tasks.mpr (.inl rfl), rfl, ?_⟩
        have hsame : claimed.packet = leasedPacket env
            (claimedTask t owner claimed.leaseToken expiry txNow) (some owner)
            (some (pgTime expiry)) := by
          rw [hpacket, hstored]
          rfl
        rw [returnedPackets, hout]
        exact congrArg (fun p => [p]) hsame
  | packet r =>
      obtain _ | packet := r
      · exact .inl (by rw [returnedPackets, hout])
      · right
        obtain ⟨t, ht, hleased, rfl⟩ := packet_of_out hout
        exact ⟨t, ht, hleased, by rw [returnedPackets, hout]⟩
  | none => exact .inl (by rw [returnedPackets, hout])
  | reserved _ => exact .inl (by rw [returnedPackets, hout])
  | updated _ => exact .inl (by rw [returnedPackets, hout])
  | processed _ => exact .inl (by rw [returnedPackets, hout])
  | started _ => exact .inl (by rw [returnedPackets, hout])
  | leased _ => exact .inl (by rw [returnedPackets, hout])
  | taskUpdated _ => exact .inl (by rw [returnedPackets, hout])

/-- What holds of the packets that were returned so far. -/
structure Returned (env : Env) (db : Db) (returned : List Json) : Prop where
  named : FrozenNamed db
  sealed : ∀ t ∈ db.conversationTasks.rows, Sealed env t
  leased : ∀ p ∈ returned, ∃ t ∈ db.conversationTasks.rows, t.leaseToken.isSome = true ∧
    p = leasedPacket env t t.leaseOwner t.leaseExpiresAt

theorem Returned.step {s : Sys} {returned : List Json} (h : Returned env s.db returned) (op : Op) :
    Returned env ((gateway env).next s op).db (returned ++ returnedPackets env s op) := by
  have heffect : Effect env _ _ s.db ((gateway env).next s op).db := gateway_effect s op
  refine ⟨h.named.step heffect, heffect.sealed h.sealed, fun p hp => ?_⟩
  rcases List.mem_append.mp hp with hp | hp
  · obtain ⟨t, ht, hleased, rfl⟩ := h.leased p hp
    obtain ⟨t', ht', hkept⟩ := heffect.leasesKept t ht
    refine ⟨t', ht', ?_, (hkept.leasedPacket_eq hleased).symm⟩
    rw [(hkept.lease hleased).1]
    exact hleased
  · rcases returnedPackets_cases h.sealed op with hnone | ⟨t, ht, hleased, hone⟩
    · rw [hnone] at hp
      cases hp
    · rw [hone, List.mem_singleton] at hp
      exact ⟨t, ht, hleased, hp⟩

theorem gateway_returned (env : Env) (ops : List Op) :
    Returned env ((gateway env).run ops).db
      ((gateway env).collect (returnedPackets env) (gateway env).init ops) :=
  Machine.collect_invariant (P := fun s : Sys => Returned env s.db)
    ⟨by simp [FrozenNamed, gateway], by simp [gateway], by simp⟩ (fun _ _ op h => h.step op) ops

/-- A worker can verify what it receives, as it was stored and whatever the order
of the keys; and all packets of one task are the same. -/
structure Verifiable (env : Env) (returned : List Json) : Prop where
  digest : ∀ p ∈ returned, ∀ stored : Json, stored.sortKeys = p.sortKeys → DigestMatches env stored
  agree : ∀ p ∈ returned, ∀ q ∈ returned, p["taskId"] = q["taskId"] → p = q

theorem packets_verifiable (env : Env) (ops : List Op) :
    Verifiable env ((gateway env).collect (returnedPackets env) (gateway env).init ops) := by
  obtain ⟨hnamed, hsealed, hleased⟩ := gateway_returned env ops
  refine ⟨fun p hp stored hstored => ?_, fun p hp q hq hid => ?_⟩
  · obtain ⟨t, ht, -, rfl⟩ := hleased p hp
    exact (digestMatches_leasedPacket (hsealed t ht).digest _ _).of_sorted hstored
  · obtain ⟨t, ht, -, rfl⟩ := hleased p hp
    obtain ⟨u, hu, -, rfl⟩ := hleased q hq
    rw [leasedPacket_taskId, leasedPacket_taskId, hnamed t ht, hnamed u hu] at hid
    rw [Db.task_unique ht hu (Uuid.text_injective (Json.str.inj hid))]

end RoomGateway
