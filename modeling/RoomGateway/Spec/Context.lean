import RoomGateway.Model.Context
import RoomGateway.Spec.Writes

/-!
What building a context amounts to: it only reads, and the context is the value
of the window's items and the room's decisions, under a digest.
-/

namespace RoomGateway

variable {env : Env} {db db' : Db}

/-- The context that `buildContext` returns, and how it came about. -/
structure BuiltContext (env : Env) (db : Db) (room conversation : Uuid) (generation base : Int)
    (trigger : Uuid) (policy : ConversationPolicy) (event : RoomEvent)
    (items : List ContextItem) (context : Json) : Prop where
  found : db.roomEvents.rows.find? (isTrigger env room trigger) = some event
  base_nonneg : 0 ≤ base
  base_lt : base < event.sequence
  items_eq : (contextRows env db room conversation generation base event.sequence).mapM
    (contextItem env conversation generation base) = .ok items
  digested : ∃ bytes, canonicalContextBytes (contextPreimage room conversation generation trigger
      policy (contextValue policy base event.sequence items
        (byDecisionId (contextDecisions env db room event.sequence)))) = .ok bytes ∧
    context = (contextValue policy base event.sequence items
      (byDecisionId (contextDecisions env db room event.sequence))).set "digest"
        (env.sha256Hex (String.ofList bytes))

theorem BuiltContext.context_eq {room conversation : Uuid} {generation base : Int} {trigger : Uuid}
    {policy : ConversationPolicy} {event : RoomEvent} {items : List ContextItem} {context : Json}
    (h : BuiltContext env db room conversation generation base trigger policy event items context) :
    ∃ digest : String, context =
      (contextValue policy base event.sequence items
        (byDecisionId (contextDecisions env db room event.sequence))).set "digest" digest := by
  obtain ⟨bytes, -, hcontext⟩ := h.digested
  exact ⟨_, hcontext⟩

theorem buildContext_ok {room conversation : Uuid} {generation base : Int} {trigger : Uuid}
    {policy : ConversationPolicy} {context : Json}
    (h : (buildContext env room conversation generation base trigger policy).exec db =
      .ok (context, db')) :
    db = db' ∧ ∃ event items,
      BuiltContext env db room conversation generation base trigger policy event items
        context := by
  simp only [buildContext, freezeContext, lockRoom, Prog.exec_bind_ok, Prog.exec_mapErr_ok,
    Prog.exec_acquire_ok, Prog.exec_query_ok, Prog.exec_orFail_ok, Prog.exec_ensure_ok,
    Prog.exec_ofExcept_ok, Prog.exec_pure_ok] at h
  obtain ⟨_, _, rfl, _, _, ⟨rfl, rfl⟩, event, _, ⟨hfound, rfl⟩, _, _, ⟨hrange, rfl⟩, frozen, _,
    ⟨_, _, ⟨rfl, rfl⟩, _, _, ⟨-, rfl⟩, _, _, ⟨-, rfl⟩, _, _, ⟨rfl, rfl⟩, items, _, ⟨hitems, rfl⟩,
      _, _, ⟨rfl, rfl⟩, _, _, ⟨-, rfl⟩, _, _, ⟨rfl, rfl⟩, rfl, rfl⟩,
    bytes, _, ⟨hbytes, rfl⟩, _, _, ⟨-, rfl⟩, rfl, rfl⟩ := h
  simp only [Bool.not_eq_true', Bool.or_eq_false_iff, decide_eq_false_iff_not, not_lt,
    not_le] at hrange
  exact ⟨rfl, event, items, hfound, hrange.1.1.1.1, hrange.1.1.1.2, hitems, bytes, hbytes, rfl⟩

end RoomGateway
