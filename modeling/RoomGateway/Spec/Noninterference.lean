import Mathlib.Algebra.BigOperators.Group.List.Basic
import RoomGateway.Lib.TwoRuns
import RoomGateway.Spec.Window

/-!
What is not public does not reach the agent: two databases that agree on the
public events and on the decisions taken from them give the same context, or
the same error, however their targeted messages and the decisions taken from
those differ.
-/

namespace RoomGateway

variable {env : Env}

/-- The databases agree on the tasks, on the public events and on the decisions
of the room whose sources are public events up to the trigger. Other events may
differ in everything, and so may other decisions. -/
structure SamePublic (env : Env) (room trigger : Uuid) (db db' : Db) : Prop where
  tasks : db'.conversationTasks = db.conversationTasks
  events : ∀ e, publicPayload env e.payload = true →
    (e ∈ db.roomEvents.rows ↔ e ∈ db'.roomEvents.rows)
  decisions : ∀ e ∈ db.roomEvents.rows, isTrigger env room trigger e = true →
    ∀ d, d.roomId = room → publicSources env db e.sequence d = true →
      (d ∈ db.decisions.rows ↔ d ∈ db'.decisions.rows)

/-- The same, once the trigger's sequence is known. -/
structure SamePublicTo (env : Env) (room : Uuid) (revision : Int) (db db' : Db) : Prop where
  tasks : db'.conversationTasks = db.conversationTasks
  events : ∀ e, publicPayload env e.payload = true →
    (e ∈ db.roomEvents.rows ↔ e ∈ db'.roomEvents.rows)
  decisions : ∀ d, d.roomId = room → publicSources env db revision d = true →
    (d ∈ db.decisions.rows ↔ d ∈ db'.decisions.rows)

section Trigger

variable {room trigger : Uuid} {db db' : Db}

theorem isTrigger_iff {e : RoomEvent} : isTrigger env room trigger e = true ↔
    e.eventId = trigger ∧ e.roomId = room ∧ e.eventType = .messageCreated ∧ e.actorRole = .human ∧
      env.text e.payload "delivery" = some "room" ∧
      e.payload.get? "audienceIds" = some (.arr []) := by
  simp [isTrigger, and_assoc]

/-- The trigger is a public message. -/
theorem publicPayload_of_isTrigger {e : RoomEvent} (h : isTrigger env room trigger e = true) :
    publicPayload env e.payload = true := by
  obtain ⟨-, -, -, -, hdelivery, haudience⟩ := isTrigger_iff.mp h
  simp [publicPayload, hdelivery, haudience]

theorem find?_trigger {e : RoomEvent} :
    db.roomEvents.rows.find? (isTrigger env room trigger) = some e ↔
      e ∈ db.roomEvents.rows ∧ isTrigger env room trigger e = true := by
  constructor
  · exact fun h => ⟨List.mem_of_find?_eq_some h, List.find?_some h⟩
  · rintro ⟨he, htrigger⟩
    refine Table.find?_eq_some_of_unique he htrigger fun x hx hxtrigger => ?_
    have hid : x.eventId = e.eventId :=
      (isTrigger_iff.mp hxtrigger).1.trans (isTrigger_iff.mp htrigger).1.symm
    exact Db.eventId_unique hx he hid

/-- The trigger is found in both databases or in neither. -/
theorem SamePublic.find?_eq (h : SamePublic env room trigger db db') :
    db.roomEvents.rows.find? (isTrigger env room trigger) =
      db'.roomEvents.rows.find? (isTrigger env room trigger) := by
  refine Option.ext fun e => ?_
  rw [find?_trigger, find?_trigger]
  exact and_congr_left fun htrigger => h.events e (publicPayload_of_isTrigger htrigger)

theorem SamePublic.upTo (h : SamePublic env room trigger db db') {e : RoomEvent}
    (he : db.roomEvents.rows.find? (isTrigger env room trigger) = some e) :
    SamePublicTo env room e.sequence db db' :=
  ⟨h.tasks, h.events, h.decisions e (find?_trigger.mp he).1 (find?_trigger.mp he).2⟩

end Trigger

/-- Decisions are told apart by their ids. -/
theorem Db.decisionIds_nodup (db : Db) (p : Decision → Bool) :
    ((db.decisions.rows.filter p).map (·.decisionId.val)).Nodup := by
  refine List.pairwise_map.mpr ((db.decisions.unique.filter p).imp fun hclash hval => ?_)
  simp [decisionConstraints, Uuid.le_antisymm hval.le hval.ge] at hclash

namespace SamePublicTo

variable {room : Uuid} {revision : Int} {db db' : Db}
  (h : SamePublicTo env room revision db db')

include h

/-! ### The messages -/

theorem publicMessages_eq (base : Int) : publicMessages env db room base revision =
    publicMessages env db' room base revision := by
  refine (publicMessages_ascending ..).eq_of_mem_iff (publicMessages_ascending ..) fun e => ?_
  rw [mem_publicMessages, mem_publicMessages]
  exact and_congr_left fun hpublic => h.events e (publicMessage_iff.mp hpublic).2.2.2.2

/-- The window's messages, in whatever order the tables have them. -/
theorem perm_messages (base : Int) :
    (db.roomEvents.rows.filter (publicMessage env room base revision)).Perm
      (db'.roomEvents.rows.filter (publicMessage env room base revision)) := by
  have hsorted : ∀ x : Db, (publicMessages env x room base revision).Perm
      (x.roomEvents.rows.filter (publicMessage env room base revision)) :=
    fun x => List.perm_insertionSort _ _
  have hsame := hsorted db'
  rw [← h.publicMessages_eq] at hsame
  exact (hsorted db).symm.trans hsame

theorem replyRows_eq (conversation : Uuid) (generation : Int) :
    replyRows db conversation generation = replyRows db' conversation generation := by
  funext e
  simp only [replyRows, h.tasks]

theorem contextTotals_eq (conversation : Uuid) (generation base : Int) :
    contextTotals env db room conversation generation base revision =
      contextTotals env db' room conversation generation base revision := by
  have hrows := (h.perm_messages base).flatMap_right (replyRows db conversation generation)
  rw [contextTotals, contextTotals, ← h.replyRows_eq]
  rw [hrows.length_eq, (hrows.map _).sum_eq, hrows.any_eq]

theorem contextRows_eq (conversation : Uuid) (generation base : Int) :
    contextRows env db room conversation generation base revision =
      contextRows env db' room conversation generation base revision := by
  change (publicMessages env db room base revision).flatMap _ =
    (publicMessages env db' room base revision).flatMap _
  rw [h.publicMessages_eq, h.replyRows_eq]

/-! ### The decisions -/

theorem publicSources_eq (d : Decision) :
    publicSources env db revision d = publicSources env db' revision d := by
  unfold publicSources
  congr 1
  funext id
  rw [Bool.eq_iff_iff, List.any_eq_true, List.any_eq_true]
  refine exists_congr fun e => and_congr_left fun hcond => h.events e ?_
  simp only [Bool.and_eq_true] at hcond
  exact hcond.2

theorem mem_contextDecisions {d : Decision} :
    d ∈ contextDecisions env db room revision ↔ d ∈ contextDecisions env db' room revision := by
  simp only [contextDecisions, List.mem_filter, Bool.and_eq_true, decide_eq_true_eq]
  rw [← h.publicSources_eq]
  exact and_congr_left fun hcond => h.decisions d hcond.1.1 hcond.2

theorem perm_contextDecisions : (contextDecisions env db room revision).Perm
    (contextDecisions env db' room revision) :=
  (List.perm_ext_iff_of_nodup (.of_map _ (db.decisionIds_nodup _))
    (.of_map _ (db'.decisionIds_nodup _))).mpr fun _ => h.mem_contextDecisions

theorem byDecisionId_eq : byDecisionId (contextDecisions env db room revision) =
    byDecisionId (contextDecisions env db' room revision) := by
  have hsorted : ∀ x : Db, Ascending (fun d : Decision => d.decisionId.val)
      (byDecisionId (contextDecisions env x room revision)) :=
    fun x => ascending_sortOn (x.decisionIds_nodup _)
  refine (hsorted db).eq_of_mem_iff (hsorted db') fun d => ?_
  rw [byDecisionId, byDecisionId, List.mem_insertionSort, List.mem_insertionSort]
  exact h.mem_contextDecisions

end SamePublicTo

/-! ### The context -/

open Prog in
theorem freezeContext_alike (room conversation : Uuid) (generation base revision : Int)
    (policy : ConversationPolicy) :
    Alike (SamePublicTo env room revision)
      (freezeContext env room conversation generation base revision policy)
      fun _ => SamePublicTo env room revision := by
  have keep : ∀ s t, SamePublicTo env room revision s t → SamePublicTo env room revision s t :=
    fun _ _ h => h
  refine .bind_same (.query (fun s t h => h.contextTotals_eq conversation generation base) keep)
    fun totals => ?_
  refine .bind_same (.ensure fun _ => keep) fun _ => ?_
  refine .bind_same (.ensure fun _ => keep) fun _ => ?_
  refine .bind_same (.query (fun s t h => h.contextRows_eq conversation generation base) keep)
    fun rows => ?_
  refine .bind_same (.ofExcept fun _ _ => keep) fun items => ?_
  refine .bind_same (.query (fun s t h => (h.perm_contextDecisions.map decisionBytes).sum_eq) keep)
    fun size => ?_
  refine .bind_same (.ensure fun _ => keep) fun _ => ?_
  refine .bind_same (.query (fun s t h => h.byDecisionId_eq) keep) fun decisions => ?_
  exact .pure keep

open Prog in
theorem buildContext_alike (room conversation : Uuid) (generation base : Int) (trigger : Uuid)
    (policy : ConversationPolicy) :
    Alike (SamePublic env room trigger)
      (buildContext env room conversation generation base trigger policy)
      fun _ _ _ => True := by
  refine .bind_same (.mapErr (.acquire fun _ _ h => h)) fun _ => ?_
  refine .bind (M := fun found s t => SamePublic env room trigger s t ∧
    s.roomEvents.rows.find? (isTrigger env room trigger) = found)
    (.query (fun s t h => h.find?_eq) fun s t h => ⟨h, rfl⟩) fun found => ?_
  refine .bind (M := fun event => SamePublicTo env room event.sequence)
    (.orFail fun event hfound s t h => h.1.upTo (h.2.trans hfound)) fun event => ?_
  refine .bind_same (.ensure fun _ _ _ h => h) fun _ => ?_
  refine .bind_same (freezeContext_alike room conversation generation base event.sequence policy)
    fun context => ?_
  refine .bind_same (.ofExcept fun _ _ _ _ h => h) fun bytes => ?_
  refine .bind_same (.ensure fun _ _ _ h => h) fun _ => ?_
  exact .pure fun _ _ _ => trivial

/-- The context that is built in a database, or the error. -/
def contextIn (env : Env) (room conversation : Uuid) (generation base : Int) (trigger : Uuid)
    (policy : ConversationPolicy) (db : Db) : Except ConversationError Json :=
  ((buildContext env room conversation generation base trigger policy).exec db).map Prod.fst

theorem context_ignores_targeted {env : Env} {room trigger : Uuid} {db db' : Db}
    (h : SamePublic env room trigger db db') (conversation : Uuid) (generation base : Int)
    (policy : ConversationPolicy) :
    contextIn env room conversation generation base trigger policy db =
        contextIn env room conversation generation base trigger policy db' ∧
      (contextIn env room conversation generation base trigger policy db).map sourceManifest =
        (contextIn env room conversation generation base trigger policy db').map
          sourceManifest := by
  have hsame : contextIn env room conversation generation base trigger policy db =
      contextIn env room conversation generation base trigger policy db' :=
    (buildContext_alike room conversation generation base trigger policy).result_eq h
  exact ⟨hsame, by rw [hsame]⟩

/-- A message to one participant, then a public one; a decision was taken from
the first. -/
def targetedDb (secret title : String) : Db where
  roomEvents :=
    { rows := [
        ⟨31, 1, 1, 11, .messageCreated, 2, .human, some "Ana", .obj [("text", secret),
          ("mentions", .arr []), ("delivery", "mentioned"), ("audienceIds", .arr [(3 : Uuid)])],
          seconds 90⟩,
        ⟨32, 1, 2, 12, .messageCreated, 2, .human, some "Ana", .obj [("text", "hello"),
          ("mentions", .arr []), ("delivery", "room"), ("audienceIds", .arr [])], seconds 100⟩]
      checked := by simp [roomEventConstraints, maxBigint]
      unique := by simpa [roomEventConstraints] using (by decide : (31 : Uuid) ≠ 32) }
  decisions :=
    { rows := [⟨41, 1, .active, title, secret, none, [31], seconds 95, seconds 95⟩]
      checked := by simp [decisionConstraints]
      unique := by simp }

theorem targetedDb_samePublic (secret title secret' title' : String) :
    SamePublic sampleEnv 1 32 (targetedDb secret title) (targetedDb secret' title') where
  tasks := rfl
  events := by
    intro e hpublic
    simp only [targetedDb, List.mem_cons, List.not_mem_nil, or_false]
    refine or_congr_left' fun _ => iff_of_false ?_ ?_
    · rintro rfl
      simp [publicPayload, Env.text, Json.get?] at hpublic
    · rintro rfl
      simp [publicPayload, Env.text, Json.get?] at hpublic
  decisions := by
    intro e _ _ d _ hsources
    have hsource : d.sourceEventIds ≠ [31] := by
      intro hd
      have hother : (32 : Uuid) ≠ 31 := by decide
      simp [publicSources, hd, targetedDb, publicPayload, Env.text, Json.get?, hother] at hsources
    simp only [targetedDb, List.mem_singleton]
    refine iff_of_false ?_ ?_
    · rintro rfl
      exact hsource rfl
    · rintro rfl
      exact hsource rfl

theorem context_ignores_targeted_sample :
    contextIn sampleEnv 1 51 1 0 32 samplePolicy (targetedDb "the key is 7" "Key") =
        contextIn sampleEnv 1 51 1 0 32 samplePolicy (targetedDb "never mind" "Nothing") ∧
      (contextIn sampleEnv 1 51 1 0 32 samplePolicy (targetedDb "the key is 7" "Key")).isOk :=
  ⟨(context_ignores_targeted (targetedDb_samePublic ..) 51 1 0 samplePolicy).1, by decide +kernel⟩

end RoomGateway
