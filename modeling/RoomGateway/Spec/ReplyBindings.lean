import RoomGateway.Lib.Loops
import RoomGateway.Spec.NativeReplies

/-!
A turn that continues a conversation is shown the agent's last reply as a
binding: the reply stands in the thread already, and the binding names it and
the digest of its text. The turn's window has that reply and no earlier one,
and what the gateway stored with it passes every comparison.
-/

namespace RoomGateway

open Schema

variable {env : Env} {formats : Formats} {db db' : Db}

/-! ### What a context makes of them -/

section Context

variable {t : ConversationTask} {e : RoomEvent} {text : String}

theorem StoredReply.text_eq (h : StoredReply env t e text) :
    env.text e.payload "text" = some text := by
  rw [h.payload]
  simp [Env.text]

theorem StoredReply.public (h : StoredReply env t e text) : publicPayload env e.payload = true := by
  rw [h.payload]
  simp [publicPayload, Env.text]

/-- The context of a task whose acknowledgement passed the contract has a
digest. -/
theorem StoredReply.digest (h : StoredReply (env.underProfile formats) t e text) :
    ∃ digest, t.frozenInput["context"]["digest"] = Json.str digest ∧
      env.text t.frozenInput["context"] "digest" = some digest := by
  have hsource : (acknowledgement (env.underProfile formats) t e text)["contextDigest"] =
      t.frozenInput["context"]["digest"] := by simp [acknowledgement]
  have hvalid := (validateProfileValue_ok.mp h.valid).1
  generalize acknowledgement (env.underProfile formats) t e text = ack at hsource hvalid
  have hdigest : digestSchema ack["contextDigest"] = true :=
    record_field (show ackSchema formats ack = true from hvalid) (by simp) (by simp)
  simp only [digestSchema, all_cons, Bool.and_eq_true] at hdigest
  obtain ⟨digest, hstr⟩ := eq_str_of_string hdigest.1
  have hfield : t.frozenInput["context"]["digest"] = Json.str digest := hsource.symm.trans hstr
  refine ⟨digest, hfield, ?_⟩
  rw [Json.getElem_eq _ "digest", Json.field] at hfield
  cases hget : t.frozenInput["context"].get? "digest" with
  | none =>
      rw [hget] at hfield
      cases hfield
  | some value =>
      rw [hget] at hfield
      rw [Env.text, hget, show value = Json.str digest from hfield]

/-- A stored reply passes every comparison and is bound. -/
theorem StoredReply.contextItem_eq {base : Int}
    (h : StoredReply (env.underProfile formats) t e text) (hbase : 0 < base)
    (hle : t.contextRevision ≤ base) :
    contextItem (env.underProfile formats) t.conversationId t.generation base ⟨e, some t⟩ =
      .ok (.binding (contextBinding e t t.generation (env.sha256Hex text))) := by
  obtain ⟨digest, hfield, hdigest⟩ := h.digest
  have hnative : ContextRow.nativeReply base ⟨e, some t⟩ = true := by
    simp [ContextRow.nativeReply, ContextRow.acknowledgement, hbase, h.author, h.ack]
  have hacknowledges : acknowledges (acknowledgement (env.underProfile formats) t e text) t e
      t.conversationId t.generation base (env.sha256Hex text) digest = true := by
    simp [acknowledges, acknowledgement, hfield, hle, Env.underProfile]
  have hack : ContextRow.acknowledgement ⟨e, some t⟩ =
      some (acknowledgement (env.underProfile formats) t e text) := h.ack
  have htext : ContextRow.text (env.underProfile formats) ⟨e, some t⟩ = some text := h.text_eq
  simp only [contextItem, htext, if_neg h.nonempty, hnative, hack, h.valid]
  rw [show (env.underProfile formats).text t.frozenInput["context"] "digest" = some digest from
    hdigest]
  exact if_pos hacknowledges

end Context

/-! ### The rows of a window -/

section Rows

variable {conversation : Uuid} {generation : Int} {t : ConversationTask} {e : RoomEvent}

theorem mem_replyRows {row : ContextRow} : row ∈ replyRows db conversation generation e →
    row = ⟨e, none⟩ ∨ ∃ t ∈ db.conversationTasks.rows, row = ⟨e, some t⟩ ∧ t.state = .completed ∧
      t.replyEventId = some e.eventId ∧ t.conversationId = conversation ∧
      t.generation = generation := by
  intro hrow
  unfold replyRows at hrow
  dsimp only at hrow
  split_ifs at hrow
  · exact .inl (List.mem_singleton.mp hrow)
  · obtain ⟨t, ht, rfl⟩ := List.mem_map.mp hrow
    obtain ⟨ht, hcond⟩ := List.mem_filter.mp ht
    simp only [Bool.and_eq_true, decide_eq_true_eq] at hcond
    exact .inr ⟨t, ht, rfl, hcond.2, hcond.1.1.1.1, hcond.1.1.2, hcond.1.2⟩

theorem replyRows_of_reply (ht : t ∈ db.conversationTasks.rows) (hstate : t.state = .completed)
    (hreply : t.replyEventId = some e.eventId) (hroom : e.roomId = t.roomId) :
    ⟨e, some t⟩ ∈ replyRows db t.conversationId t.generation e := by
  have hmem : t ∈ db.conversationTasks.rows.filter fun x =>
      x.replyEventId = some e.eventId && x.roomId = e.roomId &&
        x.conversationId = t.conversationId && x.generation = t.generation &&
        x.state = .completed := by
    simp [ht, hstate, hreply, hroom]
  unfold replyRows
  dsimp only
  rw [if_neg]
  · exact List.mem_map_of_mem hmem
  · rw [List.isEmpty_iff]
    exact List.ne_nil_of_mem hmem

/-- A message that is nobody's reply is an entry. -/
theorem contextItem_entry {base : Int} {item : ContextItem}
    (h : contextItem env conversation generation base ⟨e, none⟩ = .ok item) :
    item.binding? = none := by
  unfold contextItem at h
  split at h
  · cases h
  · split_ifs at h
    split at h
    · rename_i hnone _
      cases hnone
    · cases h
      rfl

/-- If the reply of one task is the only one in the window, its binding is the
context's only one. -/
theorem BuiltContext.bindings_eq {room trigger : Uuid} {base : Int} {policy : ConversationPolicy}
    {event : RoomEvent} {items : List ContextItem} {context binding : Json}
    (b : BuiltContext env db room t.conversationId t.generation base trigger policy event items
      context)
    (hdistinct : DistinctReplies db) (ht : t ∈ db.conversationTasks.rows)
    (hstate : t.state = .completed) (hreply : t.replyEventId = some e.eventId)
    (hroom : e.roomId = t.roomId) (he : e ∈ publicMessages env db room base event.sequence)
    (honly : ∀ u ∈ db.conversationTasks.rows, u.state = .completed →
      u.conversationId = t.conversationId → u.generation = t.generation →
      ∀ x ∈ publicMessages env db room base event.sequence,
      u.replyEventId = some x.eventId → u = t)
    (hitem : contextItem env t.conversationId t.generation base ⟨e, some t⟩ =
      .ok (.binding binding)) :
    items.filterMap ContextItem.binding? = [binding] := by
  rw [Loops.filterMap_of_forall₂ (f := fun x => if x = e then some binding else none) ?_,
    Loops.filterMap_single (publicMessages_ascending ..).nodup he]
  · refine forall₂_of_mapM (fun x hx => ?_) b.items_eq
    obtain ⟨task, hrow, htask⟩ := replyRows_single hdistinct t.conversationId t.generation x
    refine ⟨_, hrow, fun item hok => ?_⟩
    cases task with
    | none =>
        have hne : x ≠ e := by
          rintro rfl
          have hmem := replyRows_of_reply ht hstate hreply hroom
          rw [hrow, List.mem_singleton] at hmem
          cases hmem
        rw [contextItem_entry hok, if_neg hne]
    | some u =>
        obtain ⟨hu, hustate, hureply, huconversation, hugeneration⟩ := htask u rfl
        obtain rfl := honly u hu hustate huconversation hugeneration x hx hureply
        have hid : x.eventId = e.eventId := Option.some.inj (hureply.symm.trans hreply)
        obtain rfl :=
          Db.eventId_unique (mem_publicMessages.mp hx).1 (mem_publicMessages.mp he).1 hid
        rw [hitem] at hok
        cases hok
        simp [ContextItem.binding?]

end Rows

/-! ### The last reply of a conversation -/

namespace Windows

variable {base last : Int} {ts : List ConversationTask}

theorem lt (h : Windows env db base ts last) (hne : ts ≠ []) : base < last := by
  cases ts with
  | nil => exact absurd rfl hne
  | cons t ts => exact h.1.advances.trans_le h.2.le

/-- The last task reached the end of the windows, and no other did. -/
theorem getLast?_eq (h : Windows env db base ts last) (hlt : base < last) :
    ∃ t, ts.getLast? = some t ∧ t.contextRevision = last ∧
      ∀ u ∈ ts, u.contextRevision = last → u = t := by
  induction ts generalizing base with
  | nil => exact absurd (show base = last from h) hlt.ne
  | cons t ts ih =>
      obtain ⟨hcovers, hrest⟩ := h
      by_cases hnil : ts = []
      · subst hnil
        exact ⟨t, rfl, hrest, by simp⟩
      · have hbefore := hrest.lt hnil
        obtain ⟨last, hlast, hrevision, honly⟩ := ih hrest hbefore
        refine ⟨last, by simp [List.getLast?_cons, hlast], hrevision, fun u hu hu' => ?_⟩
        rcases List.mem_cons.mp hu with rfl | hu
        · exact absurd hu' hbefore.ne
        · exact honly u hu hu'

end Windows

/-! ### Turns that continue a conversation -/

/-- A turn that the step accepted in the room, to continue its conversation. -/
structure ContinueTurn (db db' : Db) (room : Uuid) (u : ConversationTask) : Prop where
  accepted : u ∈ db'.conversationTasks.rows
  new : ∀ x ∈ db.conversationTasks.rows, x.taskId ≠ u.taskId
  room : u.roomId = room
  mode : u.frozenInput["conversation"]["mode"] = Json.str "continue"

/-- The task completed last in its conversation, and whatever turn continues the
conversation next is bound to its reply and to no other. -/
structure LastReply (env : Env) (s : Sys) (order : List Uuid) (c : AgentConversation)
    (t : ConversationTask) (e : RoomEvent) (text : String) : Prop where
  last : (s.db.tasksAmong order c).getLast? = some t
  reply : Replied s.db t e
  text_eq : e.payload["text"] = Json.str text
  bound : ∀ op u, ContinueTurn s.db ((gateway env).next s op).db c.roomId u →
    u.conversationId = c.conversationId ∧ u.frozenInput["context"]["kind"] = Json.str "delta" ∧
    u.frozenInput["context"]["nativeReplyBindings"] =
      .arr [contextBinding e t c.generation (env.sha256Hex text)]

/-- No reply that is stored stands in the way of a turn: whatever has been
appended when the turn's window is read, the replies in it are within the limit
and are bound. -/
def RepliesPass (env : Env) (db : Db) (c : AgentConversation) : Prop :=
  ∀ log : Table roomEventConstraints, LogExtends db { db with roomEvents := log } →
    ∀ revision : Int,
    (contextTotals env { db with roomEvents := log } c.roomId c.conversationId c.generation
      c.consumedRevision revision).oversizedReply = false ∧
    ∀ row ∈ contextRows env { db with roomEvents := log } c.roomId c.conversationId c.generation
      c.consumedRevision revision, row.nativeReply c.consumedRevision = true →
      ∃ value, contextItem env c.conversationId c.generation c.consumedRevision row =
        .ok (.binding value)

section Conversation

variable {c : AgentConversation} {order : List Uuid}

theorem RepliesStored.of_row {log : Table roomEventConstraints} {x : RoomEvent} {row : ContextRow}
    {conversation : Uuid} {generation base : Int} (h : RepliesStored env db)
    (hlog : LogExtends db { db with roomEvents := log }) (hx : x ∈ log.rows)
    (hrow : row ∈ replyRows { db with roomEvents := log } conversation generation x)
    (hnative : row.nativeReply base = true) :
    ∃ t ∈ db.conversationTasks.rows, ∃ text, row = ⟨x, some t⟩ ∧ t.state = .completed ∧
      t.conversationId = conversation ∧ t.generation = generation ∧ StoredReply env t x text := by
  rcases mem_replyRows hrow with rfl | ⟨t, ht, rfl, hstate, hreply, hconversation, hgeneration⟩
  · simp [ContextRow.nativeReply, ContextRow.acknowledgement] at hnative
  · obtain ⟨e, he, text, hstored⟩ := h t ht hstate
    have hid : e.eventId = x.eventId := Option.some.inj (hstored.eventId.symm.trans hreply)
    have hmem : e ∈ ({ db with roomEvents := log } : Db).roomEvents.rows := hlog.mem he
    obtain rfl := Db.eventId_unique hmem hx hid
    exact ⟨t, ht, text, rfl, hstate, hconversation, hgeneration, hstored⟩

/-- The agent's own replies in the window of a conversation are bound. -/
theorem RepliesStored.nativeItem {log : Table roomEventConstraints} {row : ContextRow}
    {revision : Int} (h : RepliesStored (env.underProfile formats) db) (hturns : Turns db)
    (hc : c ∈ db.agentConversations.rows) (hpos : 0 < c.consumedRevision)
    (hlog : LogExtends db { db with roomEvents := log })
    (hrow : row ∈ contextRows (env.underProfile formats) { db with roomEvents := log } c.roomId
      c.conversationId c.generation c.consumedRevision revision)
    (hnative : row.nativeReply c.consumedRevision = true) :
    ∃ t text, contextItem (env.underProfile formats) c.conversationId c.generation
      c.consumedRevision row =
        .ok (.binding (contextBinding row.event t c.generation (env.sha256Hex text))) := by
  obtain ⟨x, hx, hrow⟩ := List.mem_flatMap.mp hrow
  obtain ⟨hx, -⟩ := mem_publicMessages.mp hx
  obtain ⟨t, ht, text, rfl, hstate, hconversation, hgeneration, hstored⟩ :=
    h.of_row hlog hx hrow hnative
  have hjoined := hturns.joined_of_id hc ht hconversation
  refine ⟨t, text, ?_⟩
  rw [← hconversation, ← hgeneration]
  exact hstored.contextItem_eq hpos (hturns.consumed_le t c hjoined hstate)

theorem RepliesStored.pass (h : RepliesStored (env.underProfile formats) db) (hturns : Turns db)
    (hc : c ∈ db.agentConversations.rows) (hpos : 0 < c.consumedRevision) :
    RepliesPass (env.underProfile formats) db c := by
  intro log hlog revision
  constructor
  · refine Bool.eq_false_iff.mpr fun hany => ?_
    obtain ⟨row, hrow, hoversized⟩ := List.any_eq_true.mp hany
    obtain ⟨x, hx, hrow⟩ := List.mem_flatMap.mp hrow
    rw [ContextRow.oversizedReply, Bool.and_eq_true] at hoversized
    obtain ⟨t, ht, text, rfl, -, -, -, hstored⟩ :=
      h.of_row hlog (List.mem_filter.mp hx).1 hrow hoversized.1
    have htext : ContextRow.text (env.underProfile formats) ⟨x, some t⟩ = some text :=
      hstored.text_eq
    have hlong : octetLength text > 65536 := by simpa [htext] using hoversized.2
    have hshort := hstored.short
    rw [octetLength] at hlong
    omega
  · intro row hrow hnative
    obtain ⟨t, text, hitem⟩ := h.nativeItem hturns hc hpos hlog hrow hnative
    exact ⟨_, hitem⟩

/-- A turn that continues in a room continues the conversation that is ready
there. -/
theorem ReservedTurn.continues_ready {policy : ConversationPolicy} {actor : Actor}
    {turn : TurnRequest} {u : ConversationTask} {c' : AgentConversation} {prompt : RoomEvent}
    {base : Int} {items : List ContextItem} {context : Json}
    (r : ReservedTurn env db db' policy actor turn u c' prompt base items context)
    (hmode : u.frozenInput["conversation"]["mode"] = Json.str "continue")
    (hc : c ∈ db.agentConversations.rows) (hready : c.state = .ready)
    (hroom : turn.room = c.roomId) :
    u.conversationId = c.conversationId ∧ u.generation = c.generation ∧
      base = c.consumedRevision := by
  obtain ⟨x, hcurrent, hx⟩ := r.continues hmode
  obtain ⟨hxmem, hxroom, -, hxstate⟩ := currentConversation_some hcurrent
  obtain rfl : x = c := Db.current_unique hxmem hc (hxroom.trans hroom) hxstate (by simp [hready])
  obtain ⟨hid, -, -, hgeneration⟩ := ownsTask_iff.mp r.owns
  obtain ⟨hsame, hbase, -⟩ := r.bound.rebound.before x hxmem (hx.trans hid.symm)
  exact ⟨hx.symm, hgeneration.symm.trans hsame.generation, hbase.symm⟩

/-- The window of a turn that continues has the last reply and no other reply of
the conversation. -/
theorem ReservedTurn.bindings_eq {policy : ConversationPolicy} {actor : Actor}
    {turn : TurnRequest} {t u : ConversationTask} {c' : AgentConversation} {prompt e : RoomEvent}
    {base : Int} {items : List ContextItem} {context : Json} {text : String}
    (r : ReservedTurn (env.underProfile formats) db db' policy actor turn u c' prompt base items
      context)
    (hturns : Turns db) (hanswered : Answered (env.underProfile formats) db)
    (hplaced : RepliesPlaced db) (ht : Joined db t c) (hstate : t.state = .completed)
    (hstored : StoredReply (env.underProfile formats) t e text) (he : e ∈ db.roomEvents.rows)
    (hrevision : t.contextRevision = c.consumedRevision)
    (honly : ∀ x, Joined db x c → x.state = .completed →
      x.contextRevision = c.consumedRevision → x = t)
    (hmode : u.frozenInput["conversation"]["mode"] = Json.str "continue")
    (hready : c.state = .ready) (hroom : turn.room = c.roomId) :
    items.filterMap ContextItem.binding? =
      [contextBinding e t c.generation (env.sha256Hex text)] := by
  obtain ⟨hid, hgeneration, rfl⟩ := r.continues_ready hmode ht.conversation hready hroom
  obtain ⟨_, _, happended⟩ := r.appended
  obtain ⟨htid, htroom, -, htgeneration⟩ := ownsTask_iff.mp ht.owns
  have hpos := Db.conversation_ready_pos ht.conversation hready
  have hreplied : Replied db t e := ⟨hstate, he, hstored.eventId⟩
  have hbuilt := r.built
  rw [hid, hgeneration, htid, htgeneration] at hbuilt
  rw [htgeneration]
  refine hbuilt.bindings_eq hanswered.distinct ht.task hstate hstored.eventId hstored.room ?_ ?_
    (hstored.contextItem_eq hpos hrevision.le)
  · refine mem_publicMessages.mpr ⟨happended.extends.mem he, publicMessage_iff.mpr
      ⟨?_, ?_, (happended.sequence_lt he ?_).le, hstored.message, hstored.public⟩⟩
    · rw [hstored.room, ← htroom, hroom]
    · exact hrevision ▸ (hreplied.replyOf hanswered ht.task).later
    · rw [hstored.room, ← htroom, ← hroom]
      rfl
  · intro x hx hxstate hxid _ y hy hxreply
    obtain ⟨hy, hwindow⟩ := mem_publicMessages.mp hy
    have hjoined := hturns.joined_of_id ht.conversation hx (hxid.trans htid.symm)
    have hafter : Replied db' x y := ⟨hxstate, hy, hxreply⟩
    have hbefore := hafter.before hanswered happended.extends hx hxstate (.refl x)
    rcases hplaced.placed x c y hjoined hbefore with hle | hlast
    · obtain ⟨-, hlt, -⟩ := publicMessage_iff.mp hwindow
      omega
    · exact honly x hjoined hxstate hlast

end Conversation

/-- After the run, a turn that continues a conversation is bound to the
conversation's last reply, and no reply keeps it from being accepted. -/
def RepliesBound (env : Env) (ops : List Op) : Prop :=
  ∀ c ∈ ((gateway env).run ops).db.agentConversations.rows, c.state = .ready →
    (∃ t e text, LastReply env ((gateway env).run ops) (completionOrder env ops) c t e text) ∧
    RepliesPass env ((gateway env).run ops).db c

theorem replies_bound (env : Env) (formats : Formats) (ops : List Op) :
    RepliesBound (env.underProfile formats) ops := by
  intro c hc hready
  obtain ⟨hdisclosed, hanswered⟩ := gateway_disclosed (env.underProfile formats) ops
  obtain ⟨hstored, hplaced⟩ := gateway_replies env formats ops
  have hturns := hdisclosed.turns
  have hpos := Db.conversation_ready_pos hc hready
  refine ⟨?_, hstored.pass hturns hc hpos⟩
  obtain ⟨t, hlast, hrevision, honly⟩ := (hdisclosed.windows c hc).getLast?_eq hpos
  obtain ⟨ht, howns, hstate⟩ :=
    hdisclosed.completed.mem_tasksAmong.mp (List.mem_of_getLast? hlast)
  obtain ⟨e, he, text, hreply⟩ := hstored t ht hstate
  refine ⟨t, e, text, hlast, ⟨hstate, he, hreply.eventId⟩, ?_, fun op u hu => ?_⟩
  · rw [hreply.payload]
    simp
  obtain ⟨policy, actor, turn, c', prompt, base, items, context, r⟩ :=
    (gateway_turnStep hturns op).reserved_of_new hu.accepted hu.new
  have hroom : turn.room = c.roomId := by
    obtain ⟨_, _, _, _, htask⟩ := r.task
    rw [← hu.room, htask, reservedTask]
  obtain ⟨hid, -, hbase⟩ := r.continues_ready hu.mode hc hready hroom
  have hbindings := r.bindings_eq hturns hanswered hplaced ⟨ht, hc, howns⟩ hstate hreply he
    hrevision (fun x hx hxstate => honly x
      (hdisclosed.completed.mem_tasksAmong.mpr ⟨hx.task, hx.owns, hxstate⟩)) hu.mode hready hroom
  obtain ⟨digest, hcontext⟩ := r.built.context_eq
  rw [r.frozen, hcontext, Json.getElem_set_of_ne (by decide), Json.getElem_set_of_ne (by decide)]
  refine ⟨hid, ?_, ?_⟩
  · have hne : base ≠ 0 := by omega
    simp [contextValue, hne]
  · simp [contextValue, hbindings, Env.underProfile]

end RoomGateway
