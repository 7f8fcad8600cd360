import RoomGateway.Spec.Log
import RoomGateway.Spec.Replies

/-!
The frozen context of a turn shows each public message of its window once, in
order, the trigger last; and the windows of a generation's completed turns
follow each other without a gap. So a generation is shown every public message
up to its cursor exactly once.
-/

namespace RoomGateway

variable {env : Env}

/-! ### The public messages of a window -/

/-- The public messages of a room after `base` and up to `revision`, in
order. -/
def publicMessages (env : Env) (db : Db) (room : Uuid) (base revision : Int) : List RoomEvent :=
  bySequence (db.roomEvents.rows.filter (publicMessage env room base revision))

theorem publicMessage_iff {room : Uuid} {base revision : Int} {e : RoomEvent} :
    publicMessage env room base revision e = true ↔ e.roomId = room ∧ base < e.sequence ∧
      e.sequence ≤ revision ∧ e.eventType = .messageCreated ∧ publicPayload env e.payload := by
  simp [publicMessage, and_assoc]

theorem mem_publicMessages {db : Db} {room : Uuid} {base revision : Int} {e : RoomEvent} :
    e ∈ publicMessages env db room base revision ↔
      e ∈ db.roomEvents.rows ∧ publicMessage env room base revision e = true := by
  rw [publicMessages, ← List.mem_filter]
  exact List.mem_insertionSort _

theorem publicMessages_ascending (env : Env) (db : Db) (room : Uuid) (base revision : Int) :
    Ascending RoomEvent.sequence (publicMessages env db room base revision) :=
  ascending_sortOn (Db.sequences_nodup fun _ he => (publicMessage_iff.mp he).1)

/-- A window stays as it is while the log grows beyond it. -/
theorem publicMessages_extends {db db' : Db} (h : LogExtends db db') {room : Uuid}
    {base revision : Int} {e : RoomEvent} (he : e ∈ db.roomEvents.rows) (hroom : e.roomId = room)
    (hrevision : e.sequence = revision) :
    publicMessages env db' room base revision = publicMessages env db room base revision := by
  have hfilter : db'.roomEvents.rows.filter (publicMessage env room base revision) =
      db.roomEvents.rows.filter (publicMessage env room base revision) := by
    refine h.filter_eq he fun x hx => ?_
    obtain ⟨hxroom, -, hle, -⟩ := publicMessage_iff.mp hx
    exact ⟨hxroom.trans hroom.symm, hrevision ▸ hle⟩
  rw [publicMessages, hfilter, publicMessages]

/-- Two windows that meet are one. -/
theorem publicMessages_append {db : Db} {room : Uuid} {base mid revision : Int} (hbase : base ≤ mid)
    (hmid : mid ≤ revision) :
    publicMessages env db room base revision =
      publicMessages env db room base mid ++ publicMessages env db room mid revision := by
  refine (publicMessages_ascending env db room base revision).eq_of_mem_iff ?_ fun e => ?_
  · refine (publicMessages_ascending ..).append (publicMessages_ascending ..) ?_
    intro a ha b hb
    obtain ⟨-, -, hle, -⟩ := publicMessage_iff.mp (mem_publicMessages.mp ha).2
    obtain ⟨-, hlt, -⟩ := publicMessage_iff.mp (mem_publicMessages.mp hb).2
    omega
  · simp only [List.mem_append, mem_publicMessages, publicMessage_iff]
    constructor
    · rintro ⟨he, hroom, hlt, hle, hpublic⟩
      rcases le_or_gt e.sequence mid with h | h
      · exact .inl ⟨he, hroom, hlt, h, hpublic⟩
      · exact .inr ⟨he, hroom, h, hle, hpublic⟩
    · rintro (⟨he, hroom, hlt, hle, hpublic⟩ | ⟨he, hroom, hlt, hle, hpublic⟩)
      · exact ⟨he, hroom, hlt, hle.trans hmid, hpublic⟩
      · exact ⟨he, hroom, by omega, hle, hpublic⟩

/-! ### What a context shows -/

/-- The sequence that an entry or a binding names. -/
def sourceSequence (source : Json) : Int :=
  match source["sequence"] with
  | .num (.int n) => n
  | _ => 0

/-- The entries and the bindings of a context, merged by sequence. -/
def mergedSources (context : Json) : List Json :=
  sortOn sourceSequence
    (context["entries"].asArray.getD [] ++ context["nativeReplyBindings"].asArray.getD [])

/-- The source shows the message: its text, or, for a reply of the generation
itself, the task that gave it. -/
inductive Shows (env : Env) (db : Db) (conversation : Uuid) (generation : Int) (e : RoomEvent) :
    Json → Prop where
  | entry {text} (htext : env.text e.payload "text" = some text) :
      Shows env db conversation generation e (contextEntry env e text)
  | binding {t : ConversationTask} {text} (task : t ∈ db.conversationTasks.rows)
      (completed : t.state = .completed) (reply : t.replyEventId = some e.eventId)
      (conversation_eq : t.conversationId = conversation)
      (generation_eq : t.generation = generation)
      (htext : env.text e.payload "text" = some text) :
      Shows env db conversation generation e (contextBinding e t generation (env.sha256Hex text))

section Shows

variable {db db' : Db} {conversation : Uuid} {generation : Int} {e : RoomEvent} {source : Json}

theorem contextEntry_getElem {text key : String} (hkey : "displayName" ≠ key) :
    (contextEntry env e text)[key] = (Json.obj [("eventId", e.eventId), ("sequence", e.sequence),
      ("authorId", e.actorId), ("authorRole", e.actorRole.asStr),
      ("occurredAt", env.time e.occurredAt), ("text", text)])[key] := by
  rw [contextEntry]
  cases e.actorDisplayName with
  | none => rfl
  | some name => exact Json.getElem_set_of_ne hkey _ _

theorem Shows.sequence (h : Shows env db conversation generation e source) :
    sourceSequence source = e.sequence := by
  cases h with
  | entry =>
      rw [sourceSequence, contextEntry_getElem (by decide)]
      simp [Json.ofInt]
  | binding => simp [sourceSequence, contextBinding, Json.ofInt]

theorem Shows.eventId (h : Shows env db conversation generation e source) :
    source["eventId"] = Json.str e.eventId.text := by
  cases h with
  | entry =>
      rw [contextEntry_getElem (by decide)]
      simp
  | binding => simp [contextBinding]

/-- A completed task keeps its reply, so what was shown stays what it was. -/
theorem Shows.continues (h : Shows env db conversation generation e source)
    (hcont : TasksContinue db db') :
    Shows env db' conversation generation e source := by
  cases h with
  | entry htext => exact .entry htext
  | @binding t text task completed reply conversation_eq generation_eq htext =>
      obtain ⟨t', ht', hc⟩ := hcont t task
      have hsame := hc.completed completed
      have hbinding : contextBinding e t generation (env.sha256Hex text) =
          contextBinding e t' generation (env.sha256Hex text) := by
        rw [contextBinding, contextBinding, hc.taskId_eq]
      rw [hsame] at completed reply conversation_eq generation_eq
      rw [hbinding]
      exact .binding ht' completed reply conversation_eq generation_eq htext

end Shows

/-! ### Building a context shows its window -/

/-- Lists side by side: each element gives one element in between, and that one
gives an element of the result. -/
theorem forall₂_of_mapM {α β γ ε : Type} {R : α → γ → Prop} {f : α → List β}
    {g : β → Except ε γ} {l : List α} {results : List γ}
    (hf : ∀ a ∈ l, ∃ b, f a = [b] ∧ ∀ c, g b = .ok c → R a c)
    (h : (l.flatMap f).mapM g = .ok results) : List.Forall₂ R l results := by
  induction l generalizing results with
  | nil =>
      rw [List.flatMap_nil, List.mapM_nil] at h
      cases h
      exact .nil
  | cons a l ih =>
      obtain ⟨b, hb, hR⟩ := hf a List.mem_cons_self
      rw [List.flatMap_cons, hb, List.singleton_append, List.mapM_cons] at h
      cases hgb : g b with
      | error error => simp [hgb, bind, Except.bind] at h
      | ok c =>
          cases hrest : (l.flatMap f).mapM g with
          | error error => simp [hgb, hrest, bind, Except.bind] at h
          | ok rest =>
              simp only [hgb, hrest, bind, Except.bind, pure, Except.pure, Except.ok.injEq] at h
              subst h
              exact .cons (hR c hgb) (ih (fun a ha => hf a (List.mem_cons_of_mem _ ha)) hrest)

/-- Pairs that agree on their keys are in the same order. -/
theorem Ascending.of_forall₂ {α β κ : Type} [LinearOrder κ] {key : α → κ} {key' : β → κ}
    {R : α → β → Prop} {l : List α} {l' : List β} (hR : ∀ a b, R a b → key' b = key a)
    (h : List.Forall₂ R l l') (hl : Ascending key l) : Ascending key' l' := by
  have hkeys : l'.map key' = l.map key := by
    induction h with
    | nil => rfl
    | cons hab _ ih =>
        rw [List.map_cons, List.map_cons, hR _ _ hab, ih (List.pairwise_cons.mp hl).2]
  rw [Ascending, ← List.pairwise_map (R := (· < ·)), hkeys]
  exact List.pairwise_map.mpr hl

/-- The source that an item is. -/
def ContextItem.value : ContextItem → Json
  | entry value => value
  | binding value => value

theorem perm_items (items : List ContextItem) :
    (items.filterMap ContextItem.entry? ++ items.filterMap ContextItem.binding?).Perm
      (items.map ContextItem.value) := by
  induction items with
  | nil => exact .refl _
  | cons item items ih =>
      cases item with
      | entry value => exact ih.cons value
      | binding value => exact List.perm_middle.trans (ih.cons value)

section Built

variable {db : Db} {room conversation trigger : Uuid} {generation base : Int}
  {policy : ConversationPolicy} {event : RoomEvent} {items : List ContextItem} {context : Json}

/-- No two completed tasks have the same reply. -/
def DistinctReplies (db : Db) : Prop :=
  ∀ t ∈ db.conversationTasks.rows, ∀ u ∈ db.conversationTasks.rows,
    t.state = .completed → u.state = .completed → t.replyEventId = u.replyEventId → t = u

/-- The left join gives one row for a message. -/
theorem replyRows_single (h : DistinctReplies db) (conversation : Uuid) (generation : Int)
    (e : RoomEvent) : ∃ task, replyRows db conversation generation e = [⟨e, task⟩] ∧
      ∀ t, task = some t → t ∈ db.conversationTasks.rows ∧ t.state = .completed ∧
        t.replyEventId = some e.eventId ∧ t.conversationId = conversation ∧
        t.generation = generation := by
  let p : ConversationTask → Bool := fun t =>
    t.replyEventId = some e.eventId && t.roomId = e.roomId &&
      t.conversationId = conversation && t.generation = generation && t.state = .completed
  have hp : ∀ t ∈ db.conversationTasks.rows.filter p, t ∈ db.conversationTasks.rows ∧
      t.state = .completed ∧ t.replyEventId = some e.eventId ∧ t.conversationId = conversation ∧
      t.generation = generation := by
    intro t ht
    obtain ⟨ht, hcond⟩ := List.mem_filter.mp ht
    simp only [p, Bool.and_eq_true, decide_eq_true_eq] at hcond
    exact ⟨ht, hcond.2, hcond.1.1.1.1, hcond.1.1.2, hcond.1.2⟩
  have hunique := db.conversationTasks.unique.filter p
  change ∃ task, (if (db.conversationTasks.rows.filter p).isEmpty then _ else _) = _ ∧ _
  cases htasks : db.conversationTasks.rows.filter p with
  | nil => exact ⟨none, rfl, fun t ht => by cases ht⟩
  | cons t rest =>
      rw [htasks] at hp hunique
      cases rest with
      | nil =>
          refine ⟨some t, rfl, fun t' ht' => ?_⟩
          cases ht'
          exact hp t List.mem_cons_self
      | cons u rest =>
          obtain ⟨ht, hts, htreply, -⟩ := hp t List.mem_cons_self
          obtain ⟨hu, hus, hureply, -⟩ := hp u (by simp)
          have htu : t = u := h t ht u hu hts hus (htreply.trans hureply.symm)
          have hclash := (List.pairwise_cons.mp hunique).1 u List.mem_cons_self
          rw [htu] at hclash
          simp [conversationTaskConstraints] at hclash

theorem contextItem_shows {e : RoomEvent} {task : Option ConversationTask} {item : ContextItem}
    (htask : ∀ t, task = some t → t ∈ db.conversationTasks.rows ∧ t.state = .completed ∧
      t.replyEventId = some e.eventId ∧ t.conversationId = conversation ∧
      t.generation = generation)
    (h : contextItem env conversation generation base ⟨e, task⟩ = .ok item) :
    Shows env db conversation generation e item.value := by
  unfold contextItem at h
  split at h
  · cases h
  · rename_i text htext
    split_ifs at h
    split at h
    · rename_i t ack _ hsome _
      obtain ⟨ht, hstate, hreply, hconversation, hgeneration⟩ := htask t hsome
      split at h
      · cases h
      · split at h
        · cases h
        · simp only at h
          split_ifs at h
          cases h
          exact .binding ht hstate hreply hconversation hgeneration htext
    · cases h
      exact .entry htext

theorem BuiltContext.shown_items (h : DistinctReplies db)
    (b : BuiltContext env db room conversation generation base trigger policy event items context) :
    List.Forall₂ (Shows env db conversation generation)
      (publicMessages env db room base event.sequence) (items.map ContextItem.value) := by
  rw [List.forall₂_map_right_iff]
  refine forall₂_of_mapM (fun e _ => ?_) b.items_eq
  obtain ⟨task, hrow, htask⟩ := replyRows_single h conversation generation e
  exact ⟨_, hrow, fun item hitem => contextItem_shows htask hitem⟩

theorem BuiltContext.mergedSources_eq (h : DistinctReplies db)
    (b : BuiltContext env db room conversation generation base trigger policy event items context) :
    mergedSources context = items.map ContextItem.value := by
  have hshown := b.shown_items h
  have hsorted : Ascending sourceSequence (items.map ContextItem.value) :=
    .of_forall₂ (fun _ _ hs => hs.sequence) hshown (publicMessages_ascending ..)
  obtain ⟨digest, hcontext⟩ := b.context_eq
  rw [mergedSources, hcontext, Json.getElem_set_of_ne (by decide),
    Json.getElem_set_of_ne (by decide)]
  refine hsorted.sortOn_eq ?_
  simpa [contextValue, Json.asArray] using perm_items items

end Built

/-! ### Turns and their windows -/

/-- The frozen context of the task shows the window from `base` to the task's
trigger. -/
structure Covers (env : Env) (db : Db) (base : Int) (t : ConversationTask) : Prop where
  baseRevision : t.frozenInput["context"]["baseRevision"] = Json.ofInt base
  revision : t.frozenInput["context"]["revision"] = Json.ofInt t.contextRevision
  advances : base < t.contextRevision
  shown : List.Forall₂ (Shows env db t.conversationId t.generation)
    (publicMessages env db t.roomId base t.contextRevision)
    (mergedSources t.frozenInput["context"])
  trigger : ∃ e, (publicMessages env db t.roomId base t.contextRevision).getLast? = some e ∧
    e.eventId = t.triggerEventId ∧ e.sequence = t.contextRevision

theorem publicPayload_promptEvent (actor : Actor) (room requestId : Uuid) (request : Json)
    (occurredAt : Time) :
    publicPayload env (promptEvent actor room requestId request occurredAt).payload = true := by
  simp [publicPayload, promptEvent, Env.text, Json.get?]

namespace Covers

variable {db db' : Db} {base : Int} {t t' : ConversationTask}

/-- What a window shows was fixed when the task was reserved. -/
theorem origin_iff : Covers env db base t.origin ↔ Covers env db base t :=
  ⟨fun h => ⟨h.1, h.2, h.3, h.4, h.5⟩, fun h => ⟨h.1, h.2, h.3, h.4, h.5⟩⟩

/-- A window that was shown stays as it is. -/
theorem continues (h : Covers env db base t) (hlog : LogExtends db db')
    (htasks : TasksContinue db db') (horigin : t'.origin = t.origin) : Covers env db' base t' := by
  rw [← origin_iff, horigin, origin_iff]
  obtain ⟨e, hlast, hid, hsequence⟩ := h.trigger
  obtain ⟨he, hpublic⟩ := mem_publicMessages.mp (List.mem_of_getLast? hlast)
  have hwindow : publicMessages env db' t.roomId base t.contextRevision =
      publicMessages env db t.roomId base t.contextRevision :=
    publicMessages_extends hlog he (publicMessage_iff.mp hpublic).1 hsequence
  refine ⟨h.baseRevision, h.revision, h.advances, ?_, e, ?_, hid, hsequence⟩
  · rw [hwindow]
    exact h.shown.imp fun _ _ hshow => hshow.continues htasks
  · rw [hwindow, hlast]

theorem of_reserved {policy : ConversationPolicy} {actor : Actor} {turn : TurnRequest}
    {c : AgentConversation} {prompt : RoomEvent} {items : List ContextItem} {context : Json}
    (h : DistinctReplies db) (htasks : TasksContinue db db')
    (r : ReservedTurn env db db' policy actor turn t c prompt base items context) :
    Covers env db' base t := by
  obtain ⟨eventId, occurredAt, happended⟩ := r.appended
  obtain ⟨target, settings, frozen, accepted, htask⟩ := r.task
  have hroom : t.roomId = turn.room := by rw [htask, reservedTask]
  have htrigger : t.triggerEventId = prompt.eventId := by rw [htask, reservedTask]
  have hrevision := r.task_revision
  have hprompt : prompt ∈ publicMessages env db' turn.room base prompt.sequence := by
    refine mem_publicMessages.mpr ⟨?_, publicMessage_iff.mpr ⟨?_, r.built.base_lt, le_rfl, ?_, ?_⟩⟩
    · rw [happended.rows]
      exact List.mem_append_right _ List.mem_cons_self
    · rw [happended.row]
      rfl
    · rw [happended.row]
      rfl
    · rw [happended.row, NewEvent.row]
      exact publicPayload_promptEvent actor turn.room turn.requestId turn.request occurredAt
  obtain ⟨digest, hcontext⟩ := r.built.context_eq
  refine ⟨?_, ?_, ?_, ?_, prompt, ?_, htrigger.symm, hrevision.symm⟩
  · rw [r.frozen, hcontext, Json.getElem_set_of_ne (by decide)]
    simp [contextValue]
  · rw [r.frozen, hcontext, Json.getElem_set_of_ne (by decide), hrevision]
    simp [contextValue]
  · rw [hrevision]
    exact r.built.base_lt
  · -- the context was built after the prompt was appended and before the task was
    have hdistinct : DistinctReplies { db with roomEvents := db'.roomEvents } := h
    rw [r.frozen, r.built.mergedSources_eq hdistinct, hroom, hrevision]
    exact (r.built.shown_items hdistinct).imp fun _ _ hshow => hshow.continues htasks
  · rw [hroom, hrevision]
    refine (publicMessages_ascending ..).getLast?_eq hprompt fun e he => ?_
    exact (publicMessage_iff.mp (mem_publicMessages.mp he).2).2.2.1

end Covers

end RoomGateway
