import RoomGateway.Spec.Snapshot

/-!
The decisions table is the fold of the room log. The requests keep the table by
statements of their own; the service that hands out contexts replays the events
instead. Both agree after every call, so the decisions of a packet are those
that were active when its task was started.
-/

namespace RoomGateway

variable {env : Env} {db db' : Db} {room : Uuid} {events : List RoomEvent}

/-! ### The two representations -/

def ActiveDecision.ofRow (d : Decision) : ActiveDecision where
  decisionId := d.decisionId
  title := d.title
  summary := d.summary
  sourceEventIds := d.sourceEventIds

/-- The active decisions of a room as the table has them, by id. -/
def activeRows (db : Db) (room : Uuid) : List ActiveDecision :=
  (byDecisionId (db.decisions.rows.filter fun d => d.roomId = room && d.status = .active)).map
    ActiveDecision.ofRow

/-- The replay of a room's whole log. -/
def replayed (db : Db) (room : Uuid) : OrdMap Uuid ActiveDecision :=
  (db.eventsOf room).foldl replayDecision .empty

/-- The table has the entry. -/
def ActiveEntry (db : Db) (room : Uuid) (entry : Uuid × ActiveDecision) : Prop :=
  ∃ d ∈ db.decisions.rows, d.roomId = room ∧ d.status = .active ∧
    entry = (d.decisionId, .ofRow d)

/-- The table is the replay of the log, in every room. -/
def DecisionsReplay (db : Db) : Prop :=
  ∀ room entry, entry ∈ (replayed db room).entries ↔ ActiveEntry db room entry

/-! ### Replaying an event -/

section Replay

variable (m : OrdMap Uuid ActiveDecision) {e : RoomEvent}

/-- Only the four types that settle a decision count. -/
theorem replayDecision_other
    (h : e.eventType.ofDecision = false ∨ e.eventType = .decisionProposed) :
    replayDecision m e = m := by
  unfold replayDecision
  dsimp only
  split
  · rfl
  · split
    · rename_i htype
      simp [htype, EventType.ofDecision] at h
    · rename_i htype
      simp [htype, EventType.ofDecision] at h
    · rename_i htype
      simp [htype, EventType.ofDecision] at h
    · rename_i htype
      simp [htype, EventType.ofDecision] at h
    · rfl

theorem foldl_replayDecision_other
    (h : ∀ e ∈ events, e.eventType.ofDecision = false ∨ e.eventType = .decisionProposed) :
    events.foldl replayDecision m = m := by
  induction events with
  | nil => rfl
  | cons e events ih =>
      rw [List.foldl_cons, replayDecision_other m (h e List.mem_cons_self)]
      exact ih fun x hx => h x (List.mem_cons_of_mem e hx)

theorem uuidsOf_ofUuids (ids : List Uuid) : uuidsOf (Json.ofUuids ids) = ids := by
  simp [uuidsOf, Json.ofUuids, List.filterMap_map, Function.comp_def]

/-- The events that confirm a decision, by its own draft or by an edit. -/
theorem replayDecision_confirmed {id : Uuid} {title summary : String} {sources : List Uuid}
    (htype : e.eventType = .decisionConfirmed)
    (hid : e.payload["decisionId"] = Json.str id.text)
    (hstatus : e.payload["status"] = Json.str "active")
    (htitle : e.payload["title"] = Json.str title)
    (hsummary : e.payload["summary"] = Json.str summary)
    (hsources : e.payload["sourceEventIds"] = Json.ofUuids sources) :
    replayDecision m e = m.insert id ⟨id, title, summary, sources⟩ := by
  simp [replayDecision, htype, hid, hstatus, htitle, hsummary, hsources, uuidsOf_ofUuids]

theorem replayDecision_erased {id : Uuid}
    (htype : e.eventType = .decisionDismissed ∨ e.eventType = .decisionDeleted ∨
      e.eventType = .decisionEdited)
    (hid : e.payload["decisionId"] = Json.str id.text) : replayDecision m e = m.erase id := by
  rcases htype with htype | htype | htype <;> simp [replayDecision, htype, hid]

end Replay

/-! ### One call -/

theorem replayed_append (h : db'.roomEvents.rows = db.roomEvents.rows ++ events) (room : Uuid) :
    replayed db' room =
      (events.filter (·.roomId = room)).foldl replayDecision (replayed db room) := by
  rw [replayed, Db.eventsOf, h, List.filter_append, List.foldl_append]
  rfl

/-- No event is logged twice, so what holds of all that were not there before holds
of the new ones. -/
theorem forall_new {P : RoomEvent → Prop} {new : List RoomEvent}
    (hrows : db'.roomEvents.rows = db.roomEvents.rows ++ new)
    (h : ∀ e ∈ db'.roomEvents.rows, e ∈ db.roomEvents.rows ∨ P e) : ∀ e ∈ new, P e := by
  intro e he
  have hunique := db'.roomEvents.unique
  rw [hrows, List.pairwise_append] at hunique
  refine (h e (by rw [hrows]; exact List.mem_append_right _ he)).resolve_left fun hold => ?_
  simpa [roomEventConstraints] using hunique.2.2 e hold e he

namespace DecisionsReplay

/-- Nothing about a decision is logged, and the table stays. -/
theorem same (h : DecisionsReplay db) (events : List RoomEvent)
    (hrows : db'.roomEvents.rows = db.roomEvents.rows ++ events)
    (hevents : ∀ e ∈ events, e.eventType.ofDecision = false)
    (hdecisions : db'.decisions = db.decisions) : DecisionsReplay db' := by
  intro room entry
  rw [replayed_append hrows, foldl_replayDecision_other _ fun e he =>
    .inl (hevents e (List.mem_filter.mp he).1), h room, ActiveEntry, ActiveEntry, hdecisions]

theorem aside (h : DecisionsReplay db) (haside : Aside db db') : DecisionsReplay db' := by
  obtain ⟨new, hrows⟩ := haside.log.exists_append
  exact h.same _ hrows (forall_new hrows haside.events) haside.decisions

/-- A draft is added, which neither representation counts. -/
theorem drafted (h : DecisionsReplay db) {e : RoomEvent} {d : Decision}
    (hrows : db'.roomEvents.rows = db.roomEvents.rows ++ [e])
    (htype : e.eventType = .decisionProposed) (hdraft : d.status = .draft)
    (hdecisions : db'.decisions.rows = db.decisions.rows ++ [d]) : DecisionsReplay db' := by
  intro room entry
  have hreplayed : replayed db' room = replayed db room := by
    rw [replayed_append hrows]
    refine foldl_replayDecision_other _ fun x hx => .inr ?_
    rw [List.mem_singleton.mp (List.mem_filter.mp hx).1, htype]
  rw [hreplayed, h room]
  constructor
  · rintro ⟨x, hx, hentry⟩
    exact ⟨x, by rw [hdecisions]; exact List.mem_append_left _ hx, hentry⟩
  · rintro ⟨x, hx, hroom, hactive, rfl⟩
    rw [hdecisions, List.mem_append, List.mem_singleton] at hx
    rcases hx with hx | rfl
    · exact ⟨x, hx, hroom, hactive, rfl⟩
    · rw [hdraft] at hactive
      cases hactive

/-- One decision is replaced by `news`, and the events about it say so. -/
theorem replaced (h : DecisionsReplay db) {row : Decision} (news : List Decision)
    (hrow : row ∈ db.decisions.rows) (hnews : ∀ d ∈ news, d.roomId = row.roomId)
    (hdecisions : ∀ d, d ∈ db'.decisions.rows ↔
      d ∈ news ∨ (d ∈ db.decisions.rows ∧ d.decisionId ≠ row.decisionId))
    (hrows : db'.roomEvents.rows = db.roomEvents.rows ++ events)
    (hroom : ∀ e ∈ events, e.roomId = row.roomId) (hreplay : ∀ entry,
      entry ∈ (events.foldl replayDecision (replayed db row.roomId)).entries ↔
        (∃ d ∈ news, d.status = .active ∧ entry = (d.decisionId, .ofRow d)) ∨
          (entry ∈ (replayed db row.roomId).entries ∧ entry.1 ≠ row.decisionId)) :
    DecisionsReplay db' := by
  intro room entry
  rw [replayed_append hrows]
  by_cases hhere : row.roomId = room
  · subst hhere
    rw [List.filter_eq_self.mpr fun e he => decide_eq_true (hroom e he), hreplay, h row.roomId]
    constructor
    · rintro (⟨d, hd, hactive, rfl⟩ | ⟨⟨d, hd, hdroom, hactive, rfl⟩, hne⟩)
      · exact ⟨d, (hdecisions d).mpr (.inl hd), hnews d hd, hactive, rfl⟩
      · exact ⟨d, (hdecisions d).mpr (.inr ⟨hd, hne⟩), hdroom, hactive, rfl⟩
    · rintro ⟨d, hd, hdroom, hactive, rfl⟩
      rcases (hdecisions d).mp hd with hd | ⟨hd, hne⟩
      · exact .inl ⟨d, hd, hactive, rfl⟩
      · exact .inr ⟨⟨d, hd, hdroom, hactive, rfl⟩, hne⟩
  · have hnone : events.filter (fun e => e.roomId = room) = [] :=
      List.filter_eq_nil_iff.mpr fun e he => by simp [hroom e he, hhere]
    rw [hnone, List.foldl_nil, h room]
    constructor
    · rintro ⟨d, hd, rfl, hactive, rfl⟩
      refine ⟨d, (hdecisions d).mpr (.inr ⟨hd, fun hid => hhere ?_⟩), rfl, hactive, rfl⟩
      rw [db.decision_unique hd hrow hid]
    · rintro ⟨d, hd, rfl, hactive, rfl⟩
      rcases (hdecisions d).mp hd with hd | ⟨hd, -⟩
      · exact absurd (hnews d hd).symm hhere
      · exact ⟨d, hd, rfl, hactive, rfl⟩

/-- The one event of a request on a decision. -/
theorem replaced_one (h : DecisionsReplay db) {e : RoomEvent} {row : Decision}
    (news : List Decision) (hrow : row ∈ db.decisions.rows)
    (hnews : ∀ d ∈ news, d.roomId = row.roomId)
    (hdecisions : ∀ d, d ∈ db'.decisions.rows ↔
      d ∈ news ∨ (d ∈ db.decisions.rows ∧ d.decisionId ≠ row.decisionId))
    (hrows : db'.roomEvents.rows = db.roomEvents.rows ++ [e]) (hroom : e.roomId = row.roomId)
    (hreplay : ∀ m entry, entry ∈ (replayDecision m e).entries ↔
      (∃ d ∈ news, d.status = .active ∧ entry = (d.decisionId, .ofRow d)) ∨
        (entry ∈ m.entries ∧ entry.1 ≠ row.decisionId)) : DecisionsReplay db' :=
  h.replaced news hrow hnews hdecisions hrows (by simpa using hroom) fun entry => hreplay _ entry

end DecisionsReplay

theorem mem_put_decision {row new d : Decision} {rows : List Decision} (hrow : row ∈ rows) :
    d ∈ Table.put (fun d => d.decisionId = row.decisionId) new rows ↔
      d ∈ [new] ∨ (d ∈ rows ∧ d.decisionId ≠ row.decisionId) := by
  rw [Table.mem_put hrow (by simp)]
  simp

theorem StartedTask.decisions {requesterId : Uuid} {name : String} {start : AgentTaskStart}
    {task : AgentTaskRecord} {e : RoomEvent} {log : Table roomEventConstraints}
    {ts : Table agentTaskConstraints}
    (h : StartedTask requesterId name start db db' task e log ts)
    (hreplay : DecisionsReplay db) : DecisionsReplay db' := by
  obtain ⟨eventId, sequence, rfl⟩ := h.logged.single
  obtain rfl := h.eq
  refine hreplay.same _ h.logged.rows (fun e he => ?_) rfl
  rw [List.mem_singleton.mp he]
  rfl

/-- Sending a message logs nothing about a decision. -/
theorem message_ofDecision {actor : Actor} {request : ChatSend} {audienceIds : List Uuid}
    {core : Json} {new : NewEvent}
    (h : new ∈ messageEvent actor request audienceIds ::
      if invokesActionItems actor request then actionItemsEvents request core else []) :
    new.eventType.ofDecision = false := by
  rcases List.mem_cons.mp h with rfl | h
  · rfl
  · split_ifs at h
    · simp only [actionItemsEvents, List.mem_cons, List.not_mem_nil, or_false] at h
      rcases h with rfl | rfl | rfl
      · rfl
      · rfl
      · simp only [actionItemsEvent, actionItemsOutcome]
        split <;> rfl
    · exact absurd h List.not_mem_nil

theorem Performed.decisions {actor : Actor} {request : ValidatedRequest}
    (h : Performed env actor db db' request events) (hreplay : DecisionsReplay db)
    : DecisionsReplay db' := by
  cases h with
  | @message request audienceIds _ _ _ taskId eventId _ logged eq =>
      subst eq
      refine hreplay.same _ logged.rows (fun e he => ?_) rfl
      obtain ⟨new, hnew, eventId, sequence, rfl⟩ := logged.of_new he
      exact message_ofDecision hnew
  | proposed decisions draft room _ logged eq =>
      subst eq
      obtain ⟨eventId, sequence, rfl⟩ := logged.single
      exact hreplay.drafted logged.rows rfl draft decisions
  | @deleted request row e log ds mem id room logged decisions eq =>
      subst eq
      obtain ⟨eventId, sequence, rfl⟩ := logged.single
      refine hreplay.replaced_one [] mem (by simp) (fun d => ?_) logged.rows room.symm
        fun m entry => ?_
      · change d ∈ ds.rows ↔ _
        simp [decisions]
      · rw [replayDecision_erased m (.inr (.inl rfl)) rfl]
        simp
  | @settled request row status eventType e log ds updatedAt action mem id room draft logged
      decisions eq =>
      subst eq
      obtain ⟨eventId, sequence, rfl⟩ := logged.single
      refine hreplay.replaced_one [{ row with status := status, updatedAt := updatedAt }] mem
        (by simp) (fun d => ?_) logged.rows room.symm fun m entry => ?_
      · change d ∈ ds.rows ↔ _
        rw [decisions, mem_put_decision mem]
      · cases haction : request.action with
        | confirm =>
            rw [haction] at action
            cases action
            rw [replayDecision_confirmed m rfl rfl rfl rfl rfl rfl]
            simp [ActiveDecision.ofRow]
        | dismiss =>
            rw [haction] at action
            cases action
            rw [replayDecision_erased m (.inl rfl) rfl]
            simp
        | edit =>
            rw [haction] at action
            cases action
  | @edited request row d events log ds updatedAt action mem id room draft decisions active room'
      sources _ fresh logged eq =>
      subst eq
      obtain ⟨e, e', rfl, ⟨eventId, sequence, rfl⟩, ⟨eventId', sequence', rfl⟩⟩ := logged.pair
      refine hreplay.replaced [{ row with status := .superseded, updatedAt := updatedAt }, d] mem
        (by simp [room, room']) (fun x => ?_) logged.rows ?_ fun entry => ?_
      · change x ∈ ds.rows ↔ _
        rw [decisions, List.mem_append, mem_put_decision mem]
        simp only [List.mem_cons, List.not_mem_nil, or_false]
        tauto
      · rw [room]
        intro e he
        simp only [List.mem_cons, List.not_mem_nil, or_false] at he
        rcases he with rfl | rfl <;> rfl
      · -- the id of the replacement is in neither representation yet
        have hnew : entry ∈ (replayed db row.roomId).entries → entry.1 ≠ d.decisionId := by
          intro hentry
          obtain ⟨x, hx, -, -, rfl⟩ := (hreplay row.roomId entry).mp hentry
          exact fresh x hx
        rw [List.foldl_cons, List.foldl_cons, List.foldl_nil,
          replayDecision_confirmed _ rfl rfl rfl rfl rfl rfl,
          replayDecision_erased _ (.inr (.inr rfl)) rfl, OrdMap.mem_insert, OrdMap.mem_erase]
        simp [ActiveDecision.ofRow, active]
        tauto
  | started h => exact h.decisions hreplay

/-- The request ledger is no part of it. -/
theorem Ledgered.decisions {mid : Db} {room requestId : Uuid} {fingerprint : Json}
    (h : Ledgered mid db' room requestId fingerprint events) (hreplay : DecisionsReplay mid)
    : DecisionsReplay db' := by
  obtain ⟨_, _, rfl⟩ := h.frame
  exact hreplay.same [] (by simp) (by simp) rfl

theorem RequestEffect.decisions (h : RequestEffect env db db') (hreplay : DecisionsReplay db) :
    DecisionsReplay db' := by
  cases h with
  | aside h _ => exact hreplay.aside h
  | processed _ _ performed ledgered => exact ledgered.decisions (performed.decisions hreplay)
  | started _ h ledgered => exact ledgered.decisions (h.decisions hreplay)
  | reserved h =>
      obtain ⟨_, _, happended⟩ := h.appended
      obtain ⟨_, _, _, _, rfl⟩ := h.frame
      refine hreplay.same _ happended.rows (fun e he => ?_) rfl
      rw [List.mem_singleton.mp he, happended.row]
      rfl

theorem gateway_decisionsReplay (ops : List Op) : DecisionsReplay ((gateway env).run ops).db := by
  refine Machine.run_invariant (P := fun s => DecisionsReplay s.db) ?_
    (fun s op h => (gateway_requestEffect s op).decisions h) ops
  intro room entry
  simp [replayed, ActiveEntry, gateway, Db.eventsOf, OrdMap.empty]

/-! ### The two listings -/

/-- The replay lists what the table has. -/
theorem DecisionsReplay.activeDecisions_eq (h : DecisionsReplay db) (room : Uuid) :
    activeDecisions (db.eventsOf room) = activeRows db room := by
  have hkeys : ∀ entry ∈ (replayed db room).entries, entry.2.decisionId = entry.1 := by
    intro entry hentry
    obtain ⟨d, -, -, -, rfl⟩ := (h room entry).mp hentry
    rfl
  have hrows : Ascending ActiveDecision.decisionId (activeRows db room) := by
    refine List.pairwise_map.mpr (ascending_sortOn (List.pairwise_map.mpr ?_))
    refine (db.decisions.unique.filter _).imp fun {a b} hclash heq => ?_
    simp only [decisionConstraints, decide_eq_false_iff_not] at hclash
    exact hclash heq
  refine (OrdMap.ascending_values hkeys).eq_of_mem_iff hrows fun a => ?_
  simp only [OrdMap.mem_values, h room, ActiveEntry, activeRows, List.mem_map, byDecisionId,
    List.mem_insertionSort, List.mem_filter, Bool.and_eq_true, decide_eq_true_eq]
  constructor
  · rintro ⟨key, d, hd, hroom, hactive, heq⟩
    cases heq
    exact ⟨d, ⟨hd, hroom, hactive⟩, rfl⟩
  · rintro ⟨d, ⟨hd, hroom, hactive⟩, rfl⟩
    exact ⟨d.decisionId, d, hd, hroom, hactive, rfl⟩

/-! ### Hidden events -/

/-- Nothing about a decision is hidden from anyone. -/
def DecisionsOpen (db : Db) : Prop :=
  ∀ e ∈ db.roomEvents.rows, e.eventType.ofDecision = true → ¬ e.targeted

theorem DecisionsOpen.grow (h : DecisionsOpen db)
    (hrows : db'.roomEvents.rows = db.roomEvents.rows ++ events)
    (hevents : ∀ e ∈ events, e.eventType.ofDecision = true → ¬ e.targeted) :
    DecisionsOpen db' := by
  intro e he
  rw [hrows] at he
  rcases List.mem_append.mp he with he | he
  · exact h e he
  · exact hevents e he

/-- Only a message can be for some of the participants. -/
theorem Performed.targeted_ofDecision {actor : Actor} {request : ValidatedRequest}
    (h : Performed env actor db db' request events) {e : RoomEvent} (he : e ∈ events)
    (hdecision : e.eventType.ofDecision = true) : ¬ e.targeted := by
  intro htargeted
  obtain ⟨-, chat, rfl, -⟩ := h.targeted he htargeted
  cases h with
  | message _ _ _ logged _ =>
      obtain ⟨new, hnew, _, _, rfl⟩ := logged.of_new he
      have hnot : new.eventType.ofDecision = false := message_ofDecision hnew
      exact absurd hdecision (by rw [NewEvent.row, hnot]; simp)

theorem RequestEffect.decisionsOpen (h : RequestEffect env db db') (hopen : DecisionsOpen db) :
    DecisionsOpen db' := by
  cases h with
  | aside h _ =>
      intro e he hdecision
      rcases h.events e he with hold | hnot
      · exact hopen e hold hdecision
      · rw [hnot] at hdecision
        cases hdecision
  | processed _ _ performed ledgered =>
      obtain ⟨news, logged, -⟩ := performed.logged
      rw [← ledgered.log] at logged
      exact hopen.grow logged.rows fun e he => performed.targeted_ofDecision he
  | @started _ _ _ _ _ e _ _ _ h ledgered =>
      have hlog : db'.roomEvents.rows = db.roomEvents.rows ++ [e] := by
        rw [ledgered.log, h.eq]
        exact h.logged.rows
      refine hopen.grow hlog fun e he _ => ?_
      exact h.logged.not_targeted (by simp [requestedEvent, requestedTaskPayload, Json.asStr]) he
  | reserved h =>
      obtain ⟨_, _, happended⟩ := h.appended
      refine hopen.grow happended.rows fun e he _ => ?_
      exact happended.logged.not_targeted (by simp [promptEvent]) he

theorem gateway_decisionsOpen (ops : List Op) : DecisionsOpen ((gateway env).run ops).db :=
  Machine.run_invariant (P := fun s => DecisionsOpen s.db) (by simp [DecisionsOpen, gateway])
    (fun s op h => (gateway_requestEffect s op).decisionsOpen h) ops

/-- The replay does not miss the events that a participant cannot see. -/
theorem DecisionsOpen.activeDecisions_eq (h : DecisionsOpen db) (room requester : Uuid) :
    activeDecisions ((db.eventsOf room).filter (eventVisibleTo · requester)) =
      activeDecisions (db.eventsOf room) := by
  have hfold : ∀ events : List RoomEvent, (∀ e ∈ events, e ∈ db.roomEvents.rows) →
      ∀ m, (events.filter (eventVisibleTo · requester)).foldl replayDecision m =
        events.foldl replayDecision m := by
    intro events
    induction events with
    | nil => simp
    | cons e events ih =>
        intro hmem m
        have hrest := ih fun x hx => hmem x (List.mem_cons_of_mem e hx)
        cases hvisible : eventVisibleTo e requester with
        | true => rw [List.filter_cons, if_pos hvisible, List.foldl_cons, List.foldl_cons, hrest]
        | false =>
            -- a hidden event is about no decision
            have hother : e.eventType.ofDecision = false := by
              by_contra hdecision
              have hopen := h e (hmem e List.mem_cons_self) (by simpa using hdecision)
              rw [eventVisibleTo_of_not_targeted hopen requester] at hvisible
              cases hvisible
            rw [List.filter_cons, if_neg (by simp [hvisible]), List.foldl_cons,
              replayDecision_other m (.inl hother), hrest]
  rw [activeDecisions, activeDecisions,
    hfold _ fun e he => (Db.mem_eventsOf.mp he).1]

/-! ### Whole runs -/

/-- The replay of the log up to where it was after `ops` gives the active
decisions of that moment, whatever happens later and whoever asks. -/
structure FoldsLog (env : Env) (ops : List Op) : Prop where
  fold : ∀ more room requester,
    activeDecisions ((eventsUpTo ((gateway env).run (ops ++ more)).db room
      (((gateway env).run ops).db.maxSequence room)).filter (eventVisibleTo · requester)) =
        activeRows ((gateway env).run ops).db room
  packet : ∀ lease now context,
    contextForLease ((gateway env).run ops).db lease now = some context →
    ∃ before after, ops = before ++ after ∧
      context.task.contextRevision =
        ((gateway env).run before).db.maxSequence context.task.roomId ∧
      (contextPacket env context lease).activeDecisions =
        activeRows ((gateway env).run before).db context.task.roomId

theorem fold_prefix (env : Env) (ops more : List Op) (room requester : Uuid) :
    activeDecisions ((eventsUpTo ((gateway env).run (ops ++ more)).db room
      (((gateway env).run ops).db.maxSequence room)).filter (eventVisibleTo · requester)) =
        activeRows ((gateway env).run ops).db room := by
  rw [Machine.run_append, eventsUpTo_extends (gateway_log _ more) (Int.le_refl _),
    eventsUpTo_maxSequence (gateway_numbered ops), (gateway_decisionsOpen ops).activeDecisions_eq,
    (gateway_decisionsReplay ops).activeDecisions_eq]

/-- The decisions table is the fold of the room's log. -/
theorem decisions_fold_log (env : Env) (ops : List Op) : FoldsLog env ops where
  fold := fold_prefix env ops
  packet := by
    intro lease now context hcontext
    obtain ⟨t, ht, -, rfl⟩ := contextForLease_some hcontext
    obtain ⟨before, after, rfl, hstart⟩ := gateway_task_start ops t ht
    refine ⟨before, after, rfl, hstart, ?_⟩
    have hfold := fold_prefix env before after t.roomId t.requesterId
    rw [← hstart] at hfold
    exact hfold

end RoomGateway
