import RoomGateway.Lib.Loops
import RoomGateway.Spec.Disclosure
import RoomGateway.Spec.Manifests
import RoomGateway.Spec.Requests

/-!
What counts as disclosed to a conversation is what its completed turns were
shown, once each; all of it was public. A reply cites nothing else, and a reply
that cites an event among it is not turned away for that.
-/

namespace RoomGateway

variable {env : Env} {db db' : Db}

/-! ### One policy revision for each conversation -/

/-- The tasks of a conversation are under its policy revision. -/
def OnePolicy (db : Db) : Prop :=
  ∀ t c, Joined db t c → t.policyRevision = c.policyRevision

theorem OnePolicy.step (h : OnePolicy db) (hturns : Turns db) (hstep : TurnStep env db db') :
    OnePolicy db' := by
  intro x y hxy
  cases hstep with
  | same tasks conversations =>
      exact h x y ⟨tasks ▸ hxy.task, conversations ▸ hxy.conversation, hxy.owns⟩
  | reserved r =>
      rcases hturns.reserved_cases r hxy with ⟨rfl, rfl⟩ | ⟨y₀, hx, hsame, -⟩
      · exact r.policy_eq.symm
      · rw [hsame.policyRevision]
        exact h x y₀ hx
  | @moved t t' c c' m =>
      rcases m.joined_cases hxy with ⟨rfl, rfl⟩ | ⟨hx, -, rfl⟩ | ⟨hx, -, -⟩
      · rw [m.conversation_same.policyRevision,
          eq_of_origin ConversationTask.policyRevision (fun _ => rfl) m.origin]
        exact h t c m.toJoined
      · rw [m.conversation_same.policyRevision]
        exact h x c hx
      · exact h x y hx

/-! ### What the tasks were shown -/

/-- The decision stood in the database when the task was accepted. -/
def StoodAt (env : Env) (ops : List Op) (task : Uuid) (d : Decision) : Prop :=
  ∃ before op, before ++ [op] <+: ops ∧ d ∈ ((gateway env).run before).db.decisions.rows ∧
    (∀ x ∈ ((gateway env).run before).db.conversationTasks.rows, x.taskId ≠ task) ∧
    ∃ x ∈ ((gateway env).run (before ++ [op])).db.conversationTasks.rows, x.taskId = task

/-- The manifest of every task lists what may be shown in its room. -/
def ManifestsShowable (env : Env) (ops : List Op) : Prop :=
  ∀ t ∈ ((gateway env).run ops).db.conversationTasks.rows,
    ListsOnly (Showable env ((gateway env).run ops).db (StoodAt env ops t.taskId) t.roomId
      t.contextRevision) t.sourceManifest

theorem StoodAt.append {ops : List Op} {task : Uuid} {d : Decision} (h : StoodAt env ops task d)
    (op : Op) : StoodAt env (ops ++ [op]) task d := by
  obtain ⟨before, op', hbefore, hd⟩ := h
  exact ⟨before, op', hbefore.trans (List.prefix_append ops [op]), hd⟩

theorem gateway_manifestsShowable (env : Env) (ops : List Op) : ManifestsShowable env ops := by
  induction ops using List.reverseRecOn with
  | nil => simp [ManifestsShowable, gateway, Machine.run]
  | append_singleton ops op ih =>
      intro t ht
      have hdisclosed := (gateway_disclosed env ops).1
      have heffect : Effect env _ _ _ _ := gateway_effect ((gateway env).run ops) op
      rw [Machine.run_append] at ht ⊢
      by_cases hnew : ∀ x ∈ ((gateway env).run ops).db.conversationTasks.rows,
          x.taskId ≠ t.taskId
      · obtain ⟨policy, actor, turn, c, prompt, base, items, context, r⟩ :=
          (gateway_turnStep hdisclosed.turns op).reserved_of_new ht hnew
        refine (r.lists hdisclosed.distinct).mono fun id kind hshow => ?_
        refine hshow.extends .refl fun d hd => ⟨ops, op, List.prefix_rfl, hd, hnew, t, ?_, rfl⟩
        rwa [Machine.run_append]
      · obtain ⟨x, hx, hid⟩ : ∃ x ∈ ((gateway env).run ops).db.conversationTasks.rows,
            x.taskId = t.taskId := by
          simpa using hnew
        obtain ⟨x', hx', hcont⟩ := heffect.tasksContinue x hx
        obtain rfl : x' = t := Db.task_unique hx' ht (hcont.taskId_eq.trans hid)
        have horigin := hcont.origin
        rw [eq_of_origin ConversationTask.sourceManifest (fun _ => rfl) horigin,
          eq_of_origin ConversationTask.roomId (fun _ => rfl) horigin,
          eq_of_origin ConversationTask.contextRevision (fun _ => rfl) horigin, ← hid]
        exact (ih x hx).mono fun id kind hshow =>
          hshow.extends heffect.log fun d hd => hd.append op

/-! ### The ledger of disclosures -/

/-- The disclosure records a source that the completed task was shown. -/
structure DisclosedBy (t : ConversationTask) (d : ConversationDisclosure) : Prop where
  completed : t.state = .completed
  conversation : d.conversationId = t.conversationId
  room : d.roomId = t.roomId
  listed : t.Lists d.sourceId d.sourceKind
  policy : d.policyRevision = t.policyRevision

/-- The source counts as disclosed to the conversation. -/
def Db.Discloses (db : Db) (conversation id : Uuid) : Prop :=
  ∃ d ∈ db.conversationDisclosures.rows, d.conversationId = conversation ∧ d.sourceId = id

/-- What is disclosed was shown by a completed task, and what a completed task
was shown and what it cites is disclosed. -/
structure DisclosureLedger (db : Db) : Prop where
  sound : ∀ d ∈ db.conversationDisclosures.rows, ∃ t ∈ db.conversationTasks.rows, DisclosedBy t d
  complete : ∀ t ∈ db.conversationTasks.rows, t.state = .completed → ∀ id kind, t.Lists id kind →
    db.Discloses t.conversationId id
  cited : ∀ t ∈ db.conversationTasks.rows, t.state = .completed → ∃ result citations,
    t.result = some result ∧ result["citations"].asArray = some citations ∧
    ∀ citation ∈ citations, ∃ id : Uuid, citation = Json.str id.text ∧
      db.Discloses t.conversationId id

/-- Disclosures are recorded when a task is completed. -/
theorem Effect.disclosure_cases {stale update : Prop} (h : Effect env stale update db db') :
    (db'.conversationDisclosures = db.conversationDisclosures ∧ ReplyStep env False db db') ∨
    ∃ t c lease updateId ordinal request now eventId reply text,
      CompletedTurn env db db' t c lease updateId ordinal request now eventId reply text := by
  cases h with
  | quiet h =>
      have heffect : Effect env stale False db db' := .quiet h
      exact .inl ⟨h.disclosures, heffect.replyStep⟩
  | reserved h =>
      refine .inl ⟨?_, h.replyStep⟩
      obtain ⟨_, _, _, _, rfl⟩ := h.frame
      rfl
  | claimed h =>
      have heffect : Effect env stale False db db' := .claimed h
      refine .inl ⟨?_, heffect.replyStep⟩
      obtain ⟨_, _, rfl⟩ := h.frame
      rfl
  | completed _ h => exact .inr ⟨_, _, _, _, _, _, _, _, _, _, h⟩
  | reported _ h => exact .inl ⟨h.disclosures, h.replyStep⟩
  | noted _ h => exact .inl ⟨h.disclosures, h.replyStep⟩
  | failed _ h =>
      refine .inl ⟨?_, h.replyStep⟩
      obtain ⟨_, _, _, rfl⟩ := h.frame
      rfl
  | staleFailed _ _ h =>
      refine .inl ⟨?_, h.replyStep⟩
      obtain ⟨_, _, _, rfl⟩ := h.frame
      rfl

theorem DisclosedBy.continues {t t' : ConversationTask} {d : ConversationDisclosure}
    (h : DisclosedBy t d) (hc : Continues t t') : DisclosedBy t' d := by
  have hsame := hc.completed h.completed
  rw [hsame] at h
  exact ⟨h.1, h.2, h.3, h.4, h.5⟩

namespace DisclosureLedger

theorem init : DisclosureLedger {} where
  sound := by simp
  complete := by simp
  cited := by simp

theorem kept (h : DisclosureLedger db)
    (hsame : db'.conversationDisclosures = db.conversationDisclosures)
    (hstep : ReplyStep env False db db') (hcont : TasksContinue db db') : DisclosureLedger db' := by
  have hdiscloses : ∀ {conversation id}, db.Discloses conversation id →
      db'.Discloses conversation id := by
    rintro _ _ ⟨d, hd, hids⟩
    exact ⟨d, hsame ▸ hd, hids⟩
  refine ⟨fun d hd => ?_, fun x hx hstate id kind hlists => ?_, fun x hx hstate => ?_⟩
  · obtain ⟨t, ht, hby⟩ := h.sound d (hsame ▸ hd)
    obtain ⟨t', ht', hc⟩ := hcont t ht
    exact ⟨t', ht', hby.continues hc⟩
  · obtain ⟨y, hy, hcompleted, hc⟩ := hstep.completed_before hx hstate
    rw [ConversationTask.Lists,
      eq_of_origin ConversationTask.sourceManifest (fun _ => rfl) hc.origin] at hlists
    rw [eq_of_origin ConversationTask.conversationId (fun _ => rfl) hc.origin]
    exact hdiscloses (h.complete y hy hcompleted id kind hlists)
  · obtain ⟨y, hy, hcompleted, hc⟩ := hstep.completed_before hx hstate
    obtain ⟨result, citations, hresult, hcitations, hall⟩ := h.cited y hy hcompleted
    rw [hc.completed hcompleted] at hresult
    rw [eq_of_origin ConversationTask.conversationId (fun _ => rfl) hc.origin]
    refine ⟨result, citations, hresult, hcitations, fun citation hmem => ?_⟩
    obtain ⟨id, rfl, hd⟩ := hall citation hmem
    exact ⟨id, rfl, hdiscloses hd⟩

section Completed

variable {P : Uuid → SourceKind → Prop} {t : ConversationTask} {c : AgentConversation}
  {lease updateId : Uuid} {ordinal : Int} {request : Json} {now : Time} {eventId : Uuid}
  {reply : RoomEvent} {text : String} (hmanifest : ListsOnly P t.sourceManifest)
  (turn : CompletedTurn env db db' t c lease updateId ordinal request now eventId reply text)

include hmanifest turn

/-- What a completing update records. -/
theorem completed_recorded : ∃ policy sources, t.policyRevision = policy.policyRevision ∧
    t.sourceManifest.asArray = some sources ∧
    (validateCitations env policy t request["data"]).exec db = .ok ((), db) ∧
    (∀ source ∈ sources, ∃ id kind, source = sourceEntry id kind) ∧
    SourcesRecorded policy t sources db.conversationDisclosures.rows
      db'.conversationDisclosures.rows := by
  obtain ⟨policy, hcurrent, hchecked⟩ := turn.checked
  obtain ⟨sources, before, after, harray, hexec, hbefore, hafter⟩ := hchecked.disclosed
  have hsources : ∀ source ∈ sources, ∃ id kind, source = sourceEntry id kind := by
    obtain ⟨sources', harray', hlisted⟩ := hmanifest
    obtain rfl := Option.some.inj (harray.symm.trans harray')
    intro source hsource
    obtain ⟨id, kind, heq, -⟩ := hlisted source hsource
    exact ⟨id, kind, heq⟩
  simp only [policyCurrent, Bool.and_eq_true, decide_eq_true_eq] at hcurrent
  refine ⟨policy, sources, hcurrent.1.1, harray, hchecked.cited, hsources, ?_⟩
  rw [← hbefore, ← hafter]
  exact recorded_of_disclose hsources hexec

/-- A reply cites what its turn was shown or what was disclosed before. -/
theorem completed_cited : ∃ citations, request["data"]["citations"].asArray = some citations ∧
    ∀ citation ∈ citations, ∃ id : Uuid, citation = Json.str id.text ∧
      db'.Discloses t.conversationId id := by
  obtain ⟨policy, sources, -, harray, hcited, hsources, hrecorded⟩ :=
    completed_recorded hmanifest turn
  obtain ⟨-, manifest, citations, cited, hmanifest', hcitations, -, hall⟩ :=
    validateCitations_iff.mp hcited
  obtain rfl := Option.some.inj (harray.symm.trans hmanifest')
  refine ⟨citations, hcitations, fun citation hmem => ?_⟩
  obtain ⟨-, source, id, hfound, -, -⟩ := validateCitation_ok.mp (hall citation hmem)
  have hid : source["sourceId"] = citation := by simpa using List.find?_some hfound
  rcases List.mem_append.mp (List.mem_of_find?_eq_some hfound) with hsource | hsource
  · obtain ⟨id, kind, rfl⟩ := hsources source hsource
    rw [sourceEntry_id] at hid
    exact ⟨id, hid.symm, hrecorded.listed id kind hsource⟩
  · obtain ⟨d, hd, rfl⟩ := List.mem_map.mp hsource
    simp only [List.mem_filter, Bool.and_eq_true, decide_eq_true_eq] at hd
    refine ⟨d.sourceId, ?_, d, hrecorded.kept d hd.1, hd.2.1.1, rfl⟩
    rw [← hid]
    simp

theorem completed (h : DisclosureLedger db) (hcont : TasksContinue db db') :
    DisclosureLedger db' := by
  obtain ⟨policy, sources, hpolicy, harray, -, -, hrecorded⟩ := completed_recorded hmanifest turn
  have hdiscloses : ∀ {conversation id}, db.Discloses conversation id →
      db'.Discloses conversation id := by
    rintro _ _ ⟨d, hd, hids⟩
    exact ⟨d, hrecorded.kept d hd, hids⟩
  refine ⟨fun d hd => ?_, fun x hx hstate id kind hlists => ?_, fun x hx hstate => ?_⟩
  · rcases hrecorded.new d hd with hd | ⟨id, kind, hmem, rfl⟩
    · obtain ⟨x, hx, hby⟩ := h.sound d hd
      obtain ⟨x', hx', hc⟩ := hcont x hx
      exact ⟨x', hx', hby.continues hc⟩
    · exact ⟨_, turn.change.mem_tasks.mpr (.inl rfl), rfl, rfl, rfl, ⟨sources, harray, hmem⟩,
        hpolicy.symm⟩
  · rcases turn.change.mem_tasks.mp hx with rfl | ⟨hx, -⟩
    · obtain ⟨sources', harray', hmem⟩ := hlists
      obtain rfl := Option.some.inj (harray.symm.trans harray')
      exact hrecorded.listed id kind hmem
    · exact hdiscloses (h.complete x hx hstate id kind hlists)
  · rcases turn.change.mem_tasks.mp hx with rfl | ⟨hx, -⟩
    · obtain ⟨citations, hcitations, hall⟩ := completed_cited hmanifest turn
      exact ⟨_, citations, rfl, hcitations, hall⟩
    · obtain ⟨result, citations, hresult, hcitations, hall⟩ := h.cited x hx hstate
      refine ⟨result, citations, hresult, hcitations, fun citation hmem => ?_⟩
      obtain ⟨id, rfl, hd⟩ := hall citation hmem
      exact ⟨id, rfl, hdiscloses hd⟩

end Completed

end DisclosureLedger

theorem gateway_disclosureLedger (env : Env) (ops : List Op) :
    DisclosureLedger ((gateway env).run ops).db ∧ OnePolicy ((gateway env).run ops).db := by
  induction ops using List.reverseRecOn with
  | nil =>
      exact ⟨DisclosureLedger.init, fun t c hj => absurd hj.task (by simp [gateway, Machine.run])⟩
  | append_singleton ops op ih =>
      have hturns := (gateway_disclosed env ops).1.turns
      have heffect : Effect env _ _ _ _ := gateway_effect ((gateway env).run ops) op
      rw [Machine.run_append]
      refine ⟨?_, ih.2.step hturns (gateway_turnStep hturns op)⟩
      rcases heffect.disclosure_cases with ⟨hsame, hstep⟩ | ⟨t, c, _, _, _, _, _, _, _, _, hturn⟩
      · exact ih.1.kept hsame hstep heffect.tasksContinue
      · exact ih.1.completed (gateway_manifestsShowable env ops t hturn.change.task) hturn
          heffect.tasksContinue

/-! ### Discipline -/

theorem eventVisibleTo_of_public {e : RoomEvent} (h : publicPayload env e.payload = true)
    (actor : Uuid) : eventVisibleTo e actor = true := by
  refine eventVisibleTo_of_not_targeted (fun htargeted => ?_) actor
  rw [RoomEvent.targeted, Json.getElem_eq, Json.field] at htargeted
  rw [publicPayload, Bool.and_eq_true, Env.text] at h
  cases hget : e.payload.get? "delivery" with
  | none =>
      rw [hget] at htargeted
      cases htargeted
  | some value =>
      rw [hget] at h htargeted
      cases value with
      | str s =>
          cases htargeted
          simp at h
      | _ => cases htargeted

/-- Identifiers are drawn at random: no decision has the id of an event. -/
def IdsApart (env : Env) (ops : List Op) : Prop :=
  ∀ before, before <+: ops → ∀ d ∈ ((gateway env).run before).db.decisions.rows,
    ∀ e ∈ ((gateway env).run ops).db.roomEvents.rows, d.decisionId ≠ e.eventId

/-- An event that a reply of the task may cite: the task was shown it, or a
completed turn of its conversation was. -/
def Citable (db : Db) (t : ConversationTask) (id : Uuid) : Prop :=
  t.Lists id .event ∨ ∃ d ∈ db.conversationDisclosures.rows,
    d.conversationId = t.conversationId ∧ d.sourceId = id ∧ d.sourceKind = .event

/-- What is disclosed and what is cited, after the run. -/
structure Disciplined (env : Env) (ops : List Op) (db : Db) : Prop where
  disclosed : ∀ conversation id, db.Discloses conversation id ↔
    ∃ t ∈ db.conversationTasks.rows, t.state = .completed ∧ t.conversationId = conversation ∧
      ∃ kind, t.Lists id kind
  kinds : IdsApart env ops → ∀ conversation id kind,
    (∃ d ∈ db.conversationDisclosures.rows, d.conversationId = conversation ∧ d.sourceId = id ∧
      d.sourceKind = kind) ↔
    ∃ t ∈ db.conversationTasks.rows, t.state = .completed ∧ t.conversationId = conversation ∧
      t.Lists id kind
  once : ∀ conversation, ((db.conversationDisclosures.rows.filter
    (·.conversationId = conversation)).map (·.sourceId)).Nodup
  events : ∀ d ∈ db.conversationDisclosures.rows, d.sourceKind = .event →
    ∃ e ∈ db.roomEvents.rows, e.eventId = d.sourceId ∧ e.roomId = d.roomId ∧
      publicPayload env e.payload = true ∧ ∀ actor, eventVisibleTo e actor = true
  decisions : ∀ d ∈ db.conversationDisclosures.rows, d.sourceKind = .decision →
    ∃ t ∈ db.conversationTasks.rows, DisclosedBy t d ∧
      ∃ row, StoodAt env ops t.taskId row ∧ row.decisionId = d.sourceId ∧
        PublicDecision env db d.roomId t.contextRevision row
  cited : ∀ t ∈ db.conversationTasks.rows, t.state = .completed → ∃ result citations,
    t.result = some result ∧ result["citations"].asArray = some citations ∧
    ∀ citation ∈ citations, ∃ id : Uuid, citation = Json.str id.text ∧
      db.Discloses t.conversationId id
  passes : IdsApart env ops → ∀ t ∈ db.conversationTasks.rows, ∀ policy manifest,
    policyCurrent policy t = true → t.sourceManifest.asArray = some manifest →
    ∀ (citations : List Json) (cited : List Uuid), citations.mapM parseCitation = .ok cited →
    ∀ id, Citable db t id → Json.str id.text ∈ citations →
      (validateCitation env t.roomId (manifest ++ citedDisclosures db policy t cited)
        (Json.str id.text)).exec db = .ok ((), db)

section Runs

variable {ops : List Op}

/-- The id of an event is listed as an event. -/
theorem IdsApart.kind_eq (h : IdsApart env ops) {t : ConversationTask}
    (ht : t ∈ ((gateway env).run ops).db.conversationTasks.rows) {id : Uuid} {kind : SourceKind}
    (hlists : t.Lists id kind) {e : RoomEvent}
    (he : e ∈ ((gateway env).run ops).db.roomEvents.rows) (hid : e.eventId = id) :
    kind = .event := by
  cases kind with
  | event => rfl
  | decision =>
      obtain ⟨d, ⟨before, op, hbefore, hd, -⟩, hdid, -⟩ :=
        (gateway_manifestsShowable env ops t ht).of_lists hlists
      exact absurd (hdid.trans hid.symm)
        (h before ((List.prefix_append before [op]).trans hbefore) d hd e he)

theorem IdsApart.kind_unique (h : IdsApart env ops) {t x : ConversationTask}
    (ht : t ∈ ((gateway env).run ops).db.conversationTasks.rows)
    (hx : x ∈ ((gateway env).run ops).db.conversationTasks.rows) {id : Uuid}
    {kind kind' : SourceKind} (hlists : t.Lists id kind) (hlists' : x.Lists id kind') :
    kind' = kind := by
  cases kind with
  | event =>
      obtain ⟨e, he, hid, -⟩ := (gateway_manifestsShowable env ops t ht).of_lists hlists
      exact h.kind_eq hx hlists' he hid
  | decision =>
      cases kind' with
      | event =>
          obtain ⟨e, he, hid, -⟩ := (gateway_manifestsShowable env ops x hx).of_lists hlists'
          exact (h.kind_eq ht hlists he hid).symm
      | decision => rfl

/-- Two tasks of one conversation are in one room, under one policy revision. -/
theorem OnePolicy.same_conversation (h : OnePolicy db) (hturns : Turns db)
    {t x : ConversationTask} (ht : t ∈ db.conversationTasks.rows)
    (hx : x ∈ db.conversationTasks.rows) (hid : x.conversationId = t.conversationId) :
    x.roomId = t.roomId ∧ x.policyRevision = t.policyRevision := by
  obtain ⟨c, htc⟩ := hturns.owned t ht
  have hxc := hturns.joined_of_id htc.conversation hx (hid.trans htc.conversationId_eq.symm)
  have hroom := (ownsTask_iff.mp hxc.owns).2.1.symm.trans (ownsTask_iff.mp htc.owns).2.1
  exact ⟨hroom, (h x c hxc).trans (h t c htc).symm⟩

/-- An event that may be cited is public. -/
theorem Citable.public {t : ConversationTask} {id : Uuid}
    (ht : t ∈ ((gateway env).run ops).db.conversationTasks.rows)
    (h : Citable ((gateway env).run ops).db t id) :
    ∃ e ∈ ((gateway env).run ops).db.roomEvents.rows, e.eventId = id ∧ e.roomId = t.roomId ∧
      publicPayload env e.payload = true := by
  rcases h with hlists | ⟨d, hd, hconversation, rfl, hkind⟩
  · obtain ⟨e, he, hid, hroom, -, hpublic⟩ :=
      (gateway_manifestsShowable env ops t ht).of_lists hlists
    exact ⟨e, he, hid, hroom, hpublic⟩
  · obtain ⟨hledger, hpolicy⟩ := gateway_disclosureLedger env ops
    obtain ⟨x, hx, hby⟩ := hledger.sound d hd
    have hlists := hby.listed
    rw [hkind] at hlists
    obtain ⟨e, he, hid, hroom, -, hpublic⟩ :=
      (gateway_manifestsShowable env ops x hx).of_lists hlists
    have hsame := hpolicy.same_conversation (gateway_turns env ops) ht hx
      (hby.conversation.symm.trans hconversation)
    exact ⟨e, he, hid, hroom.trans hsame.1, hpublic⟩

/-- The sources that a reply is checked against were listed for some task. -/
theorem mem_citationSources {t : ConversationTask} {policy : ConversationPolicy}
    {manifest : List Json} {cited : List Uuid} {source : Json}
    (ht : t ∈ ((gateway env).run ops).db.conversationTasks.rows)
    (harray : t.sourceManifest.asArray = some manifest)
    (hsource : source ∈ manifest ++ citedDisclosures ((gateway env).run ops).db policy t cited) :
    ∃ id kind, source = sourceEntry id kind ∧
      ∃ x ∈ ((gateway env).run ops).db.conversationTasks.rows, x.Lists id kind := by
  rcases List.mem_append.mp hsource with hsource | hsource
  · obtain ⟨sources, harray', hsources⟩ := gateway_manifestsShowable env ops t ht
    obtain rfl := Option.some.inj (harray.symm.trans harray')
    obtain ⟨id, kind, rfl, -⟩ := hsources source hsource
    exact ⟨id, kind, rfl, t, ht, manifest, harray, hsource⟩
  · obtain ⟨d, hd, rfl⟩ := List.mem_map.mp hsource
    obtain ⟨x, hx, hby⟩ := (gateway_disclosureLedger env ops).1.sound d (List.mem_filter.mp hd).1
    exact ⟨d.sourceId, d.sourceKind, rfl, x, hx, hby.listed⟩

/-- What may be cited is among the sources that the reply is checked against. -/
theorem Citable.mem_sources {t : ConversationTask} {policy : ConversationPolicy}
    {manifest : List Json} {cited : List Uuid} {id : Uuid}
    (ht : t ∈ ((gateway env).run ops).db.conversationTasks.rows)
    (hcurrent : policyCurrent policy t = true)
    (harray : t.sourceManifest.asArray = some manifest)
    (h : Citable ((gateway env).run ops).db t id) (hcited : id ∈ cited) :
    ∃ source ∈ manifest ++ citedDisclosures ((gateway env).run ops).db policy t cited,
      source["sourceId"] = Json.str id.text := by
  rcases h with ⟨sources, harray', hmem⟩ | ⟨d, hd, hconversation, rfl, -⟩
  · obtain rfl := Option.some.inj (harray.symm.trans harray')
    exact ⟨_, List.mem_append_left _ hmem, sourceEntry_id ..⟩
  · obtain ⟨hledger, hpolicy⟩ := gateway_disclosureLedger env ops
    obtain ⟨x, hx, hby⟩ := hledger.sound d hd
    have hsame := hpolicy.same_conversation (gateway_turns env ops) ht hx
      (hby.conversation.symm.trans hconversation)
    simp only [policyCurrent, Bool.and_eq_true, decide_eq_true_eq] at hcurrent
    have hrevision : d.policyRevision = policy.policyRevision :=
      (hby.policy.trans hsame.2).trans hcurrent.1.1
    refine ⟨sourceEntry d.sourceId d.sourceKind, List.mem_append_right _ (List.mem_map.mpr
      ⟨d, List.mem_filter.mpr ⟨hd, ?_⟩, rfl⟩), sourceEntry_id ..⟩
    simp [hconversation, hrevision, hcited]

theorem Citable.passes {t : ConversationTask} {policy : ConversationPolicy}
    {manifest citations : List Json} {cited : List Uuid} {id : Uuid} (hapart : IdsApart env ops)
    (ht : t ∈ ((gateway env).run ops).db.conversationTasks.rows)
    (hcurrent : policyCurrent policy t = true)
    (harray : t.sourceManifest.asArray = some manifest)
    (hcited : citations.mapM parseCitation = .ok cited)
    (h : Citable ((gateway env).run ops).db t id) (hmem : Json.str id.text ∈ citations) :
    (validateCitation env t.roomId
        (manifest ++ citedDisclosures ((gateway env).run ops).db policy t cited)
        (Json.str id.text)).exec ((gateway env).run ops).db =
      .ok ((), ((gateway env).run ops).db) := by
  obtain ⟨id', hid', hparse⟩ :=
    Table.exists_of_forall₂ (Loops.forall₂_of_mapM_ok hcited).flip hmem
  obtain rfl : id = id' := by simpa [parseCitation, Json.asStr] using hparse
  obtain ⟨e, he, heid, hroom, hpublic⟩ := h.public ht
  obtain ⟨source, hsource, hsourceId⟩ := h.mem_sources ht hcurrent harray hid'
  have hsome : ((manifest ++ citedDisclosures ((gateway env).run ops).db policy t cited).find?
      fun s => s["sourceId"] = Json.str id.text).isSome = true :=
    List.find?_isSome.mpr ⟨source, hsource, decide_eq_true hsourceId⟩
  obtain ⟨found, hfound⟩ := Option.isSome_iff_exists.mp hsome
  -- the source that is found is an event, since its id is that of one
  obtain ⟨id', kind, rfl, x, hx, hlists⟩ :=
    mem_citationSources ht harray (List.mem_of_find?_eq_some hfound)
  have hfoundId : (sourceEntry id' kind)["sourceId"] = Json.str id.text := by
    simpa using List.find?_some hfound
  rw [sourceEntry_id] at hfoundId
  obtain rfl := Uuid.text_injective (Json.str.inj hfoundId)
  obtain rfl := hapart.kind_eq hx hlists he heid
  refine validateCitation_ok.mpr ⟨rfl, _, id', hfound, uuidField_sourceEntry .., ?_⟩
  have hevent : Json.str SourceKind.event.asStr = Json.str "event" := rfl
  rw [sourceEntry_kind, sourceVisible, if_pos hevent, List.any_eq_true]
  exact ⟨e, he, by simp [heid, hroom, hpublic]⟩

end Runs

theorem disclosures_disciplined (env : Env) (ops : List Op) :
    Disciplined env ops ((gateway env).run ops).db := by
  obtain ⟨hledger, hpolicy⟩ := gateway_disclosureLedger env ops
  have hshown := gateway_manifestsShowable env ops
  refine ⟨fun conversation id => ⟨?_, ?_⟩, fun hapart conversation id kind => ⟨?_, ?_⟩,
    fun conversation => ?_, fun d hd hkind => ?_, fun d hd hkind => ?_, hledger.cited,
    fun hapart t ht policy manifest hcurrent harray citations cited hcited id hcitable hmem =>
      hcitable.passes hapart ht hcurrent harray hcited hmem⟩
  · rintro ⟨d, hd, rfl, rfl⟩
    obtain ⟨t, ht, hby⟩ := hledger.sound d hd
    exact ⟨t, ht, hby.completed, hby.conversation.symm, d.sourceKind, hby.listed⟩
  · rintro ⟨t, ht, hstate, rfl, kind, hlists⟩
    exact hledger.complete t ht hstate id kind hlists
  · rintro ⟨d, hd, rfl, rfl, rfl⟩
    obtain ⟨t, ht, hby⟩ := hledger.sound d hd
    exact ⟨t, ht, hby.completed, hby.conversation.symm, hby.listed⟩
  · rintro ⟨t, ht, hstate, rfl, hlists⟩
    obtain ⟨d, hd, hconversation, rfl⟩ := hledger.complete t ht hstate id kind hlists
    obtain ⟨x, hx, hby⟩ := hledger.sound d hd
    exact ⟨d, hd, hconversation, rfl, hapart.kind_unique ht hx hlists hby.listed⟩
  · refine List.pairwise_map.mpr (List.Pairwise.imp_of_mem ?_
      (((gateway env).run ops).db.conversationDisclosures.unique.filter _))
    intro a b ha hb hclash heq
    simp only [List.mem_filter, decide_eq_true_eq] at ha hb
    simp [conversationDisclosureConstraints, ha.2, hb.2, heq] at hclash
  · obtain ⟨t, ht, hby⟩ := hledger.sound d hd
    have hlists := hby.listed
    rw [hkind] at hlists
    obtain ⟨e, he, hid, hroom, -, hpublic⟩ := (hshown t ht).of_lists hlists
    exact ⟨e, he, hid, hroom.trans hby.room.symm, hpublic, eventVisibleTo_of_public hpublic⟩
  · obtain ⟨t, ht, hby⟩ := hledger.sound d hd
    have hlists := hby.listed
    rw [hkind] at hlists
    obtain ⟨row, hstood, hid, hdecision⟩ := (hshown t ht).of_lists hlists
    rw [hby.room]
    exact ⟨t, ht, hby, row, hstood, hid, hdecision⟩

end RoomGateway
