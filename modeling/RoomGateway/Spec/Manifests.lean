import RoomGateway.Spec.Window

/-!
The source manifest of a turn: the events and the decisions that its frozen
context shows. Completing the turn records them once for its conversation, and
a reply may cite them.
-/

namespace RoomGateway

variable {env : Env} {db db' : Db}

/-! ### What a manifest lists -/

/-- A source as a manifest lists it. -/
def sourceEntry (id : Uuid) (kind : SourceKind) : Json :=
  .obj [("sourceId", id), ("sourceKind", kind.asStr)]

@[simp] theorem sourceEntry_id (id : Uuid) (kind : SourceKind) :
    (sourceEntry id kind)["sourceId"] = Json.str id.text := by
  simp [sourceEntry]

@[simp] theorem sourceEntry_kind (id : Uuid) (kind : SourceKind) :
    (sourceEntry id kind)["sourceKind"] = Json.str kind.asStr := by
  simp [sourceEntry]

@[simp] theorem uuidField_sourceEntry (id : Uuid) (kind : SourceKind) :
    uuidField (sourceEntry id kind) "sourceId" = .ok id := by
  simp [uuidField, Json.asStr]

@[simp] theorem SourceKind.ofStr_asStr (kind : SourceKind) : ofStr kind.asStr = some kind := by
  cases kind <;> rfl

/-- The manifest of the task lists the source. -/
def ConversationTask.Lists (t : ConversationTask) (id : Uuid) (kind : SourceKind) : Prop :=
  ∃ sources, t.sourceManifest.asArray = some sources ∧ sourceEntry id kind ∈ sources

/-- Everything in the value is the entry of a source of which `P` holds. -/
def ListsOnly (P : Uuid → SourceKind → Prop) (manifest : Json) : Prop :=
  ∃ sources, manifest.asArray = some sources ∧
    ∀ source ∈ sources, ∃ id kind, source = sourceEntry id kind ∧ P id kind

theorem ListsOnly.mono {P Q : Uuid → SourceKind → Prop} {manifest : Json}
    (h : ListsOnly P manifest) (hPQ : ∀ id kind, P id kind → Q id kind) : ListsOnly Q manifest := by
  obtain ⟨sources, harray, hsources⟩ := h
  refine ⟨sources, harray, fun source hsource => ?_⟩
  obtain ⟨id, kind, heq, hP⟩ := hsources source hsource
  exact ⟨id, kind, heq, hPQ id kind hP⟩

theorem sourceEntry_inj {id id' : Uuid} {kind kind' : SourceKind}
    (h : sourceEntry id kind = sourceEntry id' kind') : id = id' ∧ kind = kind' := by
  have hid := congrArg (fun source : Json => source["sourceId"]) h
  have hkind := congrArg (fun source : Json => source["sourceKind"]) h
  simp only [sourceEntry_id, sourceEntry_kind, Json.str.injEq] at hid hkind
  have hofStr := congrArg SourceKind.ofStr hkind
  simp only [SourceKind.ofStr_asStr, Option.some.injEq] at hofStr
  exact ⟨Uuid.text_injective hid, hofStr⟩

theorem ListsOnly.of_lists {P : Uuid → SourceKind → Prop} {t : ConversationTask} {id : Uuid}
    {kind : SourceKind} (h : ListsOnly P t.sourceManifest) (hlists : t.Lists id kind) :
    P id kind := by
  obtain ⟨sources, harray, hsources⟩ := h
  obtain ⟨sources', harray', hmem⟩ := hlists
  obtain rfl := Option.some.inj (harray.symm.trans harray')
  obtain ⟨id', kind', heq, hP⟩ := hsources _ hmem
  obtain ⟨rfl, rfl⟩ := sourceEntry_inj heq
  exact hP

section Listing

variable {P : Uuid → SourceKind → Prop}

/-- The list so far, of which `P` holds. -/
def Listing (P : Uuid → SourceKind → Prop) (listed : List String × List Json) : Prop :=
  ∀ source ∈ listed.2, ∃ id kind, source = sourceEntry id kind ∧ P id kind

theorem Listing.listSource {listed : List String × List Json} (h : Listing P listed) {id : Uuid}
    {kind : SourceKind} (hP : P id kind) :
    Listing P (listSource kind.asStr listed (Json.str id.text)) := by
  simp only [RoomGateway.listSource, Json.asStr]
  split_ifs
  · exact h
  · intro source hsource
    rcases List.mem_append.mp hsource with hsource | hsource
    · exact h source hsource
    · exact ⟨id, kind, List.mem_singleton.mp hsource, hP⟩

theorem Listing.listSources {listed : List String × List Json} (h : Listing P listed)
    {ids : List Json} {kind : SourceKind}
    (hids : ∀ value ∈ ids, ∃ id : Uuid, value = Json.str id.text ∧ P id kind) :
    Listing P (ids.foldl (RoomGateway.listSource kind.asStr) listed) := by
  refine List.foldlRecOn (motive := Listing P) ids _ h fun listed hlisted value hvalue => ?_
  obtain ⟨id, rfl, hP⟩ := hids value hvalue
  exact hlisted.listSource hP

/-- A manifest lists what its context shows: the entries and the bindings, and
the decisions with their sources. -/
theorem sourceManifest_lists {context : Json}
    (hevents : ∀ name ∈ ["entries", "nativeReplyBindings"],
      ∀ value ∈ (context[name].asArray.getD []), ∃ id : Uuid,
        value["eventId"] = Json.str id.text ∧ P id .event)
    (hdecisions : ∀ value ∈ (context["activeDecisions"].asArray.getD []),
      (∃ id : Uuid, value["decisionId"] = Json.str id.text ∧ P id .decision) ∧
      ∀ source ∈ (value["sourceEventIds"].asArray.getD []), ∃ id : Uuid,
        source = Json.str id.text ∧ P id .event) :
    ListsOnly P (sourceManifest context) := by
  refine ⟨_, rfl, ?_⟩
  refine List.foldlRecOn (motive := Listing P) _ _ ?_ fun listed hlisted value hvalue => ?_
  · let ids (name : String) := (context[name].asArray.getD []).map fun entry => entry["eventId"]
    have hids : ∀ value ∈ ids "entries" ++ ids "nativeReplyBindings",
        ∃ id : Uuid, value = Json.str id.text ∧ P id SourceKind.event := by
      intro value hvalue
      rcases List.mem_append.mp hvalue with hvalue | hvalue
      · obtain ⟨entry, hentry, rfl⟩ := List.mem_map.mp hvalue
        exact hevents "entries" (by simp) entry hentry
      · obtain ⟨entry, hentry, rfl⟩ := List.mem_map.mp hvalue
        exact hevents "nativeReplyBindings" (by simp) entry hentry
    have hstart : Listing P ([], []) := by simp [Listing]
    exact hstart.listSources hids
  · obtain ⟨⟨id, hid, hP⟩, hsources⟩ := hdecisions value hvalue
    rw [listDecision, hid]
    exact (hlisted.listSource hP).listSources hsources

end Listing

/-! ### What a turn is shown -/

/-- A public event of the room, up to the revision. -/
def PublicEvent (env : Env) (db : Db) (room : Uuid) (revision : Int) (id : Uuid) : Prop :=
  ∃ e ∈ db.roomEvents.rows, e.eventId = id ∧ e.roomId = room ∧ e.sequence ≤ revision ∧
    publicPayload env e.payload = true

theorem PublicEvent.extends {room id : Uuid} {revision : Int}
    (h : PublicEvent env db room revision id) (hlog : LogExtends db db') :
    PublicEvent env db' room revision id := by
  obtain ⟨e, he, hpublic⟩ := h
  exact ⟨e, hlog.mem he, hpublic⟩

/-- An active decision of the room, taken from public events. -/
structure PublicDecision (env : Env) (db : Db) (room : Uuid) (revision : Int) (d : Decision) :
    Prop where
  inRoom : d.roomId = room
  active : d.status = .active
  sources : ∀ source ∈ d.sourceEventIds, PublicEvent env db room revision source

/-- What may be shown in the room: public events, and decisions among those that
`known` tells. -/
def Showable (env : Env) (db : Db) (known : Decision → Prop) (room : Uuid) (revision : Int)
    (id : Uuid) : SourceKind → Prop
  | .event => PublicEvent env db room revision id
  | .decision => ∃ d, known d ∧ d.decisionId = id ∧ PublicDecision env db room revision d

theorem Showable.extends {known known' : Decision → Prop} {room id : Uuid} {revision : Int}
    {kind : SourceKind} (h : Showable env db known room revision id kind)
    (hlog : LogExtends db db') (hknown : ∀ d, known d → known' d) :
    Showable env db' known' room revision id kind := by
  cases kind with
  | event => exact PublicEvent.extends h hlog
  | decision =>
      obtain ⟨d, hd, hid, hpublic⟩ := h
      exact ⟨d, hknown d hd, hid, hpublic.inRoom, hpublic.active,
        fun source hsource => (hpublic.sources source hsource).extends hlog⟩

theorem mem_contextDecisions {room : Uuid} {revision : Int} {d : Decision}
    (h : d ∈ contextDecisions env db room revision) :
    d ∈ db.decisions.rows ∧ PublicDecision env db room revision d := by
  simp only [contextDecisions, publicSources, List.mem_filter, Bool.and_eq_true,
    decide_eq_true_eq, List.all_eq_true, List.any_eq_true] at h
  obtain ⟨hd, ⟨hroom, hactive⟩, hsources⟩ := h
  refine ⟨hd, hroom, hactive, fun source hsource => ?_⟩
  obtain ⟨e, he, ⟨⟨hid, heroom⟩, hle⟩, hpublic⟩ := hsources source hsource
  exact ⟨e, he, hid, heroom.trans hroom, hle, hpublic⟩

theorem ContextItem.value_of_entry {item : ContextItem} {value : Json}
    (h : item.entry? = some value) : item.value = value := by
  cases item with
  | entry _ => exact Option.some.inj h
  | binding _ => cases h

theorem ContextItem.value_of_binding {item : ContextItem} {value : Json}
    (h : item.binding? = some value) : item.value = value := by
  cases item with
  | entry _ => cases h
  | binding _ => exact Option.some.inj h

/-- A context shows what may be shown. -/
theorem BuiltContext.lists {room conversation trigger : Uuid} {generation base : Int}
    {policy : ConversationPolicy} {event : RoomEvent} {items : List ContextItem} {context : Json}
    (b : BuiltContext env db room conversation generation base trigger policy event items context)
    (hdistinct : DistinctReplies db) :
    ListsOnly (Showable env db (· ∈ db.decisions.rows) room event.sequence)
      (sourceManifest context) := by
  obtain ⟨digest, hcontext⟩ := b.context_eq
  have hitem : ∀ item ∈ items, ∃ id : Uuid, item.value["eventId"] = Json.str id.text ∧
      PublicEvent env db room event.sequence id := by
    intro item hitem
    obtain ⟨e, he, hshows⟩ := Table.exists_of_forall₂ (b.shown_items hdistinct)
      (List.mem_map_of_mem hitem)
    obtain ⟨he, hpublic⟩ := mem_publicMessages.mp he
    obtain ⟨hroom, -, hle, -, hpublic⟩ := publicMessage_iff.mp hpublic
    exact ⟨e.eventId, hshows.eventId, e, he, rfl, hroom, hle, hpublic⟩
  have hentries : context["entries"].asArray.getD [] = items.filterMap ContextItem.entry? := by
    rw [hcontext, Json.getElem_set_of_ne (by decide)]
    simp [contextValue, Json.asArray]
  have hbindings : context["nativeReplyBindings"].asArray.getD [] =
      items.filterMap ContextItem.binding? := by
    rw [hcontext, Json.getElem_set_of_ne (by decide)]
    simp [contextValue, Json.asArray]
  have hactive : context["activeDecisions"].asArray.getD [] =
      (byDecisionId (contextDecisions env db room event.sequence)).map contextDecision := by
    rw [hcontext, Json.getElem_set_of_ne (by decide)]
    simp [contextValue, Json.asArray]
  refine sourceManifest_lists (fun name hname value hvalue => ?_) fun value hvalue => ?_
  · simp only [List.mem_cons, List.not_mem_nil, or_false] at hname
    rcases hname with rfl | rfl
    · rw [hentries] at hvalue
      obtain ⟨item, hmem, hvalue⟩ := List.mem_filterMap.mp hvalue
      rw [← ContextItem.value_of_entry hvalue]
      exact hitem item hmem
    · rw [hbindings] at hvalue
      obtain ⟨item, hmem, hvalue⟩ := List.mem_filterMap.mp hvalue
      rw [← ContextItem.value_of_binding hvalue]
      exact hitem item hmem
  · rw [hactive] at hvalue
    obtain ⟨d, hd, rfl⟩ := List.mem_map.mp hvalue
    obtain ⟨hmem, hpublic⟩ := mem_contextDecisions ((List.mem_insertionSort _).mp hd)
    refine ⟨⟨d.decisionId, ?_, d, hmem, rfl, hpublic⟩, fun source hsource => ?_⟩
    · simp [contextDecision]
    have hsources : (contextDecision d)["sourceEventIds"].asArray.getD [] =
        d.sourceEventIds.map fun id => Json.str id.text := by
      simp [contextDecision, Json.asArray, Json.ofUuids]
    rw [hsources] at hsource
    obtain ⟨id, hid, rfl⟩ := List.mem_map.mp hsource
    exact ⟨id, rfl, hpublic.sources id hid⟩

theorem ReservedTurn.lists {policy : ConversationPolicy} {actor : Actor} {turn : TurnRequest}
    {t : ConversationTask} {c : AgentConversation} {prompt : RoomEvent} {base : Int}
    {items : List ContextItem} {context : Json}
    (r : ReservedTurn env db db' policy actor turn t c prompt base items context)
    (hdistinct : DistinctReplies db) :
    ListsOnly (Showable env db' (· ∈ db.decisions.rows) t.roomId t.contextRevision)
      t.sourceManifest := by
  obtain ⟨target, settings, frozen, accepted, htask⟩ := r.task
  have hroom : t.roomId = turn.room := by rw [htask, reservedTask]
  have hmanifest : t.sourceManifest = sourceManifest context := by rw [htask, reservedTask]
  have hdistinct' : DistinctReplies { db with roomEvents := db'.roomEvents } := hdistinct
  rw [hmanifest, hroom, r.task_revision]
  exact (r.built.lists hdistinct').mono fun id kind h => h.extends .refl fun _ hd => hd

/-! ### Recording what was shown -/

/-- What the loop over a manifest leaves: every listed source is recorded for
the conversation, and nothing else is new. -/
structure SourcesRecorded (policy : ConversationPolicy) (t : ConversationTask) (sources : List Json)
    (before after : List ConversationDisclosure) : Prop where
  kept : ∀ d ∈ before, d ∈ after
  listed : ∀ id kind, sourceEntry id kind ∈ sources →
    ∃ d ∈ after, d.conversationId = t.conversationId ∧ d.sourceId = id
  new : ∀ d ∈ after, d ∈ before ∨ ∃ id kind, sourceEntry id kind ∈ sources ∧
    d = disclosureOf policy t.roomId t id kind

theorem Db.discloseOnce_rows {d : ConversationDisclosure} (h : Db.discloseOnce d db = some db') :
    (db'.conversationDisclosures = db.conversationDisclosures ∧
      ∃ x ∈ db.conversationDisclosures.rows, x.conversationId = d.conversationId ∧
        x.sourceId = d.sourceId) ∨
      db'.conversationDisclosures.rows = db.conversationDisclosures.rows ++ [d] := by
  rw [Db.discloseOnce, Option.ite_none_right_eq_some] at h
  obtain ⟨-, h⟩ := h
  obtain ⟨table, htable, rfl⟩ := Option.map_eq_some_iff.mp h
  rw [Table.insertOrIgnore] at htable
  split_ifs at htable with hany
  · cases htable
    simp only [List.any_eq_true, Bool.and_eq_true, decide_eq_true_eq] at hany
    exact .inl ⟨rfl, hany⟩
  · exact .inr (Table.rows_insert htable)

theorem recorded_of_disclose {policy : ConversationPolicy} {t : ConversationTask}
    {sources : List Json} {u : Unit}
    (hsources : ∀ source ∈ sources, ∃ id kind, source = sourceEntry id kind)
    (h : (Prog.forEach sources (disclose policy t.roomId t)).exec db = .ok (u, db')) :
    SourcesRecorded policy t sources db.conversationDisclosures.rows
      db'.conversationDisclosures.rows := by
  induction sources generalizing db with
  | nil =>
      obtain ⟨-, rfl⟩ := Prog.exec_pure_ok.mp h
      exact ⟨fun d hd => hd, by simp, fun d hd => .inl hd⟩
  | cons source sources ih =>
      obtain ⟨_, db₁, hfirst, hrest⟩ := Prog.exec_bind_ok.mp h
      obtain ⟨id, kind, rfl⟩ := hsources _ List.mem_cons_self
      have hlater := ih (fun x hx => hsources x (List.mem_cons_of_mem _ hx)) hrest
      simp only [disclose, uuidField_sourceEntry, sourceEntry_kind, Json.asStr, Option.bind_some,
        SourceKind.ofStr_asStr, Prog.exec_bind_ok, Prog.exec_ofExcept_ok, Prog.exec_orFail_ok,
        Prog.exec_execute_ok] at hfirst
      obtain ⟨_, _, ⟨hid, rfl⟩, _, _, ⟨hkind, rfl⟩, hfirst⟩ := hfirst
      cases hid
      cases hkind
      -- the source is recorded now, or was before
      have hnow : ∃ d ∈ db₁.conversationDisclosures.rows,
          d.conversationId = t.conversationId ∧ d.sourceId = id := by
        rcases Db.discloseOnce_rows hfirst with ⟨heq, x, hx, hids⟩ | hrows
        · exact ⟨x, heq ▸ hx, hids⟩
        · exact ⟨_, hrows ▸ List.mem_append_right _ List.mem_cons_self, rfl, rfl⟩
      have hkept : ∀ d ∈ db.conversationDisclosures.rows,
          d ∈ db₁.conversationDisclosures.rows := by
        rcases Db.discloseOnce_rows hfirst with ⟨heq, -⟩ | hrows
        · exact fun d hd => heq ▸ hd
        · exact fun d hd => hrows ▸ List.mem_append_left _ hd
      refine ⟨fun d hd => hlater.kept d (hkept d hd), fun id' kind' hmem => ?_, fun d hd => ?_⟩
      · rcases List.mem_cons.mp hmem with heq | hmem
        · obtain ⟨rfl, -⟩ := sourceEntry_inj heq
          obtain ⟨d, hd, hids⟩ := hnow
          exact ⟨d, hlater.kept d hd, hids⟩
        · exact hlater.listed id' kind' hmem
      · rcases hlater.new d hd with hd | ⟨id', kind', hmem, rfl⟩
        · rcases Db.discloseOnce_rows hfirst with ⟨heq, -⟩ | hrows
          · exact .inl (heq ▸ hd)
          · rw [hrows, List.mem_append, List.mem_singleton] at hd
            exact hd.imp_right fun hd => ⟨id, kind, List.mem_cons_self, hd⟩
        · exact .inr ⟨id', kind', List.mem_cons_of_mem _ hmem, rfl⟩

/-! ### Citing what was shown -/

/-- A citation passes if the first source of its id is public now. -/
theorem validateCitation_ok {room : Uuid} {sources : List Json} {citation : Json} {u : Unit} :
    (validateCitation env room sources citation).exec db = .ok (u, db') ↔
      db = db' ∧ ∃ source id, sources.find? (fun s => s["sourceId"] = citation) = some source ∧
        uuidField source "sourceId" = .ok id ∧
        sourceVisible env db room id source["sourceKind"] = true := by
  simp only [validateCitation, Prog.exec_bind_ok, Prog.exec_orFail_ok, Prog.exec_ofExcept_ok,
    Prog.exec_query_ok, Prog.exec_ensure_ok]
  constructor
  · rintro ⟨source, _, ⟨hfound, rfl⟩, id, _, ⟨hid, rfl⟩, _, _, ⟨rfl, rfl⟩, hvisible, rfl⟩
    exact ⟨rfl, source, id, hfound, hid, hvisible⟩
  · rintro ⟨rfl, source, id, hfound, hid, hvisible⟩
    exact ⟨source, _, ⟨hfound, rfl⟩, id, _, ⟨hid, rfl⟩, _, _, ⟨rfl, rfl⟩, hvisible, rfl⟩

/-- The citations pass if each of them does. -/
theorem validateCitations_iff {policy : ConversationPolicy} {t : ConversationTask} {reply : Json}
    {u : Unit} :
    (validateCitations env policy t reply).exec db = .ok (u, db') ↔
      db = db' ∧ ∃ manifest citations cited, t.sourceManifest.asArray = some manifest ∧
        reply["citations"].asArray = some citations ∧ citations.mapM parseCitation = .ok cited ∧
        ∀ citation ∈ citations, (validateCitation env t.roomId
          (manifest ++ citedDisclosures db policy t cited) citation).exec db = .ok ((), db) := by
  have hreads : ∀ sources citation s v,
      (validateCitation env t.roomId sources citation).exec db = .ok (v, s) → db = s :=
    fun _ _ _ _ h => (validateCitation_ok.mp h).1
  simp only [validateCitations, Prog.exec_bind_ok, Prog.exec_orFail_ok, Prog.exec_ofExcept_ok,
    Prog.exec_query_ok]
  constructor
  · rintro ⟨manifest, _, ⟨hmanifest, rfl⟩, citations, _, ⟨hcitations, rfl⟩, cited, _, ⟨hcited, rfl⟩,
      _, _, ⟨rfl, rfl⟩, h⟩
    obtain ⟨rfl, hall⟩ := (Prog.exec_forEach_reads fun b _ => hreads _ b).mp h
    exact ⟨rfl, manifest, citations, cited, hmanifest, hcitations, hcited, hall⟩
  · rintro ⟨rfl, manifest, citations, cited, hmanifest, hcitations, hcited, hall⟩
    exact ⟨manifest, _, ⟨hmanifest, rfl⟩, citations, _, ⟨hcitations, rfl⟩, cited, _, ⟨hcited, rfl⟩,
      _, _, ⟨rfl, rfl⟩, (Prog.exec_forEach_reads fun b _ => hreads _ b).mpr ⟨rfl, hall⟩⟩

end RoomGateway
