import RoomGateway.Spec.CanonicalText
import RoomGateway.Spec.Catalog
import RoomGateway.Spec.Record

/-!
The pages of the bridge. Every cursor stands for a place in one catalog, and
keeps standing for it while requests of other clients come and go. The pages
that a client comes to by following its cursors are the catalog cut into pieces;
on another catalog than the one it was issued for, a cursor gets nothing.
-/

namespace RoomGateway

open Schema Keyed

variable {env : Env} {doc : Json}

/-! ### A piece of the catalog -/

/-- A catalog as the upstream serves it. -/
structure Upstream (doc : Json) : Prop where
  fits : Fits catalogSchema doc
  whole : doc["nextCursor"] = .null

theorem Upstream.data (h : Upstream doc) : doc["data"] = .arr (pageModels doc) :=
  (pageModels_of_schema h.fits.valid).1

namespace CatalogBridge

/-- The page from a place in the catalog on. -/
def pageFrom (doc : Json) (offset limit : Nat) : Json :=
  doc.set "data" (.arr (((pageModels doc).drop offset).take limit))

/-- What the cursor after that page stands for, if more follows. -/
def after (env : Env) (doc : Json) (offset limit : Nat) : Option Resume :=
  if offset + limit < (pageModels doc).length then some ⟨digest env doc, offset + limit⟩ else none

theorem after_some {offset limit : Nat} {entry : Resume}
    (h : after env doc offset limit = some entry) :
    entry = ⟨digest env doc, offset + limit⟩ ∧ offset + limit < (pageModels doc).length := by
  unfold after at h
  split_ifs at h with hbound
  exact ⟨(Option.some.inj h).symm, hbound⟩

theorem slice_eq {α : Type} (data : List α) (offset limit : Nat) :
    (data.take (min (offset + limit) data.length)).drop offset = (data.drop offset).take limit := by
  rw [List.drop_take, List.take_eq_take_iff, List.length_drop]
  omega

theorem after_eq (env : Env) (doc : Json) (offset limit : Nat) :
    (if min (offset + limit) (pageModels doc).length < (pageModels doc).length then
      some (Resume.mk (digest env doc) (min (offset + limit) (pageModels doc).length)) else none) =
      after env doc offset limit := by
  unfold after
  by_cases h : offset + limit < (pageModels doc).length
  · rw [min_eq_left h.le, if_pos h]
  · rw [min_eq_right (not_lt.mp h), if_neg h, if_neg (lt_irrefl _)]

theorem cut_iff {limit : Nat} {resume : Option Resume} {upstream : Except ConversationError Json}
    {result : Json × Option Resume} :
    cut env.underCatalog limit resume upstream = .ok result ↔
      ∃ doc offset, upstream = .ok doc ∧ Upstream doc ∧
        CatalogBridge.offset env.underCatalog resume doc = .ok offset ∧
        offset ≤ (pageModels doc).length ∧
        result = (pageFrom doc offset limit, after env.underCatalog doc offset limit) := by
  have hprofile : ∀ doc, validateProfileValue env.underCatalog .catalog doc = .ok () ↔
      Fits catalogSchema doc := fun _ => validateProfileValue_ok
  have hnull : ∀ value : Json, value.isNull = true ↔ value = .null := by
    intro value
    cases value <;> simp [Json.isNull]
  unfold cut
  rw [Loops.bind_ok]
  refine exists_congr fun doc => ?_
  constructor
  · rintro ⟨hupstream, h⟩
    obtain ⟨_, hfits, h⟩ := Loops.bind_ok.mp h
    have hfits := (hprofile doc).mp (Loops.mapError_ok.mp hfits)
    dsimp only at h
    by_cases hwhole : doc["nextCursor"].isNull = true
    · rw [hwhole, Bool.not_true, if_neg Bool.false_ne_true] at h
      obtain ⟨offset, hoffset, h⟩ := Loops.bind_ok.mp h
      have hdata := (pageModels_of_schema hfits.valid).1
      rw [hdata] at h
      dsimp only [Json.asArray] at h
      by_cases hbound : offset > (pageModels doc).length
      · rw [if_pos hbound] at h
        cases h
      · rw [if_neg hbound, slice_eq, after_eq] at h
        exact ⟨offset, hupstream, ⟨hfits, (hnull _).mp hwhole⟩, hoffset, not_lt.mp hbound,
          (Except.ok.inj h).symm⟩
    · rw [Bool.not_eq_true] at hwhole
      rw [hwhole] at h
      cases h
  · rintro ⟨offset, hupstream, hdoc, hoffset, hbound, rfl⟩
    refine ⟨hupstream, Loops.bind_ok.mpr
      ⟨(), Loops.mapError_ok.mpr ((hprofile doc).mpr hdoc.fits), ?_⟩⟩
    dsimp only
    rw [hdoc.whole, Json.isNull, Bool.not_true, if_neg Bool.false_ne_true]
    refine Loops.bind_ok.mpr ⟨offset, hoffset, ?_⟩
    rw [hdoc.data]
    dsimp only [Json.asArray]
    rw [if_neg (not_lt.mpr hbound), slice_eq, after_eq]
    rfl

/-- The page that a request is answered with. -/
def answered (env : Env) (limit : Nat) (resume : Option Resume)
    (upstream : Except ConversationError Json) (fresh : Uuid) : Except ConversationError Json :=
  (cut env limit resume upstream).map fun result =>
    result.2.elim result.1 fun _ => result.1.set "nextCursor" fresh

/-- That page: the piece of the catalog, with a new cursor if more follows. -/
def pageAt (doc : Json) (offset limit : Nat) (fresh : Uuid) : Json :=
  if offset + limit < (pageModels doc).length then
    (pageFrom doc offset limit).set "nextCursor" fresh
  else pageFrom doc offset limit

theorem answered_eq {limit offset : Nat} {resume : Option Resume} (h : Upstream doc)
    (hoffset : CatalogBridge.offset env.underCatalog resume doc = .ok offset)
    (hbound : offset ≤ (pageModels doc).length) (fresh : Uuid) :
    answered env.underCatalog limit resume (.ok doc) fresh =
      .ok (pageAt doc offset limit fresh) := by
  have hcut : cut env.underCatalog limit resume (.ok doc) = _ :=
    cut_iff.mpr ⟨doc, offset, rfl, h, hoffset, hbound, rfl⟩
  rw [answered, hcut]
  unfold after pageAt
  split_ifs
  · rfl
  · rfl

theorem pageModels_pageAt (h : Upstream doc) (offset limit : Nat) (fresh : Uuid) :
    pageModels (pageAt doc offset limit fresh) = ((pageModels doc).drop offset).take limit := by
  have hfrom : pageModels (pageFrom doc offset limit) =
      ((pageModels doc).drop offset).take limit := by
    have hdata := h.data
    cases doc with
    | obj fields =>
        rw [pageModels, pageFrom, Json.getElem_set_self]
        rfl
    | _ => cases hdata
  unfold pageAt
  split_ifs
  · rw [pageModels, Json.getElem_set_of_ne (by decide)]
    exact hfrom
  · exact hfrom

theorem nextCursor_pageAt (h : Upstream doc) (offset limit : Nat) (fresh : Uuid) :
    (pageAt doc offset limit fresh)["nextCursor"] =
      if offset + limit < (pageModels doc).length then .str fresh.text else .null := by
  unfold pageAt
  split_ifs
  · have hdata := h.data
    cases doc with
    | obj fields => exact Json.getElem_set_self _ _ _
    | _ => cases hdata
  · rw [pageFrom, Json.getElem_set_of_ne (by decide), h.whole]

theorem answer_fst (cursors : List (String × Resume)) (limit : Nat) (resume : Option Resume)
    (upstream : Except ConversationError Json) (fresh : Uuid) (first : String) :
    (answer env cursors limit resume upstream fresh first).1 =
      answered env limit resume upstream fresh := by
  unfold answer answered
  rcases cut env limit resume upstream with e | ⟨slice, next⟩
  · rfl
  · cases next <;> rfl

end CatalogBridge

/-! ### The cursors -/

section Cursors

variable {β : Type} {first : String} {cursors : List (String × β)} {cursor other : String}
  {entry found : β}

theorem findCursor_remember (h : cursors.length < 1024) :
    findCursor (rememberCursor first cursors cursor entry) other =
      if cursor = other then some entry else findCursor cursors other := by
  rw [findCursor, rememberCursor, if_neg (by omega), at?_put]
  split_ifs
  · rfl
  · rfl

/-- A cursor that is known was known before or is the new one. -/
theorem findCursor_of_remember
    (h : findCursor (rememberCursor first cursors cursor entry) other = some found) :
    (cursor = other ∧ found = entry) ∨ findCursor cursors other = some found := by
  rw [findCursor, rememberCursor, at?_put] at h
  split_ifs at h with hcursor hfull
  · exact .inl ⟨hcursor, (Option.some.inj h).symm⟩
  · right
    rw [at?_drop] at h
    split_ifs at h with hfirst
    · cases h
    · exact h
  · exact .inr h

theorem length_remember (h : cursors.length < 1024) :
    (rememberCursor first cursors cursor entry).length ≤ cursors.length + 1 := by
  rw [rememberCursor, if_neg (by omega)]
  exact length_put _ _

end Cursors

/-! ### What was issued -/

/-- A cursor, the catalog it was issued for and what it stands for. -/
structure Issue where
  cursor : String
  doc : Json
  entry : Resume

/-- The cursor that a step issues. -/
def issuesOf (env : Env) (s : BridgeState) : BridgeOp → List Issue
  | .request .. => []
  | .answer id upstream fresh _ =>
      match s.pending id, upstream with
      | some request, .ok doc =>
          match CatalogBridge.cut env request.limit request.resume (.ok doc) with
          | .ok (_, some entry) => [⟨fresh.text, doc, entry⟩]
          | _ => []
      | _, _ => []

/-- The cursors that a run issues. -/
def issues (env : Env) (ops : List BridgeOp) : List Issue :=
  (bridge env).collect (issuesOf env) (bridge env).init ops

theorem issues_append (env : Env) (ops more : List BridgeOp) : issues env (ops ++ more) =
    issues env ops ++ (bridge env).collect (issuesOf env) ((bridge env).run ops) more :=
  (bridge env).collect_append _ _ _ _

/-- What the cursors of a state have to do with those that were issued. -/
structure Known (env : Env) (s : BridgeState) (issued : List Issue) : Prop where
  sound : ∀ cursor entry, findCursor s.cursors cursor = some entry →
    ∃ i ∈ issued, i.cursor = cursor ∧ i.entry = entry
  origin : ∀ i ∈ issued, Upstream i.doc ∧ i.entry.digest = CatalogBridge.digest env i.doc ∧
    i.entry.offset < (pageModels i.doc).length
  complete : (issued.map (·.cursor)).Nodup → issued.length < 1024 →
    s.cursors.length ≤ issued.length ∧
      ∀ i ∈ issued, findCursor s.cursors i.cursor = some i.entry

theorem Known.pending {s : BridgeState} {issued : List Issue} (h : Known env s issued)
    (pending : Nat → Option PendingPage) : Known env { s with pending := pending } issued :=
  ⟨h.sound, h.origin, h.complete⟩

/-- A cursor is noted. -/
theorem Known.remember {s : BridgeState} {issued : List Issue} (h : Known env s issued)
    {i : Issue} (hdoc : Upstream i.doc) (hdigest : i.entry.digest = CatalogBridge.digest env i.doc)
    (hoffset : i.entry.offset < (pageModels i.doc).length) (first : String)
    (pending : Nat → Option PendingPage) :
    Known env ⟨rememberCursor first s.cursors i.cursor i.entry, pending⟩ (issued ++ [i]) := by
  refine ⟨fun cursor entry hfound => ?_, ?_, fun hnodup hlength => ?_⟩
  · rcases findCursor_of_remember hfound with ⟨hcursor, hentry⟩ | hfound
    · exact ⟨i, by simp, hcursor, hentry.symm⟩
    · obtain ⟨j, hj, hjs⟩ := h.sound cursor entry hfound
      exact ⟨j, List.mem_append_left _ hj, hjs⟩
  · rw [List.forall_mem_append]
    exact ⟨h.origin, by simpa using ⟨hdoc, hdigest, hoffset⟩⟩
  · rw [List.map_append, List.nodup_append] at hnodup
    obtain ⟨hbefore, -, hnew⟩ := hnodup
    rw [List.length_append, List.length_singleton] at hlength ⊢
    obtain ⟨hsize, hall⟩ := h.complete hbefore (by omega)
    have hroom : s.cursors.length < 1024 := by omega
    refine ⟨(length_remember hroom).trans (by omega), ?_⟩
    rw [List.forall_mem_append]
    refine ⟨fun j hj => ?_, ?_⟩
    · have hne : i.cursor ≠ j.cursor := fun heq =>
        hnew j.cursor (List.mem_map_of_mem hj) i.cursor (by simp) heq.symm
      rw [findCursor_remember hroom, if_neg hne]
      exact hall j hj
    · intro j hj
      rw [List.mem_singleton.mp hj, findCursor_remember hroom, if_pos rfl]

theorem known_step {s : BridgeState} {issued : List Issue} (h : Known env.underCatalog s issued)
    (op : BridgeOp) : Known env.underCatalog ((bridge env.underCatalog).next s op)
      (issued ++ issuesOf env.underCatalog s op) := by
  cases op with
  | request id agent cursor limit =>
      rw [issuesOf, List.append_nil]
      change Known _ (bridgeStep _ s _).1 _
      unfold bridgeStep
      dsimp only
      split
      · exact h.pending _
      · exact h.pending _
  | answer id upstream fresh first =>
      change Known _ (bridgeStep _ s _).1 _
      unfold bridgeStep issuesOf
      dsimp only
      cases hpending : s.pending id with
      | none => simpa using h
      | some request =>
          dsimp only
          cases upstream with
          | error e =>
              change Known _ ⟨s.cursors, _⟩ (issued ++ [])
              simpa using h.pending _
          | ok doc =>
              dsimp only [CatalogBridge.answer]
              rcases hcut : CatalogBridge.cut env.underCatalog request.limit request.resume
                (.ok doc) with e | ⟨slice, next⟩
              · simpa using h.pending _
              · cases next with
                | none => simpa using h.pending _
                | some entry =>
                    obtain ⟨doc', offset, hdoc, hupstream, -, -, hresult⟩ :=
                      CatalogBridge.cut_iff.mp hcut
                    obtain rfl := Except.ok.inj hdoc
                    obtain ⟨hentry, hbound⟩ := CatalogBridge.after_some (Prod.mk.inj hresult).2.symm
                    have hknown := h.remember
                      (i := ⟨fresh.text, doc, entry⟩) hupstream (by rw [hentry])
                      (by rw [hentry]; exact hbound) first
                      (Function.update s.pending id none)
                    exact hknown

theorem bridge_known (env : Env) (ops : List BridgeOp) :
    Known env.underCatalog ((bridge env.underCatalog).run ops) (issues env.underCatalog ops) := by
  refine Machine.collect_invariant (P := Known env.underCatalog) ⟨?_, ?_, ?_⟩
    (fun s issued op h => known_step h op) ops
  · intro cursor entry h
    cases h
  · simp
  · exact fun _ _ => ⟨le_rfl, by simp⟩

/-! ### A request and its answer -/

/-- The steps of other requests leave a request alone. -/
theorem pending_of_ne {id : Nat} (s : BridgeState) {op : BridgeOp} (h : op.id ≠ id) :
    ((bridge env).next s op).pending id = s.pending id := by
  change (bridgeStep env s op).1.pending id = _
  cases op with
  | request other agent cursor limit =>
      unfold bridgeStep
      dsimp only
      split
      · exact Function.update_of_ne (Ne.symm h) _ _
      · exact Function.update_of_ne (Ne.symm h) _ _
  | answer other upstream fresh first =>
      unfold bridgeStep
      dsimp only
      split
      · rfl
      · exact Function.update_of_ne (Ne.symm h) _ _

theorem pending_runFrom {id : Nat} (s : BridgeState) {ops : List BridgeOp}
    (h : ∀ op ∈ ops, op.id ≠ id) : ((bridge env).runFrom s ops).pending id = s.pending id := by
  induction ops generalizing s with
  | nil => rfl
  | cons op ops ih =>
      rw [List.forall_mem_cons] at h
      rw [Machine.runFrom_cons, ih _ h.2, pending_of_ne s h.1]

/-- A request with its answer; `mid` is what others do in between. -/
structure Exchange where
  id : Nat
  agent : Uuid := codexAgentId
  cursor : Option String
  limit : Nat
  mid : List BridgeOp
  upstream : Except ConversationError Json
  fresh : Uuid
  first : String
  others : ∀ op ∈ mid, op.id ≠ id

namespace Exchange

def asked (x : Exchange) : BridgeOp := .request x.id x.agent x.cursor x.limit

def answered (x : Exchange) : BridgeOp := .answer x.id x.upstream x.fresh x.first

def ops (x : Exchange) : List BridgeOp := x.asked :: x.mid ++ [x.answered]

/-- What comes back: at once if the request is refused, and with the answer
otherwise. -/
def received (env : Env) (before : List BridgeOp) (x : Exchange) :
    Option (Except ConversationError Json) :=
  ((bridge env).out ((bridge env).run before) x.asked).or
    ((bridge env).out ((bridge env).run (before ++ x.asked :: x.mid)) x.answered)

variable {before : List BridgeOp} {x : Exchange}

theorem received_of_refused {e : ConversationError} (h : CatalogBridge.resume
    ((bridge env).run before).cursors x.agent x.cursor x.limit = .error e) :
    x.received env before = some (.error e) := by
  have hout : (bridge env).out ((bridge env).run before) x.asked = some (.error e) := by
    change (bridgeStep env _ (.request _ _ _ _)).2 = _
    dsimp only [bridgeStep]
    rw [h]
  rw [received, hout, Option.some_or]

/-- When the answer comes, the request still waits with what its cursor stood
for when it was asked. -/
theorem pending_of_found {entry : Option Resume} (h : CatalogBridge.resume
    ((bridge env).run before).cursors x.agent x.cursor x.limit = .ok entry) :
    ((bridge env).run (before ++ x.asked :: x.mid)).pending x.id = some ⟨x.limit, entry⟩ := by
  rw [Machine.run_append, Machine.runFrom_cons, pending_runFrom _ x.others]
  change (bridgeStep env _ (.request _ _ _ _)).1.pending _ = _
  dsimp only [bridgeStep]
  rw [h]
  exact Function.update_self _ _ _

theorem received_of_found {entry : Option Resume} (h : CatalogBridge.resume
    ((bridge env).run before).cursors x.agent x.cursor x.limit = .ok entry) :
    x.received env before =
      some (CatalogBridge.answered env x.limit entry x.upstream x.fresh) := by
  have hout : (bridge env).out ((bridge env).run before) x.asked = none := by
    change (bridgeStep env _ (.request _ _ _ _)).2 = _
    dsimp only [bridgeStep]
    rw [h]
  have hanswer : (bridge env).out ((bridge env).run (before ++ x.asked :: x.mid)) x.answered =
      some (CatalogBridge.answered env x.limit entry x.upstream x.fresh) := by
    change (bridgeStep env _ (.answer _ _ _ _)).2 = _
    dsimp only [bridgeStep]
    rw [pending_of_found h]
    exact congrArg some (CatalogBridge.answer_fst _ _ _ _ _ _)
  rw [received, hout, Option.none_or, hanswer]

/-- The cursor that the answer brings is issued. -/
theorem mem_issues {entry : Option Resume} (h : CatalogBridge.resume
    ((bridge env).run before).cursors x.agent x.cursor x.limit = .ok entry) {slice : Json}
    {next : Resume} (hupstream : x.upstream = .ok doc)
    (hcut : CatalogBridge.cut env x.limit entry (.ok doc) = .ok (slice, some next)) :
    ⟨x.fresh.text, doc, next⟩ ∈ issues env (before ++ x.ops) := by
  have hstep : issuesOf env ((bridge env).run (before ++ x.asked :: x.mid)) x.answered =
      [⟨x.fresh.text, doc, next⟩] := by
    dsimp only [issuesOf, answered]
    rw [pending_of_found h, hupstream]
    dsimp only
    rw [hcut]
  have hops : before ++ x.ops = (before ++ x.asked :: x.mid) ++ [x.answered] := by
    simp [ops]
  rw [hops, issues_append, Machine.collect, hstep]
  simp

end Exchange

/-! ### A client that follows its cursors -/

/-- The pages of a client are the catalog cut at its limits. -/
structure Partitioned (doc : Json) (limits : List Nat) (pages : List Json) : Prop where
  count : pages.length = limits.length
  whole : pages.flatMap pageModels = (pageModels doc).take limits.sum
  full : ∀ p ∈ (limits.zip pages).dropLast, (pageModels p.2).length = p.1
  last : ∀ page ∈ pages.getLast?,
    page["nextCursor"] = .null ∧ (pageModels doc).length ≤ limits.sum ∨
      (∃ next, page["nextCursor"] = .str next) ∧ limits.sum < (pageModels doc).length
  ends : limits.length ≤ max 1 (pageModels doc).length

/-- The cursor of the next request: none at first, and then that of the last
page, as long as it has one. -/
def Onward (answers : List (Option (Except ConversationError Json))) (cursor : Option String) :
    Prop :=
  match answers.getLast? with
  | none => cursor = none
  | some answer => ∃ page next, answer = some (.ok page) ∧ page["nextCursor"] = .str next ∧
      cursor = some next

/-- The requests of a client and what it received, in a run in which others do
what they like before, between and during them. -/
inductive Client (env : Env) (doc : Json) :
    List BridgeOp → List Nat → List (Option (Except ConversationError Json)) → Prop
  | start (ops : List BridgeOp) : Client env doc ops [] []
  | wait {ops : List BridgeOp} {limits : List Nat}
      {answers : List (Option (Except ConversationError Json))} (op : BridgeOp)
      (h : Client env doc ops limits answers) : Client env doc (ops ++ [op]) limits answers
  | ask {ops : List BridgeOp} {limits : List Nat}
      {answers : List (Option (Except ConversationError Json))} (x : Exchange)
      (h : Client env doc ops limits answers) (hagent : x.agent = codexAgentId)
      (hlimit : 1 ≤ x.limit ∧ x.limit ≤ 100) (hcursor : Onward answers x.cursor)
      (hupstream : x.upstream = .ok doc) :
      Client env doc (ops ++ x.ops) (limits ++ [x.limit]) (answers ++ [x.received env ops])

theorem resume_first {cursors : List (String × Resume)} {limit : Nat}
    (hlimit : 1 ≤ limit ∧ limit ≤ 100) :
    CatalogBridge.resume cursors codexAgentId none limit = .ok none := by
  rw [CatalogBridge.resume, if_neg (by simp [hlimit.1, hlimit.2])]

theorem resume_known {cursors : List (String × Resume)} {cursor : String} {entry : Resume}
    {limit : Nat} (hlimit : 1 ≤ limit ∧ limit ≤ 100)
    (h : findCursor cursors cursor = some entry) :
    CatalogBridge.resume cursors codexAgentId (some cursor) limit = .ok (some entry) := by
  rw [CatalogBridge.resume, if_neg (by simp [hlimit.1, hlimit.2]), h]

theorem offset_known {entry : Resume} (h : entry.digest = CatalogBridge.digest env doc) :
    CatalogBridge.offset env (some entry) doc = .ok entry.offset := by
  rw [CatalogBridge.offset, if_neg (by simp [h])]

/-- A cursor that was issued for the catalog gets the page that it stands for. -/
theorem resume_of_issued {ops : List BridgeOp} {i : Issue} {limit : Nat}
    (hdistinct : ((issues env.underCatalog ops).map (·.cursor)).Nodup)
    (hfew : (issues env.underCatalog ops).length < 1024) (hi : i ∈ issues env.underCatalog ops)
    (hlimit : 1 ≤ limit ∧ limit ≤ 100) :
    CatalogBridge.resume ((bridge env.underCatalog).run ops).cursors codexAgentId
        (some i.cursor) limit = .ok (some i.entry) ∧
      CatalogBridge.offset env.underCatalog (some i.entry) i.doc = .ok i.entry.offset := by
  have hknown := bridge_known env ops
  exact ⟨resume_known hlimit ((hknown.complete hdistinct hfew).2 i hi),
    offset_known (hknown.origin i hi).2.1⟩

/-- Where a client is: it has the catalog up to the sum of its limits, and its
next cursor stands for that place. -/
structure Followed (env : Env) (doc : Json) (ops : List BridgeOp) (limits : List Nat)
    (pages : List Json) : Prop extends Partitioned doc limits pages where
  steps : limits.length ≤ limits.sum
  exact : limits.sum ≤ (pageModels doc).length →
    ∀ p ∈ limits.zip pages, (pageModels p.2).length = p.1
  next : ∀ page ∈ pages.getLast?, ∀ next, page["nextCursor"] = .str next →
    ⟨next, doc, CatalogBridge.digest env doc, limits.sum⟩ ∈ issues env ops ∧
      limits.sum < (pageModels doc).length

theorem mem_issues_append {i : Issue} {ops : List BridgeOp} (h : i ∈ issues env ops)
    (more : List BridgeOp) : i ∈ issues env (ops ++ more) := by
  rw [issues_append]
  exact List.mem_append_left _ h

theorem Followed.wait {ops : List BridgeOp} {limits : List Nat} {pages : List Json}
    (h : Followed env doc ops limits pages) (more : List BridgeOp) :
    Followed env doc (ops ++ more) limits pages :=
  { h with
    next := fun page hpage next hnext =>
      ⟨mem_issues_append (h.next page hpage next hnext).1 more,
        (h.next page hpage next hnext).2⟩ }

/-- One page more. -/
theorem Followed.page {ops : List BridgeOp} {limits : List Nat} {pages : List Json}
    (h : Followed env doc ops limits pages) (hdoc : Upstream doc)
    (hopen : limits = [] ∨ limits.sum < (pageModels doc).length) {limit : Nat} (hlimit : 1 ≤ limit)
    {fresh : Uuid} {later : List BridgeOp}
    (hissue : limits.sum + limit < (pageModels doc).length →
      ⟨fresh.text, doc, CatalogBridge.digest env doc, limits.sum + limit⟩ ∈ issues env later) :
    Followed env doc later (limits ++ [limit])
      (pages ++ [CatalogBridge.pageAt doc limits.sum limit fresh]) := by
  have hmodels := CatalogBridge.pageModels_pageAt hdoc limits.sum limit fresh
  have hnext := CatalogBridge.nextCursor_pageAt hdoc limits.sum limit fresh
  have hsum : limits.sum ≤ (pageModels doc).length := by
    rcases hopen with rfl | hopen
    · exact Nat.zero_le _
    · exact hopen.le
  have hzip : (limits ++ [limit]).zip
      (pages ++ [CatalogBridge.pageAt doc limits.sum limit fresh]) =
      limits.zip pages ++ [(limit, CatalogBridge.pageAt doc limits.sum limit fresh)] := by
    rw [List.zip_append h.count.symm]
    rfl
  constructor
  · constructor
    · simp [h.count]
    · rw [List.flatMap_append, h.whole, List.flatMap_singleton, hmodels, List.sum_append,
        List.sum_singleton, List.take_add]
    · rw [hzip, List.dropLast_concat]
      exact h.exact hsum
    · intro page hpage
      rw [List.getLast?_concat, Option.mem_some_iff] at hpage
      rw [← hpage, hnext, List.sum_append, List.sum_singleton]
      split_ifs with hmore
      · exact .inr ⟨⟨_, rfl⟩, hmore⟩
      · exact .inl ⟨rfl, not_lt.mp hmore⟩
    · rw [List.length_append, List.length_singleton]
      rcases hopen with rfl | hopen
      · exact le_max_left _ _
      · have hsteps := h.steps
        exact le_max_of_le_right (by omega)
  · rw [List.length_append, List.length_singleton, List.sum_append, List.sum_singleton]
    exact Nat.add_le_add h.steps hlimit
  · intro hall
    rw [List.sum_append, List.sum_singleton] at hall
    rw [hzip, List.forall_mem_append]
    refine ⟨h.exact hsum, ?_⟩
    rw [List.forall_mem_singleton, hmodels, List.length_take, List.length_drop]
    omega
  · intro page hpage next hcursor
    rw [List.getLast?_concat, Option.mem_some_iff] at hpage
    rw [← hpage, hnext] at hcursor
    rw [List.sum_append, List.sum_singleton]
    split_ifs at hcursor with hmore
    · obtain rfl := Json.str.inj hcursor
      exact ⟨hissue hmore, hmore⟩

/-- What the cursor of the next request comes to. -/
theorem Followed.resume {ops : List BridgeOp} {limits : List Nat} {pages : List Json}
    (h : Followed env.underCatalog doc ops limits pages)
    (hdistinct : ((issues env.underCatalog ops).map (·.cursor)).Nodup)
    (hfew : (issues env.underCatalog ops).length < 1024) {cursor : Option String} {limit : Nat}
    (hlimit : 1 ≤ limit ∧ limit ≤ 100)
    (hcursor : Onward (pages.map fun page => some (.ok page)) cursor) :
    (limits = [] ∨ limits.sum < (pageModels doc).length) ∧
      ∃ entry, CatalogBridge.resume ((bridge env.underCatalog).run ops).cursors codexAgentId
          cursor limit = .ok entry ∧
        CatalogBridge.offset env.underCatalog entry doc = .ok limits.sum := by
  unfold Onward at hcursor
  rw [List.getLast?_map] at hcursor
  cases hlast : pages.getLast? with
  | none =>
      rw [hlast] at hcursor
      have hempty : limits = [] := by
        rw [List.getLast?_eq_none_iff] at hlast
        have hcount := h.count
        rw [hlast] at hcount
        exact List.length_eq_zero_iff.mp hcount.symm
      subst hempty
      refine ⟨.inl rfl, none, ?_, rfl⟩
      rw [show cursor = none from hcursor]
      exact resume_first hlimit
  | some page =>
      rw [hlast] at hcursor
      obtain ⟨page', next, hpage, hnext, rfl⟩ := hcursor
      obtain rfl : page = page' := by
        injection hpage with hpage
        injection hpage
      obtain ⟨hissue, hopen⟩ := h.next page hlast next hnext
      exact ⟨.inr hopen, _, resume_of_issued hdistinct hfew hissue hlimit⟩

theorem client_followed (hdoc : Upstream doc) {ops : List BridgeOp} {limits : List Nat}
    {answers : List (Option (Except ConversationError Json))}
    (h : Client env.underCatalog doc ops limits answers)
    (hdistinct : ((issues env.underCatalog ops).map (·.cursor)).Nodup)
    (hfew : (issues env.underCatalog ops).length < 1024) :
    ∃ pages : List Json, answers = pages.map (fun page => some (.ok page)) ∧
      Followed env.underCatalog doc ops limits pages := by
  have hearlier : ∀ {ops more : List BridgeOp},
      ((issues env.underCatalog (ops ++ more)).map (·.cursor)).Nodup →
      (issues env.underCatalog (ops ++ more)).length < 1024 →
      ((issues env.underCatalog ops).map (·.cursor)).Nodup ∧
        (issues env.underCatalog ops).length < 1024 := by
    intro ops more hdistinct hfew
    rw [issues_append, List.map_append] at hdistinct
    rw [issues_append, List.length_append] at hfew
    exact ⟨(List.nodup_append.mp hdistinct).1, by omega⟩
  induction h with
  | start ops => exact ⟨[], rfl, ⟨rfl, rfl, by simp, by simp, by simp⟩, by simp, by simp, by simp⟩
  | wait op h ih =>
      obtain ⟨hdistinct, hfew⟩ := hearlier hdistinct hfew
      obtain ⟨pages, hanswers, hfollowed⟩ := ih hdistinct hfew
      exact ⟨pages, hanswers, hfollowed.wait [op]⟩
  | @ask ops limits answers x h hagent hlimit hcursor hupstream ih =>
      obtain ⟨hdistinct, hfew⟩ := hearlier hdistinct hfew
      obtain ⟨pages, rfl, hfollowed⟩ := ih hdistinct hfew
      obtain ⟨hopen, entry, hresume, hoffset⟩ :=
        hfollowed.resume hdistinct hfew hlimit hcursor
      rw [← hagent] at hresume
      have hbound : limits.sum ≤ (pageModels doc).length := by
        rcases hopen with rfl | hopen
        · exact Nat.zero_le _
        · exact hopen.le
      refine ⟨pages ++ [CatalogBridge.pageAt doc limits.sum x.limit x.fresh], ?_, ?_⟩
      · rw [List.map_append, Exchange.received_of_found hresume, hupstream,
          CatalogBridge.answered_eq hdoc hoffset hbound]
        rfl
      · refine hfollowed.page hdoc hopen hlimit.1 fun hmore => ?_
        have hcut : CatalogBridge.cut env.underCatalog x.limit entry (.ok doc) =
            .ok (CatalogBridge.pageFrom doc limits.sum x.limit,
              some ⟨CatalogBridge.digest env.underCatalog doc, limits.sum + x.limit⟩) := by
          refine CatalogBridge.cut_iff.mpr ⟨doc, limits.sum, rfl, hdoc, hoffset, hbound, ?_⟩
          rw [CatalogBridge.after, if_pos hmore]
        exact Exchange.mem_issues hresume hupstream hcut

/-! ### Another catalog -/

theorem natural_of_safeNumbers {value : Json} (h : safeNumbers value = true) : Natural value := by
  intro n hn
  induction hn with
  | here =>
      cases n with
      | int n =>
          rw [safeNumbers, decide_eq_true_eq] at h
          exact ⟨n.toNat, by rw [Int.toNat_of_nonneg h.1]⟩
      | float repr => cases h
  | item hy _ ih =>
      rw [safeNumbers_arr, List.all_eq_true] at h
      exact ih (h _ hy)
  | field hf _ ih =>
      rw [safeNumbers_obj, List.all_eq_true] at h
      exact ih (h _ hf)

/-- A cursor that was issued for one catalog is refused on another. -/
theorem received_changed {ops : List BridgeOp} {i : Issue} {x : Exchange}
    (hdistinct : ((issues env.underCatalog ops).map (·.cursor)).Nodup)
    (hi : i ∈ issues env.underCatalog ops) (hcursor : x.cursor = some i.cursor)
    (hchanged : ∀ doc, x.upstream = .ok doc → doc.sortKeys ≠ i.doc.sortKeys ∧
      (CatalogBridge.digest env.underCatalog i.doc = CatalogBridge.digest env.underCatalog doc →
        compact i.doc = compact doc)) :
    ∃ e, x.received env.underCatalog ops = some (.error e) := by
  have hknown := bridge_known env ops
  cases hresume : CatalogBridge.resume ((bridge env.underCatalog).run ops).cursors x.agent
      x.cursor x.limit with
  | error e => exact ⟨e, Exchange.received_of_refused hresume⟩
  | ok entry =>
      rw [Exchange.received_of_found hresume]
      cases hcut : CatalogBridge.cut env.underCatalog x.limit entry x.upstream with
      | error e => exact ⟨e, by rw [CatalogBridge.answered, hcut]; rfl⟩
      | ok result =>
          -- the cursor is known, so it stands for the catalog it was issued for
          obtain ⟨doc, offset, hupstream, hdoc, hoffset, -, -⟩ := CatalogBridge.cut_iff.mp hcut
          obtain ⟨hother, hcollision⟩ := hchanged doc hupstream
          rw [hcursor] at hresume
          unfold CatalogBridge.resume at hresume
          split_ifs at hresume
          cases hfound : findCursor ((bridge env.underCatalog).run ops).cursors i.cursor with
          | none => simp [hfound] at hresume
          | some found =>
              simp only [hfound, Except.ok.injEq] at hresume
              obtain ⟨j, hj, hsame, hentry⟩ := hknown.sound i.cursor found hfound
              obtain rfl : j = i := List.inj_on_of_nodup_map hdistinct hj hi hsame
              obtain ⟨horigin, hdigest, -⟩ := hknown.origin j hj
              rw [← hresume, ← hentry, CatalogBridge.offset] at hoffset
              split_ifs at hoffset with hbound
              rw [ne_eq, not_not, hdigest] at hbound
              have htext := hcollision hbound
              exact absurd ((compact_eq_iff (natural_of_safeNumbers horigin.fits.safe)
                (natural_of_safeNumbers hdoc.fits.safe)).mp htext).symm hother

/-- The pages of every client, however the requests of others come in between,
cut the catalog into pieces; a cursor stands for one place in the catalog that it
was issued for, and gets nothing from another. -/
theorem catalog_pages (env : Env) {ops : List BridgeOp}
    (hdistinct : ((issues env.underCatalog ops).map (·.cursor)).Nodup) :
    ((issues env.underCatalog ops).length < 1024 →
      (∀ doc, Upstream doc → ∀ limits answers, Client env.underCatalog doc ops limits answers →
        ∃ pages : List Json, answers = pages.map (fun page => some (.ok page)) ∧
          Partitioned doc limits pages) ∧
      ∀ i ∈ issues env.underCatalog ops, ∀ x : Exchange, x.agent = codexAgentId →
        (1 ≤ x.limit ∧ x.limit ≤ 100) → x.cursor = some i.cursor → x.upstream = .ok i.doc →
        ∃ page, x.received env.underCatalog ops = some (.ok page) ∧
          pageModels page = ((pageModels i.doc).drop i.entry.offset).take x.limit) ∧
    ∀ i ∈ issues env.underCatalog ops, ∀ x : Exchange, x.cursor = some i.cursor →
      (∀ doc, x.upstream = .ok doc → doc.sortKeys ≠ i.doc.sortKeys ∧
        (CatalogBridge.digest env.underCatalog i.doc = CatalogBridge.digest env.underCatalog doc →
          compact i.doc = compact doc)) →
      ∃ e, x.received env.underCatalog ops = some (.error e) := by
  refine ⟨fun hfew => ⟨fun doc hdoc limits answers h => ?_, ?_⟩, ?_⟩
  · obtain ⟨pages, hanswers, hfollowed⟩ := client_followed hdoc h hdistinct hfew
    exact ⟨pages, hanswers, hfollowed.toPartitioned⟩
  · intro i hi x hagent hlimit hcursor hupstream
    obtain ⟨horigin, -, hbound⟩ := (bridge_known env ops).origin i hi
    obtain ⟨hresume, hoffset⟩ := resume_of_issued hdistinct hfew hi hlimit
    rw [← hagent, ← hcursor] at hresume
    refine ⟨CatalogBridge.pageAt i.doc i.entry.offset x.limit x.fresh, ?_,
      CatalogBridge.pageModels_pageAt horigin _ _ _⟩
    rw [Exchange.received_of_found hresume, hupstream,
      CatalogBridge.answered_eq horigin hoffset hbound.le]
  · exact fun i hi x hcursor hchanged => received_changed hdistinct hi hcursor hchanged

/-! A catalog of two models, read one at a time. -/

def sampleModel (id : String) : Json :=
  .obj [("defaultReasoningEffort", "low"), ("displayName", id), ("id", id),
    ("supportedReasoningEfforts", .arr [.obj [("description", "Quick"), ("id", "low")]])]

def sampleCatalog : Json :=
  .obj [("catalogRevision", "c1"), ("data", .arr [sampleModel "m1", sampleModel "m2"]),
    ("nextCursor", .null), ("profileVersion", profileVersion)]

def sampleFirst : Exchange where
  id := 1
  cursor := none
  limit := 1
  mid := []
  upstream := .ok sampleCatalog
  fresh := 70
  first := ""
  others := by simp

def sampleSecond : Exchange :=
  { sampleFirst with cursor := some (70 : Uuid).text, fresh := 71 }

theorem sampleCatalog_upstream : Upstream sampleCatalog := by
  refine ⟨⟨?_, ?_⟩, rfl⟩
  · decide +kernel
  · decide +kernel

theorem catalog_pages_sample :
    ∃ pages : List Json, [sampleFirst.received sampleEnv.underCatalog [],
        sampleSecond.received sampleEnv.underCatalog sampleFirst.ops] =
        pages.map (fun page => some (.ok page)) ∧
      Partitioned sampleCatalog [1, 1] pages := by
  have hissues : ((issues sampleEnv.underCatalog (sampleFirst.ops ++ sampleSecond.ops)).map
      (·.cursor)) = [(70 : Uuid).text] := by decide +kernel
  have hfew : (issues sampleEnv.underCatalog (sampleFirst.ops ++ sampleSecond.ops)).length = 1 := by
    rw [← List.length_map, hissues]
    rfl
  have hfirst : Client sampleEnv.underCatalog sampleCatalog sampleFirst.ops [1]
      [sampleFirst.received sampleEnv.underCatalog []] :=
    .ask sampleFirst (.start []) rfl (by decide) rfl rfl
  have hreceived : sampleFirst.received sampleEnv.underCatalog [] =
      some (.ok (CatalogBridge.pageAt sampleCatalog 0 1 70)) := by
    rw [Exchange.received_of_found (resume_first (by decide))]
    exact congrArg some (CatalogBridge.answered_eq sampleCatalog_upstream rfl (Nat.zero_le _) _)
  have hsecond := Client.ask sampleSecond hfirst rfl (by decide)
    ⟨_, _, hreceived, CatalogBridge.nextCursor_pageAt sampleCatalog_upstream 0 1 70, rfl⟩ rfl
  exact ((catalog_pages sampleEnv (by rw [hissues]; simp)).1 (by omega)).1 sampleCatalog
    sampleCatalog_upstream _ _ hsecond

end RoomGateway
