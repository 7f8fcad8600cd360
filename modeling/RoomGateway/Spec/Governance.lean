import RoomGateway.Spec.DecisionCalls

/-!
The life of a decision, from its proposal or the edit that made it to its
deletion. The status is in a row that requests overwrite, the audit trail in the
log; `Life` says which trails go with which rows. Every transaction moves each
decision along it, and what the log shows of any decision follows.
-/

namespace RoomGateway

variable {env : Env} {db db' : Db}

/-- One transaction of a run: where it started, and what it appended. -/
structure Transaction where
  before : Db
  events : List RoomEvent

def transactions (env : Env) (ops : List Op) : List Transaction :=
  (gateway env).collect (fun s op => [⟨s.db, appended s.db ((gateway env).next s op).db⟩])
    (gateway env).init ops

/-! ### What is to hold -/

section Governed

variable (txs : List Transaction) (row : Decision)

/-- The row is of a draft that a human confirmed. -/
def ConfirmedDraft : Prop :=
  ∃ tx ∈ txs, ∃ e ∈ tx.events, e.eventType = .decisionConfirmed ∧ e.about row.decisionId ∧
    e.actorRole = .human ∧
    ∃ draft ∈ tx.before.decisions.rows, draft.decisionId = row.decisionId ∧ draft.status = .draft

/-- The row was made by a human's edit of a draft, whose sources it has. -/
def Replacement : Prop :=
  ∃ tx ∈ txs, ∃ e ∈ tx.events, e.makes row.decisionId ∧ e.actorRole = .human ∧
    ∃ draft ∈ tx.before.decisions.rows, e.about draft.decisionId ∧ draft.status = .draft ∧
      row.derivedFromDecisionId = some draft.decisionId ∧
      row.sourceEventIds = draft.sourceEventIds

end Governed

/-- The decisions of a run are governed. -/
structure Governed (env : Env) (ops : List Op) : Prop where
  log : ((gateway env).run ops).db.roomEvents.rows = (transactions env ops).flatMap (·.events)
  human : ∀ e ∈ ((gateway env).run ops).db.roomEvents.rows,
    e.eventType.ofDecision = true → e.eventType ≠ .decisionProposed → e.actorRole = .human
  settledOnce : ∀ d, (∃ e ∈ ((gateway env).run ops).db.roomEvents.rows, e.proposes d) →
    (((gateway env).run ops).db.roomEvents.rows.filter (·.transitions d)).length ≤ 1
  whileDraft : ∀ d, (∃ e ∈ ((gateway env).run ops).db.roomEvents.rows, e.proposes d) →
    ∀ tx ∈ transactions env ops, ∀ e ∈ tx.events, e.transitions d →
      ∃ draft ∈ tx.before.decisions.rows, draft.decisionId = d ∧ draft.status = .draft
  replaced : ∀ tx ∈ transactions env ops, ∀ e ∈ tx.events, ∀ d, e.makes d →
    ∃ confirmed, tx.events = [e, confirmed] ∧ confirmed.eventType = .decisionConfirmed ∧
      ((gateway env).run ops).db.roomEvents.rows.filter (·.transitions d) = [confirmed]
  deletedOnce : ∀ d,
    (((gateway env).run ops).db.roomEvents.rows.filter (·.deletes d)).length ≤ 1
  deletedLast : ∀ d earlier e later,
    ((gateway env).run ops).db.roomEvents.rows = earlier ++ e :: later → e.deletes d →
      ∀ x ∈ later, ¬ x.about d
  deleted : ∀ tx ∈ transactions env ops, ∀ e ∈ tx.events, e.eventType = .decisionDeleted →
    ∃ row ∈ tx.before.decisions.rows, e.payload = deletedPayload row
  active : ∀ row ∈ ((gateway env).run ops).db.decisions.rows, row.status = .active →
    ConfirmedDraft (transactions env ops) row ∨ Replacement (transactions env ops) row
  elsewhere : ∀ actor request presence conversationsEnabled txNow fresh room,
    ∀ row ∈ ((gateway env).run ops).db.decisions.rows, row.roomId ≠ room →
      request.decision = some (room, row.decisionId) →
      (gateway env).next ((gateway env).run ops)
        (.process actor request presence conversationsEnabled txNow fresh) =
        (gateway env).run ops

/-! ### Lives -/

def Db.decisionRow (db : Db) (decision : Uuid) : Option Decision :=
  db.decisions.rows.find? (·.decisionId = decision)

theorem Db.decisionRow_some {d : Uuid} {row : Decision} :
    db.decisionRow d = some row ↔ row ∈ db.decisions.rows ∧ row.decisionId = d := by
  have hfound : ∀ {row}, db.decisionRow d = some row →
      row ∈ db.decisions.rows ∧ row.decisionId = d := fun h =>
    ⟨List.mem_of_find?_eq_some h, by simpa using List.find?_some h⟩
  refine ⟨hfound, fun ⟨hrow, hid⟩ => ?_⟩
  cases h : db.decisionRow d with
  | none => exact absurd hid (by simpa using List.find?_eq_none.mp h row hrow)
  | some x =>
      obtain ⟨hx, hxid⟩ := hfound h
      rw [db.decision_unique hx hrow (hxid.trans hid.symm)]

theorem Db.decisionRow_none {d : Uuid} :
    db.decisionRow d = none ↔ ∀ row ∈ db.decisions.rows, row.decisionId ≠ d := by
  simp [decisionRow]

theorem Db.decisionRow_congr {d : Uuid}
    (h : ∀ row, row.decisionId = d → (row ∈ db'.decisions.rows ↔ row ∈ db.decisions.rows)) :
    db'.decisionRow d = db.decisionRow d := by
  refine Option.ext fun row => ?_
  rw [decisionRow_some, decisionRow_some]
  exact and_congr_left (h row)

/-- A step in the life of one decision: its row before, what is logged about it,
and its row afterwards. -/
inductive LifeStep (drawn : List Uuid) (tx : Transaction) (d : Uuid) :
    Option Decision → List RoomEvent → Option Decision → Prop where
  | idle (row : Option Decision) : LifeStep drawn tx d row [] row
  | proposed {e row} (id : d ∈ drawn) (event : e.proposes d) (status : row.status = .draft) :
      LifeStep drawn tx d none [e] (some row)
  | settled {row e row'} (draft : row.status = .draft) (event : e.transitions d)
      (plain : e.derived = false) (moved : row'.status ≠ .draft)
      (active : row'.status = .active → ConfirmedDraft [tx] row') :
      LifeStep drawn tx d (some row) [e] (some row')
  | made {e row} (id : d ∈ drawn) (event : e.transitions d) (derived : e.derived = true)
      (status : row.status = .active) (made : Replacement [tx] row) :
      LifeStep drawn tx d none [e] (some row)
  | deleted {row e} (event : e.deletes d) : LifeStep drawn tx d (some row) [e] none

theorem LifeStep.untouched {drawn : List Uuid} {tx : Transaction} {d : Uuid}
    (h : ∀ row, row.decisionId = d → (row ∈ db'.decisions.rows ↔ row ∈ db.decisions.rows)) :
    LifeStep drawn tx d (db.decisionRow d) [] (db'.decisionRow d) := by
  rw [Db.decisionRow_congr h]
  exact .idle _

/-- Where one row takes the place of another, the rows under other ids stay. -/
theorem otherRows_iff {p q : Prop} {row row' x : Decision} {d : Uuid}
    (h : p ↔ x = row' ∨ (q ∧ x.decisionId ≠ row.decisionId))
    (hid : row'.decisionId = row.decisionId) (hx : x.decisionId = d) (hd : d ≠ row.decisionId) :
    p ↔ q := by
  rw [h, or_iff_right, and_iff_left]
  · exact fun heq => hd (hx.symm.trans heq)
  · rintro rfl
    exact hd (hx.symm.trans hid)

theorem DecisionCall.lifeStep {drawn : List Uuid} {events : List RoomEvent}
    (h : DecisionCall drawn db db' events) (d : Uuid) :
    LifeStep drawn ⟨db, events⟩ d (db.decisionRow d) (events.filter (·.about d))
      (db'.decisionRow d) := by
  cases h with
  | other unrelated decisions =>
      have hnone : events.filter (·.about d) = [] :=
        List.filter_eq_nil_iff.mpr fun e he => by simp [RoomEvent.about, unrelated e he]
      rw [hnone]
      exact .untouched fun row _ => by rw [decisions]
  | @proposed row e event draft id fresh rows =>
      rw [filter_about (RoomEvent.about_of_proposes event)]
      split_ifs with hd
      · subst hd
        rw [Db.decisionRow_none.mpr fresh, Db.decisionRow_some.mpr ⟨(rows row).mpr (.inl rfl), rfl⟩]
        exact .proposed id event draft
      · refine .untouched fun x hx => ?_
        rw [rows]
        refine or_iff_right ?_
        rintro rfl
        exact hd hx.symm
  | @settled row row' e event plain human _ mem draft id moved active rows =>
      rw [filter_about (RoomEvent.about_of_transitions event)]
      split_ifs with hd
      · subst hd
        rw [Db.decisionRow_some.mpr ⟨mem, rfl⟩,
          Db.decisionRow_some.mpr ⟨(rows row').mpr (.inl rfl), id⟩]
        refine .settled draft event plain moved fun hactive => ?_
        refine ⟨_, List.mem_singleton_self _, e, List.mem_singleton_self e, active hactive, ?_,
          human, row, mem, id.symm, draft⟩
        rw [id]
        exact RoomEvent.about_of_transitions event
      · exact .untouched fun x hx => otherRows_iff (rows x) id hx hd
  | @edited row row' new e confirmed event plain human makes event' derived type' human' mem draft
      id superseded active source sources id' fresh rows =>
      have hold : row.decisionId ≠ new.decisionId := fresh row mem
      rw [← List.singleton_append, List.filter_append,
        filter_about (RoomEvent.about_of_transitions event),
        filter_about (RoomEvent.about_of_transitions event')]
      by_cases hd : d = row.decisionId
      · subst hd
        rw [if_pos rfl, if_neg hold, Db.decisionRow_some.mpr ⟨mem, rfl⟩,
          Db.decisionRow_some.mpr ⟨(rows row').mpr (.inl (.inl rfl)), id⟩]
        exact .settled draft event plain (by simp [superseded]) (by simp [superseded])
      · rw [if_neg hd]
        split_ifs with hnew
        · subst hnew
          rw [Db.decisionRow_none.mpr fresh,
            Db.decisionRow_some.mpr ⟨(rows new).mpr (.inr rfl), rfl⟩]
          exact .made id' event' derived active ⟨_, List.mem_singleton_self _, e,
            List.mem_cons_self, makes, human, row, mem, RoomEvent.about_of_transitions event, draft,
            source, sources⟩
        · refine .untouched fun x hx => ?_
          rw [rows, or_iff_left]
          · exact otherRows_iff Iff.rfl id hx hd
          · rintro rfl
            exact hnew hx.symm
  | @deleted row e event human mem payload rows =>
      rw [filter_about (RoomEvent.about_of_deletes event)]
      split_ifs with hd
      · subst hd
        rw [Db.decisionRow_some.mpr ⟨mem, rfl⟩,
          Db.decisionRow_none.mpr fun x hx => ((rows x).mp hx).2]
        exact .deleted event
      · refine .untouched fun x hx => ?_
        rw [rows]
        exact and_iff_left fun heq => hd (hx.symm.trans heq)

/-- What can have been logged about a decision, and the row that goes with it. -/
inductive Life (txs : List Transaction) (d : Uuid) : List RoomEvent → Option Decision → Prop where
  | unused : Life txs d [] none
  | draft {e row} (event : e.proposes d) (status : row.status = .draft) :
      Life txs d [e] (some row)
  | settled {e e' row} (event : e.proposes d) (event' : e'.transitions d)
      (plain : e'.derived = false) (moved : row.status ≠ .draft)
      (active : row.status = .active → ConfirmedDraft txs row) : Life txs d [e, e'] (some row)
  | made {e row} (event : e.transitions d) (derived : e.derived = true)
      (status : row.status = .active) (made : Replacement txs row) : Life txs d [e] (some row)
  | deleted {trail row e} (life : Life txs d trail (some row)) (event : e.deletes d) :
      Life txs d (trail ++ [e]) none

theorem ConfirmedDraft.mono {txs txs' : List Transaction} {row : Decision}
    (h : ConfirmedDraft txs row) (hsub : txs ⊆ txs') : ConfirmedDraft txs' row := by
  obtain ⟨tx, htx, hrest⟩ := h
  exact ⟨tx, hsub htx, hrest⟩

theorem Replacement.mono {txs txs' : List Transaction} {row : Decision}
    (h : Replacement txs row) (hsub : txs ⊆ txs') : Replacement txs' row := by
  obtain ⟨tx, htx, hrest⟩ := h
  exact ⟨tx, hsub htx, hrest⟩

namespace Life

variable {txs : List Transaction} {d : Uuid} {trail : List RoomEvent} {row : Option Decision}

theorem mono {txs' : List Transaction} (h : Life txs d trail row) (hsub : txs ⊆ txs') :
    Life txs' d trail row := by
  induction h with
  | unused => exact .unused
  | draft event status => exact .draft event status
  | settled event event' plain moved active =>
      exact .settled event event' plain moved fun hactive => (active hactive).mono hsub
  | made event derived status made => exact .made event derived status (made.mono hsub)
  | deleted _ event ih => exact .deleted ih event

theorem ne_nil {r : Decision} (h : Life txs d trail (some r)) : trail ≠ [] := by
  cases h <;> simp

/-- A transaction moves the life on; a new one begins only where nothing was. -/
theorem step {drawn : List Uuid} {tx : Transaction} {events : List RoomEvent}
    {row' : Option Decision} (h : Life txs d trail row)
    (hstep : LifeStep drawn tx d row events row') (hfresh : d ∈ drawn → trail = []) :
    Life (txs ++ [tx]) d (trail ++ events) row' := by
  have hsub : txs ⊆ txs ++ [tx] := List.subset_append_left ..
  have hlast : [tx] ⊆ txs ++ [tx] := List.subset_append_right ..
  cases hstep with
  | idle =>
      rw [List.append_nil]
      exact h.mono hsub
  | proposed id event status =>
      rw [hfresh id]
      exact .draft event status
  | @settled r e r' draft event plain moved active =>
      cases h with
      | draft event' _ =>
          exact .settled event' event plain moved fun hactive => (active hactive).mono hlast
      | settled _ _ _ hmoved _ => exact absurd draft hmoved
      | made _ _ hactive _ =>
          rw [hactive] at draft
          cases draft
  | made id event derived status made =>
      rw [hfresh id]
      exact .made event derived status (made.mono hlast)
  | deleted event => exact .deleted (h.mono hsub) event

/-- While the row is there, nothing deleted it. -/
theorem alive {r : Decision} (h : Life txs d trail (some r)) :
    ∀ e ∈ trail, e.deletes d = false := by
  intro e he
  cases h with
  | draft event _ =>
      rw [List.mem_singleton.mp he]
      exact RoomEvent.not_deletes_of_proposes event
  | settled event event' _ _ _ =>
      rcases List.mem_cons.mp he with rfl | he
      · exact RoomEvent.not_deletes_of_proposes event
      · rw [List.mem_singleton.mp he]
        exact RoomEvent.not_deletes_of_transitions event'
  | made event _ _ _ =>
      rw [List.mem_singleton.mp he]
      exact RoomEvent.not_deletes_of_transitions event

theorem transitions_le (h : Life txs d trail row) :
    (trail.filter (·.transitions d)).length ≤ 1 := by
  induction h with
  | unused => simp
  | draft _ _ => exact List.length_filter_le ..
  | settled event _ _ _ _ =>
      rw [List.filter_cons, if_neg (by simp [RoomEvent.not_transitions_of_proposes event])]
      exact List.length_filter_le ..
  | made _ _ _ _ => exact List.length_filter_le ..
  | deleted _ event ih =>
      rw [List.filter_append, List.filter_cons,
        if_neg (by simp [RoomEvent.not_transitions_of_deletes event]), List.filter_nil,
        List.append_nil]
      exact ih

theorem deletes_le (h : Life txs d trail row) : (trail.filter (·.deletes d)).length ≤ 1 := by
  have halive : ∀ {trail r}, Life txs d trail (some r) → trail.filter (·.deletes d) = [] :=
    fun h => List.filter_eq_nil_iff.mpr fun e he => by simp [h.alive e he]
  cases h with
  | unused => simp
  | deleted life _ =>
      rw [List.filter_append, halive life]
      exact List.length_filter_le ..
  | draft event status => simp [halive (.draft event status)]
  | settled event event' plain moved active =>
      simp [halive (.settled event event' plain moved active)]
  | made event derived status made => simp [halive (.made event derived status made)]

/-- The deletion is the last that is logged of a decision. -/
theorem last {earlier later : List RoomEvent} {e : RoomEvent}
    (h : Life txs d (earlier ++ e :: later) row) (he : e.deletes d = true) : later = [] := by
  have hmem : e ∈ earlier ++ e :: later := List.mem_append_right _ List.mem_cons_self
  cases row with
  | some r =>
      rw [h.alive e hmem] at he
      cases he
  | none =>
      generalize htrail : earlier ++ e :: later = trail at h
      cases h with
      | unused => simp at htrail
      | @deleted trail r last life _ =>
          rcases List.eq_nil_or_concat later with hnil | ⟨rest, x, hrest⟩
          · exact hnil
          · rw [hrest, List.concat_eq_append, ← List.cons_append, ← List.append_assoc] at htrail
            have hsame := (List.append_inj' htrail rfl).1
            have halive := life.alive e (by rw [← hsame]; simp)
            rw [halive] at he
            cases he

/-- A decision that an edit made was not proposed, and nothing else settles it. -/
theorem made_only {e : RoomEvent} (h : Life txs d trail row) (he : e ∈ trail)
    (hevent : e.transitions d = true) (hderived : e.derived = true) :
    trail.filter (·.transitions d) = [e] ∧ ∀ x ∈ trail, x.proposes d = false := by
  induction h with
  | unused => cases he
  | draft event _ =>
      rw [List.mem_singleton.mp he, RoomEvent.not_transitions_of_proposes event] at hevent
      cases hevent
  | settled event _ plain _ _ =>
      rcases List.mem_cons.mp he with rfl | he
      · rw [RoomEvent.not_transitions_of_proposes event] at hevent
        cases hevent
      · rw [List.mem_singleton.mp he, plain] at hderived
        cases hderived
  | made event _ _ _ =>
      obtain rfl := List.mem_singleton.mp he
      exact ⟨by simp [event],
        List.forall_mem_singleton.mpr (RoomEvent.not_proposes_of_transitions event)⟩
  | @deleted trail _ last _ event ih =>
      rcases List.mem_append.mp he with he | he
      · obtain ⟨hone, hnone⟩ := ih he
        refine ⟨?_, List.forall_mem_append.mpr ⟨hnone, List.forall_mem_singleton.mpr ?_⟩⟩
        · rw [List.filter_append, hone]
          simp [RoomEvent.not_transitions_of_deletes event]
        · exact RoomEvent.not_proposes_of_deletes event
      · rw [List.mem_singleton.mp he, RoomEvent.not_transitions_of_deletes event] at hevent
        cases hevent

theorem active {r : Decision} (h : Life txs d trail (some r)) (hactive : r.status = .active) :
    ConfirmedDraft txs r ∨ Replacement txs r := by
  cases h with
  | draft _ status =>
      rw [status] at hactive
      cases hactive
  | settled _ _ _ _ active => exact .inl (active hactive)
  | made _ _ _ made => exact .inr made

end Life

/-! ### Runs -/

/-- Every decision of a run has its life, under an id that was drawn for it. -/
structure LivesRecorded (env : Env) (ops : List Op) : Prop where
  life : ∀ d, Life (transactions env ops) d
    (((gateway env).run ops).db.roomEvents.rows.filter (·.about d))
    (((gateway env).run ops).db.decisionRow d)
  drawn : ∀ d, ((gateway env).run ops).db.roomEvents.rows.filter (·.about d) ≠ [] →
    d ∈ ops.flatMap Op.drawnDecisions

theorem transactions_append (ops : List Op) (op : Op) :
    transactions env (ops ++ [op]) = transactions env ops ++ [⟨((gateway env).run ops).db,
      appended ((gateway env).run ops).db ((gateway env).next ((gateway env).run ops) op).db⟩] := by
  rw [transactions, Machine.collect_append]
  rfl

theorem log_transactions (ops : List Op) :
    ((gateway env).run ops).db.roomEvents.rows = (transactions env ops).flatMap (·.events) := by
  induction ops using List.reverseRecOn with
  | nil => rfl
  | append_singleton ops op ih =>
      have hlog : LogExtends ((gateway env).run ops).db
          ((gateway env).next ((gateway env).run ops) op).db := (gateway_effect _ op).log
      rw [transactions_append, List.flatMap_append, ← ih, List.flatMap_singleton,
        ← rows_appended hlog, Machine.run_append]
      rfl

theorem LifeStep.begins {drawn : List Uuid} {tx : Transaction} {d : Uuid}
    {row row' : Option Decision} {events : List RoomEvent}
    (h : LifeStep drawn tx d row events row') (hevents : events ≠ []) :
    d ∈ drawn ∨ ∃ r, row = some r := by
  cases h with
  | idle => exact absurd rfl hevents
  | proposed id _ _ => exact .inl id
  | settled _ _ _ _ _ => exact .inr ⟨_, rfl⟩
  | made id _ _ _ _ => exact .inl id
  | deleted _ => exact .inr ⟨_, rfl⟩

theorem gateway_livesRecorded (ops : List Op) (hfresh : (ops.flatMap Op.drawnDecisions).Nodup) :
    LivesRecorded env ops := by
  induction ops using List.reverseRecOn with
  | nil => exact ⟨fun d => .unused, fun d h => absurd rfl h⟩
  | append_singleton ops op ih =>
      rw [List.flatMap_append, List.nodup_append'] at hfresh
      obtain ⟨hbefore, -, hdisjoint⟩ := hfresh
      obtain ⟨hlife, hdrawn⟩ := ih hbefore
      have hcall : DecisionCall op.drawnDecisions ((gateway env).run ops).db
          ((gateway env).next ((gateway env).run ops) op).db _ := gateway_decisionCall _ op
      have hlog : LogExtends ((gateway env).run ops).db
          ((gateway env).next ((gateway env).run ops) op).db := (gateway_effect _ op).log
      have hnext : (gateway env).run (ops ++ [op]) =
          (gateway env).next ((gateway env).run ops) op := Machine.run_append ..
      refine ⟨fun d => ?_, fun d => ?_⟩
      · rw [transactions_append, hnext, rows_appended hlog, List.filter_append]
        refine (hlife d).step (hcall.lifeStep d) fun hnew => ?_
        -- the id of a trail was drawn before and is not drawn again
        by_contra htrail
        exact hdisjoint (hdrawn d htrail) (by simpa using hnew)
      · rw [hnext, rows_appended hlog, List.filter_append, List.flatMap_append, List.mem_append]
        intro hne
        by_cases hold : ((gateway env).run ops).db.roomEvents.rows.filter (·.about d) = []
        · rw [hold, List.nil_append] at hne
          rcases (hcall.lifeStep d).begins hne with hnew | ⟨r, hr⟩
          · exact .inr (by simpa using hnew)
          · have := hlife d
            rw [hr] at this
            exact absurd hold this.ne_nil
        · exact .inl (hdrawn d hold)

/-- The transactions of a run, as what they do. -/
theorem mem_transactions {ops : List Op} {tx : Transaction} (h : tx ∈ transactions env ops) :
    (∃ drawn db', DecisionCall drawn tx.before db' tx.events) ∧
      ∀ e ∈ tx.events, e ∈ ((gateway env).run ops).db.roomEvents.rows := by
  refine ⟨?_, fun e he => ?_⟩
  · obtain ⟨before, op, after, -, hmem⟩ := Machine.mem_collect _ h
    rw [List.mem_singleton.mp hmem]
    exact ⟨_, _, gateway_decisionCall _ op⟩
  · rw [log_transactions]
    exact List.mem_flatMap.mpr ⟨tx, h, he⟩

section Trail

variable {log : List RoomEvent} {p : RoomEvent → Bool} {d : Uuid}

/-- What is about one decision can be looked up in its trail. -/
theorem filter_trail (h : ∀ e, p e = true → e.about d = true) :
    log.filter p = (log.filter (·.about d)).filter p := by
  rw [List.filter_filter]
  refine List.filter_congr fun e _ => ?_
  cases hp : p e with
  | false => rfl
  | true => rw [h e hp]; rfl

end Trail

/-- In every run whose calls draw new ids, the decisions are governed. -/
theorem decisions_governed (env : Env) (ops : List Op)
    (hfresh : (ops.flatMap Op.drawnDecisions).Nodup) : Governed env ops := by
  obtain ⟨hlife, -⟩ : LivesRecorded env ops := gateway_livesRecorded ops hfresh
  constructor
  case log => exact log_transactions ops
  case human =>
    intro e he hdecision hnot
    obtain ⟨new, eventId, sequence, rfl, hwritten⟩ := gateway_allWritten ops e he
    exact hwritten.human hdecision hnot
  case settledOnce =>
    intro d _
    rw [filter_trail fun _ => RoomEvent.about_of_transitions]
    exact (hlife d).transitions_le
  case whileDraft =>
    rintro d ⟨p, hp, hproposes⟩ tx htx e he hevent
    obtain ⟨⟨_, _, hcall⟩, hmem⟩ := mem_transactions htx
    refine (hcall.whileDraft he hevent).resolve_right fun hderived => ?_
    have htrail : e ∈ ((gateway env).run ops).db.roomEvents.rows.filter (·.about d) :=
      List.mem_filter.mpr ⟨hmem e he, RoomEvent.about_of_transitions hevent⟩
    have hnone := ((hlife d).made_only htrail hevent hderived).2 p
      (List.mem_filter.mpr ⟨hp, RoomEvent.about_of_proposes hproposes⟩)
    rw [hnone] at hproposes
    cases hproposes
  case replaced =>
    intro tx htx e he d hmakes
    obtain ⟨⟨_, _, hcall⟩, hmem⟩ := mem_transactions htx
    obtain ⟨confirmed, hevents, htype, hevent, hderived⟩ := hcall.makes he hmakes
    have hlogged := hmem confirmed (by simp [hevents])
    refine ⟨confirmed, hevents, htype, ?_⟩
    rw [filter_trail fun _ => RoomEvent.about_of_transitions]
    exact ((hlife d).made_only (List.mem_filter.mpr
      ⟨hlogged, RoomEvent.about_of_transitions hevent⟩) hevent hderived).1
  case deletedOnce =>
    intro d
    rw [filter_trail fun _ => RoomEvent.about_of_deletes]
    exact (hlife d).deletes_le
  case deletedLast =>
    intro d earlier e later hlog he x hx habout
    have hsplit := hlife d
    rw [hlog, List.filter_append, List.filter_cons,
      if_pos (RoomEvent.about_of_deletes he)] at hsplit
    exact List.filter_eq_nil_iff.mp (hsplit.last he) x hx habout
  case deleted =>
    intro tx htx e he htype
    obtain ⟨⟨_, _, hcall⟩, -⟩ := mem_transactions htx
    exact hcall.deletes he htype
  case active =>
    intro row hrow hactive
    have hrowlife := hlife row.decisionId
    rw [Db.decisionRow_some.mpr ⟨hrow, rfl⟩] at hrowlife
    exact hrowlife.active hactive
  case elsewhere =>
    intro actor request presence enabled txNow fresh room row hrow hroom hrequest
    have hsame : ((process env actor request presence enabled txNow fresh).runTx
        ((gateway env).run ops).db).2 = ((gateway env).run ops).db :=
      process_elsewhere hrow hroom hrequest
    exact congrArg (fun db => { (gateway env).run ops with db := db }) hsame

/-- A message, a decision proposed from it, its edit, and the end of the replacement. -/
def sampleDecisions : List Op :=
  [.process sampleActor (.chatSend ⟨"1", "n2n.room.v1", 5, 1, 0, "hi", [], .room⟩) [] true 0
      fun n => .ofNat (20 + n),
    .process sampleActor (.decisionPropose ⟨"2", "n2n.room.v1", 6, 1, 0, "Ship", "Ship it.", [20]⟩)
      [] true 0 fun n => .ofNat (30 + n),
    .process sampleActor (.decisionTransition ⟨"3", "n2n.room.v1", 7, 1, 0, 30, .edit, some "Wait",
      some "Wait a day."⟩) [] true 0 fun n => .ofNat (40 + n),
    .process sampleActor (.decisionDelete ⟨"4", "n2n.room.v1", 8, 1, 0, 40⟩) [] true 0
      fun n => .ofNat (50 + n)]

theorem decisions_governed_sample :
    ((gateway sampleEnv).run sampleDecisions).db.roomEvents.rows.map (·.eventType) =
      [.messageCreated, .decisionProposed, .decisionEdited, .decisionConfirmed,
        .decisionDeleted] ∧
    (sampleDecisions.flatMap Op.drawnDecisions).Nodup ∧ Governed sampleEnv sampleDecisions :=
  ⟨by decide +kernel, by decide, decisions_governed sampleEnv sampleDecisions (by decide)⟩

end RoomGateway
