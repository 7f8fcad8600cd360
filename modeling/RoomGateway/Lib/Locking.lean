import RoomGateway.Lib.Holders
import RoomGateway.Lib.Machine
import RoomGateway.Lib.Txn

/-!
Transactions side by side, on a whole store. A statement sees what is committed
when it runs with the transaction's own writes on top (`replay`); a lock is
taken when nobody else holds it and kept until the transaction ends; a commit
puts the writes on top of what is committed then. The history lists the
transactions that ended, each with its result and the store it left.

What a transaction may rely on while it holds some locks is a relation `rely`
between stores. `Upholds` is a calculus for bodies under that relation: what is
concluded from a statement has to be stable, and what is committed has to
respect the locks of the others. If every body upholds its specification, then
so does every entry of every history (`finished_upholds`). For a body whose
reads are all protected by the locks it holds (`Guarded`) the specification is
that it ran alone at the moment it ended.
-/

namespace RoomGateway.Locking

variable {σ κ ε τ : Type} {α : τ → Type}

/-! ### The machine -/

/-- The writes of a transaction on top of a store. -/
def replay (writes : List (σ → Option σ)) (s : σ) : Option σ := writes.foldlM (fun s w => w s) s

theorem replay_append (writes : List (σ → Option σ)) (w : σ → Option σ) (s : σ) :
    replay (writes ++ [w]) s = (replay writes s).bind w := by
  unfold replay
  rw [List.foldlM_append]
  cases h : writes.foldlM (fun s w => w s) s with
  | none => rfl
  | some v =>
      change ([w].foldlM (fun s w => w s) v) = w v
      simp

/-- A transaction on its way; `began` counts the transactions that had ended
when it began. -/
structure Running (σ κ ε : Type) (α : τ → Type) extends Holder κ τ where
  began : Nat
  rest : Prog σ κ ε (Ending ε (α call))
  writes : List (σ → Option σ) := []

/-- A transaction that ended with a result, and the store it left. -/
structure Finished (σ ε : Type) (α : τ → Type) where
  call : τ
  began : Nat
  result : Except ε (α call)
  after : σ

/-- The store that a history leaves. -/
def store (init : σ) (history : List (Finished σ ε α)) : σ :=
  (history.getLast?.map (·.after)).getD init

@[simp] theorem store_append (init : σ) (history : List (Finished σ ε α)) (f : Finished σ ε α) :
    store init (history ++ [f]) = f.after := by
  simp [store]

theorem store_take_succ (init : σ) {history : List (Finished σ ε α)} {i : Nat}
    {f : Finished σ ε α} (h : history[i]? = some f) :
    store init (history.take (i + 1)) = f.after := by
  rw [List.take_add_one, h, Option.toList_some, store_append]

structure World (σ κ ε : Type) (α : τ → Type) where
  init : σ
  history : List (Finished σ ε α) := []
  running : List (Option (Running σ κ ε α)) := []

namespace World

/-- What is committed. -/
def committed (w : World σ κ ε α) : σ := store w.init w.history

def put (w : World σ κ ε α) (i : Nat) (t : Option (Running σ κ ε α)) : World σ κ ε α :=
  { w with running := w.running.set i t }

/-- The transaction at `i` ends. -/
def finish (w : World σ κ ε α) (i : Nat) (t : Running σ κ ε α) (result : Except ε (α t.call))
    (after : σ) : World σ κ ε α :=
  { w.put i none with history := w.history ++ [⟨t.call, t.began, result, after⟩] }

/-- The locks of a place; a transaction that ended leaves none. -/
def heldAt (place : Option (Running σ κ ε α)) : List κ := (place.map (·.held)).getD []

variable [DecidableEq κ]

/-- Nobody but the transaction at `i` holds the lock. -/
def free (w : World σ κ ε α) (i : Nat) (key : κ) : Bool := Holder.free heldAt w.running i key

/-- The next thing that the transaction at `i` does. A transaction whose writes
no longer fit what is committed is given up. -/
def step (w : World σ κ ε α) (i : Nat) (t : Running σ κ ε α) : World σ κ ε α :=
  match replay t.writes w.committed with
  | none => w.put i none
  | some view =>
      match t.rest with
      | .ret (.commit r) => w.finish i t r view
      | .ret (.rollback a) => w.finish i t (.ok a) w.committed
      | .fail e => w.finish i t (.error e) w.committed
      | .lock key next =>
          if w.free i key then w.put i (some { t with rest := next, held := key :: t.held })
          else w
      | .stmt read write fault next =>
          match write (read view) view with
          | none => w.finish i t (.error fault) w.committed
          | some _ => w.put i (some { t with
              rest := next (read view)
              writes := t.writes ++ [write (read view)] })

end World

/-- Nothing but the order is open in what happens. -/
abbrev Act (τ : Type) := RoomGateway.Act Unit τ

section Run

variable [DecidableEq κ] (body : (c : τ) → Prog σ κ ε (Ending ε (α c)))

def World.act (w : World σ κ ε α) : Act τ → World σ κ ε α
  | .start call =>
      { w with running := w.running ++
          [some { call := call, began := w.history.length, rest := body call }] }
  | .step i _ =>
      match w.running[i]? with
      | some (some t) => w.step i t
      | _ => w
  | .abort i => w.put i none

/-- Calls of `body` side by side, from a store. -/
def sideBySide (init : σ) : Machine (World σ κ ε α) (Act τ) Unit where
  init := { init := init }
  step w act := (w.act body act, ())

end Run

/-! ### The calculus -/

/-- What a transaction that holds some locks may rely on when others commit,
and an invariant of the stores. -/
structure Rely (σ κ : Type) where
  rel : List κ → σ → σ → Prop
  refl : ∀ held s, rel held s s
  trans : ∀ {held s s' s''}, rel held s s' → rel held s' s'' → rel held s s''
  antitone : ∀ {held held' s s'}, held ⊆ held' → rel held' s s' → rel held s s'
  inv : σ → Prop
  keeps : ∀ {held s s'}, rel held s s' → inv s → inv s'

variable (R : Rely σ κ)

/-- What a transaction with some locks owes to every other one. -/
def Guarantee (held : List κ) (s s' : σ) : Prop :=
  ∀ other : List κ, (∀ k ∈ other, k ∉ held) → R.rel other s s'

/-- The condition stays whatever the others commit. -/
def Stable (init : σ) (held : List κ) (P : List (Finished σ ε α) → Prop) : Prop :=
  ∀ history f, R.rel held (store init history) f.after → P history → P (history ++ [f])

/-- The body, with locks `held` and after `writes`, upholds `Q` if `P` is known
of the history. `Q` is about the result, the history before and the store
after. -/
def Upholds (init : σ) {β : Type} (Q : Except ε β → List (Finished σ ε α) → σ → Prop) :
    Prog σ κ ε (Ending ε β) → List κ → (List (Finished σ ε α) → Prop) →
      List (σ → Option σ) → Prop
  | .ret (.commit r), held, P, writes => ∀ history view, P history →
      replay writes (store init history) = some view →
        Q r history view ∧ Guarantee R held (store init history) view
  | .ret (.rollback a), _, P, writes => ∀ history view, P history →
      replay writes (store init history) = some view → Q (.ok a) history (store init history)
  | .fail e, _, P, writes => ∀ history view, P history →
      replay writes (store init history) = some view → Q (.error e) history (store init history)
  | .lock key next, held, P, writes => Upholds init Q next (key :: held) P writes
  | .stmt read write fault next, held, P, writes => ∀ history view, P history →
      replay writes (store init history) = some view →
        match write (read view) view with
        | none => Q (.error fault) history (store init history)
        | some _ => ∃ P', Stable R init held P' ∧ P' history ∧
            Upholds init Q (next (read view)) held P' (writes ++ [write (read view)])

theorem Upholds.mono {R : Rely σ κ} {init : σ} {β : Type}
    {Q Q' : Except ε β → List (Finished σ ε α) → σ → Prop} {p : Prog σ κ ε (Ending ε β)}
    {held : List κ} {P P' : List (Finished σ ε α) → Prop} {writes writes' : List (σ → Option σ)}
    (h : Upholds R init Q p held P writes) (hP : ∀ history, P' history → P history)
    (hQ : ∀ r history after, Q r history after → Q' r history after)
    (hwrites : ∀ s, replay writes' s = replay writes s) :
    Upholds R init Q' p held P' writes' := by
  induction p generalizing held P P' writes writes' with
  | ret ending =>
      cases ending with
      | commit r =>
          intro history view hP' hview
          exact (h history view (hP _ hP') (hwrites _ ▸ hview)).imp_left (hQ _ _ _)
      | rollback a =>
          intro history view hP' hview
          exact hQ _ _ _ (h history view (hP _ hP') (hwrites _ ▸ hview))
  | fail e =>
      intro history view hP' hview
      exact hQ _ _ _ (h history view (hP _ hP') (hwrites _ ▸ hview))
  | lock key next ih => exact ih h hP hwrites
  | stmt read write fault next ih =>
      intro history view hP' hview
      have hstmt := h history view (hP _ hP') (hwrites _ ▸ hview)
      cases hwrite : write (read view) view with
      | none =>
          rw [hwrite] at hstmt
          exact hQ _ _ _ hstmt
      | some after =>
          rw [hwrite] at hstmt
          obtain ⟨P₁, hstable, hP₁, hnext⟩ := hstmt
          refine ⟨P₁, hstable, hP₁, ih _ hnext (fun _ hx => hx) fun s => ?_⟩
          rw [replay_append, replay_append, hwrites]

theorem upholds_acquire {R : Rely σ κ} {init : σ} {β : Type}
    {Q : Except ε β → List (Finished σ ε α) → σ → Prop} {key : κ}
    {f : Unit → Prog σ κ ε (Ending ε β)} {held : List κ} {P : List (Finished σ ε α) → Prop}
    {writes : List (σ → Option σ)} (h : Upholds R init Q (f ()) (key :: held) P writes) :
    Upholds R init Q (Prog.acquire key >>= f) held P writes := h

/-- A read that no lock protects tells what the store was then. -/
theorem upholds_query {R : Rely σ κ} {init : σ} {β γ : Type}
    {Q : Except ε β → List (Finished σ ε α) → σ → Prop} {fault : ε} {read : σ → γ}
    {f : γ → Prog σ κ ε (Ending ε β)} {held : List κ} {P : List (Finished σ ε α) → Prop}
    (h : ∀ history, P history →
      Upholds R init Q (f (read (store init history))) held (history <+: ·) []) :
    Upholds R init Q (Prog.query fault read >>= f) held P [] := by
  intro history view hP hview
  cases hview
  refine ⟨(history <+: ·), fun later entry _ hlater => ?_, List.prefix_rfl,
    (h history hP).mono (fun _ hx => hx) (fun _ _ _ hQ => hQ) fun s => rfl⟩
  exact hlater.trans (List.prefix_append _ _)

/-! ### Soundness -/

section Sound

variable {R} {Q : (c : τ) → Nat → Except ε (α c) → List (Finished σ ε α) → σ → Prop}

/-- The transaction is on its way to what it is to uphold. -/
def OnTrack (R : Rely σ κ) (Q : (c : τ) → Nat → Except ε (α c) → List (Finished σ ε α) → σ → Prop)
    (init : σ) (history : List (Finished σ ε α)) (t : Running σ κ ε α) : Prop :=
  ∃ P, Stable R init t.held P ∧ P history ∧
    Upholds R init (Q t.call t.began) t.rest t.held P t.writes

structure Sound (R : Rely σ κ)
    (Q : (c : τ) → Nat → Except ε (α c) → List (Finished σ ε α) → σ → Prop)
    (w : World σ κ ε α) : Prop where
  inv : R.inv w.committed
  finished : ∀ (i : Nat) f, w.history[i]? = some f →
    Q f.call f.began f.result (w.history.take i) f.after
  running : ∀ (i : Nat) t, w.running[i]? = some (some t) → OnTrack R Q w.init w.history t
  exclusive : Holder.Exclusive World.heldAt w.running

theorem getElem?_put {w : World σ κ ε α} {i j : Nat} {t : Option (Running σ κ ε α)}
    {u : Running σ κ ε α} (h : (w.put i t).running[j]? = some (some u)) :
    (i = j ∧ t = some u) ∨ (i ≠ j ∧ w.running[j]? = some (some u)) := by
  change (w.running.set i t)[j]? = some (some u) at h
  rw [List.getElem?_set] at h
  split_ifs at h with hij hlt
  · exact .inl ⟨hij, Option.some.inj h⟩
  · exact .inr ⟨hij, h⟩

/-- A transaction that is given up. -/
theorem Sound.put_none {w : World σ κ ε α} (h : Sound R Q w) (i : Nat) :
    Sound R Q (w.put i none) where
  inv := h.inv
  finished := h.finished
  running j u hu := by
    rcases getElem?_put hu with ⟨-, hnone⟩ | ⟨-, hu⟩
    · cases hnone
    · exact h.running j u hu
  exclusive := h.exclusive.set fun _ _ _ _ _ hk => absurd hk List.not_mem_nil

/-- A transaction that goes on, possibly with a lock nobody else has. -/
theorem Sound.put_some {w : World σ κ ε α} (h : Sound R Q w) {i : Nat} {t : Running σ κ ε α}
    (htrack : OnTrack R Q w.init w.history t)
    (hheld : Holder.Apart World.heldAt w.running i t.held) :
    Sound R Q (w.put i (some t)) where
  inv := h.inv
  finished := h.finished
  running j u hu := by
    rcases getElem?_put hu with ⟨-, heq⟩ | ⟨-, hu⟩
    · cases heq
      exact htrack
    · exact h.running j u hu
  exclusive := h.exclusive.set hheld

/-- A transaction that ends as it should, respecting the locks of the others. -/
theorem Sound.finish {w : World σ κ ε α} (h : Sound R Q w) {i : Nat} {t : Running σ κ ε α}
    (ht : w.running[i]? = some (some t)) {result : Except ε (α t.call)} {after : σ}
    (hQ : Q t.call t.began result w.history after)
    (hguarantee : Guarantee R t.held w.committed after) :
    Sound R Q (w.finish i t result after) where
  inv := by
    change R.inv (store w.init (w.history ++ [_]))
    rw [store_append]
    exact R.keeps (hguarantee [] (by simp)) h.inv
  finished j f hf := by
    change (w.history ++ [_])[j]? = some f at hf
    change Q f.call f.began f.result ((w.history ++ [_]).take j) f.after
    by_cases hj : j < w.history.length
    · rw [List.getElem?_append_left hj] at hf
      rw [List.take_append_of_le_length (Nat.le_of_lt hj)]
      exact h.finished j f hf
    · rw [List.getElem?_append_right (by omega), List.getElem?_singleton] at hf
      split_ifs at hf with hlast
      obtain rfl : j = w.history.length := by omega
      cases hf
      rw [List.take_left']
      · exact hQ
      · rfl
  running j u hu := by
    rcases getElem?_put (w := w) (t := none) hu with ⟨-, hnone⟩ | ⟨hij, hu⟩
    · cases hnone
    · obtain ⟨P, hstable, hP, hupholds⟩ := h.running j u hu
      refine ⟨P, hstable, hstable _ _ ?_ hP, hupholds⟩
      exact hguarantee u.held fun k hk hheld =>
        h.exclusive i _ ht j _ (Ne.symm hij) hu k hheld hk
  exclusive := (h.put_none i).exclusive

variable [DecidableEq κ]

theorem Sound.step {w : World σ κ ε α} (h : Sound R Q w) {i : Nat} {t : Running σ κ ε α}
    (ht : w.running[i]? = some (some t)) : Sound R Q (w.step i t) := by
  obtain ⟨P, hstable, hP, hupholds⟩ := h.running i t ht
  have hothers := h.exclusive i _ ht
  unfold World.step
  cases hview : replay t.writes w.committed with
  | none => exact h.put_none i
  | some view =>
      obtain ⟨⟨call, held⟩, began, rest, writes⟩ := t
      cases rest with
      | ret ending =>
          cases ending with
          | commit r =>
              obtain ⟨hQ, hguarantee⟩ := hupholds w.history view hP hview
              exact h.finish ht hQ hguarantee
          | rollback a =>
              exact h.finish ht (hupholds w.history view hP hview) fun _ _ => R.refl _ _
      | fail e => exact h.finish ht (hupholds w.history view hP hview) fun _ _ => R.refl _ _
      | lock key next =>
          dsimp only
          split_ifs with hfree
          · refine h.put_some ⟨P, fun history f hrely => ?_, hP, hupholds⟩
              (Holder.apart_cons hfree hothers)
            exact hstable history f (R.antitone (List.subset_cons_self _ _) hrely)
          · exact h
      | stmt read write fault next =>
          have hstmt := hupholds w.history view hP hview
          dsimp only
          cases hwrite : write (read view) view with
          | none =>
              rw [hwrite] at hstmt
              exact h.finish ht hstmt fun _ _ => R.refl _ _
          | some s' =>
              rw [hwrite] at hstmt
              obtain ⟨P', hstable', hP', hnext⟩ := hstmt
              exact h.put_some ⟨P', hstable', hP', hnext⟩ hothers

end Sound

/-! ### Whole histories -/

/-- What is known when a transaction begins: how long the history is, and the
invariant of the stores. -/
def Beginning (init : σ) (began : Nat) (history : List (Finished σ ε α)) : Prop :=
  began ≤ history.length ∧ R.inv (store init history)

theorem stable_beginning (init : σ) (began : Nat) (held : List κ) :
    Stable (ε := ε) (α := α) R init held (Beginning R init began) := by
  rintro history f hrely ⟨hbegan, hinv⟩
  refine ⟨?_, ?_⟩
  · rw [List.length_append]
    omega
  · rw [store_append]
    exact R.keeps hrely hinv

section Run

variable [DecidableEq κ] {R} {body : (c : τ) → Prog σ κ ε (Ending ε (α c))}
  {Q : (c : τ) → Nat → Except ε (α c) → List (Finished σ ε α) → σ → Prop} {init : σ}

theorem World.init_act (w : World σ κ ε α) (act : Act τ) : (w.act body act).init = w.init := by
  unfold World.act World.step
  repeat' split
  all_goals rfl

/-- If every body upholds its specification from its beginning on, then the
world is sound at every moment. -/
theorem sound_act {w : World σ κ ε α}
    (hbody : ∀ c began,
      Upholds R w.init (Q c began) (body c) [] (Beginning R w.init began) [])
    (h : Sound R Q w) (act : Act τ) : Sound R Q (w.act body act) := by
  cases act with
  | abort i => exact h.put_none i
  | step i _ =>
      unfold World.act
      dsimp only
      split
      · next t ht => exact h.step ht
      · exact h
  | start call =>
      have hget : ∀ (i : Nat) t, (w.act body (.start call)).running[i]? = some (some t) →
          w.running[i]? = some (some t) ∨
            t = { call := call, began := w.history.length, rest := body call } := by
        intro i t ht
        change (w.running ++ [_])[i]? = some (some t) at ht
        by_cases hi : i < w.running.length
        · rw [List.getElem?_append_left hi] at ht
          exact .inl ht
        · rw [List.getElem?_append_right (by omega), List.getElem?_singleton] at ht
          split_ifs at ht
          cases ht
          exact .inr rfl
      refine ⟨h.inv, h.finished, fun i t ht => ?_, h.exclusive.append rfl⟩
      rcases hget i t ht with hold | rfl
      · exact h.running i t hold
      · exact ⟨_, stable_beginning R w.init _ [], ⟨Nat.le_refl _, h.inv⟩, hbody call _⟩

/-- Then every entry of every history is as specified. -/
theorem finished_upholds (hinit : R.inv init)
    (hbody : ∀ c began, Upholds R init (Q c began) (body c) [] (Beginning R init began) [])
    (acts : List (Act τ)) (i : Nat) (f : Finished σ ε α)
    (hf : ((sideBySide body init).run acts).history[i]? = some f) :
    Q f.call f.began f.result (((sideBySide body init).run acts).history.take i) f.after := by
  have hsound := Machine.run_invariant (m := sideBySide body init)
    (P := fun w => w.init = init ∧ Sound R Q w)
    ⟨rfl, hinit, by simp [sideBySide], by simp [sideBySide], .nil⟩
    (fun w act h => ⟨(w.init_act act).trans h.1, sound_act (by rw [h.1]; exact hbody) h.2 act⟩) acts
  exact hsound.2.finished i f hf

end Run

/-! ### Bodies whose reads are protected -/

section Guarded

variable {β : Type}

/-- Every read of the body, of which `p` is left, gives the same whatever the
others commit, and what it commits respects their locks. `P` is what the reads
so far tell. -/
def Guarded (body : Prog σ κ ε (Ending ε β)) :
    Prog σ κ ε (Ending ε β) → List κ → (σ → Prop) → List (σ → Option σ) → Prop
  | .ret (.commit r), held, P, writes => ∀ s view, P s → replay writes s = some view →
      body.exec s = .ok (.commit r, view) → Guarantee R held s view
  | .ret (.rollback _), _, _, _ => True
  | .fail _, _, _, _ => True
  | .lock key next, held, P, writes => Guarded body next (key :: held) P writes
  | .stmt read write _ next, held, P, writes =>
      (∀ s s' view view', R.rel held s s' → P s → P s' → replay writes s = some view →
        replay writes s' = some view' → read view' = read view) ∧
      ∀ s view, P s → replay writes s = some view →
        Guarded body (next (read view)) held
          (fun x => P x ∧ ∀ v, replay writes x = some v → read v = read view)
          (writes ++ [write (read view)])

variable {R} {init : σ} {body p : Prog σ κ ε (Ending ε β)} {held : List κ} {P : σ → Prop}
  {writes : List (σ → Option σ)}

theorem Guarded.mono {P' : σ → Prop} {writes' : List (σ → Option σ)}
    (h : Guarded R body p held P writes) (hP : ∀ s, P' s → P s)
    (hwrites : ∀ s, replay writes' s = replay writes s) : Guarded R body p held P' writes' := by
  induction p generalizing held P P' writes writes' with
  | ret ending =>
      cases ending with
      | commit r => exact fun s view hs hview => h s view (hP s hs) (hwrites s ▸ hview)
      | rollback a => trivial
  | fail e => trivial
  | lock key next ih => exact ih h hP hwrites
  | stmt read write fault next ih =>
      obtain ⟨hread, hnext⟩ := h
      refine ⟨fun s s' view view' hrely hs hs' hview hview' => ?_, fun s view hs hview => ?_⟩
      · exact hread s s' view view' hrely (hP s hs) (hP s' hs') (hwrites s ▸ hview)
          (hwrites s' ▸ hview')
      · refine ih _ (hnext s view (hP s hs) (hwrites s ▸ hview)) (fun x hx => ?_) fun x => ?_
        · exact ⟨hP x hx.1, fun v hv => hx.2 v ((hwrites x).trans hv)⟩
        · rw [replay_append, replay_append, hwrites]

/-! One rule for each construct, as they begin a body. -/

section Rules

variable {γ : Type} {f : γ → Prog σ κ ε (Ending ε β)}

theorem guarded_acquire {key : κ} {f : Unit → Prog σ κ ε (Ending ε β)}
    (h : Guarded R body (f ()) (key :: held) P writes) :
    Guarded R body (Prog.acquire key >>= f) held P writes := h

theorem guarded_ensure {c : Bool} {e : ε} {f : Unit → Prog σ κ ε (Ending ε β)}
    (h : c = true → Guarded R body (f ()) held P writes) :
    Guarded R body (Prog.ensure c e >>= f) held P writes := by
  cases c with
  | true => exact h rfl
  | false => trivial

theorem guarded_orFail {o : Option γ} {e : ε}
    (h : ∀ a, o = some a → Guarded R body (f a) held P writes) :
    Guarded R body (Prog.orFail o e >>= f) held P writes := by
  cases o with
  | some a => exact h a rfl
  | none => trivial

theorem guarded_ofExcept {r : Except ε γ}
    (h : ∀ a, r = .ok a → Guarded R body (f a) held P writes) :
    Guarded R body (Prog.ofExcept r >>= f) held P writes := by
  cases r with
  | ok a => exact h a rfl
  | error e => trivial

theorem guarded_query {fault : ε} {read : σ → γ}
    (hread : ∀ s s' view view', R.rel held s s' → P s → P s' → replay writes s = some view →
      replay writes s' = some view' → read view' = read view)
    (h : ∀ s view, P s → replay writes s = some view → Guarded R body (f (read view)) held
      (fun x => P x ∧ ∀ v, replay writes x = some v → read v = read view) writes) :
    Guarded R body (Prog.query fault read >>= f) held P writes := by
  refine ⟨hread, fun s view hs hview => (h s view hs hview).mono (fun _ hx => hx) fun x => ?_⟩
  rw [replay_append]
  cases replay writes x <;> rfl

theorem guarded_execute {fault : ε} {write : σ → Option σ} {f : Unit → Prog σ κ ε (Ending ε β)}
    (h : Guarded R body (f ()) held P (writes ++ [write])) :
    Guarded R body (Prog.execute fault write >>= f) held P writes :=
  ⟨fun _ _ _ _ _ _ _ _ _ => rfl, fun _ _ _ _ => h.mono (fun _ hx => hx.1) fun _ => rfl⟩

theorem guarded_returning {fault : ε} {read : σ → γ} {write : γ → σ → Option σ}
    (hread : ∀ s s' view view', R.rel held s s' → P s → P s' → replay writes s = some view →
      replay writes s' = some view' → read view' = read view)
    (h : ∀ s view, P s → replay writes s = some view → Guarded R body (f (read view)) held
      (fun x => P x ∧ ∀ v, replay writes x = some v → read v = read view)
      (writes ++ [write (read view)])) :
    Guarded R body (Prog.returning fault read write >>= f) held P writes :=
  ⟨hread, h⟩

end Rules

/-- Such a body might as well have run alone when it ended. -/
theorem Guarded.upholds {K : σ → Prop} (h : Guarded R body p held P writes) (hK : ∀ s, K s → P s)
    (hstable : ∀ s s', R.rel held s s' → K s → K s')
    (hexec : ∀ s view, K s → replay writes s = some view → body.exec s = p.exec view) :
    Upholds (α := α) R init
      (fun r history after => body.runTx (store init history) = (r, after)) p held
      (fun history => K (store init history)) writes := by
  induction p generalizing held P K writes with
  | ret ending =>
      cases ending with
      | commit r =>
          intro history view hknown hview
          have hran := hexec _ view hknown hview
          refine ⟨?_, h _ view (hK _ hknown) hview hran⟩
          simp only [Prog.runTx, hran, Prog.exec]
      | rollback a =>
          intro history view hknown hview
          simp only [Prog.runTx, hexec _ view hknown hview, Prog.exec]
  | fail e =>
      intro history view hknown hview
      simp only [Prog.runTx, hexec _ view hknown hview, Prog.exec]
  | lock key next ih =>
      refine ih h hK (fun s s' hrely => hstable s s' ?_) hexec
      exact R.antitone (List.subset_cons_self _ _) hrely
  | stmt read write fault next ih =>
      intro history view hknown hview
      obtain ⟨hread, hnext⟩ := h
      cases hwrite : write (read view) view with
      | none => simp only [Prog.runTx, hexec _ view hknown hview, Prog.exec, hwrite]
      | some after =>
          -- from now on every store is one that the locks lead to from this one
          have hsame : ∀ s v, K s ∧ R.rel held (store init history) s →
              replay writes s = some v → read v = read view :=
            fun s v hs hv => hread _ s view v hs.2 (hK _ hknown) (hK s hs.1) hview hv
          have hkeeps : ∀ s s', R.rel held s s' → K s ∧ R.rel held (store init history) s →
              K s' ∧ R.rel held (store init history) s' :=
            fun s s' hrely hs => ⟨hstable s s' hrely hs.1, R.trans hs.2 hrely⟩
          refine ⟨fun h => K (store init h) ∧ R.rel held (store init history) (store init h),
            fun h f hrely hh => ?_, ⟨hknown, R.refl _ _⟩,
            ih (read view) (hnext _ view (hK _ hknown) hview)
              (fun s hs => ⟨hK s hs.1, fun v hv => hsame s v hs hv⟩) hkeeps ?_⟩
          · dsimp only
            rw [store_append]
            exact hkeeps _ _ hrely hh
          · intro s v' hs hv'
            rw [replay_append] at hv'
            obtain ⟨v, hv, hwrite'⟩ := Option.bind_eq_some_iff.mp hv'
            rw [hexec s v hs.1 hv, Prog.exec, hsame s v hs hv, hwrite']

/-- In particular from its beginning, where the invariant of the stores is
known. -/
theorem Guarded.upholds_alone (h : Guarded R body body [] R.inv []) (began : Nat) :
    Upholds (α := α) R init
      (fun r history after => body.runTx (store init history) = (r, after)) body []
      (Beginning R init began) [] := by
  refine (h.upholds (fun _ hs => hs) (fun _ _ hrely => R.keeps hrely) ?_).mono (fun _ hs => hs.2)
    (fun _ _ _ hQ => hQ) fun _ => rfl
  intro s view _ hview
  cases hview
  rfl

end Guarded

end RoomGateway.Locking
