import Mathlib.Logic.Unique

/-!
Database transactions as programs. A body is a sequence of statements; a
statement reads the transaction's view of the store and then writes to it, and
a write that breaks a constraint has no result and ends the body with a fault.
The statements are kept apart, rather than composed into one function, because
two questions are asked of a body: what it does when nothing else runs
(`Prog.exec`, `runTx`, in this file) and what it does when the statements of
other transactions run in between (`Interleave`).

A body that fails is rolled back. A body that ends says itself whether it
commits (`Ending`), since code may return without committing, and may commit
and then return an error.
-/

namespace RoomGateway

/-- A transaction body over a store `σ`, with lock keys `κ`, errors `ε` and
result `α`. -/
inductive Prog (σ κ ε α : Type) : Type 1 where
  | ret (a : α)
  | fail (e : ε)
  | lock (key : κ) (next : Prog σ κ ε α)
  | stmt {β : Type} (read : σ → β) (write : β → σ → Option σ) (fault : ε)
      (next : β → Prog σ κ ε α)

/-- How a body that did not fail ends: with its writes dropped, or with its
writes committed and a result or an error for the caller. -/
inductive Ending (ε α : Type) where
  | rollback (a : α)
  | commit (r : Except ε α)

namespace Prog

variable {σ κ ε ε' α β : Type}

def bind : Prog σ κ ε α → (α → Prog σ κ ε β) → Prog σ κ ε β
  | .ret a, f => f a
  | .fail e, _ => .fail e
  | .lock key next, f => .lock key (next.bind f)
  | .stmt read write fault next, f => .stmt read write fault (fun b => (next b).bind f)

instance : Monad (Prog σ κ ε) where
  pure := .ret
  bind := .bind

theorem bind_assoc {γ : Type} (p : Prog σ κ ε α) (f : α → Prog σ κ ε β)
    (g : β → Prog σ κ ε γ) : p >>= f >>= g = p >>= fun a => f a >>= g := by
  induction p with
  | ret a => rfl
  | fail e => rfl
  | lock key next ih => exact congrArg (Prog.lock key) ih
  | stmt read write fault next ih => exact congrArg (Prog.stmt read write fault) (funext ih)

/-- The same body with its errors renamed. -/
def mapErr (f : ε → ε') : Prog σ κ ε α → Prog σ κ ε' α
  | .ret a => .ret a
  | .fail e => .fail (f e)
  | .lock key next => .lock key (next.mapErr f)
  | .stmt read write fault next => .stmt read write (f fault) (fun b => (next b).mapErr f)

/-- A condition the body insists on. -/
def ensure (b : Bool) (e : ε) : Prog σ κ ε Unit := if b then .ret () else .fail e

def orFail (o : Option α) (e : ε) : Prog σ κ ε α :=
  match o with
  | some a => .ret a
  | none => .fail e

def ofExcept : Except ε α → Prog σ κ ε α
  | .ok a => .ret a
  | .error e => .fail e

/-- A statement that only reads. -/
def query (fault : ε) (read : σ → β) : Prog σ κ ε β :=
  .stmt read (fun _ s => some s) fault .ret

/-- A statement that only writes. -/
def execute (fault : ε) (write : σ → Option σ) : Prog σ κ ε Unit :=
  .stmt (fun _ => ()) (fun _ => write) fault .ret

/-- A statement that writes what it computed from the view, and returns it. -/
def returning (fault : ε) (read : σ → β) (write : β → σ → Option σ) : Prog σ κ ε β :=
  .stmt read write fault .ret

def acquire (key : κ) : Prog σ κ ε Unit := .lock key (.ret ())

/-- One body for each item of a list, in order. -/
def forEach (items : List β) (body : β → Prog σ κ ε Unit) : Prog σ κ ε Unit :=
  match items with
  | [] => .ret ()
  | b :: rest => (body b).bind fun _ => forEach rest body

/-! ### Running a body alone -/

/-- The result of a body and the view it ends with, or its error. -/
def exec : Prog σ κ ε α → σ → Except ε (α × σ)
  | .ret a, s => .ok (a, s)
  | .fail e, _ => .error e
  | .lock _ next, s => next.exec s
  | .stmt read write fault next, s =>
      match write (read s) s with
      | some s' => (next (read s)).exec s'
      | none => .error fault

/-- Run a body and end the transaction: the caller's result and the store. -/
def runTx (p : Prog σ κ ε (Ending ε α)) (s : σ) : Except ε α × σ :=
  match p.exec s with
  | .ok (.commit r, s') => (r, s')
  | .ok (.rollback a, _) => (.ok a, s)
  | .error e => (.error e, s)

/-! ### What a completed body did

Each rule inverts one construct on a body that completed; read from left to
right they take a run apart statement by statement, and every exit by an error
disappears on the way. -/

section Inversion

variable {s t : σ} {a : α} {b : β}

theorem exec_bind (p : Prog σ κ ε α) (f : α → Prog σ κ ε β) (s : σ) :
    (p >>= f).exec s =
      match p.exec s with
      | .ok (a, s') => (f a).exec s'
      | .error e => .error e := by
  change (p.bind f).exec s = _
  induction p generalizing s with
  | ret a => rfl
  | fail e => rfl
  | lock key next ih => exact ih s
  | stmt read write fault next ih =>
      simp only [bind, exec]
      cases write (read s) s with
      | none => rfl
      | some s' => exact ih (read s) s'

theorem exec_bind_ok {p : Prog σ κ ε α} {f : α → Prog σ κ ε β} :
    (p >>= f).exec s = .ok (b, t) ↔
      ∃ a u, p.exec s = .ok (a, u) ∧ (f a).exec u = .ok (b, t) := by
  rw [exec_bind]
  cases p.exec s with
  | error e => simp
  | ok r =>
      obtain ⟨a, u⟩ := r
      constructor
      · intro h
        exact ⟨a, u, rfl, h⟩
      · rintro ⟨a', u', heq, h⟩
        cases heq
        exact h

/-- A body whose first part completes goes on with the rest. -/
theorem exec_bind_of_ok {p : Prog σ κ ε α} {f : α → Prog σ κ ε β} (h : p.exec s = .ok (a, t)) :
    (p >>= f).exec s = (f a).exec t := by
  rw [exec_bind, h]

/-- A body whose first part fails, fails. -/
theorem exec_bind_of_error {p : Prog σ κ ε α} {f : α → Prog σ κ ε β} {e : ε}
    (h : p.exec s = .error e) : (p >>= f).exec s = .error e := by
  rw [exec_bind, h]

theorem exec_pure_ok {a' : α} :
    (pure a : Prog σ κ ε α).exec s = .ok (a', t) ↔ a = a' ∧ s = t := by
  change Except.ok (a, s) = Except.ok (a', t) ↔ _
  constructor
  · intro h
    cases h
    exact ⟨rfl, rfl⟩
  · rintro ⟨rfl, rfl⟩
    rfl

theorem exec_fail_ok {e : ε} : (.fail e : Prog σ κ ε α).exec s = .ok (a, t) ↔ False := by
  simp [exec]

theorem exec_ensure_ok {c : Bool} {e : ε} {u : Unit} :
    (ensure c e : Prog σ κ ε Unit).exec s = .ok (u, t) ↔ c = true ∧ s = t := by
  cases c <;> simp [ensure, exec]

theorem exec_ensure_error {c : Bool} {e : ε} (h : ¬ c = true) :
    (.ensure c e : Prog σ κ ε Unit).exec s = .error e := by
  rw [ensure, if_neg h]
  rfl

theorem exec_orFail_ok {o : Option α} {e : ε} :
    (orFail o e : Prog σ κ ε α).exec s = .ok (a, t) ↔ o = some a ∧ s = t := by
  cases o <;> simp [orFail, exec]

theorem exec_ofExcept_ok {r : Except ε α} :
    (ofExcept r : Prog σ κ ε α).exec s = .ok (a, t) ↔ r = .ok a ∧ s = t := by
  cases r <;> simp [ofExcept, exec]

theorem exec_query_ok {fault : ε} {read : σ → β} :
    (query fault read : Prog σ κ ε β).exec s = .ok (b, t) ↔ read s = b ∧ s = t := by
  simp [query, exec]

theorem exec_execute_ok {fault : ε} {write : σ → Option σ} {u : Unit} :
    (execute fault write : Prog σ κ ε Unit).exec s = .ok (u, t) ↔ write s = some t := by
  cases h : write s <;> simp [execute, exec, h]

theorem exec_returning_ok {fault : ε} {read : σ → β} {write : β → σ → Option σ} :
    (returning fault read write : Prog σ κ ε β).exec s = .ok (b, t) ↔
      read s = b ∧ write (read s) s = some t := by
  cases h : write (read s) s <;> simp [returning, exec, h]

theorem exec_acquire_ok {key : κ} {u : Unit} :
    (acquire key : Prog σ κ ε Unit).exec s = .ok (u, t) ↔ s = t := by
  simp [acquire, exec]

theorem exec_mapErr (f : ε → ε') (p : Prog σ κ ε α) (s : σ) :
    (p.mapErr f).exec s = (p.exec s).mapError f := by
  induction p generalizing s with
  | ret a => rfl
  | fail e => rfl
  | lock key next ih => exact ih s
  | stmt read write fault next ih =>
      simp only [mapErr, exec]
      cases write (read s) s with
      | none => rfl
      | some s' => exact ih (read s) s'

theorem exec_mapErr_ok {f : ε → ε'} {p : Prog σ κ ε α} :
    (p.mapErr f).exec s = .ok (a, t) ↔ p.exec s = .ok (a, t) := by
  rw [exec_mapErr]
  cases p.exec s with
  | error e => exact ⟨nofun, nofun⟩
  | ok r =>
      change (Except.ok r : Except ε' (α × σ)) = .ok (a, t) ↔ _
      rw [Except.ok.injEq, Except.ok.injEq]

theorem exec_ite {c : Prop} [Decidable c] {p q : Prog σ κ ε α} :
    (if c then p else q).exec s = if c then p.exec s else q.exec s := by
  split <;> rfl

/-- What the body of a loop preserves, the loop preserves. -/
theorem exec_forEach_ok {P : σ → Prop} {items : List β} {body : β → Prog σ κ ε Unit} {u : Unit}
    (hbody : ∀ b ∈ items, ∀ s t, P s → (body b).exec s = .ok ((), t) → P t) (hs : P s)
    (h : (forEach items body).exec s = .ok (u, t)) : P t := by
  induction items generalizing s with
  | nil =>
      rw [forEach] at h
      cases h
      exact hs
  | cons b items ih =>
      obtain ⟨_, v, hb, hrest⟩ := exec_bind_ok.mp h
      exact ih (fun c hc => hbody c (List.mem_cons_of_mem b hc))
        (hbody b List.mem_cons_self s v hs hb) hrest

/-- A loop whose body only reads passes if the body passes for every item. -/
theorem exec_forEach_reads {items : List β} {body : β → Prog σ κ ε Unit}
    (hbody : ∀ b ∈ items, ∀ t u, (body b).exec s = .ok (u, t) → s = t) :
    (forEach items body).exec s = .ok ((), t) ↔
      s = t ∧ ∀ b ∈ items, (body b).exec s = .ok ((), s) := by
  induction items with
  | nil =>
      change (pure () : Prog σ κ ε Unit).exec s = _ ↔ _
      simp [exec_pure_ok]
  | cons b items ih =>
      have hrest := ih fun c hc => hbody c (List.mem_cons_of_mem b hc)
      change (body b >>= fun _ => forEach items body).exec s = _ ↔ _
      rw [exec_bind_ok]
      constructor
      · rintro ⟨_, v, hb, hitems⟩
        obtain rfl := hbody b List.mem_cons_self v _ hb
        obtain ⟨rfl, hall⟩ := hrest.mp hitems
        exact ⟨rfl, fun c hc => (List.mem_cons.mp hc).elim (fun h => h ▸ hb) (hall c)⟩
      · rintro ⟨rfl, hall⟩
        exact ⟨(), s, hall b List.mem_cons_self,
          hrest.mpr ⟨rfl, fun c hc => hall c (List.mem_cons_of_mem b hc)⟩⟩

end Inversion

/-! ### What every statement of a body respects

A preorder between stores that each statement respects is respected by the
whole body. -/

/-- A completed run of the body relates the view it began with to the one it
ends with. -/
def Keeps (R : σ → σ → Prop) (p : Prog σ κ ε α) : Prop :=
  ∀ s a t, p.exec s = .ok (a, t) → R s t

section Keeps

variable {R : σ → σ → Prop}

theorem Keeps.bind (trans : ∀ a b c, R a b → R b c → R a c) {p : Prog σ κ ε α}
    {f : α → Prog σ κ ε β} (hp : p.Keeps R) (hf : ∀ a, (f a).Keeps R) : (p >>= f).Keeps R := by
  intro s b t h
  obtain ⟨a, u, ha, hb⟩ := exec_bind_ok.mp h
  exact trans _ _ _ (hp s a u ha) (hf a u b t hb)

theorem Keeps.mapErr {f : ε → ε'} {p : Prog σ κ ε α} (hp : p.Keeps R) :
    (p.mapErr f).Keeps R :=
  fun s a t h => hp s a t (exec_mapErr_ok.mp h)

theorem Keeps.execute {fault : ε} {write : σ → Option σ}
    (h : ∀ s t, write s = some t → R s t) : (execute fault write : Prog σ κ ε Unit).Keeps R :=
  fun s _ t hs => h s t (exec_execute_ok.mp hs)

theorem Keeps.returning {fault : ε} {read : σ → β} {write : β → σ → Option σ}
    (h : ∀ b s t, write b s = some t → R s t) :
    (returning fault read write : Prog σ κ ε β).Keeps R :=
  fun s _ t hs => h _ s t (exec_returning_ok.mp hs).2

/-- A body that only reads. -/
theorem Keeps.of_eq (refl : ∀ s, R s s) {p : Prog σ κ ε α}
    (h : ∀ s a t, p.exec s = .ok (a, t) → s = t) : p.Keeps R :=
  fun s a t hs => h s a t hs ▸ refl s

theorem Keeps.pure (refl : ∀ s, R s s) (a : α) : (Pure.pure a : Prog σ κ ε α).Keeps R :=
  .of_eq refl fun _ _ _ h => (exec_pure_ok.mp h).2

theorem Keeps.fail (e : ε) : (.fail e : Prog σ κ ε α).Keeps R :=
  fun _ _ _ h => (exec_fail_ok.mp h).elim

theorem Keeps.ensure (refl : ∀ s, R s s) (c : Bool) (e : ε) :
    (ensure c e : Prog σ κ ε Unit).Keeps R :=
  .of_eq refl fun _ _ _ h => (exec_ensure_ok.mp h).2

theorem Keeps.orFail (refl : ∀ s, R s s) (o : Option α) (e : ε) :
    (orFail o e : Prog σ κ ε α).Keeps R :=
  .of_eq refl fun _ _ _ h => (exec_orFail_ok.mp h).2

theorem Keeps.orFail_bind {o : Option α} {e : ε} {f : α → Prog σ κ ε β}
    (h : ∀ a, o = some a → (f a).Keeps R) : (Prog.orFail o e >>= f).Keeps R := by
  intro s b t hexec
  obtain ⟨a, _, ha, hrest⟩ := exec_bind_ok.mp hexec
  obtain ⟨hsome, rfl⟩ := exec_orFail_ok.mp ha
  exact h a hsome s b t hrest

theorem Keeps.ofExcept (refl : ∀ s, R s s) (r : Except ε α) :
    (ofExcept r : Prog σ κ ε α).Keeps R :=
  .of_eq refl fun _ _ _ h => (exec_ofExcept_ok.mp h).2

theorem Keeps.query (refl : ∀ s, R s s) (fault : ε) (read : σ → β) :
    (query fault read : Prog σ κ ε β).Keeps R :=
  .of_eq refl fun _ _ _ h => (exec_query_ok.mp h).2

theorem Keeps.acquire (refl : ∀ s, R s s) (key : κ) :
    (acquire key : Prog σ κ ε Unit).Keeps R :=
  .of_eq refl fun _ _ _ h => exec_acquire_ok.mp h

/-- The transaction respects what its body respects. -/
theorem Keeps.runTx (refl : ∀ s, R s s) {p : Prog σ κ ε (Ending ε α)} (hp : p.Keeps R) (s : σ) :
    R s (p.runTx s).2 := by
  unfold Prog.runTx
  cases h : p.exec s with
  | error e => exact refl s
  | ok r =>
      obtain ⟨ending, s'⟩ := r
      cases ending with
      | rollback a => exact refl s
      | commit r => exact hp s _ s' h

end Keeps

/-! ### Bodies that are sure to complete

`Total p s Q` is the weakest precondition of a body for total correctness: from
the view `s` it completes, and `Q` holds of its result and of the view then.
The rules read from left to right run the body forwards. -/

def Total (p : Prog σ κ ε α) (s : σ) (Q : α → σ → Prop) : Prop :=
  ∃ a t, p.exec s = .ok (a, t) ∧ Q a t

section Total

variable {s : σ} {Q : α → σ → Prop}

theorem total_bind {p : Prog σ κ ε β} {f : β → Prog σ κ ε α} :
    (p >>= f).Total s Q ↔ p.Total s fun b t => (f b).Total t Q := by
  constructor
  · rintro ⟨a, u, hexec, hQ⟩
    obtain ⟨b, t, hfirst, hrest⟩ := exec_bind_ok.mp hexec
    exact ⟨b, t, hfirst, a, u, hrest, hQ⟩
  · rintro ⟨b, t, hfirst, a, u, hrest, hQ⟩
    exact ⟨a, u, exec_bind_ok.mpr ⟨b, t, hfirst, hrest⟩, hQ⟩

theorem Total.mono {p : Prog σ κ ε α} {Q' : α → σ → Prop} (h : p.Total s Q)
    (himp : ∀ a t, Q a t → Q' a t) : p.Total s Q' := by
  obtain ⟨a, t, hexec, hQ⟩ := h
  exact ⟨a, t, hexec, himp a t hQ⟩

theorem total_pure {a : α} : (pure a : Prog σ κ ε α).Total s Q ↔ Q a s := by
  simp [Total, exec_pure_ok, and_assoc]

theorem total_ensure {c : Bool} {e : ε} {Q : Unit → σ → Prop} :
    (ensure c e : Prog σ κ ε Unit).Total s Q ↔ c = true ∧ Q () s := by
  simp [Total, exec_ensure_ok, and_assoc, Unique.exists_iff]

theorem total_orFail {o : Option α} {e : ε} :
    (orFail o e : Prog σ κ ε α).Total s Q ↔ ∃ a, o = some a ∧ Q a s := by
  simp [Total, exec_orFail_ok, and_assoc]

theorem total_ofExcept {r : Except ε α} :
    (ofExcept r : Prog σ κ ε α).Total s Q ↔ ∃ a, r = .ok a ∧ Q a s := by
  simp [Total, exec_ofExcept_ok, and_assoc]

theorem total_query {fault : ε} {read : σ → α} :
    (query fault read : Prog σ κ ε α).Total s Q ↔ Q (read s) s := by
  simp [Total, exec_query_ok, and_assoc]

theorem total_execute {fault : ε} {write : σ → Option σ} {Q : Unit → σ → Prop} :
    (execute fault write : Prog σ κ ε Unit).Total s Q ↔ ∃ t, write s = some t ∧ Q () t := by
  simp [Total, exec_execute_ok, Unique.exists_iff]

theorem total_returning {fault : ε} {read : σ → α} {write : α → σ → Option σ} :
    (returning fault read write : Prog σ κ ε α).Total s Q ↔
      ∃ t, write (read s) s = some t ∧ Q (read s) t := by
  simp [Total, exec_returning_ok, and_assoc]

theorem total_acquire {key : κ} {Q : Unit → σ → Prop} :
    (acquire key : Prog σ κ ε Unit).Total s Q ↔ Q () s := by
  simp [Total, exec_acquire_ok, Unique.exists_iff]

theorem total_mapErr {f : ε → ε'} {p : Prog σ κ ε α} : (p.mapErr f).Total s Q ↔ p.Total s Q := by
  simp only [Total, exec_mapErr_ok]

end Total

/-- A transaction either leaves the store as it was or ends in a commit. -/
theorem runTx_store (p : Prog σ κ ε (Ending ε α)) (s : σ) :
    (p.runTx s).2 = s ∨ ∃ r, p.exec s = .ok (.commit r, (p.runTx s).2) := by
  unfold runTx
  cases h : p.exec s with
  | error e => exact .inl rfl
  | ok r =>
      obtain ⟨ending, s'⟩ := r
      cases ending with
      | rollback a => exact .inl rfl
      | commit r => exact .inr ⟨r, rfl⟩

/-- What holds of every commit, and of doing nothing, holds of the transaction. -/
theorem runTx_of_commit {R : σ → σ → Prop} {p : Prog σ κ ε (Ending ε α)} {s : σ} (refl : R s s)
    (commit : ∀ r t, p.exec s = .ok (.commit r, t) → R s t) : R s (p.runTx s).2 := by
  obtain hsame | ⟨r, hcommit⟩ := runTx_store p s
  · rw [hsame]
    exact refl
  · exact commit r _ hcommit

theorem runTx_eq_of_commit {p : Prog σ κ ε (Ending ε α)} {s t : σ} {r : Except ε α}
    (h : p.exec s = .ok (.commit r, t)) : p.runTx s = (r, t) := by
  rw [runTx, h]

theorem runTx_eq_of_rollback {p : Prog σ κ ε (Ending ε α)} {s t : σ} {a : α}
    (h : p.exec s = .ok (.rollback a, t)) : p.runTx s = (.ok a, s) := by
  rw [runTx, h]

/-- A transaction with an error as its result changed nothing or committed with
it. -/
theorem runTx_error {p : Prog σ κ ε (Ending ε α)} {s : σ} {e : ε} (h : (p.runTx s).1 = .error e) :
    (p.runTx s).2 = s ∨ p.exec s = .ok (.commit (.error e), (p.runTx s).2) := by
  unfold runTx at h ⊢
  cases hexec : p.exec s with
  | error e' => exact .inl rfl
  | ok r =>
      obtain ⟨ending, s'⟩ := r
      rw [hexec] at h
      cases ending with
      | rollback a => exact .inl rfl
      | commit r =>
          obtain rfl : r = .error e := h
          exact .inr rfl

/-- A transaction that returns a result either rolled back or committed it. -/
theorem runTx_ok {p : Prog σ κ ε (Ending ε α)} {s : σ} {a : α} (h : (p.runTx s).1 = .ok a) :
    (∃ s', p.exec s = .ok (.rollback a, s') ∧ (p.runTx s).2 = s) ∨
      p.exec s = .ok (.commit (.ok a), (p.runTx s).2) := by
  unfold runTx at h ⊢
  cases hexec : p.exec s with
  | error e =>
      rw [hexec] at h
      cases h
  | ok r =>
      obtain ⟨ending, s'⟩ := r
      rw [hexec] at h
      cases ending with
      | rollback b =>
          cases h
          exact .inl ⟨s', rfl, rfl⟩
      | commit r =>
          obtain rfl : r = .ok a := h
          exact .inr rfl

end Prog

end RoomGateway
