import RoomGateway.Lib.Holders
import RoomGateway.Lib.Machine
import RoomGateway.Lib.SeqLog
import RoomGateway.Lib.Txn

/-!
Transactions side by side at READ COMMITTED, as far as one table goes. Every
statement sees the rows that are committed when it runs, with what its own
transaction has removed and added; of the rest of the store it may see
anything, so that nothing rests on how the other tables are kept apart. A lock
is taken when nobody else holds it and kept until the transaction ends.

The table is a log that numbers its entries for each key. `Appends` is the
discipline that makes this safe, as a precondition calculus for transaction
bodies: an entry is appended under the lock of its key and takes the next
number the statement sees, and a transaction locks one key only. If every body
obeys it, then the committed log is numbered 1, 2, 3 for each key and grows by
whole transactions (`InOrder`, `Committed`).
-/

namespace RoomGateway

variable {σ κ ρ τ δ ε α β : Type}

/-! ### The machine -/

/-- The rows that a transaction has removed and added. -/
structure Delta (ρ : Type) where
  removed : List ρ := []
  added : List ρ := []

section Delta

variable [DecidableEq ρ]

/-- The table as the transaction sees it. -/
def Delta.view (d : Delta ρ) (rows : List ρ) : List ρ :=
  rows.filter (· ∉ d.removed) ++ d.added

/-- One more statement, which found the table as `before` and left `after`. -/
def Delta.andThen (d : Delta ρ) (before after : List ρ) : Delta ρ where
  removed := d.removed ++ before.filter (· ∉ after)
  added := d.added.filter (· ∈ after) ++ after.filter (· ∉ before)

end Delta

/-- A transaction on its way; `rest` tells whether it will commit. -/
structure Running (σ κ ρ τ : Type) extends Holder κ τ where
  rest : Prog σ κ Unit Bool
  delta : Delta ρ := {}

/-- A transaction that is over holds nothing and does nothing. -/
def Running.ended (t : Running σ κ ρ τ) : Running σ κ ρ τ where
  call := t.call
  rest := .ret false

structure Concurrent (σ κ ρ τ : Type) where
  committed : List ρ := []
  running : List (Running σ κ ρ τ) := []

/-- What ends a body: the transaction's body as far as other transactions can
tell, that is whether it commits. -/
def Prog.committing (p : Prog σ κ ε (Ending ε α)) : Prog σ κ Unit Bool :=
  p.mapErr (fun _ => ()) >>= fun ending =>
    match ending with
    | .commit _ => pure true
    | .rollback _ => pure false

section Act

variable [DecidableEq κ] [DecidableEq ρ]

def Concurrent.put (c : Concurrent σ κ ρ τ) (i : Nat) (t : Running σ κ ρ τ) :
    Concurrent σ κ ρ τ :=
  { c with running := c.running.set i t }

/-- Nobody but the transaction at `i` holds the lock. -/
def Concurrent.free (c : Concurrent σ κ ρ τ) (i : Nat) (key : κ) : Bool :=
  Holder.free (fun t : Running σ κ ρ τ => t.held) c.running i key

/-- The next thing that the transaction at `i` does, and what it commits. -/
def Concurrent.step (table : σ → List ρ) (c : Concurrent σ κ ρ τ) (i : Nat)
    (t : Running σ κ ρ τ) (view : σ) : Concurrent σ κ ρ τ × Option (τ × List ρ) :=
  match t.rest with
  | .ret true =>
      ({ c.put i t.ended with committed := t.delta.view c.committed },
        some (t.call, t.delta.added))
  | .ret false => (c.put i t.ended, none)
  | .fail _ => (c.put i t.ended, none)
  | .lock key next =>
      if c.free i key then (c.put i { t with rest := next, held := key :: t.held }, none)
      else (c, none)
  | .stmt read write _ next =>
      if table view = t.delta.view c.committed then
        match write (read view) view with
        | none => (c.put i t.ended, none)
        | some view' =>
            (c.put i { t with
              rest := next (read view)
              delta := t.delta.andThen (table view) (table view') }, none)
      else (c, none)

/-- Calls of `body` side by side. The circumstances of a step are the store that
its statement finds; a step that commits puts out the call and the entries it has
added. -/
def interleave (body : τ → Prog σ κ Unit Bool) (table : σ → List ρ) :
    Machine (Concurrent σ κ ρ τ) (Act σ τ) (Option (τ × List ρ)) where
  init := {}
  step c act :=
    match act with
    | .start call =>
        ({ c with running := c.running ++ [{ call := call, rest := body call }] }, none)
    | .step i view =>
        match c.running[i]? with
        | none => (c, none)
        | some t => c.step table i t view
    | .abort i =>
        match c.running[i]? with
        | none => (c, none)
        | some t => (c.put i t.ended, none)

end Act

/-! ### The discipline -/

/-- How a store keeps a numbered log: its rows, the key and the number of a
row, and the lock of a key. -/
structure Numbering (σ κ ρ δ : Type) where
  table : σ → List ρ
  key : ρ → δ
  num : ρ → Int
  lockOf : δ → κ

namespace Numbering

variable (N : Numbering σ κ ρ δ)

/-- The locks are of one key at most. -/
def OneKey (held : List κ) : Prop :=
  ∀ k k', N.lockOf k ∈ held → N.lockOf k' ∈ held → k = k'

variable [DecidableEq δ]

/-- What a statement may do to the log: nothing, or append one new entry under
the lock of its key and the next number. -/
inductive Wrote (held : List κ) (before after : List ρ) : List ρ → Prop where
  | nothing (h : after = before) : Wrote held before after []
  | entry {e : ρ} (h : after = before ++ [e]) (fresh : e ∉ before)
      (locked : N.lockOf (N.key e) ∈ held)
      (num : N.num e = SeqLog.next N.key N.num before (N.key e)) : Wrote held before after [e]

/-- Whatever the statements find, the body keeps to the discipline, and ends
only as `post` says: `held` are the locks and `own` the entries so far. -/
def Appends {ε α : Type} : Prog σ κ ε α → List κ → List ρ → (α → List κ → List ρ → Prop) → Prop
  | .ret a, held, own, post => post a held own
  | .fail _, _, _, _ => True
  | .lock key next, held, own, post =>
      N.OneKey (key :: held) ∧ Appends next (key :: held) own post
  | .stmt read write _ next, held, own, post =>
      ∀ s s', write (read s) s = some s' → ∃ new, N.Wrote held (N.table s) (N.table s') new ∧
        Appends (next (read s)) held (own ++ new) post

section Rules

variable {N} {held : List κ} {own : List ρ} {post : α → List κ → List ρ → Prop}

theorem Appends.mono {p : Prog σ κ ε α} {post' : α → List κ → List ρ → Prop}
    (h : N.Appends p held own post) (himp : ∀ a held own, post a held own → post' a held own) :
    N.Appends p held own post' := by
  induction p generalizing held own with
  | ret a => exact himp a held own h
  | fail e => trivial
  | lock key next ih => exact ⟨h.1, ih h.2⟩
  | stmt read write fault next ih =>
      intro s s' hwrite
      obtain ⟨new, hwrote, hnext⟩ := h s s' hwrite
      exact ⟨new, hwrote, ih (read s) hnext⟩

theorem Appends.bind {p : Prog σ κ ε α} {f : α → Prog σ κ ε β}
    {post : β → List κ → List ρ → Prop}
    (h : N.Appends p held own fun a held own => N.Appends (f a) held own post) :
    N.Appends (p >>= f) held own post := by
  change N.Appends (p.bind f) held own post
  induction p generalizing held own with
  | ret a => exact h
  | fail e => trivial
  | lock key next ih => exact ⟨h.1, ih h.2⟩
  | stmt read write fault next ih =>
      intro s s' hwrite
      obtain ⟨new, hwrote, hnext⟩ := h s s' hwrite
      exact ⟨new, hwrote, ih (read s) hnext⟩

theorem Appends.mapErr {ε' : Type} {g : ε → ε'} {p : Prog σ κ ε α}
    (h : N.Appends p held own post) : N.Appends (p.mapErr g) held own post := by
  induction p generalizing held own with
  | ret a => exact h
  | fail e => trivial
  | lock key next ih => exact ⟨h.1, ih h.2⟩
  | stmt read write fault next ih =>
      intro s s' hwrite
      obtain ⟨new, hwrote, hnext⟩ := h s s' hwrite
      exact ⟨new, hwrote, ih (read s) hnext⟩

theorem Appends.pure {a : α} (h : post a held own) :
    N.Appends (Pure.pure a : Prog σ κ ε α) held own post := h

theorem Appends.ensure {c : Bool} {e : ε} {post : Unit → List κ → List ρ → Prop}
    (h : c = true → post () held own) :
    N.Appends (.ensure c e : Prog σ κ ε Unit) held own post := by
  cases c with
  | false => trivial
  | true => exact h rfl

theorem Appends.orFail {o : Option α} {e : ε} (h : ∀ a, o = some a → post a held own) :
    N.Appends (.orFail o e : Prog σ κ ε α) held own post := by
  cases o with
  | none => trivial
  | some a => exact h a rfl

theorem Appends.ofExcept {r : Except ε α} (h : ∀ a, r = .ok a → post a held own) :
    N.Appends (.ofExcept r : Prog σ κ ε α) held own post := by
  cases r with
  | error e => trivial
  | ok a => exact h a rfl

theorem Appends.acquire {key : κ} {post : Unit → List κ → List ρ → Prop}
    (hone : N.OneKey (key :: held)) (h : post () (key :: held) own) :
    N.Appends (.acquire key : Prog σ κ ε Unit) held own post := ⟨hone, h⟩

/-- A statement that leaves the log alone. -/
theorem Appends.silent {fault : ε} {read : σ → β} {write : β → σ → Option σ}
    {post : β → List κ → List ρ → Prop}
    (hsame : ∀ b s s', write b s = some s' → N.table s' = N.table s)
    (h : ∀ b, post b held own) :
    N.Appends (.returning fault read write : Prog σ κ ε β) held own post := by
  intro s s' hwrite
  refine ⟨[], .nothing (hsame _ s s' hwrite), ?_⟩
  rw [List.append_nil]
  exact h (read s)

theorem Appends.query {fault : ε} {read : σ → β} {post : β → List κ → List ρ → Prop}
    (h : ∀ s, post (read s) held own) :
    N.Appends (.query fault read : Prog σ κ ε β) held own post := by
  intro s s' hwrite
  cases hwrite
  refine ⟨[], .nothing rfl, ?_⟩
  rw [List.append_nil]
  exact h s

theorem Appends.execute {fault : ε} {write : σ → Option σ}
    {post : Unit → List κ → List ρ → Prop}
    (hsame : ∀ s s', write s = some s' → N.table s' = N.table s) (h : post () held own) :
    N.Appends (.execute fault write : Prog σ κ ε Unit) held own post :=
  Appends.silent (fun _ => hsame) fun _ => h

end Rules

/-! ### Soundness -/

section Soundness

variable (Q : τ → List ρ → Prop)

/-- What is known of a transaction on its way: it has only appended, under the
one key it has locked, and its entries follow the committed ones. -/
structure Keeping (committed : List ρ) (t : Running σ κ ρ τ) : Prop where
  rest : N.Appends t.rest t.held t.delta.added fun commits _ own => commits = true → Q t.call own
  oneKey : N.OneKey t.held
  removed : t.delta.removed = []
  locked : ∀ e ∈ t.delta.added, N.lockOf (N.key e) ∈ t.held
  extended : SeqLog.Extends N.key N.num committed (committed ++ t.delta.added)

/-- The invariant of the machine. -/
structure InOrder (c : Concurrent σ κ ρ τ) : Prop where
  numbered : SeqLog.Numbered N.key N.num c.committed
  exclusive : Holder.Exclusive (fun t : Running σ κ ρ τ => t.held) c.running
  each : ∀ t ∈ c.running, N.Keeping Q c.committed t

/-- A block of entries: of one key, under consecutive numbers. -/
structure Block (entries : List ρ) : Prop where
  oneKey : ∀ x ∈ entries, ∀ y ∈ entries, N.key x = N.key y
  consecutive : ∃ first : Int,
    entries.map N.num = (List.range entries.length).map (fun i : Nat => first + i)

/-- The log as a sequence of transactions, each with its block. -/
structure Serial (committed : List ρ) (blocks : List (τ × List ρ)) : Prop where
  numbered : SeqLog.Numbered N.key N.num committed
  blocks_eq : committed = blocks.flatMap (·.2)
  block : ∀ b ∈ blocks, N.Block b.2
  promise : ∀ b ∈ blocks, Q b.1 b.2

/-- What one step commits: a block of entries of one key, after the committed
ones. -/
inductive Commits (before after : List ρ) : Option (τ × List ρ) → Prop where
  | nothing (h : after = before) : Commits before after none
  | block {call : τ} {entries : List ρ} (h : after = before ++ entries)
      (extended : SeqLog.Extends N.key N.num before after)
      (oneKey : ∀ x ∈ entries, ∀ y ∈ entries, N.key x = N.key y)
      (promise : Q call entries) : Commits before after (some (call, entries))

variable {N Q} {c : Concurrent σ κ ρ τ} {t : Running σ κ ρ τ} {i : Nat}

theorem Keeping.ended (t : Running σ κ ρ τ) (committed : List ρ) :
    N.Keeping Q committed t.ended where
  rest := by
    intro h
    cases h
  oneKey := fun _ _ h => absurd h List.not_mem_nil
  removed := rfl
  locked := fun _ h => absurd h List.not_mem_nil
  extended := by
    rw [Running.ended, List.append_nil]
    exact .refl

/-- The entries of a transaction are of one key. -/
theorem Keeping.key_eq {committed : List ρ} (h : N.Keeping Q committed t) {x y : ρ}
    (hx : x ∈ t.delta.added) (hy : y ∈ t.delta.added) : N.key x = N.key y :=
  h.oneKey _ _ (h.locked x hx) (h.locked y hy)

theorem InOrder.init : N.InOrder Q ({} : Concurrent σ κ ρ τ) where
  numbered := .nil
  exclusive := .nil
  each := by simp

theorem InOrder.start (h : N.InOrder Q c) {call : τ} {body : Prog σ κ Unit Bool}
    (hbody : N.Appends body [] [] fun commits _ own => commits = true → Q call own) :
    N.InOrder Q { c with running := c.running ++ [{ call := call, rest := body }] } where
  numbered := h.numbered
  exclusive := h.exclusive.append rfl
  each := by
    intro t ht
    rcases List.mem_append.mp ht with ht | ht
    · exact h.each t ht
    · rw [List.mem_singleton.mp ht]
      refine ⟨hbody, ?_, rfl, ?_, ?_⟩
      · exact fun _ _ h => absurd h List.not_mem_nil
      · exact fun _ h => absurd h List.not_mem_nil
      · rw [List.append_nil]
        exact .refl

/-- One transaction goes on; the others do not hold its new locks. -/
theorem InOrder.put (h : N.InOrder Q c) {t' : Running σ κ ρ τ}
    (hkeeping : N.Keeping Q c.committed t')
    (hheld : Holder.Apart (fun t : Running σ κ ρ τ => t.held) c.running i t'.held) :
    N.InOrder Q (c.put i t') where
  numbered := h.numbered
  exclusive := h.exclusive.set hheld
  each := by
    intro u hu
    rcases List.mem_or_eq_of_mem_set hu with hu | rfl
    · exact h.each u hu
    · exact hkeeping

theorem InOrder.finish (h : N.InOrder Q c) (t : Running σ κ ρ τ) :
    N.InOrder Q (c.put i t.ended) :=
  h.put (.ended t _) fun _ _ _ _ _ hk => absurd hk List.not_mem_nil

/-- A commit: the entries of the others still follow, since they are of other
keys. -/
theorem InOrder.commit (h : N.InOrder Q c) (hi : c.running[i]? = some t) :
    N.InOrder Q { c.put i t.ended with committed := c.committed ++ t.delta.added } := by
  have hkeeping := h.each t (List.mem_of_getElem? hi)
  have hfinished := h.finish (i := i) t
  refine ⟨h.numbered.of_extends hkeeping.extended, hfinished.exclusive, fun u hu => ?_⟩
  obtain ⟨j, hj⟩ := List.getElem?_of_mem hu
  simp only [Concurrent.put, List.getElem?_set] at hj
  split_ifs at hj with hij hlen
  · cases hj
    exact .ended t _
  · have hu := h.each u (List.mem_of_getElem? hj)
    refine { hu with extended := hu.extended.after_other fun x hx y hy heq => ?_ }
    have hx := hkeeping.locked x hx
    have hy := hu.locked y hy
    rw [← heq] at hy
    exact h.exclusive i t hi j u (Ne.symm hij) hj _ hx hy

variable [DecidableEq ρ]

theorem Keeping.view {committed : List ρ} (h : N.Keeping Q committed t) :
    t.delta.view committed = committed ++ t.delta.added := by
  simp [Delta.view, h.removed]

/-- A statement that keeps to the discipline adds its entry and removes
nothing. -/
theorem Keeping.wrote {committed before after new : List ρ} {rest : Prog σ κ Unit Bool}
    (h : N.Keeping Q committed t) (hbefore : before = committed ++ t.delta.added)
    (hwrote : N.Wrote t.held before after new)
    (hrest : N.Appends rest t.held (t.delta.added ++ new) fun commits _ own =>
      commits = true → Q t.call own) :
    N.Keeping Q committed { t with rest := rest, delta := t.delta.andThen before after } := by
  have hkept : ∀ {e}, e ∈ t.delta.added → e ∈ before := by
    intro e he
    rw [hbefore]
    exact List.mem_append_right _ he
  have hdelta : t.delta.andThen before after = ⟨[], t.delta.added ++ new⟩ := by
    cases hwrote with
    | nothing heq =>
        subst heq
        simp only [Delta.andThen, h.removed, List.nil_append, List.append_nil]
        congr 1
        · simp
        · rw [List.filter_eq_self.mpr fun e he => by simp [hkept he]]
          simp
    | @entry e heq fresh =>
        subst heq
        have hold : before.filter (fun x => decide (x ∉ before)) = [] := by simp
        have hnew : [e].filter (fun x => decide (x ∉ before)) = [e] := by simp [fresh]
        simp only [Delta.andThen, h.removed, List.nil_append, List.filter_append, hold, hnew]
        congr 1
        · exact List.filter_eq_nil_iff.mpr fun x hx => by simp [hx]
        · rw [List.filter_eq_self.mpr fun e he => by simp [hkept he]]
  rw [hdelta]
  refine ⟨hrest, h.oneKey, rfl, fun e he => ?_, ?_⟩
  · rcases List.mem_append.mp he with he | he
    · exact h.locked e he
    · cases hwrote with
      | nothing _ => cases he
      | entry _ _ locked _ =>
          rw [List.mem_singleton.mp he]
          exact locked
  · cases hwrote with
    | nothing _ =>
        rw [List.append_nil]
        exact h.extended
    | entry _ _ _ num =>
        change SeqLog.Extends _ _ _ (committed ++ (t.delta.added ++ _))
        rw [← List.append_assoc]
        refine .append h.extended ?_
        rw [num, hbefore]

variable [DecidableEq κ]

/-- What one thing that a transaction does preserves, and commits. -/
theorem InOrder.step (h : N.InOrder Q c) (hi : c.running[i]? = some t) (view : σ) :
    N.InOrder Q (c.step N.table i t view).1 ∧
      N.Commits Q c.committed (c.step N.table i t view).1.committed
        (c.step N.table i t view).2 := by
  have hkeeping := h.each t (List.mem_of_getElem? hi)
  have hrest := hkeeping.rest
  have hothers := h.exclusive i t hi
  unfold Concurrent.step
  cases heq : t.rest with
  | ret commits =>
      rw [heq] at hrest
      cases commits with
      | false => exact ⟨h.finish t, .nothing rfl⟩
      | true =>
          simp only [hkeeping.view]
          exact ⟨h.commit hi, .block rfl hkeeping.extended (fun x hx y hy => hkeeping.key_eq hx hy)
            (hrest rfl)⟩
  | fail e => exact ⟨h.finish t, .nothing rfl⟩
  | lock key next =>
      rw [heq] at hrest
      simp only
      split_ifs with hfree
      · refine ⟨h.put ?_ (Holder.apart_cons hfree hothers), .nothing rfl⟩
        exact ⟨hrest.2, hrest.1, hkeeping.removed,
          fun e he => List.mem_cons_of_mem _ (hkeeping.locked e he), hkeeping.extended⟩
      · exact ⟨h, .nothing rfl⟩
  | stmt read write fault next =>
      rw [heq] at hrest
      simp only
      split_ifs with hview
      · cases hwrite : write (read view) view with
        | none => exact ⟨h.finish t, .nothing rfl⟩
        | some view' =>
            obtain ⟨new, hwrote, hnext⟩ := hrest view view' hwrite
            rw [hkeeping.view] at hview
            exact ⟨h.put (hkeeping.wrote hview hwrote hnext) hothers, .nothing rfl⟩
      · exact ⟨h, .nothing rfl⟩

variable {body : τ → Prog σ κ Unit Bool}

theorem interleave_step
    (hbody : ∀ call, N.Appends (body call) [] [] fun commits _ own => commits = true → Q call own)
    (h : N.InOrder Q c) (act : Act σ τ) :
    N.InOrder Q ((interleave body N.table).next c act) ∧
      N.Commits Q c.committed ((interleave body N.table).next c act).committed
        ((interleave body N.table).out c act) := by
  cases act with
  | start call => exact ⟨h.start (hbody call), .nothing rfl⟩
  | step i view =>
      simp only [Machine.next, Machine.out, interleave]
      cases hi : c.running[i]? with
      | none => exact ⟨h, .nothing rfl⟩
      | some t => exact h.step hi view
  | abort i =>
      simp only [Machine.next, Machine.out, interleave]
      cases c.running[i]? with
      | none => exact ⟨h, .nothing rfl⟩
      | some t => exact ⟨h.finish t, .nothing rfl⟩

omit [DecidableEq κ] [DecidableEq ρ] in
theorem Commits.serial {before after : List ρ} {blocks : List (τ × List ρ)}
    {out : Option (τ × List ρ)} (h : N.Commits Q before after out)
    (hserial : N.Serial Q before blocks) : N.Serial Q after (blocks ++ out.toList) := by
  cases h with
  | nothing heq =>
      rw [heq, Option.toList_none, List.append_nil]
      exact hserial
  | @block call entries heq extended oneKey promise =>
      have hblock : N.Block entries := by
        refine ⟨oneKey, ?_⟩
        cases entries with
        | nil => exact ⟨0, rfl⟩
        | cons e entries =>
            have hkey : ∀ x ∈ e :: entries, N.key x = N.key e :=
              fun x hx => oneKey x hx e List.mem_cons_self
            rw [heq] at extended
            exact ⟨_, (extended.consecutive hkey).1⟩
      refine ⟨hserial.numbered.of_extends extended, ?_, ?_, ?_⟩
      · rw [heq, List.flatMap_append, hserial.blocks_eq]
        simp
      · intro b hb
        rcases List.mem_append.mp hb with hb | hb
        · exact hserial.block b hb
        · rw [List.mem_singleton.mp hb]
          exact hblock
      · intro b hb
        rcases List.mem_append.mp hb with hb | hb
        · exact hserial.promise b hb
        · rw [List.mem_singleton.mp hb]
          exact promise

/-- However the transactions interleave, the committed log is that of the
transactions one after the other, in the order they committed. -/
theorem interleave_serial
    (hbody : ∀ call, N.Appends (body call) [] [] fun commits _ own => commits = true → Q call own)
    (acts : List (Act σ τ)) :
    N.Serial Q ((interleave body N.table).run acts).committed
      ((interleave body N.table).collect
        (fun c act => ((interleave body N.table).out c act).toList)
        (interleave body N.table).init acts) :=
  (Machine.collect_invariant (P := fun c blocks => N.InOrder Q c ∧ N.Serial Q c.committed blocks)
    ⟨.init, .nil, rfl, by simp, by simp⟩
    (fun _ _ act h =>
      ⟨(interleave_step hbody h.1 act).1, (interleave_step hbody h.1 act).2.serial h.2⟩)
    acts).2

omit [DecidableEq κ] [DecidableEq ρ] in
theorem Commits.isPrefix {before after : List ρ} {out : Option (τ × List ρ)}
    (h : N.Commits Q before after out) : before <+: after := by
  cases h with
  | nothing heq => exact heq ▸ List.prefix_rfl
  | block heq => exact ⟨_, heq.symm⟩

/-- What is committed stays as it is. -/
theorem interleave_permanent
    (hbody : ∀ call, N.Appends (body call) [] [] fun commits _ own => commits = true → Q call own)
    (acts more : List (Act σ τ)) :
    ((interleave body N.table).run acts).committed <+:
      ((interleave body N.table).run (acts ++ more)).committed := by
  have hinv : N.InOrder Q ((interleave body N.table).run acts) :=
    Machine.run_invariant (P := N.InOrder Q) .init
      (fun _ act h => (interleave_step hbody h act).1) acts
  rw [Machine.run_append]
  exact Machine.runFrom_trans
    (R := fun a b : Concurrent σ κ ρ τ => a.committed <+: b.committed) (P := N.InOrder Q)
    (fun _ => List.prefix_rfl) (fun _ _ _ => List.IsPrefix.trans)
    (fun _ act _ h => (interleave_step hbody h act).1)
    (fun _ act _ h => (interleave_step hbody h act).2.isPrefix) hinv
    (Machine.guarded_true _ more)

end Soundness

end Numbering

end RoomGateway
