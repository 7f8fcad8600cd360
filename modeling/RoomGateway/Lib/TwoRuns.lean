import RoomGateway.Lib.Txn

/-!
Two runs of one transaction body side by side. `Alike Pre p Post` says that from
two stores related by `Pre` the body returns the same result twice, with stores
then related by `Post`, or fails twice with the same error. There is a rule for
each construct, so what a body cannot tell apart is found by asking it of each
of its queries.
-/

namespace RoomGateway

namespace Prog

variable {σ κ ε ε' α β : Type}

/-- The body ends alike in any two stores that `Pre` relates. -/
def Alike (Pre : σ → σ → Prop) (p : Prog σ κ ε α) (Post : α → σ → σ → Prop) : Prop :=
  ∀ s t, Pre s t →
    (∃ a s' t', p.exec s = .ok (a, s') ∧ p.exec t = .ok (a, t') ∧ Post a s' t') ∨
      ∃ e, p.exec s = .error e ∧ p.exec t = .error e

namespace Alike

variable {Pre : σ → σ → Prop} {Post : α → σ → σ → Prop}

theorem pure {a : α} (h : ∀ s t, Pre s t → Post a s t) :
    Alike Pre (Pure.pure a : Prog σ κ ε α) Post :=
  fun s t hst => .inl ⟨a, s, t, rfl, rfl, h s t hst⟩

theorem bind {M : β → σ → σ → Prop} {p : Prog σ κ ε β} {f : β → Prog σ κ ε α}
    (hp : Alike Pre p M) (hf : ∀ b, Alike (M b) (f b) Post) : Alike Pre (p >>= f) Post := by
  intro s t hst
  rcases hp s t hst with ⟨b, s', t', hs, ht, hmid⟩ | ⟨e, hs, ht⟩
  · simp only [exec_bind, hs, ht]
    exact hf b s' t' hmid
  · refine .inr ⟨e, ?_, ?_⟩
    · rw [exec_bind, hs]
    · rw [exec_bind, ht]

/-- A first part that leaves the stores related as they were. -/
theorem bind_same {p : Prog σ κ ε β} {f : β → Prog σ κ ε α} (hp : Alike Pre p fun _ => Pre)
    (hf : ∀ b, Alike Pre (f b) Post) : Alike Pre (p >>= f) Post :=
  bind hp hf

/-- A query that gives the same answer twice. -/
theorem query {fault : ε} {read : σ → α} (h : ∀ s t, Pre s t → read s = read t)
    (hpost : ∀ s t, Pre s t → Post (read s) s t) :
    Alike Pre (Prog.query fault read : Prog σ κ ε α) Post := by
  intro s t hst
  refine .inl ⟨read s, s, t, rfl, ?_, hpost s t hst⟩
  rw [h s t hst]
  rfl

theorem ensure {c : Bool} {e : ε} {Post : Unit → σ → σ → Prop}
    (h : c = true → ∀ s t, Pre s t → Post () s t) :
    Alike Pre (Prog.ensure c e : Prog σ κ ε Unit) Post := by
  intro s t hst
  cases c with
  | true => exact .inl ⟨(), s, t, rfl, rfl, h rfl s t hst⟩
  | false => exact .inr ⟨e, rfl, rfl⟩

theorem orFail {o : Option α} {e : ε} (h : ∀ a, o = some a → ∀ s t, Pre s t → Post a s t) :
    Alike Pre (Prog.orFail o e : Prog σ κ ε α) Post := by
  intro s t hst
  cases o with
  | none => exact .inr ⟨e, rfl, rfl⟩
  | some a => exact .inl ⟨a, s, t, rfl, rfl, h a rfl s t hst⟩

theorem ofExcept {r : Except ε α} (h : ∀ a, r = .ok a → ∀ s t, Pre s t → Post a s t) :
    Alike Pre (Prog.ofExcept r : Prog σ κ ε α) Post := by
  intro s t hst
  cases r with
  | error e => exact .inr ⟨e, rfl, rfl⟩
  | ok a => exact .inl ⟨a, s, t, rfl, rfl, h a rfl s t hst⟩

theorem acquire {key : κ} {Post : Unit → σ → σ → Prop} (h : ∀ s t, Pre s t → Post () s t) :
    Alike Pre (Prog.acquire key : Prog σ κ ε Unit) Post :=
  fun s t hst => .inl ⟨(), s, t, rfl, rfl, h s t hst⟩

theorem mapErr {f : ε → ε'} {p : Prog σ κ ε α} (hp : Alike Pre p Post) :
    Alike Pre (p.mapErr f) Post := by
  intro s t hst
  rw [exec_mapErr, exec_mapErr]
  rcases hp s t hst with ⟨a, s', t', hs, ht, hpost⟩ | ⟨e, hs, ht⟩
  · rw [hs, ht]
    exact .inl ⟨a, s', t', rfl, rfl, hpost⟩
  · rw [hs, ht]
    exact .inr ⟨f e, rfl, rfl⟩

/-- The results of the two runs, without the stores. -/
theorem result_eq {p : Prog σ κ ε α} (hp : Alike Pre p Post) {s t : σ} (hst : Pre s t) :
    (p.exec s).map Prod.fst = (p.exec t).map Prod.fst := by
  rcases hp s t hst with ⟨a, s', t', hs, ht, -⟩ | ⟨e, hs, ht⟩
  · rw [hs, ht]
    rfl
  · rw [hs, ht]

end Alike

end Prog

end RoomGateway
