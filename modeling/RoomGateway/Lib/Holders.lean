import Mathlib.Data.List.Basic

/-!
Calls side by side, each with the locks that it holds: what the machines of
`Interleave` and `Locking` have in common. A lock is free for a call if no other
one holds it, and as long as only free locks are taken no lock has two holders.
-/

namespace RoomGateway

variable {κ : Type} {π : Type*}

/-- A call on its way, with the locks that it holds. -/
structure Holder (κ τ : Type) where
  call : τ
  held : List κ := []

inductive Act (ω τ : Type) where
  | start (call : τ)
  /-- The call at `i` does its next thing, under the circumstances `choice`. -/
  | step (i : Nat) (choice : ω)
  /-- The call at `i` is given up. -/
  | abort (i : Nat)

namespace Holder

variable (held : π → List κ) (places : List π) {i : Nat} {p : π}

/-- Nobody but the one at `i` holds the lock. -/
def free [DecidableEq κ] (i : Nat) (key : κ) : Bool :=
  places.zipIdx.all fun p => p.2 = i || !(held p.1).contains key

/-- Nobody but the one at `i` holds one of the locks. -/
def Apart (i : Nat) (keys : List κ) : Prop :=
  ∀ (j : Nat) q, j ≠ i → places[j]? = some q → ∀ k ∈ keys, k ∉ held q

/-- No lock has two holders. -/
def Exclusive : Prop := ∀ (i : Nat) p, places[i]? = some p → Apart held places i (held p)

variable {held places}

theorem apart_cons [DecidableEq κ] {key : κ} {keys : List κ} (hfree : free held places i key = true)
    (h : Apart held places i keys) : Apart held places i (key :: keys) := by
  intro j q hj hq k hk
  rcases List.mem_cons.mp hk with rfl | hk
  · have hall := List.all_eq_true.mp hfree (q, j) (List.mem_zipIdx_iff_getElem?.mpr hq)
    simpa [hj] using hall
  · exact h j q hj hq k hk

theorem Exclusive.nil : Exclusive held [] := fun _ _ h => absurd h (by simp)

/-- A call that begins holds nothing. -/
theorem Exclusive.append (h : Exclusive held places) (hp : held p = []) :
    Exclusive held (places ++ [p]) := by
  have hget : ∀ (j : Nat) q, (places ++ [p])[j]? = some q → places[j]? = some q ∨ held q = [] := by
    intro j q hq
    rw [List.getElem?_append] at hq
    split_ifs at hq
    · exact .inl hq
    · exact .inr (List.mem_singleton.mp (List.mem_of_getElem? hq) ▸ hp)
  intro i q hq j r hj hr k hk hk'
  rcases hget i q hq with hq | hq
  · rcases hget j r hr with hr | hr
    · exact h i q hq j r hj hr k hk hk'
    · exact List.not_mem_nil (hr ▸ hk')
  · exact List.not_mem_nil (hq ▸ hk)

/-- One goes on, and the others do not hold its locks. -/
theorem Exclusive.set (h : Exclusive held places) (hp : Apart held places i (held p)) :
    Exclusive held (places.set i p) := by
  intro a q hq b r hb hr k hk hk'
  rw [List.getElem?_set] at hq hr
  split_ifs at hq hr with ha hlen hb' hlen'
  · exact hb (hb'.symm.trans ha)
  · cases hq
    exact hp b r (fun heq => hb (heq.trans ha)) hr k hk hk'
  · cases hr
    exact hp a q (Ne.symm ha) hq k hk' hk
  · exact h a q hq b r hb hr k hk hk'

end Holder

end RoomGateway
