import Mathlib.Data.List.Forall2

/-!
Computations that may stop with an error. A sequence has a result if its parts
have; of a loop over a list, what every turn keeps holds of the result, and
every result comes from an element. Loops over two lists that agree place by
place have the same results.
-/

namespace RoomGateway.Loops

variable {α β ε σ : Type}

theorem bind_ok {x : Except ε α} {f : α → Except ε β} {b : β} :
    (x >>= f) = .ok b ↔ ∃ a, x = .ok a ∧ f a = .ok b := by
  constructor
  · intro h
    cases x with
    | error e => cases h
    | ok a => exact ⟨a, rfl, h⟩
  · rintro ⟨a, rfl, h⟩
    exact h

theorem mapError_ok {ε' : Type} {x : Except ε α} {f : ε → ε'} {a : α} :
    x.mapError f = .ok a ↔ x = .ok a := by
  cases x with
  | error e => exact ⟨nofun, nofun⟩
  | ok b =>
      change (Except.ok b : Except ε' α) = .ok a ↔ _
      rw [Except.ok.injEq, Except.ok.injEq]

theorem map_ok {x : Except ε α} {f : α → β} {b : β} :
    x.map f = .ok b ↔ ∃ a, x = .ok a ∧ f a = b := by
  cases x <;> simp [Except.map]

/-- An invariant of every turn holds at the end. -/
theorem foldlM_ok {P : σ → Prop} {f : σ → α → Except ε σ}
    (step : ∀ s a s', P s → f s a = .ok s' → P s') {xs : List α} {s t : σ} (hs : P s)
    (h : xs.foldlM f s = .ok t) : P t := by
  induction xs generalizing s with
  | nil =>
      cases h
      exact hs
  | cons x xs ih =>
      rw [List.foldlM_cons] at h
      cases hx : f s x with
      | error e =>
          rw [hx] at h
          cases h
      | ok next =>
          rw [hx] at h
          exact ih (step s x next hs hx) h

/-- The results of a loop that passes, each beside its item. -/
theorem forall₂_of_mapM_ok {f : α → Except ε β} {xs : List α} {ys : List β}
    (h : xs.mapM f = .ok ys) : List.Forall₂ (fun x y => f x = .ok y) xs ys := by
  induction xs generalizing ys with
  | nil =>
      cases h
      exact .nil
  | cons x xs ih =>
      rw [List.mapM_cons] at h
      obtain ⟨first, hx, h⟩ := bind_ok.mp h
      obtain ⟨rest, hrest, h⟩ := bind_ok.mp h
      cases h
      exact .cons hx (ih hrest)

theorem forall₂_of_mapM_some {f : α → Option β} {xs : List α} {ys : List β}
    (h : xs.mapM f = some ys) : List.Forall₂ (fun x y => f x = some y) xs ys := by
  induction xs generalizing ys with
  | nil =>
      cases h
      exact .nil
  | cons x xs ih =>
      rw [List.mapM_cons] at h
      obtain ⟨first, hx, h⟩ := Option.bind_eq_some_iff.mp h
      obtain ⟨rest, hrest, h⟩ := Option.bind_eq_some_iff.mp h
      cases h
      exact .cons hx (ih hrest)

/-! ### Lists compared place by place -/

theorem map_eq_of_forall₂ {f : α → β} {l l' : List α}
    (h : List.Forall₂ (fun a b => f a = f b) l l') : l.map f = l'.map f := by
  induction h with
  | nil => rfl
  | cons hab _ ih => rw [List.map_cons, List.map_cons, hab, ih]

theorem filterMap_of_forall₂ {γ : Type} {f : α → Option γ} {g : β → Option γ} {l : List α}
    {l' : List β} (h : List.Forall₂ (fun a b => g b = f a) l l') :
    l'.filterMap g = l.filterMap f := by
  induction h with
  | nil => rfl
  | cons hab _ ih => rw [List.filterMap_cons, List.filterMap_cons, hab, ih]

theorem filterMap_single [DecidableEq α] {l : List α} {a : α} {b : β}
    (hnodup : l.Nodup) (ha : a ∈ l) :
    (l.filterMap fun x => if x = a then some b else none) = [b] := by
  induction l with
  | nil => cases ha
  | cons x l ih =>
      obtain ⟨hx, hrest⟩ := List.nodup_cons.mp hnodup
      rcases List.mem_cons.mp ha with rfl | ha
      · have hnone : (l.filterMap fun x => if x = a then some b else none) = [] := by
          refine List.filterMap_eq_nil_iff.mpr fun y hy => if_neg ?_
          rintro rfl
          exact hx hy
        simp [hnone]
      · have hne : x ≠ a := by
          rintro rfl
          exact hx ha
        simp [hne, ih hrest ha]

end RoomGateway.Loops
