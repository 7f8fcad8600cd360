import Mathlib.Data.List.Forall2

/-!
Texts that can be read from the front: where an element ends and what it is can
be told from the text, whatever follows it. Codes without an end mark need that
what follows is a `Stop`; sequences are closed by a character that no code
starts with.
-/

namespace RoomGateway

namespace Reading

variable {α χ : Type}

/-- Before a stop, a text is the code of `a` and of `b` only if the two are
related, and then the same text follows. -/
def Told (Stop : List χ → Prop) (enc : α → List χ) (R : α → α → Prop) (a b : α) : Prop :=
  ∀ r s, Stop r → Stop s → enc a ++ r = enc b ++ s → R a b ∧ r = s

/-- Codes with a reader are told apart. -/
theorem told_of_reader {enc : α → List χ} (read : List χ → Option (α × List χ))
    (hread : ∀ a r, read (enc a ++ r) = some (a, r)) (a b : α) :
    Told (fun _ => True) enc Eq a b := by
  intro r s _ _ h
  have hpair : (a, r) = (b, s) := Option.some.inj (by rw [← hread a r, h, hread b s])
  exact ⟨congrArg Prod.fst hpair, congrArg Prod.snd hpair⟩

/-- A run of characters of a class ends where the class ends. -/
theorem told_of_class {enc : α → List χ} {p : χ → Bool} (hclass : ∀ a, ∀ c ∈ enc a, p c = true)
    (hinj : Function.Injective enc) (a b : α) :
    Told (fun r => ∀ c ∈ r.head?, p c = false) enc Eq a b := by
  have hspan : ∀ a r, (∀ c ∈ r.head?, p c = false) → (enc a ++ r).takeWhile p = enc a := by
    intro a r hr
    rw [List.takeWhile_append_of_pos (hclass a)]
    cases r with
    | nil => simp
    | cons c r => simp [hr c rfl]
  intro r s hr hs h
  have henc : enc a = enc b := by rw [← hspan a r hr, h, hspan b s hs]
  rw [henc] at h
  exact ⟨hinj henc, List.append_cancel_left h⟩

/-! ### Sequences -/

section Sequences

variable {enc : α → List χ} {R : α → α → Prop} {Stop : List χ → Prop} {close sep : χ}

/-- Codes one after the other, up to the closing character. -/
theorem flatMap_read {l l' : List α} (htold : ∀ a ∈ l, ∀ b ∈ l', Told Stop enc R a b)
    (hopen : ∀ a, a ∈ l ∨ a ∈ l' → ∀ r s, enc a ++ r ≠ close :: s)
    (hstop : ∀ (m : List α) r, Stop (m.flatMap enc ++ close :: r)) {r s : List χ}
    (h : l.flatMap enc ++ close :: r = l'.flatMap enc ++ close :: s) :
    List.Forall₂ R l l' ∧ r = s := by
  induction l generalizing l' with
  | nil =>
      cases l' with
      | nil => exact ⟨.nil, (List.cons.inj h).2⟩
      | cons b l' =>
          rw [List.flatMap_cons, List.append_assoc] at h
          exact absurd h.symm (hopen b (.inr List.mem_cons_self) _ _)
  | cons a l ih =>
      cases l' with
      | nil =>
          rw [List.flatMap_cons, List.append_assoc] at h
          exact absurd h (hopen a (.inl List.mem_cons_self) _ _)
      | cons b l' =>
          rw [List.flatMap_cons, List.flatMap_cons, List.append_assoc, List.append_assoc] at h
          obtain ⟨hab, hrest⟩ := htold a List.mem_cons_self b List.mem_cons_self _ _ (hstop l r)
            (hstop l' s) h
          obtain ⟨hall, hend⟩ := ih (fun a ha b hb =>
              htold a (List.mem_cons_of_mem _ ha) b (List.mem_cons_of_mem _ hb))
            (fun a ha => hopen a (ha.imp (List.mem_cons_of_mem _) (List.mem_cons_of_mem _))) hrest
          exact ⟨.cons hab hall, hend⟩

/-- Codes between separators: each but the first comes with one before it. -/
def joined (enc : α → List χ) (sep : χ) : List α → List χ
  | [] => []
  | a :: l => enc a ++ l.flatMap fun b => sep :: enc b

theorem joined_read {l l' : List α} (hsep : sep ≠ close)
    (hstop : ∀ r, Stop (sep :: r) ∧ Stop (close :: r))
    (htold : ∀ a ∈ l, ∀ b ∈ l', Told Stop enc R a b)
    (hopen : ∀ a, a ∈ l ∨ a ∈ l' → ∀ r s, enc a ++ r ≠ close :: s) {r s : List χ}
    (h : joined enc sep l ++ close :: r = joined enc sep l' ++ close :: s) :
    List.Forall₂ R l l' ∧ r = s := by
  have hnext : ∀ (m : List α) r, Stop ((m.flatMap fun b => sep :: enc b) ++ close :: r) := by
    intro m r
    cases m with
    | nil => exact (hstop _).2
    | cons b m => exact (hstop _).1
  cases l with
  | nil =>
      cases l' with
      | nil => exact ⟨.nil, (List.cons.inj h).2⟩
      | cons b l' =>
          rw [joined, joined, List.append_assoc] at h
          exact absurd h.symm (hopen b (.inr List.mem_cons_self) _ _)
  | cons a l =>
      cases l' with
      | nil =>
          rw [joined, joined, List.append_assoc] at h
          exact absurd h (hopen a (.inl List.mem_cons_self) _ _)
      | cons b l' =>
          rw [joined, joined, List.append_assoc, List.append_assoc] at h
          obtain ⟨hab, hrest⟩ := htold a List.mem_cons_self b List.mem_cons_self _ _ (hnext l r)
            (hnext l' s) h
          have htail : ∀ a ∈ l, ∀ b ∈ l', Told Stop (fun b => sep :: enc b) R a b := by
            intro a ha b hb r s hr hs h
            exact htold a (List.mem_cons_of_mem _ ha) b (List.mem_cons_of_mem _ hb) r s hr hs
              (List.cons.inj h).2
          obtain ⟨hall, hend⟩ := flatMap_read htail
            (fun _ _ _ _ h => hsep (List.cons.inj h).1) hnext hrest
          exact ⟨.cons hab hall, hend⟩

end Sequences

end Reading

end RoomGateway
