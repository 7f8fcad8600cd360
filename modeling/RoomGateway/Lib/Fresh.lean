import Mathlib.Data.Finset.Card
import Mathlib.Data.Fintype.Card
import Mathlib.Data.List.Perm.Basic

/-!
Choosing values that are not taken yet. Of more values than are taken one is
free. A list of elements can then be served one after the other, each choice
becoming taken in its turn; the outcome depends on the values taken before only
as a set and by their number.
-/

namespace RoomGateway.Fresh

variable {α β κ τ : Type}

/-- Of more values than are taken, one is free. -/
theorem exists_not_mem {ι : Type} [Fintype ι] {f : ι → τ} (hf : Function.Injective f)
    {taken : List τ} (h : taken.length < Fintype.card ι) : ∃ i, f i ∉ taken := by
  classical
  have hcard : taken.toFinset.card < (Finset.univ.image f).card := by
    rw [Finset.card_image_of_injective _ hf, Finset.card_univ]
    exact lt_of_le_of_lt taken.toFinset_card_le h
  obtain ⟨t, ht, hfree⟩ := Finset.exists_mem_notMem_of_card_lt_card hcard
  obtain ⟨i, -, rfl⟩ := Finset.mem_image.mp ht
  exact ⟨i, fun hmem => hfree (List.mem_toFinset.mpr hmem)⟩

/-- Serve the elements in turn; every choice is taken from then on. -/
def assign (choose : List τ → α → τ) : List τ → List α → List τ
  | _, [] => []
  | taken, a :: as => choose taken a :: assign choose (choose taken a :: taken) as

variable {choose : List τ → α → τ} {taken taken' : List τ} {as : List α}

theorem length_assign : (assign choose taken as).length = as.length := by
  induction as generalizing taken with
  | nil => rfl
  | cons a as ih => simp [assign, ih]

/-- Every choice is one the chooser made for its element. -/
theorem mem_zip_assign {a : α} {t : τ} (h : (a, t) ∈ as.zip (assign choose taken as)) :
    ∃ taken, t = choose taken a := by
  induction as generalizing taken with
  | nil => cases h
  | cons b as ih =>
      rw [assign, List.zip_cons_cons, List.mem_cons] at h
      rcases h with heq | h
      · cases heq
        exact ⟨taken, rfl⟩
      · exact ih h

/-- If every choice is free when it is made, nothing is chosen twice and nothing
that was taken before is chosen. -/
theorem assign_fresh (free : ∀ taken, ∀ a, choose taken a ∉ taken) :
    (assign choose taken as).Nodup ∧ ∀ t ∈ taken, t ∉ assign choose taken as := by
  induction as generalizing taken with
  | nil => exact ⟨.nil, fun t _ => List.not_mem_nil⟩
  | cons a as ih =>
      obtain ⟨hnodup, hnew⟩ := @ih (choose taken a :: taken)
      refine ⟨List.nodup_cons.mpr ⟨hnew _ List.mem_cons_self, hnodup⟩, fun t ht hmem => ?_⟩
      rcases List.mem_cons.mp hmem with rfl | hmem
      · exact free taken a ht
      · exact hnew t (List.mem_cons_of_mem _ ht) hmem

/-- Two lists with the same members and of one length take the same. -/
def SameTaken (taken taken' : List τ) : Prop :=
  taken.length = taken'.length ∧ ∀ t, t ∈ taken ↔ t ∈ taken'

theorem SameTaken.of_perm (h : taken.Perm taken') : SameTaken taken taken' :=
  ⟨h.length_eq, fun _ => h.mem_iff⟩

theorem SameTaken.cons (h : SameTaken taken taken') (t : τ) :
    SameTaken (t :: taken) (t :: taken') :=
  ⟨congrArg (· + 1) h.1, fun u => by rw [List.mem_cons, List.mem_cons, h.2]⟩

theorem assign_congr {choose' : List τ → α → τ}
    (congr : ∀ taken taken' a, a ∈ as → SameTaken taken taken' →
      choose taken a = choose' taken' a)
    (h : SameTaken taken taken') : assign choose taken as = assign choose' taken' as := by
  induction as generalizing taken taken' with
  | nil => rfl
  | cons a as ih =>
      have hfirst : choose taken a = choose' taken' a := congr _ _ a List.mem_cons_self h
      rw [assign, assign, hfirst]
      congr 1
      exact ih (fun t t' b hb => congr t t' b (List.mem_cons_of_mem a hb)) (h.cons _)

/-- A chooser that looks at a part of the elements only. -/
theorem assign_map {f : β → α} {bs : List β} :
    assign choose taken (bs.map f) = assign (fun taken b => choose taken (f b)) taken bs := by
  induction bs generalizing taken with
  | nil => rfl
  | cons b bs ih => rw [List.map_cons, assign, assign, ih]

theorem lookup_of_mem [BEq κ] [LawfulBEq κ] {pairs : List (κ × β)}
    (hnodup : (pairs.map Prod.fst).Nodup) {k : κ} {b : β} (h : (k, b) ∈ pairs) :
    pairs.lookup k = some b := by
  induction pairs with
  | nil => cases h
  | cons first pairs ih =>
      rw [List.map_cons, List.nodup_cons] at hnodup
      rw [List.lookup_cons]
      rcases List.mem_cons.mp h with rfl | h
      · simp
      · have hne : k ≠ first.1 := fun heq => hnodup.1 (heq ▸ List.mem_map_of_mem h)
        rw [beq_eq_false_iff_ne.mpr hne]
        exact ih hnodup.2 h

theorem lookup_iff_mem [BEq κ] [LawfulBEq κ] {pairs : List (κ × β)}
    (hnodup : (pairs.map Prod.fst).Nodup) {k : κ} {b : β} :
    pairs.lookup k = some b ↔ (k, b) ∈ pairs := by
  refine ⟨fun h => ?_, lookup_of_mem hnodup⟩
  obtain ⟨before, after, rfl, -⟩ := List.lookup_eq_some_iff.mp h
  exact List.mem_append_right before List.mem_cons_self

/-- Looking up the keys of the elements that a list of pairs gives a value each
finds the pairs again. -/
theorem lookup_perm [BEq κ] [LawfulBEq κ] {key : α → κ} {pairs : List (α × β)} {as : List α}
    (d : β) (hperm : (pairs.map Prod.fst).Perm as) (hnodup : (as.map key).Nodup) :
    (as.map fun a => (a, ((pairs.map fun m => (key m.1, m.2)).lookup (key a)).getD d)).Perm
      pairs := by
  have hkeys : ((pairs.map fun m => (key m.1, m.2)).map Prod.fst).Nodup := by
    have hmap := (hperm.map key).nodup_iff.mpr hnodup
    rwa [List.map_map] at hmap ⊢
  have hlookup : ∀ m ∈ pairs, ((pairs.map fun m => (key m.1, m.2)).lookup (key m.1)) = some m.2 :=
    fun m hm => lookup_of_mem hkeys (List.mem_map_of_mem (f := fun m => (key m.1, m.2)) hm)
  refine (hperm.symm.map _).trans (List.Perm.of_eq ?_)
  rw [List.map_map]
  refine (List.map_congr_left fun m hm => ?_).trans (List.map_id pairs)
  simp [hlookup m hm]

end RoomGateway.Fresh
