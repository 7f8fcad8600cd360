import Mathlib.Data.List.ReduceOption

/-!
A queue that calls are served from. A call takes elements off the front until
one is fit to be handed out, and drops those that are not; it gives up after a
fixed number of elements. Whatever the order of fit and unfit elements, the fit
ones are handed out in the order of the queue, and the number of calls that
empty the queue is bounded.
-/

namespace RoomGateway.Drain

variable {α : Type} (fit : α → Bool)

/-- One call: what it hands out, and what is left of the queue. -/
def serve : Nat → List α → Option α × List α
  | 0, queue => (none, queue)
  | _ + 1, [] => (none, [])
  | rounds + 1, a :: queue => if fit a then (some a, queue) else serve rounds queue

/-- Calls one after the other. -/
def serveAll (rounds : Nat) : Nat → List α → List (Option α) × List α
  | 0, queue => ([], queue)
  | calls + 1, queue =>
      let rest := serveAll rounds calls (serve fit rounds queue).2
      ((serve fit rounds queue).1 :: rest.1, rest.2)

variable {fit}

@[simp] theorem serve_nil (rounds : Nat) : serve fit rounds [] = (none, []) := by
  cases rounds <;> rfl

theorem serveAll_nil (rounds calls : Nat) : (serveAll fit rounds calls []).2 = [] := by
  induction calls with
  | zero => rfl
  | succ calls ih => simpa [serveAll] using ih

theorem length_serveAll (rounds calls : Nat) (queue : List α) :
    (serveAll fit rounds calls queue).1.length = calls := by
  induction calls generalizing queue with
  | zero => rfl
  | succ calls ih => simp [serveAll, ih]

/-- What a call does with the queue: it drops unfit elements, and hands out the
fit one after them, or finds no other, or has taken as many as it may. -/
inductive Served (fit : α → Bool) (rounds : Nat) (queue : List α) : Option α × List α → Prop where
  | handed (dropped : List α) (a : α) (rest : List α) (eq : queue = dropped ++ a :: rest)
      (unfit : ∀ x ∈ dropped, fit x = false) (fits : fit a = true) :
      Served fit rounds queue (some a, rest)
  | emptied (unfit : ∀ x ∈ queue, fit x = false) : Served fit rounds queue (none, [])
  | gaveUp (dropped rest : List α) (eq : queue = dropped ++ rest)
      (unfit : ∀ x ∈ dropped, fit x = false) (length : dropped.length = rounds) :
      Served fit rounds queue (none, rest)

theorem served_serve (fit : α → Bool) (rounds : Nat) (queue : List α) :
    Served fit rounds queue (serve fit rounds queue) := by
  induction rounds generalizing queue with
  | zero => exact .gaveUp [] queue rfl (by simp) rfl
  | succ rounds ih =>
      cases queue with
      | nil => exact .emptied (by simp)
      | cons b queue =>
          rw [serve]
          split_ifs with hfit
          · exact .handed [] b queue rfl (by simp) hfit
          · rw [Bool.not_eq_true] at hfit
            have hserved := ih queue
            generalize serve fit rounds queue = answer at hserved ⊢
            cases hserved with
            | handed dropped a rest eq unfit fits =>
                exact .handed (b :: dropped) a rest (by rw [eq]; rfl) (by simpa [hfit]) fits
            | emptied unfit => exact .emptied (by simpa [hfit])
            | gaveUp dropped rest eq unfit length =>
                exact .gaveUp (b :: dropped) rest (by rw [eq]; rfl) (by simpa [hfit])
                  (by rw [List.length_cons, length])

/-- The fit elements are handed out or still queued, in the order they had. -/
theorem handed_append_queued (fit : α → Bool) (rounds calls : Nat) (queue : List α) :
    (serveAll fit rounds calls queue).1.reduceOption ++
      (serveAll fit rounds calls queue).2.filter fit = queue.filter fit := by
  induction calls generalizing queue with
  | zero => rfl
  | succ calls ih =>
      simp only [serveAll]
      cases hserve : serve fit rounds queue with | mk handed rest =>
      have hrest := ih rest
      cases hserve ▸ served_serve fit rounds queue with
      | handed dropped a rest eq unfit fits =>
          have hdropped : dropped.filter fit = [] :=
            List.filter_eq_nil_iff.mpr (by simpa using unfit)
          rw [List.reduceOption_cons_of_some, List.cons_append, hrest, eq, List.filter_append,
            hdropped, List.nil_append, List.filter_cons_of_pos fits]
      | emptied unfit =>
          rw [List.reduceOption_cons_of_none, hrest, List.filter_nil,
            List.filter_eq_nil_iff.mpr (by simpa using unfit)]
      | gaveUp dropped rest eq unfit length =>
          have hdropped : dropped.filter fit = [] :=
            List.filter_eq_nil_iff.mpr (by simpa using unfit)
          rw [List.reduceOption_cons_of_none, hrest, eq, List.filter_append, hdropped,
            List.nil_append]

/-- One call for each fit element, one for each full round of unfit ones and one
more empty the queue. -/
theorem serveAll_empties {rounds calls : Nat} {queue : List α} (hrounds : 0 < rounds)
    (hcalls : (queue.filter fit).length + (queue.filter (!fit ·)).length / rounds + 1 ≤ calls) :
    (serveAll fit rounds calls queue).2 = [] := by
  induction calls generalizing queue with
  | zero => exact absurd hcalls (Nat.not_succ_le_zero _)
  | succ calls ih =>
      simp only [serveAll]
      cases hserve : serve fit rounds queue with | mk handed rest =>
      cases hserve ▸ served_serve fit rounds queue with
      | handed dropped a rest eq unfit fits =>
          refine ih ?_
          change (rest.filter fit).length + (rest.filter (!fit ·)).length / rounds + 1 ≤ calls
          have hle : (rest.filter (!fit ·)).length ≤ (queue.filter (!fit ·)).length := by
            rw [eq, List.filter_append, List.length_append, List.filter_cons_of_neg
              (by simp [fits])]
            omega
          have hdiv := Nat.div_le_div_right (c := rounds) hle
          have hfit : (queue.filter fit).length = (rest.filter fit).length + 1 := by
            have hdropped : dropped.filter fit = [] :=
              List.filter_eq_nil_iff.mpr (by simpa using unfit)
            rw [eq, List.filter_append, hdropped, List.nil_append, List.filter_cons_of_pos fits,
              List.length_cons]
          omega
      | emptied _ => exact serveAll_nil rounds calls
      | gaveUp dropped rest eq unfit length =>
          refine ih ?_
          change (rest.filter fit).length + (rest.filter (!fit ·)).length / rounds + 1 ≤ calls
          have hunfit : (queue.filter (!fit ·)).length =
              (rest.filter (!fit ·)).length + rounds := by
            rw [eq, List.filter_append, List.length_append,
              List.filter_eq_self.mpr (by simpa using unfit), length]
            omega
          have hfit : (queue.filter fit).length = (rest.filter fit).length := by
            rw [eq, List.filter_append, List.filter_eq_nil_iff.mpr (by simpa using unfit),
              List.nil_append]
          rw [hunfit, Nat.add_div_right _ hrounds] at hcalls
          omega

end RoomGateway.Drain
