import Mathlib.Data.Nat.Notation
import Mathlib.Logic.Relation

/-!
# While loops whose body may fail

A loop has a condition and a body, and the body returns the next state or fails.  `run` makes at
most so many rounds and says nothing if the loop is not over then.  `Reached` is what rounds lead
to, and `Ends` is what the loop returns if it does.

A measure that every round lowers bounds the number of rounds (`exists_run`).  What holds of the
state before the loop and survives each round holds of every state reached (`Reached.invariant`),
and the result of the loop is a state that was reached (`Ends.reached`) or the failure of a round in
one (`Ends.failed`).
-/

namespace WhileLoop

open Relation

variable {S ε : Type*} (cond : S → Bool) (body : S → Except ε S)

/-- The loop with at most so many rounds. -/
def run : ℕ → S → Option (Except ε S)
  | 0, s => if cond s then none else some (.ok s)
  | n + 1, s =>
      if cond s then
        match body s with
        | .ok s' => run n s'
        | .error e => some (.error e)
      else some (.ok s)

/-- A round that returns. -/
def Round (s s' : S) : Prop := cond s = true ∧ body s = .ok s'

abbrev Reached : S → S → Prop := ReflTransGen (Round cond body)

/-- What the loop returns. -/
inductive Ends : S → Except ε S → Prop
  | stop {s : S} (h : cond s = false) : Ends s (.ok s)
  | fail {s : S} {e : ε} (h : cond s = true) (hbody : body s = .error e) : Ends s (.error e)
  | round {s s' : S} {r : Except ε S} (h : Round cond body s s') (hrest : Ends s' r) : Ends s r

variable {cond body} {s s' t : S} {e : ε} {r : Except ε S}

lemma run_of_not (h : cond s = false) (n : ℕ) : run cond body n s = some (.ok s) := by
  cases n <;> simp [run, h]

lemma run_of_error (h : cond s = true) (hbody : body s = .error e) (n : ℕ) :
    run cond body (n + 1) s = some (.error e) := by
  simp [run, h, hbody]

lemma run_of_round (h : Round cond body s s') (n : ℕ) :
    run cond body (n + 1) s = run cond body n s' := by
  simp [run, h.1, h.2]

lemma ends_of_run {n : ℕ} (h : run cond body n s = some r) :
    Ends cond body s r := by
  induction n generalizing s with
  | zero =>
      cases hcond : cond s with
      | true => simp [run, hcond] at h
      | false =>
          rw [run_of_not hcond] at h
          exact Option.some.inj h ▸ .stop hcond
  | succ n ih =>
      cases hcond : cond s with
      | false =>
          rw [run_of_not hcond] at h
          exact Option.some.inj h ▸ .stop hcond
      | true =>
          cases hbody : body s with
          | error e =>
              rw [run_of_error hcond hbody] at h
              exact Option.some.inj h ▸ .fail hcond hbody
          | ok s' =>
              rw [run_of_round ⟨hcond, hbody⟩] at h
              exact .round ⟨hcond, hbody⟩ (ih h)

/-! ## Rules -/

/-- **Invariants.** -/
lemma Reached.invariant {Inv : S → Prop} (hround : ∀ s s', Inv s → Round cond body s s' → Inv s')
    (h : Reached cond body s s') (hs : Inv s) : Inv s' := by
  induction h with
  | refl => exact hs
  | tail _ hlast ih => exact hround _ _ ih hlast

lemma Reached.eq_of_not (h : Reached cond body s t) (hs : cond s = false) : t = s := by
  rcases h.cases_head with rfl | ⟨s', hround, -⟩
  · rfl
  · exact absurd hround.1 (by simp [hs])

/-- A condition on every state reached is one on the first state and on those reached from the
next. -/
lemma forall_reached_of_round {P : S → Prop} (h : Round cond body s s') :
    (∀ t, Reached cond body s t → P t) ↔ P s ∧ ∀ t, Reached cond body s' t → P t := by
  constructor
  · exact fun hall => ⟨hall s .refl, fun t ht => hall t (.head h ht)⟩
  · rintro ⟨hs, hrest⟩ t ht
    rcases ht.cases_head with rfl | ⟨s'', hround, ht⟩
    · exact hs
    · obtain rfl : s' = s'' := Except.ok.inj (h.2.symm.trans hround.2)
      exact hrest t ht

lemma Reached.exists_run (h : Reached cond body s s') (hs' : cond s' = false) :
    ∃ n, run cond body n s = some (.ok s') := by
  induction h using ReflTransGen.head_induction_on with
  | refl => exact ⟨0, run_of_not hs' 0⟩
  | head hround _ ih =>
      obtain ⟨n, hn⟩ := ih
      exact ⟨n + 1, (run_of_round hround n).trans hn⟩

lemma run_congr {body' : S → Except ε S}
    (h : ∀ t, Reached cond body s t → cond t = true → body' t = body t) (n : ℕ) :
    run cond body' n s = run cond body n s := by
  induction n generalizing s with
  | zero => rfl
  | succ n ih =>
      cases hcond : cond s with
      | false => rw [run_of_not hcond, run_of_not hcond]
      | true =>
          have hbody := h s .refl hcond
          cases hstep : body s with
          | error e => rw [run_of_error hcond (hbody.trans hstep), run_of_error hcond hstep]
          | ok s' =>
              rw [run_of_round ⟨hcond, hbody.trans hstep⟩, run_of_round ⟨hcond, hstep⟩]
              exact ih fun t ht => h t (.head ⟨hcond, hstep⟩ ht)

lemma Ends.reached (h : Ends cond body s (.ok s')) :
    Reached cond body s s' ∧ cond s' = false := by
  generalize hr : Except.ok s' = r at h
  induction h with
  | stop hcond =>
      cases hr
      exact ⟨.refl, hcond⟩
  | fail => cases hr
  | round hround _ ih => exact ⟨.head hround (ih hr).1, (ih hr).2⟩

lemma Ends.failed (h : Ends cond body s (.error e)) :
    ∃ s', Reached cond body s s' ∧ cond s' = true ∧ body s' = .error e := by
  generalize hr : Except.error e = r at h
  induction h with
  | stop => cases hr
  | fail hcond hbody =>
      cases hr
      exact ⟨_, .refl, hcond, hbody⟩
  | round hround _ ih =>
      obtain ⟨s', hreach, hlast⟩ := ih hr
      exact ⟨s', .head hround hreach, hlast⟩

lemma Ends.of_reached (h : Ends cond body s r)
    (hreach : Reached cond body s s') : Ends cond body s' r := by
  induction hreach using ReflTransGen.head_induction_on with
  | refl => exact h
  | head hround _ ih =>
      refine ih ?_
      cases h with
      | stop hcond => exact absurd hround.1 (by simp [hcond])
      | fail _ hbody => cases hround.2.symm.trans hbody
      | round hround' hrest =>
          obtain rfl := Except.ok.inj (hround.2.symm.trans hround'.2)
          exact hrest

/-- **Termination.**  If every round that is followed by another one lowers a measure, it bounds
the number of rounds. -/
lemma exists_run {Inv : S → Prop} {μ : S → ℕ}
    (hinv : ∀ s s', Inv s → Round cond body s s' → Inv s')
    (hpos : ∀ s, Inv s → cond s = true → 0 < μ s)
    (hlower : ∀ s s', Inv s → Round cond body s s' → cond s' = true → μ s' < μ s)
    {s : S} (hs : Inv s) {n : ℕ} (hn : cond s = true → μ s ≤ n) :
    ∃ r, run cond body n s = some r := by
  induction n generalizing s with
  | zero =>
      cases hcond : cond s with
      | false => exact ⟨_, run_of_not hcond 0⟩
      | true =>
          have := hpos s hs hcond
          have := hn hcond
          omega
  | succ n ih =>
      cases hcond : cond s with
      | false => exact ⟨_, run_of_not hcond _⟩
      | true =>
          cases hbody : body s with
          | error e => exact ⟨_, run_of_error hcond hbody n⟩
          | ok s' =>
              have hround : Round cond body s s' := ⟨hcond, hbody⟩
              rw [run_of_round hround]
              refine ih (hinv s s' hs hround) fun hcond' => ?_
              have := hlower s s' hs hround hcond'
              have := hn hcond
              omega

end WhileLoop
