import Mathlib.Logic.Relation

/-!
# Runs of a step function and of a step relation

A *run* of a deterministic operation is the list of its arguments, applied one after another.
`EveryStep` says of a run that each of its steps relates the state before, the argument and the
state after.  `everyStep_congr` transfers what is known about one step to every step of every
run, without an induction at the point of use.

For a nondeterministic system a step is a relation with a label.  `Guarded` keeps the steps
that meet a condition on the state before and the label, `Reached` is what a run of such steps
reaches, and `Reached.invariant` is the rule for proving that something holds in every state
such a run passes through.
-/

namespace Runs

variable {S A : Type*}

/-! ## Runs of a function -/

/-- Each step of the run from `s` along `l` satisfies `R`. -/
def EveryStep (step : S → A → S) (R : S → A → S → Prop) : S → List A → Prop
  | _, [] => True
  | s, a :: l => R s a (step s a) ∧ EveryStep step R (step s a) l

/-- What one step satisfies exactly when a condition holds, a run satisfies at each step
exactly when the condition holds at each step. -/
lemma everyStep_congr {step : S → A → S} {R C : S → A → S → Prop}
    (h : ∀ s a, R s a (step s a) ↔ C s a (step s a)) (s : S) (l : List A) :
    EveryStep step R s l ↔ EveryStep step C s l := by
  induction l generalizing s with
  | nil => exact Iff.rfl
  | cons a l ih => exact and_congr (h s a) (ih (step s a))

/-- The same for what one step satisfies exactly when a condition holds, if there is an invariant
that the steps that satisfy it keep. -/
lemma everyStep_congr_of_inv {step : S → A → S} {R C : S → A → S → Prop} {I : S → Prop}
    {P : A → Prop} (h : ∀ s a, I s → P a → (R s a (step s a) ↔ C s a (step s a)))
    (hinv : ∀ s a, I s → P a → R s a (step s a) → I (step s a)) {s : S} (hs : I s)
    {l : List A} (hl : ∀ a ∈ l, P a) :
    EveryStep step R s l ↔ EveryStep step C s l := by
  induction l generalizing s with
  | nil => exact Iff.rfl
  | cons a l ih =>
      obtain ⟨ha, hrest⟩ := List.forall_mem_cons.mp hl
      constructor
      · rintro ⟨hR, hlater⟩
        exact ⟨(h s a hs ha).mp hR, (ih (hinv s a hs ha hR) hrest).mp hlater⟩
      · rintro ⟨hC, hlater⟩
        have hR := (h s a hs ha).mpr hC
        exact ⟨hR, (ih (hinv s a hs ha hR) hrest).mpr hlater⟩

/-- What holds of each element of a list, given the ones before it, holds of the first with
nothing before it and of the others with the first before them. -/
lemma forall_split_cons {P : List A → A → Prop} (a : A) (l : List A) :
    (∀ past x rest, a :: l = past ++ x :: rest → P past x) ↔
      P [] a ∧ ∀ past x rest, l = past ++ x :: rest → P (a :: past) x := by
  constructor
  · intro h
    refine ⟨h [] a l rfl, ?_⟩
    rintro past x rest rfl
    exact h (a :: past) x rest rfl
  · rintro ⟨hhead, htail⟩ past x rest heq
    cases past with
    | nil =>
        obtain ⟨rfl, -⟩ := List.cons.inj heq
        exact hhead
    | cons b past =>
        obtain ⟨rfl, htl⟩ := List.cons.inj heq
        exact htail past x rest htl

/-- An element of a run with one more argument is that argument, or an element of the run
before, with one more argument after it. -/
lemma exists_split_concat {P : List A → A → List A → Prop} (l : List A) (c : A) :
    (∃ past x rest, l ++ [c] = past ++ x :: rest ∧ P past x rest) ↔
      P l c [] ∨ ∃ past x rest, l = past ++ x :: rest ∧ P past x (rest ++ [c]) := by
  constructor
  · rintro ⟨past, x, rest, heq, hP⟩
    rcases List.eq_nil_or_concat rest with rfl | ⟨rest', y, rfl⟩
    · obtain ⟨rfl, hx⟩ := List.append_inj heq.symm (by simpa using (congrArg List.length heq).symm)
      obtain rfl := List.singleton_inj.mp hx
      exact Or.inl hP
    · have heq' : l ++ [c] = (past ++ x :: rest') ++ [y] := by
        rw [heq, List.concat_eq_append]
        simp
      obtain ⟨rfl, hy⟩ := List.append_inj' heq' rfl
      obtain rfl := List.singleton_inj.mp hy
      rw [List.concat_eq_append] at hP
      exact Or.inr ⟨past, x, rest', rfl, hP⟩
  · rintro (hP | ⟨past, x, rest, rfl, hP⟩)
    · exact ⟨l, c, [], rfl, hP⟩
    · exact ⟨past, x, rest ++ [c], by simp, hP⟩

/-! ## Runs of a relation -/

/-- A step with some label whose condition holds. -/
def Guarded (Step : S → A → S → Prop) (guard : S → A → Prop) (s s' : S) : Prop :=
  ∃ a, guard s a ∧ Step s a s'

/-- The states that runs of guarded steps from `s` pass through. -/
abbrev Reached (Step : S → A → S → Prop) (guard : S → A → Prop) : S → S → Prop :=
  Relation.ReflTransGen (Guarded Step guard)

/-- **Invariants.**  What holds at the start and survives each guarded step holds in every
state reached. -/
lemma Reached.invariant {Step : S → A → S → Prop} {guard : S → A → Prop} {Inv : S → Prop}
    (hstep : ∀ s a s', Inv s → guard s a → Step s a s' → Inv s')
    {s s' : S} (hrun : Reached Step guard s s') (h0 : Inv s) : Inv s' := by
  induction hrun with
  | refl => exact h0
  | tail _ hlast ih =>
      obtain ⟨a, hguard, ha⟩ := hlast
      exact hstep _ a _ ih hguard ha

end Runs
