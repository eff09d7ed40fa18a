import Mathlib.Order.Lattice

/-!
# Loops that keep their state

A search that writes to its state as it goes leaves the state behind when it fails.  Such a loop
counts its turns (`runTurns`), and `turnStates` are the states in which it takes them.  Its rules
are `runTurns_ok` and `runTurns_error`.

In each turn the search may be offered a value, which it takes or not.  The result is the best of
all that was offered exactly if whatever is taken to a loss is made good later
(`isBest_iff_madeGood`); a search that takes only what is better is the special case in which there
is nothing to make good.
-/

namespace Turns

variable {S ε : Type*}

/-- A turn ends the loop or goes on, in both cases with a new state. -/
inductive Turn (S : Type*)
  | stop (next : S)
  | go (next : S)

def Turn.state : Turn S → S
  | .stop next => next
  | .go next => next

section Turns

variable (turn : ℕ → S → Except ε (Turn S))

/-- The loop with so many turns left, counting from a number.  A turn that fails has not changed the
state. -/
def runTurns : ℕ → ℕ → S → S × Except ε Unit
  | 0, _, s => (s, .ok ())
  | n + 1, k, s =>
      match turn k s with
      | .error e => (s, .error e)
      | .ok (.stop next) => (next, .ok ())
      | .ok (.go next) => runTurns n (k + 1) next

/-- The states in which the loop takes its turns. -/
def turnStates : ℕ → ℕ → S → List S
  | 0, _, _ => []
  | n + 1, k, s => s ::
      match turn k s with
      | .ok (.go next) => turnStates n (k + 1) next
      | _ => []

variable {turn}

section Rules

variable {I : ℕ → S → Prop} {n k : ℕ} {s : S}

/-- **Turns.**  An invariant of the turns that go on leads to what holds at the end. -/
lemma runTurns_ok {J : S → Prop}
    (hgo : ∀ k s next, I k s → turn k s = .ok (.go next) → I (k + 1) next)
    (hstop : ∀ k s next, I k s → turn k s = .ok (.stop next) → J next)
    (hend : ∀ k s, I k s → J s) (hs : I k s) (h : (runTurns turn n k s).2 = .ok ()) :
    J (runTurns turn n k s).1 := by
  induction n generalizing k s with
  | zero => exact hend k s hs
  | succ n ih =>
      rw [runTurns] at h ⊢
      cases hround : turn k s with
      | error e =>
          rw [hround] at h
          simp at h
      | ok t =>
          rw [hround] at h
          cases t with
          | stop next => exact hstop k s next hs hround
          | go next => exact ih (hgo k s next hs hround) h

lemma runTurns_error (hgo : ∀ k s next, I k s → turn k s = .ok (.go next) → I (k + 1) next) {e : ε}
    (hs : I k s) (h : (runTurns turn n k s).2 = .error e) :
    ∃ k', I k' (runTurns turn n k s).1 ∧ turn k' (runTurns turn n k s).1 = .error e := by
  induction n generalizing k s with
  | zero => simp [runTurns] at h
  | succ n ih =>
      rw [runTurns] at h ⊢
      cases hround : turn k s with
      | error e' =>
          rw [hround] at h
          cases Except.error.inj h
          exact ⟨k, hs, hround⟩
      | ok t =>
          rw [hround] at h
          cases t with
          | stop next => simp at h
          | go next => exact ih (hgo k s next hs hround) h

lemma inv_of_mem_turnStates {N : ℕ}
    (hgo : ∀ k s next, k < N → I k s → turn k s = .ok (.go next) → I (k + 1) next)
    (hN : n + k ≤ N) (hs : I k s) {s' : S} (hs' : s' ∈ turnStates turn n k s) :
    ∃ k' < N, I k' s' := by
  induction n generalizing k s with
  | zero => simp [turnStates] at hs'
  | succ n ih =>
      rcases List.mem_cons.mp hs' with rfl | hrest
      · exact ⟨k, by omega, hs⟩
      · cases hround : turn k s with
        | error e =>
            rw [hround] at hrest
            simp at hrest
        | ok t =>
            rw [hround] at hrest
            cases t with
            | stop next => simp at hrest
            | go next =>
                exact ih (by omega) (hgo k s next (by omega) hs hround) hrest

end Rules

end Turns

/-! ## The best of a search -/

section Best

variable {V : Type*} [LinearOrder V] {turn : ℕ → S → Except ε (Turn S)} (value : S → V)
  (offer : S → Option V) (takes : S → Prop)

/-- A turn takes what it is offered, or it keeps what it has, which is not less. -/
def TakesOrKeeps (s next : S) : Prop :=
  takes s ∧ offer s = some (value next) ∨
    ¬ takes s ∧ value next = value s ∧ ∀ v, offer s = some v → v ≤ value s

/-- Less is taken than there is only if something that is not less is taken later. -/
def MadeGoodBy (s : S) (rest : List S) : Prop :=
  takes s → ∀ v, offer s = some v → v < value s →
    ∃ s' ∈ rest, takes s' ∧ ∃ v', offer s' = some v' ∧ value s ≤ v'

def MadeGood : List S → Prop
  | [] => True
  | s :: rest => MadeGoodBy value offer takes s rest ∧ MadeGood rest

/-- The result is not less than what there was at first, nor than anything that was offered. -/
def IsBest (s final : S) (states : List S) : Prop :=
  value s ≤ value final ∧ ∀ s' ∈ states, ∀ v, offer s' = some v → v ≤ value final

variable {value offer takes} {s next final : S} {rest : List S}

/-- One turn, before the rest of the search. -/
lemma isBest_cons (hstep : TakesOrKeeps value offer takes s next)
    (hrest : value final = value next ∨ ∃ s' ∈ rest, takes s' ∧ offer s' = some (value final)) :
    IsBest value offer s final (s :: rest) ↔
      MadeGoodBy value offer takes s rest ∧ IsBest value offer next final rest := by
  constructor
  · rintro ⟨hs, hoffers⟩
    have hnext : value next ≤ value final := by
      rcases hstep with ⟨-, hoffer⟩ | ⟨-, hkept, -⟩
      · exact hoffers s List.mem_cons_self _ hoffer
      · exact hkept ▸ hs
    refine ⟨fun htakes v hv hless => ?_, hnext,
      fun s' hs' => hoffers s' (List.mem_cons_of_mem s hs')⟩
    rcases hstep with ⟨-, hoffer⟩ | ⟨hnot, -, -⟩
    · cases Option.some.inj (hv.symm.trans hoffer)
      rcases hrest with hsame | ⟨s', hs', htakes', hoffer'⟩
      · exact absurd (hsame ▸ hs) (not_le_of_gt hless)
      · exact ⟨s', hs', htakes', _, hoffer', hs⟩
    · exact absurd htakes hnot
  · rintro ⟨hgood, hnext, hoffers⟩
    have hs : value s ≤ value final := by
      rcases hstep with ⟨htakes, hoffer⟩ | ⟨-, hkept, -⟩
      · rcases lt_or_ge (value next) (value s) with hless | hnot
        · obtain ⟨s', hs', -, v, hv, hle⟩ := hgood htakes _ hoffer hless
          exact hle.trans (hoffers s' hs' v hv)
        · exact hnot.trans hnext
      · exact hkept ▸ hnext
    refine ⟨hs, fun s' hs' v hv => ?_⟩
    rcases List.mem_cons.mp hs' with rfl | hmem
    · rcases hstep with ⟨-, hoffer⟩ | ⟨-, -, hless⟩
      · cases Option.some.inj (hv.symm.trans hoffer)
        exact hnext
      · exact (hless v hv).trans hs
    · exact hoffers s' hmem v hv

lemma madeGood_of_forall {states : List S}
    (h : ∀ s ∈ states, ∀ v, offer s = some v → value s ≤ v) :
    MadeGood value offer takes states := by
  induction states with
  | nil => trivial
  | cons s rest ih =>
      obtain ⟨hs, hrest⟩ := List.forall_mem_cons.mp h
      exact ⟨fun _ v hv hless => absurd (hs v hv) (not_le_of_gt hless), ih hrest⟩

variable {I : ℕ → S → Prop} {N n k : ℕ}
  (hgo : ∀ k s next, k < N → I k s → turn k s = .ok (.go next) → I (k + 1) next)
  (hturn : ∀ k s t, k < N → I k s → turn k s = .ok t → TakesOrKeeps value offer takes s t.state)

include hgo hturn

lemma kept_or_taken (hN : n + k ≤ N) (hs : I k s) :
    value (runTurns turn n k s).1 = value s ∨
      ∃ s' ∈ turnStates turn n k s, takes s' ∧
        offer s' = some (value (runTurns turn n k s).1) := by
  induction n generalizing k s with
  | zero => exact Or.inl rfl
  | succ n ih =>
      rw [runTurns, turnStates]
      cases hround : turn k s with
      | error e => exact Or.inl rfl
      | ok t =>
          have hstep := hturn k s t (by omega) hs hround
          cases t with
          | stop next =>
              rcases hstep with ⟨htakes, hoffer⟩ | ⟨-, hkept, -⟩
              · exact Or.inr ⟨s, List.mem_cons_self, htakes, hoffer⟩
              · exact Or.inl hkept
          | go next =>
              rcases ih (by omega) (hgo k s next (by omega) hs hround) with hsame | htaken
              · rcases hstep with ⟨htakes, hoffer⟩ | ⟨-, hkept, -⟩
                · exact Or.inr ⟨s, List.mem_cons_self, htakes,
                    hoffer.trans (congrArg some hsame.symm)⟩
                · exact Or.inl (hsame.trans hkept)
              · obtain ⟨s', hs', htakes, hoffer⟩ := htaken
                exact Or.inr ⟨s', List.mem_cons_of_mem s hs', htakes, hoffer⟩

/-- **The best of a search.** -/
lemma isBest_iff_madeGood (hN : n + k ≤ N) (hs : I k s)
    (hok : (runTurns turn n k s).2 = .ok ()) :
    IsBest value offer s (runTurns turn n k s).1 (turnStates turn n k s) ↔
      MadeGood value offer takes (turnStates turn n k s) := by
  induction n generalizing k s with
  | zero => exact ⟨fun _ => trivial, fun _ => ⟨le_rfl, by simp [turnStates]⟩⟩
  | succ n ih =>
      rw [turnStates]
      rw [runTurns] at hok ⊢
      cases hround : turn k s with
      | error e =>
          rw [hround] at hok
          simp at hok
      | ok t =>
          rw [hround] at hok
          have hstep := hturn k s t (by omega) hs hround
          cases t with
          | stop next =>
              refine (isBest_cons hstep (Or.inl rfl)).trans (and_congr_right fun _ => ?_)
              exact ⟨fun _ => trivial, fun _ => ⟨le_rfl, by simp⟩⟩
          | go next =>
              have hnext := hgo k s next (by omega) hs hround
              refine (isBest_cons hstep ?_).trans (and_congr_right fun _ => ?_)
              · exact kept_or_taken hgo hturn (by omega) hnext
              · exact ih (by omega) hnext hok

end Best

end Turns
