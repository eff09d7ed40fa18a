import Mathlib.Data.List.Forall2

/-!
# Loops that stop after a number of rounds

A search that improves a state round by round: each round either returns the state as it is, or
stops and has the state checked, or goes on with another state, and after a fixed number of rounds
the state is checked as well.  Rounds and checks may fail.

`run_ok` is the rule for such loops.  An invariant that survives every round that goes on holds of
the state that is returned, and that state was either returned by a round or has passed a check.  A
condition on the rounds of the run can be assumed along the way (`EveryRound`).

Rounds are made of computations that may fail and of plain loops over lists, for which `bind_ok`,
`foldlM_ok` and `forall₂_of_mapM` are the rules.
-/

namespace Rounds

section Fallible

universe u

variable {A ε : Type*} {B C : Type u} {f : B → Except ε C} {x : Except ε B}

lemma bind_ok {c : C} (h : x >>= f = .ok c) :
    ∃ b, x = .ok b ∧ f b = .ok c := by
  cases x with
  | error e => simp [bind, Except.bind] at h
  | ok b => exact ⟨b, rfl, h⟩

lemma bind_ok_iff {c : C} :
    x >>= f = .ok c ↔ ∃ b, x = .ok b ∧ f b = .ok c := by
  constructor
  · exact bind_ok
  · rintro ⟨b, rfl, h⟩
    exact h

lemma bind_congr {f g : B → Except ε C} (h : ∀ b, x = .ok b → f b = g b) :
    x >>= f = x >>= g := by
  cases x with
  | error e => rfl
  | ok b => exact h b rfl

lemma bind_error_iff {e : ε} :
    x >>= f = .error e ↔ x = .error e ∨ ∃ b, x = .ok b ∧ f b = .error e := by
  cases x <;> simp [bind, Except.bind]

lemma bind_ne_error {e : ε} (hx : x ≠ .error e) (hf : ∀ b, x = .ok b → f b ≠ .error e) :
    x >>= f ≠ .error e := by
  intro h
  rcases bind_error_iff.mp h with h | ⟨b, hb, h⟩
  · exact hx h
  · exact hf b hb h

lemma exists_of_isOk (h : x.isOk = true) : ∃ b, x = .ok b := by
  cases x with
  | error e => simp [Except.isOk, Except.toBool] at h
  | ok b => exact ⟨b, rfl⟩

/-- What holds at the start of a loop and survives its body holds at its end. -/
lemma foldlM_ok {f : B → A → Except ε B} {l : List A} {Inv : B → Prop}
    (hstep : ∀ b, ∀ a ∈ l, ∀ b', Inv b → f b a = .ok b' → Inv b') {b r : B} (hb : Inv b)
    (h : l.foldlM f b = .ok r) : Inv r := by
  induction l generalizing b with
  | nil =>
      cases Except.ok.inj h
      exact hb
  | cons a l ih =>
      rw [List.foldlM_cons] at h
      obtain ⟨b', hbody, hrest⟩ := bind_ok h
      exact ih (fun b c hc => hstep b c (List.mem_cons_of_mem a hc))
        (hstep b a List.mem_cons_self b' hb hbody) hrest

lemma forall₂_of_mapM {f : A → Option B} {l : List A} {l' : List B} (h : l.mapM f = some l') :
    List.Forall₂ (fun a b => f a = some b) l l' := by
  induction l generalizing l' with
  | nil =>
      cases Option.some.inj h
      exact .nil
  | cons a l ih =>
      rw [List.mapM_cons] at h
      obtain ⟨b, hb, h⟩ := Option.bind_eq_some_iff.mp h
      obtain ⟨rest, hrest, h⟩ := Option.bind_eq_some_iff.mp h
      cases Option.some.inj h
      exact .cons hb (ih hrest)

end Fallible

/-- What a round ends with. -/
inductive Verdict (S M : Type*)
  | leave
  | check (message : M)
  | go (next : S)

def Verdict.isCheck {S M : Type*} : Verdict S M → Bool
  | .check _ => true
  | _ => false

variable {S M R ε : Type*} (round : S → Except ε (Verdict S M)) (leave : S → R)
  (check : M → S → Except ε R) (late : M)

def run : ℕ → S → Except ε R
  | 0, s => check late s
  | n + 1, s => (round s).bind fun verdict =>
      match verdict with
      | .leave => .ok (leave s)
      | .check message => check message s
      | .go next => run n next

/-- The condition holds of the state of each round. -/
def EveryRound (P : S → Prop) : ℕ → S → Prop
  | 0, _ => True
  | n + 1, s => P s ∧ ∀ next, round s = .ok (.go next) → EveryRound P n next

variable {round leave check late}

lemma everyRound_of_forall {P : S → Prop} (h : ∀ s, P s) (n : ℕ) (s : S) :
    EveryRound round P n s := by
  induction n generalizing s with
  | zero => trivial
  | succ n ih => exact ⟨h s, fun next _ => ih next⟩

/-- **Loops.**  What the loop returns comes from a state with the invariant, in which a round has
left the loop or a check was passed.  The invariant may depend on the number of rounds left. -/
lemma run_ok {P : S → Prop} {I : ℕ → S → Prop}
    (hstep : ∀ n s next, I (n + 1) s → P s → round s = .ok (.go next) → I n next) {n : ℕ}
    {s : S} (hrounds : EveryRound round P n s) (hs : I n s) {r : R}
    (h : run round leave check late n s = .ok r) :
    ∃ k s', I k s' ∧ (P s' ∧ round s' = .ok .leave ∧ leave s' = r ∨
      ∃ message, check message s' = .ok r) := by
  induction n generalizing s with
  | zero => exact ⟨0, s, hs, Or.inr ⟨late, h⟩⟩
  | succ n ih =>
      obtain ⟨hP, hnext⟩ := hrounds
      cases hround : round s with
      | error e =>
          rw [run, hround] at h
          simp [Except.bind] at h
      | ok verdict =>
          rw [run, hround] at h
          cases verdict with
          | leave => exact ⟨n + 1, s, hs, Or.inl ⟨hP, hround, Except.ok.inj h⟩⟩
          | check message => exact ⟨n + 1, s, hs, Or.inr ⟨message, h⟩⟩
          | go next => exact ih (hnext next hround) (hstep n s next hs hP hround) h

lemma everyRound_of_inv {P I : S → Prop} (h : ∀ s, I s → P s)
    (hinv : ∀ s next, I s → round s = .ok (.go next) → I next) (n : ℕ) {s : S} (hs : I s) :
    EveryRound round P n s := by
  induction n generalizing s with
  | zero => trivial
  | succ n ih => exact ⟨h s hs, fun next hnext => ih (hinv s next hs hnext)⟩

/-- Conditions that say the same of the states of an invariant. -/
lemma everyRound_congr {P Q I : S → Prop} (h : ∀ s, I s → (P s ↔ Q s))
    (hinv : ∀ s next, I s → round s = .ok (.go next) → I next) (n : ℕ) {s : S} (hs : I s) :
    EveryRound round P n s ↔ EveryRound round Q n s := by
  induction n generalizing s with
  | zero => exact Iff.rfl
  | succ n ih =>
      exact and_congr (h s hs) (forall_congr' fun next =>
        forall_congr' fun hnext => ih (hinv s next hs hnext))

/-- **Loops that return.**  If the checks do, the loop returns if all its rounds do. -/
lemma exists_run_iff (hcheck : ∀ message s, ∃ r, check message s = .ok r) (n : ℕ) (s : S) :
    (∃ r, run round leave check late n s = .ok r) ↔
      EveryRound round (fun s => ∃ verdict, round s = .ok verdict) n s := by
  induction n generalizing s with
  | zero => exact iff_of_true (hcheck late s) trivial
  | succ n ih =>
      rw [run, EveryRound]
      cases hround : round s with
      | error e => simp [Except.bind]
      | ok verdict =>
          cases verdict with
          | leave => simp [Except.bind]
          | check message => simpa [Except.bind] using hcheck message s
          | go next => simpa [Except.bind] using ih next

end Rounds
