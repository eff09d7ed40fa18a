import Mathlib.Tactic.Linarith
import Mathlib.Tactic.Ring

/-!
# Products along the binary digits of a number

In fixed-point arithmetic a power is computed from a table, with one factor for each binary digit of
the exponent, and every product is rounded down.  The rounding makes the result inexact, but it can
still be ordered as the power is.

`product M cs n x` multiplies `x` by the factors of `cs` at which `n` has a one, as numbers with the
unit `M`.  Counting up by one turns some low ones into zeros and the zero above them into a one.
The result does not grow if the factor of the one that is new is never greater than the product of
those that are gone.  That is `Carries`, a condition on the table alone, and `product_antitone` is
the result.
-/

namespace BinaryProduct

variable (M : ℕ)

/-- The product of `x` and the factors at which `n` has a one, lowest digit first. -/
def product : List ℕ → ℕ → ℕ → ℕ
  | [], _, x => x
  | c :: cs, n, x => product cs (n / 2) (if n % 2 = 1 then x * c / M else x)

/-- No factor is greater than the product of `x` and all the factors before it. -/
def Carries : List ℕ → ℕ → Prop
  | [], _ => True
  | c :: cs, x => c ≤ x ∧ Carries cs (x * c / M)

instance Carries.decidable : ∀ (cs : List ℕ) (x : ℕ), Decidable (Carries M cs x)
  | [], _ => isTrue trivial
  | c :: cs, x => @instDecidableAnd _ _ _ (Carries.decidable cs (x * c / M))

variable {M}

lemma product_mono {cs : List ℕ} {n x y : ℕ} (h : x ≤ y) : product M cs n x ≤ product M cs n y := by
  induction cs generalizing n x y with
  | nil => exact h
  | cons c cs ih =>
      refine ih ?_
      split_ifs
      · exact Nat.div_le_div_right (Nat.mul_le_mul_right c h)
      · exact h

lemma product_le {cs : List ℕ} (hcs : ∀ c ∈ cs, c ≤ M) (n x : ℕ) : product M cs n x ≤ x := by
  induction cs generalizing n x with
  | nil => exact le_rfl
  | cons c cs ih =>
      obtain ⟨hc, hcs⟩ := List.forall_mem_cons.mp hcs
      refine (ih hcs _ _).trans ?_
      split_ifs
      · exact Nat.div_le_of_le_mul (by rw [mul_comm M]; exact Nat.mul_le_mul_left x hc)
      · exact le_rfl

/-- One step of the count.  The digits below are ones, with the product `x`, and become zeros. -/
lemma product_succ_le {cs : List ℕ} (hM : 0 < M) {n x : ℕ} (hcs : Carries M cs x)
    (hn : n + 1 < 2 ^ cs.length) : product M cs (n + 1) M ≤ product M cs n x := by
  induction cs generalizing n x with
  | nil => simp at hn
  | cons c cs ih =>
      obtain ⟨hc, hcs⟩ := hcs
      rw [List.length_cons, pow_succ] at hn
      rw [product, product]
      rcases Nat.mod_two_eq_zero_or_one n with heven | hodd
      · have hhalf : (n + 1) / 2 = n / 2 := by omega
        rw [if_pos (by omega), if_neg (by omega), hhalf, Nat.mul_div_cancel_left c hM]
        exact product_mono hc
      · have hhalf : (n + 1) / 2 = n / 2 + 1 := by omega
        rw [if_neg (by omega), if_pos hodd, hhalf]
        exact ih hcs (by omega)

/-- **Order.** -/
lemma product_antitone {cs : List ℕ} (hM : 0 < M) (hcs : Carries M cs M) {m n : ℕ} (h : m ≤ n)
    (hn : n < 2 ^ cs.length) : product M cs n M ≤ product M cs m M := by
  induction n, h using Nat.le_induction with
  | base => exact le_rfl
  | succ n _ ih => exact (product_succ_le hM hcs hn).trans (ih (by omega))

end BinaryProduct
