import Mathlib.Algebra.Order.Ring.Nat
import Mathlib.Tactic.GCongr
import Mathlib.Tactic.Linarith

/-!
# Tables of slopes

A quantity that falls along straight lines is given by a table: it starts with a value at a point,
each entry is the point and the value at which the next line ends, and after the last entry it stays
as it is.  Between two points it is computed with a division that is rounded down, so that it is a
step function.

* `valueAt_le` and `lastValue_le_valueAt`: it stays between its first and its last value.
* `valueAt_antitone`: it never rises.
* `sub_share_mono`: what is left of an amount after a share of it is taken grows with the amount, as
  long as the share does not, whatever the steps of the share are.
-/

namespace SlopeTable

/-- The value at `p`, if the last line ended at `x₀` with `y₀`. -/
def valueAt (p : ℕ) : List (ℕ × ℕ) → ℕ → ℕ → ℕ
  | [], _, y₀ => y₀
  | (x, y) :: table, x₀, y₀ =>
      if p < x then y₀ - (y₀ - y) * (p - x₀) / (x - x₀) else valueAt p table x y

def lastValue : List (ℕ × ℕ) → ℕ → ℕ
  | [], y₀ => y₀
  | (_, y) :: table, _ => lastValue table y

/-- The points of the table rise and its values do not. -/
def Falls : List (ℕ × ℕ) → ℕ → ℕ → Prop
  | [], _, _ => True
  | (x, y) :: table, x₀, y₀ => x₀ < x ∧ y ≤ y₀ ∧ Falls table x y

variable {table : List (ℕ × ℕ)} {p q x x₀ y y₀ : ℕ}

lemma fall_le (x₀ y₀ y : ℕ) (hp : p ≤ x) : (y₀ - y) * (p - x₀) / (x - x₀) ≤ y₀ - y := by
  rcases Nat.eq_zero_or_pos (x - x₀) with hzero | hpos
  · rw [hzero, Nat.div_zero]
    exact Nat.zero_le _
  · refine Nat.div_le_of_le_mul ?_
    rw [mul_comm (x - x₀)]
    exact Nat.mul_le_mul_left _ (Nat.sub_le_sub_right hp x₀)

section

variable (h : Falls table x₀ y₀)

include h

lemma valueAt_le : valueAt p table x₀ y₀ ≤ y₀ := by
  induction table generalizing x₀ y₀ with
  | nil => exact le_rfl
  | cons entry table ih =>
      obtain ⟨-, hy, hrest⟩ := h
      rw [valueAt]
      split_ifs
      · exact Nat.sub_le _ _
      · exact (ih hrest).trans hy

lemma lastValue_le_valueAt : lastValue table y₀ ≤ valueAt p table x₀ y₀ := by
  induction table generalizing x₀ y₀ with
  | nil => exact le_rfl
  | cons entry table ih =>
      obtain ⟨-, hy, hrest⟩ := h
      rw [lastValue, valueAt]
      split_ifs with hp
      · have hfall := fall_le x₀ y₀ entry.2 hp.le
        have hlast := (ih hrest).trans (valueAt_le hrest)
        omega
      · exact ih hrest

/-- **The value never rises**, within a line, from one line to the next, and after them. -/
lemma valueAt_antitone (hpq : p ≤ q) : valueAt q table x₀ y₀ ≤ valueAt p table x₀ y₀ := by
  induction table generalizing x₀ y₀ with
  | nil => exact le_rfl
  | cons entry table ih =>
      obtain ⟨-, hy, hrest⟩ := h
      rw [valueAt, valueAt]
      split_ifs with hq hp hp
      · refine Nat.sub_le_sub_left ?_ y₀
        gcongr
      · exact absurd (hpq.trans_lt hq) hp
      · have hfall := fall_le x₀ y₀ entry.2 hp.le
        have hend : valueAt q table entry.1 entry.2 ≤ entry.2 := valueAt_le hrest
        omega
      · exact ih hrest

end

/-- What is left after a share that does not rise grows with the amount. -/
lemma sub_share_mono {whole share share' : ℕ} (hwhole : 0 < whole) (hshare : share ≤ whole)
    (hle : share' ≤ share) (hpq : p ≤ q) : p - p * share / whole ≤ q - q * share' / whole := by
  obtain ⟨d, rfl⟩ := Nat.exists_eq_add_of_le hpq
  have htaken : (p + d) * share' / whole ≤ p * share / whole + d := by
    calc (p + d) * share' / whole
        ≤ (p * share + d * whole) / whole := by
          refine Nat.div_le_div_right ?_
          rw [Nat.add_mul]
          gcongr
          exact hle.trans hshare
      _ = p * share / whole + d := Nat.add_mul_div_right _ _ hwhole
  have hpart : p * share / whole ≤ p := Nat.div_le_of_le_mul (by rw [mul_comm]; gcongr)
  omega

end SlopeTable
