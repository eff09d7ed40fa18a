import Mathlib.Tactic.Linarith

/-!
# Trades against a constant product

A market holds two reserves and keeps their product from falling.  Against a reserve `R` of what
comes in and a reserve `Q` of what goes out, an input of `x` gives `out R Q x`, the most that leaves
the product of the reserves where it was, rounded down.

* `le_out_iff`: an output is given if and only if `R * o ≤ x * (Q - o)`, which is a statement
  without division (`Covers`).
* `product_le_iff`: that is, if and only if the product of the reserves does not fall.
* `Covers.add`: two trades in a row are covered by one trade of both inputs.  The reserve `R` may
  grow by more than the input in between, as it does where a fee stays in the market.
-/

namespace ConstantProduct

variable {R R' Q x x' o o' : ℕ}

/-- What an input gives. -/
def out (R Q x : ℕ) : ℕ := x * Q / (R + x)

/-- An input is enough for an output. -/
def Covers (R Q x o : ℕ) : Prop := R * o ≤ x * (Q - o)

lemma out_le (R Q x : ℕ) : out R Q x ≤ Q := by
  refine Nat.div_le_of_le_mul ?_
  exact Nat.mul_le_mul_right Q (Nat.le_add_left x R)

/-- A reserve is never emptied, unless nothing is there to weigh the input against. -/
lemma out_lt (hR : 0 < R) (hQ : 0 < Q) : out R Q x < Q := by
  rw [out, Nat.div_lt_iff_lt_mul (Nat.add_pos_left hR x), Nat.mul_comm Q]
  exact Nat.mul_lt_mul_of_pos_right (Nat.lt_add_of_pos_left hR) hQ

lemma out_of_empty (hx : 0 < x) : out 0 Q x = Q := by
  rw [out, Nat.zero_add, Nat.mul_div_cancel_left Q hx]

lemma le_out_iff (hpos : 0 < R + x) (ho : o ≤ Q) : o ≤ out R Q x ↔ Covers R Q x o := by
  obtain ⟨rest, rfl⟩ := Nat.exists_eq_add_of_le ho
  rw [out, Covers, Nat.le_div_iff_mul_le hpos, Nat.add_sub_cancel_left]
  constructor
  · intro h
    linarith
  · intro h
    linarith

lemma covers_out (hpos : 0 < R + x) : Covers R Q x (out R Q x) :=
  (le_out_iff hpos (out_le R Q x)).mp le_rfl

/-- The product of the reserves does not fall. -/
lemma product_le_iff (ho : o ≤ Q) : R * Q ≤ (R + x) * (Q - o) ↔ Covers R Q x o := by
  obtain ⟨rest, rfl⟩ := Nat.exists_eq_add_of_le ho
  rw [Covers, Nat.add_sub_cancel_left]
  constructor
  · intro h
    linarith
  · intro h
    linarith

/-- **Trades in a row.** -/
lemma Covers.add (h : Covers R Q x o) (h' : Covers R' (Q - o) x' o') (hR : R + x ≤ R')
    (ho : o ≤ Q) (ho' : o' ≤ Q - o) : Covers R Q (x + x') (o + o') := by
  obtain ⟨rest, rfl⟩ := Nat.exists_eq_add_of_le ho
  rw [Nat.add_sub_cancel_left] at h' ho'
  obtain ⟨rest, rfl⟩ := Nat.exists_eq_add_of_le ho'
  unfold Covers at h h' ⊢
  rw [Nat.add_sub_cancel_left] at h h'
  rw [← Nat.add_assoc, Nat.add_sub_cancel_left]
  -- what the first input would have paid for the second output is in the reserve by then
  have hkept : (R + x) * o' ≤ R' * o' := Nat.mul_le_mul_right o' hR
  linarith

end ConstantProduct
