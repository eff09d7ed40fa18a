import Mathlib.Algebra.Order.Floor.Div
import Mathlib.Tactic.Linarith
import Mathlib.Tactic.Ring

/-!
# Moving along a price curve in whole numbers

A position with two sides changes its price when one side is paid in and the other is paid out.
Between a lower price `p` and an upper price `q` the base side changes by `N * (1 / p - 1 / q)` and
the quote side by `L * (q - p) / K`.  What is paid in is rounded up and what is paid out is rounded
down, and so are the prices that are computed from an amount: the price an amount pays for, and the
price that is needed for an amount.

Rounding up and rounding down are adjoint to multiplication, and for that reason each price is
adjoint to its amount: an amount pays for a price exactly if the price is no farther than the one
computed from the amount (`baseUp_le_iff`, `quoteUp_le_iff`), and a price gives an amount exactly if
it is no nearer (`le_baseDown_iff`, `le_quoteDown_iff`).  Nothing else about the rounding is needed.

A fee that is a share of what is paid in total is adjoint in the same way (`add_fee_le_iff`).
-/

namespace RoundedCurve

variable {n d b c k : ℕ}

/-! ## Rounding up -/

lemma le_ceilDiv_mul (hd : 0 < d) (n : ℕ) : n ≤ d * (n ⌈/⌉ d) :=
  (ceilDiv_le_iff_le_mul hd).mp le_rfl

lemma ceilDiv_mono (hd : 0 < d) (h : n ≤ k) : n ⌈/⌉ d ≤ k ⌈/⌉ d :=
  (ceilDiv_le_iff_le_mul hd).mpr (h.trans (le_ceilDiv_mul hd k))

lemma ceilDiv_of_dvd (hd : 0 < d) (h : n % d = 0) : n ⌈/⌉ d = n / d := by
  refine le_antisymm ((ceilDiv_le_iff_le_mul hd).mpr ?_)
    (floorDiv_le_ceilDiv (a := d) (b := n))
  exact (Nat.mul_div_cancel' (Nat.dvd_of_mod_eq_zero h)).ge

lemma ceilDiv_of_not_dvd (hd : 0 < d) (h : n % d ≠ 0) : n ⌈/⌉ d = n / d + 1 := by
  have hsplit := Nat.div_add_mod n d
  have hrest := Nat.mod_lt n hd
  refine le_antisymm ((ceilDiv_le_iff_le_mul hd).mpr ?_) (Nat.lt_of_not_le fun hle => ?_)
  · rw [Nat.mul_add, Nat.mul_one]
    omega
  · have := (ceilDiv_le_iff_le_mul hd).mp hle
    omega

lemma ceilDiv_ceilDiv (hb : 0 < b) (hc : 0 < c) : (n ⌈/⌉ b) ⌈/⌉ c = n ⌈/⌉ (b * c) := by
  refine eq_of_forall_ge_iff fun k => ?_
  rw [ceilDiv_le_iff_le_mul hc, ceilDiv_le_iff_le_mul hb, ceilDiv_le_iff_le_mul (Nat.mul_pos hb hc),
    mul_assoc]

lemma ceilDiv_pos (hd : 0 < d) (hn : 0 < n) : 0 < n ⌈/⌉ d := by
  by_contra hzero
  have := (ceilDiv_le_iff_le_mul hd).mp (not_lt.mp hzero)
  omega

lemma ceilDiv_le_self (hd : 0 < d) : n ⌈/⌉ d ≤ n :=
  (ceilDiv_le_iff_le_mul hd).mpr (Nat.le_mul_of_pos_left n hd)

/-! ## Fees -/

/-- **Fees.**  An amount and the fee on it can be paid out of `r` exactly if the amount can be paid
out of what the fee leaves of `r`. -/
lemma add_fee_le_iff {M f a r : ℕ} (hf : f < M) :
    a + a * f ⌈/⌉ (M - f) ≤ r ↔ a ≤ r * (M - f) / M := by
  obtain ⟨g, rfl⟩ : ∃ g, M = f + g := ⟨M - f, by omega⟩
  rw [Nat.add_sub_cancel_left]
  have hg : 0 < g := by omega
  rw [Nat.le_div_iff_mul_le (by omega)]
  constructor
  · intro h
    obtain ⟨s, rfl⟩ : ∃ s, r = a + s := ⟨r - a, by omega⟩
    have hfee : a * f ≤ g * s := (ceilDiv_le_iff_le_mul hg).mp (by omega)
    nlinarith
  · intro h
    have hle : a ≤ r := by
      by_contra hlt
      nlinarith
    obtain ⟨s, rfl⟩ := Nat.exists_eq_add_of_le hle
    have hfee : a * f ⌈/⌉ g ≤ s := (ceilDiv_le_iff_le_mul hg).mpr (by nlinarith)
    omega

/-! ## The two sides -/

section Sides

variable (N K L p q : ℕ)

/-- The base side between two prices, rounded up. -/
def baseUp : ℕ := N * (q - p) ⌈/⌉ (p * q)

/-- The base side between two prices, rounded down. -/
def baseDown : ℕ := N * (q - p) / (p * q)

/-- The quote side between two prices, rounded up. -/
def quoteUp : ℕ := L * (q - p) ⌈/⌉ K

/-- The quote side between two prices, rounded down. -/
def quoteDown : ℕ := L * (q - p) / K

variable {N K L p q} {a o : ℕ}

/-- What the base amount `a` pays for, going down from `q`. -/
lemma baseUp_le_iff (hp : 0 < p) (hpq : p ≤ q) (hN : 0 < N) :
    baseUp N p q ≤ a ↔ N * q ⌈/⌉ (N + a * q) ≤ p := by
  obtain ⟨e, rfl⟩ := Nat.exists_eq_add_of_le hpq
  rw [baseUp, ceilDiv_le_iff_le_mul (Nat.mul_pos hp (by omega)), ceilDiv_le_iff_le_mul (by omega),
    Nat.add_sub_cancel_left]
  constructor <;> intro h <;> nlinarith

/-- What has to be reached for the base amount `o`, going up from `p`. -/
lemma le_baseDown_iff (hp : 0 < p) (hpq : p ≤ q) (hN : 0 < N) :
    o ≤ baseDown N p q ↔ o * p < N ∧ N * p ⌈/⌉ (N - o * p) ≤ q := by
  rw [baseDown, Nat.le_div_iff_mul_le (Nat.mul_pos hp (by omega))]
  rcases lt_or_ge (o * p) N with hlt | hge
  · obtain ⟨e, rfl⟩ := Nat.exists_eq_add_of_le hpq
    obtain ⟨s, hs⟩ : ∃ s, N = o * p + s := ⟨N - o * p, by omega⟩
    rw [Nat.add_sub_cancel_left, ceilDiv_le_iff_le_mul (by omega), hs, Nat.add_sub_cancel_left]
    constructor
    · intro h
      exact ⟨by omega, by nlinarith⟩
    · rintro ⟨-, h⟩
      nlinarith
  · refine iff_of_false (fun h => ?_) (fun h => absurd h.1 (not_lt_of_ge hge))
    have hq : 0 < q := by omega
    have hless : N * (q - p) < N * q := (Nat.mul_lt_mul_left hN).mpr (by omega)
    nlinarith

lemma ceilDiv_add_le (hN : 0 < N) : N * q ⌈/⌉ (N + a * q) ≤ q := by
  rw [ceilDiv_le_iff_le_mul (by omega)]
  exact Nat.mul_le_mul_right _ (Nat.le_add_right _ _)

lemma le_ceilDiv_sub (h : o * p < N) : p ≤ N * p ⌈/⌉ (N - o * p) := by
  have hcover := le_ceilDiv_mul (Nat.sub_pos_of_lt h) (N * p)
  by_contra hless
  have hdrop := Nat.sub_le N (o * p)
  nlinarith

/-- A divisor that is rounded down gives a price that is rounded up once more. -/
lemma ceilDiv_add_le_ceilDiv_floor (hN : 0 < N) (ha : 0 < a) :
    N * q ⌈/⌉ (N + a * q) ≤ N ⌈/⌉ (N / q + a) := by
  have hfloor := Nat.div_mul_le_self N q
  have hcover := le_ceilDiv_mul (Nat.add_pos_right (N / q) ha) N
  rw [ceilDiv_le_iff_le_mul (by omega)]
  calc N * q ≤ (N / q + a) * (N ⌈/⌉ (N / q + a)) * q := Nat.mul_le_mul_right q hcover
    _ = (N / q * q + a * q) * (N ⌈/⌉ (N / q + a)) := by ring
    _ ≤ (N + a * q) * (N ⌈/⌉ (N / q + a)) :=
        Nat.mul_le_mul_right _ (Nat.add_le_add_right hfloor _)

lemma ceilDiv_floor_le (hq : 0 < q) (ha : 0 < a) : N ⌈/⌉ (N / q + a) ≤ q := by
  rw [ceilDiv_le_iff_le_mul (Nat.add_pos_right _ ha)]
  have := Nat.lt_mul_div_succ N hq
  nlinarith

/-- What the quote amount `a` pays for, going up from `p`. -/
lemma quoteUp_le_iff (hK : 0 < K) (hL : 0 < L) : quoteUp K L p q ≤ a ↔ q - p ≤ a * K / L := by
  rw [quoteUp, ceilDiv_le_iff_le_mul hK, Nat.le_div_iff_mul_le hL, mul_comm K a, mul_comm L]

/-- What has to be reached for the quote amount `o`, going down from `q`. -/
lemma le_quoteDown_iff (hK : 0 < K) (hL : 0 < L) :
    o ≤ quoteDown K L p q ↔ o * K ⌈/⌉ L ≤ q - p := by
  rw [quoteDown, Nat.le_div_iff_mul_le hK, ceilDiv_le_iff_le_mul hL]

end Sides

end RoundedCurve
