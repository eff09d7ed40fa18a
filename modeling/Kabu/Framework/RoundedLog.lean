import Mathlib.Algebra.Order.Floor.Div
import Mathlib.Analysis.SpecialFunctions.Log.Basic
import Kabu.Framework.BinaryProduct

/-!
# Logarithms of rounded numbers

How far fixed-point powers and logarithms are from the exact ones, in terms of the real logarithm.
A number that is rounded down by less than one loses no more than its inverse of its logarithm
(`log_div_sub_log`), and everything else is a sum of such losses.

* Powers.  If the factors of a table are nearly the repeated squares of the first one, the products
  along the binary digits of an exponent are nearly the powers (`powers_of_squares`, `log_product`).
* Logarithms.  A number between one and two is squared over and over, and each time it reaches two
  it is halved and a binary digit of its logarithm is written down.  `Digits` is the invariant, and
  `Digits.iterate` says how much the digits can be off.
-/

namespace RoundedLog

open BinaryProduct Real

/-! ## Rounding -/

lemma log_sub_log_bounds {a b d : ℝ} (ha : 0 < a) (hab : a ≤ b) (hbd : b ≤ a + d) :
    0 ≤ log b - log a ∧ log b - log a ≤ d / a := by
  have hb : 0 < b := ha.trans_le hab
  refine ⟨sub_nonneg.mpr (log_le_log ha hab), ?_⟩
  calc log b - log a = log (b / a) := (log_div hb.ne' ha.ne').symm
    _ ≤ b / a - 1 := log_le_sub_one_of_pos (div_pos hb ha)
    _ = (b - a) / a := by rw [sub_div, div_self ha.ne']
    _ ≤ d / a := by gcongr; linarith

lemma log_div_sub_log {m k : ℕ} (hq : 0 < m / k) :
    0 ≤ log m - log k - log (m / k : ℕ) ∧
      log m - log k - log (m / k : ℕ) ≤ 1 / ((m / k : ℕ) : ℝ) := by
  obtain ⟨hk, hkm⟩ := Nat.div_pos_iff.mp hq
  have hk' : (0 : ℝ) < k := by exact_mod_cast hk
  have hm' : (0 : ℝ) < m := by exact_mod_cast hk.trans_le hkm
  have hlow : ((m / k : ℕ) : ℝ) ≤ (m : ℝ) / k := Nat.cast_div_le
  have hhigh : (m : ℝ) / k ≤ (m / k : ℕ) + 1 := by
    rw [div_le_iff₀ hk']
    have hlt := Nat.lt_mul_div_succ m hk
    have hle : m ≤ (m / k + 1) * k := by rw [mul_comm]; exact hlt.le
    exact_mod_cast hle
  rw [← log_div hm'.ne' hk'.ne']
  exact log_sub_log_bounds (by exact_mod_cast hq) hlow hhigh

lemma log_ceilDiv_sub_log {m k : ℕ} (hk : 0 < k) (hm : 0 < m) :
    0 ≤ log (m ⌈/⌉ k : ℕ) - (log m - log k) ∧
      log (m ⌈/⌉ k : ℕ) - (log m - log k) ≤ (k : ℝ) / m := by
  have hk' : (0 : ℝ) < k := by exact_mod_cast hk
  have hm' : (0 : ℝ) < m := by exact_mod_cast hm
  have hlow : (m : ℝ) / k ≤ (m ⌈/⌉ k : ℕ) := by
    rw [div_le_iff₀ hk', mul_comm]
    exact_mod_cast (ceilDiv_le_iff_le_mul hk).mp le_rfl
  have hhigh : ((m ⌈/⌉ k : ℕ) : ℝ) ≤ (m : ℝ) / k + 1 := by
    rw [div_add_one hk'.ne', le_div_iff₀ hk']
    have hle : (m ⌈/⌉ k) * k ≤ m + k := by
      rw [Nat.ceilDiv_eq_add_pred_div]
      exact (Nat.div_mul_le_self _ _).trans (by omega)
    exact_mod_cast hle
  have hbounds := log_sub_log_bounds (div_pos hm' hk') hlow hhigh
  rwa [log_div hm'.ne' hk'.ne', one_div_div] at hbounds

/-- Numbers that differ by a small part of them. -/
lemma abs_log_sub_log_le {a b N : ℕ} (ha : 0 < a) (hN : 0 < N) (h : a * N ≤ b * (N + 1))
    (h' : b * N ≤ a * (N + 1)) : |log a - log b| ≤ 1 / N := by
  have hb : 0 < b := by
    rcases Nat.eq_zero_or_pos b with rfl | hb
    · have := Nat.mul_pos ha hN
      omega
    · exact hb
  have hN' : (0 : ℝ) < N := by exact_mod_cast hN
  -- one of the two directions, for any two numbers
  have hone : ∀ c d : ℕ, 0 < c → 0 < d → c * N ≤ d * (N + 1) → log c - log d ≤ 1 / (N : ℝ) := by
    intro c d hc hd hle
    have hc' : (0 : ℝ) < c := by exact_mod_cast hc
    have hd' : (0 : ℝ) < d := by exact_mod_cast hd
    have hle' : (c : ℝ) * N ≤ d * (N + 1) := by exact_mod_cast hle
    calc log c - log d = log ((c : ℝ) / d) := (log_div hc'.ne' hd'.ne').symm
      _ ≤ (c : ℝ) / d - 1 := log_le_sub_one_of_pos (div_pos hc' hd')
      _ ≤ 1 / N := by
        rw [tsub_le_iff_right, div_le_iff₀ hd', div_add_one hN'.ne', div_mul_eq_mul_div,
          le_div_iff₀ hN']
        linarith
  rw [abs_le]
  have hba := hone b a hb ha h'
  exact ⟨by linarith, hone a b ha hb h⟩

/-! ## Powers -/

variable {M N : ℕ}

/-- Each factor is nearly the square of the one before it. -/
def Squares (M N : ℕ) : ℕ → List ℕ → Prop
  | _, [] => True
  | c, c' :: cs =>
      (c * c * N ≤ c' * M * (N + 1) ∧ c' * M * N ≤ c * c * (N + 1)) ∧ Squares M N c' cs

instance Squares.decidable (M N : ℕ) : ∀ (c : ℕ) (cs : List ℕ), Decidable (Squares M N c cs)
  | _, [] => isTrue trivial
  | _, c' :: cs => @instDecidableAnd _ _ _ (Squares.decidable M N c' cs)

/-- The factors are nearly the powers of one number, whose inverse has the logarithm `w`, to the
exponents 1, 2, 4 and so on. -/
def Powers (M : ℕ) (e : ℝ) : List ℕ → ℝ → Prop
  | [], _ => True
  | c :: cs, w => (0 < c ∧ |log c - log M + w| ≤ e) ∧ Powers M e cs (w + w)

lemma powers_of_squares (hM : 0 < M) (hN : 0 < N) {c : ℕ} {cs : List ℕ} {w e : ℝ} (hc : 0 < c)
    (hw : |log c - log M + w| ≤ e) (h : Squares M N c cs) :
    Powers M (2 ^ (cs.length + 1) * (e + 1 / N)) (c :: cs) w := by
  have hN' : (0 : ℝ) < N := by exact_mod_cast hN
  have hinv : (0 : ℝ) < 1 / N := one_div_pos.mpr hN'
  have he : 0 ≤ e := (abs_nonneg _).trans hw
  have hhead : e ≤ 2 ^ (cs.length + 1) * (e + 1 / N) :=
    calc e ≤ 1 * (e + 1 / N) := by linarith
      _ ≤ 2 ^ (cs.length + 1) * (e + 1 / N) := by
        gcongr
        exact one_le_pow₀ (by norm_num)
  induction cs generalizing c w e with
  | nil => exact ⟨⟨hc, hw.trans hhead⟩, trivial⟩
  | cons c' cs ih =>
      obtain ⟨⟨hle, hle'⟩, hrest⟩ := h
      have hc' : 0 < c' := by
        rcases Nat.eq_zero_or_pos c' with rfl | hc'
        · have := Nat.mul_pos (Nat.mul_pos hc hc) hN
          simp only [Nat.zero_mul] at hle
          omega
        · exact hc'
      have hsquare := abs_log_sub_log_le (Nat.mul_pos hc hc) hN hle hle'
      have hcR : (c : ℝ) ≠ 0 := by exact_mod_cast hc.ne'
      have hcR' : (c' : ℝ) ≠ 0 := by exact_mod_cast hc'.ne'
      have hMR : (M : ℝ) ≠ 0 := by exact_mod_cast hM.ne'
      push_cast at hsquare
      rw [log_mul hcR hcR, log_mul hcR' hMR] at hsquare
      have hw' : |log c' - log M + (w + w)| ≤ 2 * e + 1 / N := by
        rw [abs_le] at hw hsquare ⊢
        constructor <;> linarith
      have hdouble : (2 : ℝ) ^ (cs.length + 1) * ((2 * e + 1 / N) + 1 / N) =
          2 ^ ((c' :: cs).length + 1) * (e + 1 / N) := by
        rw [List.length_cons, pow_succ _ (cs.length + 1)]
        ring
      rw [← hdouble] at hhead ⊢
      refine ⟨⟨hc, hw.trans hhead⟩, ih hc' hw' hrest (by linarith) ?_⟩
      calc 2 * e + 1 / N ≤ 1 * ((2 * e + 1 / N) + 1 / N) := by linarith
        _ ≤ 2 ^ (cs.length + 1) * ((2 * e + 1 / N) + 1 / N) := by
          gcongr
          exact one_le_pow₀ (by norm_num)

/-- **Powers.**  Each digit adds the error of its factor and that of one rounding. -/
lemma log_product {cs : List ℕ} (hcs : ∀ c ∈ cs, c ≤ M) {e w : ℝ}
    (h : Powers M e cs w) {B : ℕ} (hB : 0 < B) {n x : ℕ} (hn : n < 2 ^ cs.length)
    (hprod : B ≤ product M cs n x) :
    |log (product M cs n x) - log x + n * w| ≤ cs.length * (e + 1 / B) := by
  induction cs generalizing n x w with
  | nil =>
      have hzero : n = 0 := by simpa using hn
      simp [product, hzero]
  | cons c cs ih =>
      obtain ⟨⟨hc, hcw⟩, hrest⟩ := h
      obtain ⟨-, hcs'⟩ := List.forall_mem_cons.mp hcs
      rw [List.length_cons, pow_succ] at hn
      rw [product] at hprod ⊢
      generalize hx' : (if n % 2 = 1 then x * c / M else x) = x' at hprod ⊢
      have hBx' : B ≤ x' := hprod.trans (product_le hcs' _ _)
      have hBR : (0 : ℝ) < B := by exact_mod_cast hB
      have hloss : 1 / (x' : ℝ) ≤ 1 / B := by
        gcongr
      have hinv : (0 : ℝ) ≤ 1 / B := (one_div_pos.mpr hBR).le
      have hdigits : (n : ℝ) = 2 * (n / 2 : ℕ) + (n % 2 : ℕ) := by
        exact_mod_cast (Nat.div_add_mod n 2).symm
      -- the digit itself
      have hdigit : |log x' - log x + (n % 2 : ℕ) * w| ≤ e + 1 / B := by
        rcases Nat.mod_two_eq_zero_or_one n with heven | hodd
        · rw [if_neg (by omega)] at hx'
          rw [heven, hx']
          simpa using add_nonneg ((abs_nonneg _).trans hcw) hinv
        · rw [if_pos hodd] at hx'
          have hpos : 0 < x * c / M := by omega
          have hx : x ≠ 0 := by
            rintro rfl
            simp at hpos
          have hround := log_div_sub_log hpos
          rw [hx'] at hround
          push_cast at hround
          rw [log_mul (by exact_mod_cast hx) (by exact_mod_cast hc.ne')] at hround
          rw [hodd, Nat.cast_one, one_mul]
          rw [abs_le] at hcw ⊢
          constructor <;> linarith
      have htail := ih hcs' hrest (by omega) hprod
      rw [List.length_cons]
      push_cast
      rw [hdigits]
      rw [abs_le] at hdigit htail ⊢
      constructor <;> linarith

/-! ## Logarithms -/

variable {one : ℕ}

/-- A square, halved if it reaches two, and the digits with one more. -/
def squareStep (one : ℕ) (s : ℕ × ℤ) : ℕ × ℤ :=
  let r := s.1 * s.1 / one
  let f := r / (2 * one)
  (r / 2 ^ f, 2 * s.2 + f)

/-- The digits found so far are those of `y`, and the rest of it is the logarithm of the number. -/
structure Digits (one : ℕ) (y e : ℝ) (s : ℕ × ℤ) : Prop where
  one_le : one ≤ s.1
  lt_two : s.1 < 2 * one
  lower : s.2 * log 2 + (log s.1 - log one) ≤ y
  upper : y ≤ s.2 * log 2 + (log s.1 - log one) + e

lemma squareStep_range {s : ℕ × ℤ} (hone : 0 < one) (hlow : one ≤ s.1) (hhigh : s.1 < 2 * one) :
    s.1 * s.1 / one / (2 * one) ≤ 1 ∧ one ≤ (squareStep one s).1 ∧
      (squareStep one s).1 < 2 * one := by
  have hr : one ≤ s.1 * s.1 / one :=
    (Nat.le_div_iff_mul_le hone).mpr (Nat.mul_le_mul hlow hlow)
  have hr' : s.1 * s.1 / one < 4 * one := by
    rw [Nat.div_lt_iff_lt_mul hone]
    nlinarith
  dsimp only [squareStep]
  generalize s.1 * s.1 / one = r at hr hr' ⊢
  have hdigit : r / (2 * one) ≤ 1 := by
    have hlt : r / (2 * one) < 2 := by
      rw [Nat.div_lt_iff_lt_mul (by omega)]
      omega
    omega
  refine ⟨hdigit, ?_⟩
  rcases Nat.le_one_iff_eq_zero_or_eq_one.mp hdigit with hzero | hone'
  · rw [hzero, pow_zero, Nat.div_one]
    exact ⟨hr, by
      rcases Nat.div_eq_zero_iff.mp hzero with h | h
      · omega
      · exact h⟩
  · have htwo : 2 * one ≤ r := by
      have hmul := Nat.div_mul_le_self r (2 * one)
      rw [hone'] at hmul
      omega
    rw [hone', pow_one]
    omega

namespace Digits

variable {y e : ℝ} {s : ℕ × ℤ}

lemma next (hone : 0 < one) (h : Digits one y e s) :
    Digits one (2 * y) (2 * e + 1 / one) (squareStep one s) := by
  obtain ⟨-, hlow, hhigh⟩ := squareStep_range hone h.one_le h.lt_two
  have hs : (s.1 : ℝ) ≠ 0 := by exact_mod_cast (hone.trans_le h.one_le).ne'
  have hone' : (one : ℝ) ≠ 0 := by exact_mod_cast hone.ne'
  generalize hf : s.1 * s.1 / one / (2 * one) = f
  -- the two divisions are one
  have hnext : (squareStep one s).1 = s.1 * s.1 / (one * 2 ^ f) := by
    rw [← Nat.div_div_eq_div_mul, ← hf]
    rfl
  have hround := log_div_sub_log (m := s.1 * s.1) (k := one * 2 ^ f)
    (hnext ▸ hone.trans_le hlow)
  rw [← hnext] at hround
  push_cast at hround
  rw [log_mul hs hs, log_mul hone' (by positivity), log_pow] at hround
  have hloss : 1 / ((squareStep one s).1 : ℝ) ≤ 1 / one := by
    gcongr
  have hE : (squareStep one s).2 = 2 * s.2 + (f : ℤ) := by
    rw [← hf]
    rfl
  have hlower := h.lower
  have hupper := h.upper
  refine ⟨hlow, hhigh, ?_, ?_⟩
  · rw [hE]
    push_cast
    linarith
  · rw [hE]
    push_cast
    linarith

/-- **Logarithms.**  After some squarings the digits are those of a multiple of `y`. -/
lemma iterate (hone : 0 < one) (h : Digits one y e s) (k : ℕ) :
    Digits one (2 ^ k * y) (2 ^ k * (e + 1 / one) - 1 / one) ((squareStep one)^[k] s) := by
  induction k with
  | zero => simpa using h
  | succ k ih =>
      have hnext := ih.next hone
      rw [← Function.iterate_succ_apply' (squareStep one) k s] at hnext
      have hy : 2 * (2 ^ k * y) = 2 ^ (k + 1) * y := by ring
      have he : 2 * (2 ^ k * (e + 1 / one) - 1 / one) + 1 / one =
          2 ^ (k + 1) * (e + 1 / one) - 1 / (one : ℝ) := by ring
      rwa [hy, he] at hnext

lemma bounds (hone : 0 < one) (h : Digits one y e s) :
    s.2 * log 2 ≤ y ∧ y ≤ (s.2 + 1) * log 2 + e := by
  have hone' : (0 : ℝ) < one := by exact_mod_cast hone
  have hlow : log one ≤ log s.1 := log_le_log hone' (by exact_mod_cast h.one_le)
  have hhigh : log s.1 ≤ log 2 + log one := by
    rw [← log_mul (by norm_num) hone'.ne']
    refine log_le_log (hone'.trans_le (by exact_mod_cast h.one_le)) ?_
    exact_mod_cast h.lt_two.le
  have hlower := h.lower
  have hupper := h.upper
  constructor <;> linarith

end Digits

end RoundedLog
