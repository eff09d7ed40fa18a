import Mathlib.Algebra.Order.Field.Rat
import Mathlib.Data.Nat.Cast.Order.Field
import Mathlib.Tactic.FieldSimp
import Kabu.Defi.SwapMath
import Kabu.Defi.TickMath

/-!
# The contract of one swap step

A step that returns has moved the price towards the target and not past it.  It has charged no more
than what remains, and exactly that if it has stopped short of the target.  The rounding is in
favour of the pool: what comes in is at least, and what goes out at most, the exact amount for the
move, and the fee is at least its share of what comes in.

The exact amounts are rational numbers, `exactIn` and `exactOut`.
-/

namespace Kabu

open RoundedCurve SqrtPriceMath TickMath

namespace SwapMath

/-! ## Exact amounts -/

/-- The exact amount of token 0 between two prices. -/
def exactBase (L p q : ℕ) : ℚ := L * resolution * (1 / p - 1 / q)

/-- The exact amount of token 1 between two prices. -/
def exactQuote (L p q : ℕ) : ℚ := L * (q - p) / resolution

/-- What comes in, exactly. -/
def exactIn (zeroForOne : Bool) (L p q : ℕ) : ℚ :=
  if zeroForOne then exactBase L q p else exactQuote L p q

/-- What goes out, exactly. -/
def exactOut (zeroForOne : Bool) (L p q : ℕ) : ℚ :=
  if zeroForOne then exactQuote L q p else exactBase L p q

section Exact

variable {n d L p q : ℕ}

lemma div_le_ceilDiv (hd : 0 < d) : (n : ℚ) / d ≤ (n ⌈/⌉ d : ℕ) := by
  rw [div_le_iff₀ (by exact_mod_cast hd)]
  have hcover := le_ceilDiv_mul hd n
  rw [mul_comm] at hcover
  exact_mod_cast hcover

lemma exactBase_eq (hp : 0 < p) (hpq : p ≤ q) :
    exactBase L p q = ((L * resolution * (q - p) : ℕ) : ℚ) / (p * q : ℕ) := by
  have hp' : (p : ℚ) ≠ 0 := by positivity
  have hq' : (q : ℚ) ≠ 0 := by
    have : 0 < q := by omega
    positivity
  rw [exactBase, Nat.cast_mul, Nat.cast_mul, Nat.cast_sub hpq, Nat.cast_mul]
  field_simp

lemma exactQuote_eq (hpq : p ≤ q) :
    exactQuote L p q = ((L * (q - p) : ℕ) : ℚ) / resolution := by
  rw [exactQuote, Nat.cast_mul, Nat.cast_sub hpq]

variable {zeroForOne : Bool}

lemma exactIn_le_amountIn (hp : 0 < p) (hq : 0 < q) (h : Ahead zeroForOne p q) :
    exactIn zeroForOne L p q ≤ amountIn zeroForOne L p q := by
  cases zeroForOne with
  | true =>
      rw [amountIn_true, exactIn, if_pos rfl, exactBase_eq hq h]
      exact div_le_ceilDiv (Nat.mul_pos hq hp)
  | false =>
      rw [amountIn_false, exactIn, if_neg (by simp), exactQuote_eq h]
      exact div_le_ceilDiv resolution_pos

lemma amountOut_le_exactOut (hp : 0 < p) (h : Ahead zeroForOne p q) :
    (amountOut zeroForOne L p q : ℚ) ≤ exactOut zeroForOne L p q := by
  cases zeroForOne with
  | true =>
      rw [amountOut_true, exactOut, if_pos rfl, exactQuote_eq h]
      exact Nat.cast_div_le
  | false =>
      rw [amountOut_false, exactOut, if_neg (by simp), exactBase_eq hp h]
      exact Nat.cast_div_le

end Exact

/-! ## The contract -/

/-- What a step promises.  A remaining amount that is negative is an output. -/
structure MeetsContract (current target : U256) (liquidity : U128) (remaining : I256)
    (feePips : UInt32) (step : ComputedStep) : Prop where
  between : min current.toNat target.toNat ≤ step.sqrtRatioNext.toNat ∧
    step.sqrtRatioNext.toNat ≤ max current.toNat target.toNat
  input : 0 ≤ remaining.toInt →
    (step.amountIn.toNat : ℤ) + step.feeAmount.toNat ≤ remaining.toInt ∧
      (step.sqrtRatioNext ≠ target →
        (step.amountIn.toNat : ℤ) + step.feeAmount.toNat = remaining.toInt)
  output : remaining.toInt < 0 →
    (step.amountOut.toNat : ℤ) ≤ -remaining.toInt ∧
      (step.sqrtRatioNext ≠ target → (step.amountOut.toNat : ℤ) = -remaining.toInt)
  exactIn_le : exactIn (decide (target ≤ current)) liquidity.toNat current.toNat
    step.sqrtRatioNext.toNat ≤ step.amountIn.toNat
  le_exactOut : (step.amountOut.toNat : ℚ) ≤ exactOut (decide (target ≤ current)) liquidity.toNat
    current.toNat step.sqrtRatioNext.toNat
  fee_ge : (step.amountIn.toNat : ℚ) * feePips.toNat / (1000000 - feePips.toNat) ≤
    step.feeAmount.toNat

section Contract

variable {current target : U256} {liquidity : U128} {remaining : I256} {feePips : UInt32}
  {step : ComputedStep}

lemma toInt_eq_of_nonneg {x : I256} (h : 0 ≤ x.toInt) : x.toInt = x.toNat := by
  have := toNat_lt_of_nonneg h
  rw [BitVec.toInt_eq_toNat_cond, if_pos (by omega)]

lemma neg_toInt_of_neg {x : I256} (h : ¬ 0 ≤ x.toInt) : -x.toInt = (-x).toNat := by
  have hlt := x.isLt
  rw [BitVec.toInt_eq_toNat_cond] at h ⊢
  split_ifs at h ⊢ with hsmall
  · omega
  · rw [BitVec.toNat_neg, Nat.mod_eq_of_lt (by omega)]
    omega

lemma share_le_feeOn {a f : ℕ} (hf : f < 1000000) :
    (a : ℚ) * f / (1000000 - f) ≤ (feeOn f a : ℕ) := by
  have hshare : (a : ℚ) * f / (1000000 - f) = ((a * f : ℕ) : ℚ) / (1000000 - f : ℕ) := by
    rw [Nat.cast_mul, Nat.cast_sub hf.le]
    norm_num
  rw [hshare]
  exact div_le_ceilDiv (by omega)

/-- **One step.** -/
theorem meetsContract_of_ok (hcurrent : minSqrtRatio ≤ current) (htarget : minSqrtRatio ≤ target)
    (hf : feePips.toNat < 1000000)
    (h : computeSwapStep current target liquidity remaining feePips = .ok step) :
    MeetsContract current target liquidity remaining feePips step := by
  have hmin : 0 < minSqrtRatio.toNat := by decide
  have hc : 0 < current.toNat := lt_of_lt_of_le hmin (BitVec.le_def.mp hcurrent)
  have ht : 0 < target.toNat := lt_of_lt_of_le hmin (BitVec.le_def.mp htarget)
  have hahead := ahead_target current target
  -- a step that goes all the way is the same for inputs and outputs
  have hreach : ∀ {zeroForOne : Bool}, Ahead zeroForOne current.toNat target.toNat →
      ReachesTarget zeroForOne current target liquidity.toNat feePips.toNat step →
      exactIn zeroForOne liquidity.toNat current.toNat step.sqrtRatioNext.toNat ≤
          step.amountIn.toNat ∧
        (step.amountOut.toNat : ℚ) ≤
          exactOut zeroForOne liquidity.toNat current.toNat step.sqrtRatioNext.toNat ∧
        (step.amountIn.toNat : ℚ) * feePips.toNat / (1000000 - feePips.toNat) ≤
          step.feeAmount.toNat := by
    intro zeroForOne hahead hreach
    rw [hreach.next_eq, hreach.amountIn_eq, hreach.amountOut_eq, hreach.fee_eq]
    exact ⟨exactIn_le_amountIn hc ht hahead, amountOut_le_exactOut hc hahead, share_le_feeOn hf⟩
  by_cases hin : 0 ≤ remaining.toInt
  · have hrem := toInt_eq_of_nonneg hin
    rcases computeSwapStep_input hc ht hf hin h with ⟨henough, hstep⟩ | ⟨-, hstep⟩
    · obtain ⟨hexactIn, hexactOut, hfee⟩ := hreach hahead hstep
      have hpaid := (add_fee_le_iff hf).mpr henough
      refine ⟨?_, fun _ => ⟨?_, fun hne => absurd hstep.next_eq hne⟩, fun hneg => by omega,
        hexactIn, hexactOut, hfee⟩
      · rw [hstep.next_eq]
        exact between_of_ahead hahead Ahead.rfl
      · rw [hstep.amountIn_eq, hstep.fee_eq, feeOn]
        omega
    · have hfee := (add_fee_le_iff hf).mpr hstep.amountIn_le
      have hcharged := hstep.fee_eq
      refine ⟨between_of_ahead hstep.ahead hstep.before, fun _ => ⟨by omega, fun _ => by omega⟩,
        fun hneg => by omega, ?_, ?_, ?_⟩
      · rw [hstep.amountIn_eq]
        exact exactIn_le_amountIn hc hstep.next_pos hstep.ahead
      · rw [hstep.amountOut_eq]
        exact amountOut_le_exactOut hc hstep.ahead
      · refine (share_le_feeOn hf).trans ?_
        rw [feeOn]
        exact_mod_cast show _ ≤ step.feeAmount.toNat by omega
  · have hrem := neg_toInt_of_neg hin
    rcases computeSwapStep_output hc ht hf hin h with ⟨henough, hstep⟩ | ⟨-, hstep⟩
    · obtain ⟨hexactIn, hexactOut, hfee⟩ := hreach hahead hstep
      refine ⟨?_, fun hpos => absurd hpos hin, fun _ => ⟨?_, fun hne => absurd hstep.next_eq hne⟩,
        hexactIn, hexactOut, hfee⟩
      · rw [hstep.next_eq]
        exact between_of_ahead hahead Ahead.rfl
      · rw [hstep.amountOut_eq]
        omega
    · have hout := hstep.amountOut_eq
      refine ⟨between_of_ahead hstep.ahead hstep.before, fun hpos => absurd hpos hin,
        fun _ => ⟨by omega, fun _ => by omega⟩, ?_, ?_, ?_⟩
      · rw [hstep.amountIn_eq]
        exact exactIn_le_amountIn hc hstep.next_pos hstep.ahead
      · refine le_trans ?_ (amountOut_le_exactOut hc hstep.ahead)
        exact_mod_cast hout.trans_le hstep.le_amountOut
      · rw [hstep.fee_eq]
        exact share_le_feeOn hf

/-- An input of `3` at the price one, with a liquidity of `3`, stops short of the target. -/
theorem meetsContract_of_three :
    MeetsContract 79228162514264337593543950336 36758526794156967312715787618 3 3 3000
      ⟨47536897508558602556126370202, 2, 1, 1⟩ :=
  meetsContract_of_ok (by decide +kernel) (by decide +kernel) (by decide) (by decide +kernel)

end Contract

end SwapMath

end Kabu
