import Kabu.Defi.UniswapV3Virtual

/-!
# The way of a simulated swap

Both simulations go the same way: from the position of the pool towards the limit, one leg after
another, where a leg leads to the next tick or to the limit.  How far they go depends on the amount.
A round either goes to the end of its leg, or it stops on the way, and then nothing remains of the
amount (`round_cases`).

In natural numbers, `left` is what remains of the amount and `soFar` is what has been counted of the
other one.  A leg takes `need` of the amount.

No database makes the way longer than `legsLeft` says, and no leg has an amount of more than
`2 ^ 225` (`counted_lt`).
-/

namespace Kabu

open RoundedCurve SqrtPriceMath SwapMath TickBitmap TickMath

namespace UniswapV3PoolVirtual

/-! ## Amounts as natural numbers -/

namespace Specified

/-- What is left of the amount. -/
def left : Specified → I256 → ℕ
  | .input, r => r.toNat
  | .output, r => (-r).toNat

/-- What has been counted of the other amount. -/
def soFar (specified : Specified) (x : I256) : ℕ := (specified.result x).toNat

/-- What a step takes of the amount. -/
def taken : Specified → ComputedStep → ℕ
  | .input, step => step.amountIn.toNat + step.feeAmount.toNat
  | .output, step => step.amountOut.toNat

/-- What a step counts of the other amount. -/
def counted : Specified → ComputedStep → ℕ
  | .input, step => step.amountOut.toNat
  | .output, step => step.amountIn.toNat + step.feeAmount.toNat

/-- What it takes to go from one price to another. -/
def need (specified : Specified) (zeroForOne : Bool) (f L p q : ℕ) : ℕ :=
  match specified with
  | .input => amountIn zeroForOne L p q + feeOn f (amountIn zeroForOne L p q)
  | .output => amountOut zeroForOne L p q

/-- What is counted from one price to another. -/
def gain (specified : Specified) (zeroForOne : Bool) (f L p q : ℕ) : ℕ :=
  match specified with
  | .input => amountOut zeroForOne L p q
  | .output => amountIn zeroForOne L p q + feeOn f (amountIn zeroForOne L p q)

/-- The step stops on the way, with `left` of the amount. -/
def Stops (specified : Specified) (zeroForOne : Bool) (current target : U256) (liquidity : U128)
    (f left : ℕ) (step : ComputedStep) : Prop :=
  match specified with
  | .input => StopsForInput zeroForOne current target liquidity
      (left * (1000000 - f) / 1000000) left step
  | .output => StopsForOutput zeroForOne current target liquidity f left step

variable {specified : Specified} {r x : I256} {step : ComputedStep}

lemma left_eq_zero_iff : specified.left r = 0 ↔ r = 0 := by
  cases specified with
  | input => exact U256.toNat_eq_zero_iff
  | output => exact U256.toNat_eq_zero_iff.trans BitVec.neg_eq_zero_iff

lemma left_initial (amount : U256) : specified.left (specified.initial amount) = amount.toNat := by
  cases specified with
  | input => rfl
  | output => exact congrArg BitVec.toNat BitVec.neg_neg

lemma soFar_zero : specified.soFar 0 = 0 := by
  cases specified <;> rfl

lemma toInt_of_toNat_lt (h : r.toNat < 2 ^ 255) : r.toInt = r.toNat := by
  rw [BitVec.toInt_eq_toNat_cond, if_pos (by omega)]

lemma toInt_of_neg_toNat_le (h : (-r).toNat ≤ 2 ^ 255) : r.toInt = -(-r).toNat := by
  have hlt := r.isLt
  rw [BitVec.toNat_neg] at h ⊢
  rw [BitVec.toInt_eq_toNat_cond]
  by_cases hzero : r.toNat = 0
  · rw [hzero, if_pos (by omega)]
    rfl
  · rw [Nat.mod_eq_of_lt (by omega)] at h ⊢
    split_ifs with hsmall
    · omega
    · omega

/-- Nothing wraps when a step takes no more than is left. -/
lemma left_remaining (hle : specified.taken step ≤ specified.left r) :
    specified.left (specified.remaining r step) = specified.left r - specified.taken step := by
  cases specified with
  | input =>
      simp only [left, taken, remaining] at hle ⊢
      have hsum : (step.amountIn + step.feeAmount).toNat =
          step.amountIn.toNat + step.feeAmount.toNat :=
        BitVec.toNat_add_of_lt (lt_of_le_of_lt hle r.isLt)
      rw [BitVec.toNat_sub_of_le (BitVec.le_def.mpr (hsum.trans_le hle)), hsum]
  | output =>
      simp only [left, taken, remaining] at hle ⊢
      have hneg : -(r + step.amountOut) = -r - step.amountOut := by
        rw [BitVec.neg_add]
      rw [hneg, BitVec.toNat_sub_of_le (BitVec.le_def.mpr hle)]

lemma soFar_calculated (hlt : specified.soFar x + specified.counted step < 2 ^ 256) :
    specified.soFar (specified.calculated x step) = specified.soFar x + specified.counted step := by
  cases specified with
  | input =>
      simp only [soFar, result, counted, calculated] at hlt ⊢
      rw [neg_sub, sub_eq_neg_add, BitVec.toNat_add_of_lt hlt]
  | output =>
      simp only [soFar, result, counted, calculated] at hlt ⊢
      have hsum : (step.amountIn + step.feeAmount).toNat =
          step.amountIn.toNat + step.feeAmount.toNat :=
        BitVec.toNat_add_of_lt (by omega)
      rw [BitVec.toNat_add_of_lt (by omega), hsum]

/-! ## How large the amounts are -/

section Bounds

variable {zeroForOne : Bool} {L f p q : ℕ}

lemma feeOn_le (hf : f ≤ 500000) (a : ℕ) : feeOn f a ≤ a := by
  rw [feeOn, ceilDiv_le_iff_le_mul (by omega), mul_comm]
  exact Nat.mul_le_mul_right _ (by omega)

variable (hf : f ≤ 500000) (hL : L < 2 ^ 128) (hp : 0 < p) (hq : 0 < q) (hp' : p < 2 ^ 160)
  (hq' : q < 2 ^ 160)

include hL hp hq hp' hq'

lemma amountIn_lt : amountIn zeroForOne L p q < 2 ^ 224 := by
  cases zeroForOne with
  | true =>
      have hN : L * resolution < 2 ^ 224 := by
        unfold resolution
        omega
      refine lt_of_le_of_lt ?_ hN
      rw [amountIn_true, baseUp, ceilDiv_le_iff_le_mul (Nat.mul_pos hq hp), mul_comm]
      exact Nat.mul_le_mul_right _ ((Nat.sub_le p q).trans (Nat.le_mul_of_pos_left p hq))
  | false =>
      have hlt : L * 2 ^ 64 < 2 ^ 224 := by omega
      refine lt_of_le_of_lt ?_ hlt
      rw [amountIn_false, quoteUp, ceilDiv_le_iff_le_mul resolution_pos]
      calc L * (q - p) ≤ L * 2 ^ 160 := Nat.mul_le_mul_left L (by omega)
        _ = resolution * (L * 2 ^ 64) := by
          unfold resolution
          omega

lemma amountOut_lt : amountOut zeroForOne L p q < 2 ^ 224 :=
  lt_of_le_of_lt amountOut_le_amountIn (amountIn_lt hL hq hp hq' hp')

include hf

lemma gain_lt : specified.gain zeroForOne f L p q < 2 ^ 225 := by
  have hin : amountIn zeroForOne L p q < 2 ^ 224 := amountIn_lt hL hp hq hp' hq'
  have hout : amountOut zeroForOne L p q < 2 ^ 224 := amountOut_lt hL hp hq hp' hq'
  have hfee := feeOn_le hf (amountIn zeroForOne L p q)
  cases specified with
  | input =>
      rw [gain]
      omega
  | output =>
      rw [gain]
      omega

lemma need_lt : specified.need zeroForOne f L p q < 2 ^ 225 := by
  cases specified with
  | input =>
      have hgain : gain .output zeroForOne f L p q < 2 ^ 225 := gain_lt hf hL hp hq hp' hq'
      exact hgain
  | output =>
      have hgain : gain .input zeroForOne f L p q < 2 ^ 225 := gain_lt hf hL hp hq hp' hq'
      exact hgain

end Bounds

/-! ## One step -/

section Step

variable {current target : U256} {liquidity : U128} {fee : UInt32} {zeroForOne : Bool}

/-- The direction is the one in which the target lies.  If this is where the price is already, there
is nothing to do in either. -/
lemma direction_eq (h : Ahead zeroForOne current.toNat target.toNat) :
    decide (target ≤ current) = zeroForOne ∨ current = target := by
  cases zeroForOne with
  | true => exact Or.inl (decide_eq_true (BitVec.le_def.mpr h))
  | false =>
      by_cases hle : target ≤ current
      · exact Or.inr (BitVec.eq_of_toNat_eq (le_antisymm h (BitVec.le_def.mp hle)))
      · exact Or.inl (decide_eq_false hle)

lemma reachesTarget_self {zeroForOne' : Bool} {L f : ℕ}
    (h : ReachesTarget zeroForOne target target L f step) :
    ReachesTarget zeroForOne' target target L f step := by
  obtain ⟨hnext, hin, hout, hfee⟩ := h
  rw [amountIn_self] at hin hfee
  rw [amountOut_self] at hout
  exact ⟨hnext, hin.trans (amountIn_self _ _).symm, hout.trans (amountOut_self _ _).symm,
    by rw [hfee, amountIn_self]⟩

lemma need_self (f L p : ℕ) : specified.need zeroForOne f L p p = 0 := by
  cases specified with
  | input => rw [need, amountIn_self, feeOn, Nat.zero_mul, zero_ceilDiv, Nat.add_zero]
  | output => exact amountOut_self L p

/-- **Steps.**  A step goes all the way exactly if enough is left. -/
lemma computeSwapStep_cases (hcurrent : 0 < current.toNat) (htarget : 0 < target.toNat)
    (hf : fee.toNat < 1000000) (hahead : Ahead zeroForOne current.toNat target.toNat) (hr : r ≠ 0)
    (hlt : specified.left r < 2 ^ 255)
    (h : computeSwapStep current target liquidity r fee = .ok step) :
    specified.need zeroForOne fee.toNat liquidity.toNat current.toNat target.toNat ≤
          specified.left r ∧
        ReachesTarget zeroForOne current target liquidity.toNat fee.toNat step ∨
      specified.left r <
          specified.need zeroForOne fee.toNat liquidity.toNat current.toNat target.toNat ∧
        specified.Stops zeroForOne current target liquidity fee.toNat (specified.left r) step := by
  have hcases : specified.need (decide (target ≤ current)) fee.toNat liquidity.toNat current.toNat
          target.toNat ≤ specified.left r ∧
        ReachesTarget (decide (target ≤ current)) current target liquidity.toNat fee.toNat step ∨
      specified.left r < specified.need (decide (target ≤ current)) fee.toNat liquidity.toNat
          current.toNat target.toNat ∧
        specified.Stops (decide (target ≤ current)) current target liquidity fee.toNat
          (specified.left r) step := by
    cases specified with
    | input =>
        simp only [left, need, Stops] at hlt ⊢
        have hin : 0 ≤ r.toInt := toInt_of_toNat_lt hlt ▸ Int.natCast_nonneg _
        simp only [feeOn, ← not_le, add_fee_le_iff hf]
        rw [not_le]
        exact computeSwapStep_input hcurrent htarget hf hin h
    | output =>
        simp only [left, need, Stops] at hlt ⊢
        have hpos : 0 < (-r).toNat := U256.toNat_pos_iff.mpr fun hzero =>
          hr (BitVec.neg_eq_zero_iff.mp hzero)
        have hout : ¬ 0 ≤ r.toInt := by
          rw [toInt_of_neg_toNat_le hlt.le]
          omega
        exact computeSwapStep_output hcurrent htarget hf hout h
  rcases direction_eq hahead with hdir | rfl
  · rw [hdir] at hcases
    exact hcases
  · rw [need_self] at hcases ⊢
    rcases hcases with ⟨hle, hreach⟩ | ⟨habsurd, -⟩
    · exact Or.inl ⟨hle, reachesTarget_self hreach⟩
    · omega

variable {f left : ℕ}

lemma taken_of_reachesTarget
    (h : ReachesTarget zeroForOne current target liquidity.toNat f step) :
    specified.taken step =
      specified.need zeroForOne f liquidity.toNat current.toNat target.toNat := by
  cases specified with
  | input => rw [taken, need, h.amountIn_eq, h.fee_eq]
  | output => rw [taken, need, h.amountOut_eq]

lemma counted_of_reachesTarget
    (h : ReachesTarget zeroForOne current target liquidity.toNat f step) :
    specified.counted step =
      specified.gain zeroForOne f liquidity.toNat current.toNat target.toNat := by
  cases specified with
  | input => rw [counted, gain, h.amountOut_eq]
  | output => rw [counted, gain, h.amountIn_eq, h.fee_eq]

namespace Stops

variable (h : specified.Stops zeroForOne current target liquidity f left step)

include h

lemma taken_eq : specified.taken step = left := by
  cases specified with
  | input => exact StopsForInput.fee_eq h
  | output => exact StopsForOutput.amountOut_eq h

lemma next_pos : 0 < step.sqrtRatioNext.toNat := by
  cases specified with
  | input => exact StopsForInput.next_pos h
  | output => exact StopsForOutput.next_pos h

lemma ahead : Ahead zeroForOne current.toNat step.sqrtRatioNext.toNat := by
  cases specified with
  | input => exact StopsForInput.ahead h
  | output => exact StopsForOutput.ahead h

lemma before : Ahead zeroForOne step.sqrtRatioNext.toNat target.toNat := by
  cases specified with
  | input => exact StopsForInput.before h
  | output => exact StopsForOutput.before h

lemma counted_eq : specified.counted step =
    specified.gain zeroForOne f liquidity.toNat current.toNat step.sqrtRatioNext.toNat := by
  cases specified with
  | input => exact StopsForInput.amountOut_eq h
  | output =>
      have hfee := StopsForOutput.fee_eq h
      have hin := StopsForOutput.amountIn_eq h
      rw [counted, gain, hfee, hin]

end Stops

end Step

end Specified

/-! ## Legs -/

namespace Setting

/-- One of the four fees, with the spacing that goes with it. -/
def Supported (v : Setting) : Prop :=
  v.fee = 10000 ∧ v.tickSpacing = 200 ∨ v.fee = 3000 ∧ v.tickSpacing = 60 ∨
    v.fee = 500 ∧ v.tickSpacing = 10 ∨ v.fee = 100 ∧ v.tickSpacing = 1

variable {v : Setting} {tick : ℤ} {step : StepComputations} {p p' : Position}

namespace Supported

lemma spacing_pos (h : v.Supported) : 0 < v.tickSpacing := by
  rcases h with ⟨-, h⟩ | ⟨-, h⟩ | ⟨-, h⟩ | ⟨-, h⟩ <;> omega

lemma spacing_le (h : v.Supported) : v.tickSpacing ≤ 200 := by
  rcases h with ⟨-, h⟩ | ⟨-, h⟩ | ⟨-, h⟩ | ⟨-, h⟩ <;> omega

lemma fee_le (h : v.Supported) : v.fee.toNat ≤ 10000 := by
  rcases h with ⟨h, -⟩ | ⟨h, -⟩ | ⟨h, -⟩ | ⟨h, -⟩ <;> rw [h] <;> decide

lemma fee_pos (h : v.Supported) : 0 < v.fee.toNat := by
  rcases h with ⟨h, -⟩ | ⟨h, -⟩ | ⟨h, -⟩ | ⟨h, -⟩ <;> rw [h] <;> decide

end Supported

lemma report_ok_iff {α : Type} {x : MathResult α} {a : α} :
    Failure.report x = .ok a ↔ x = .ok a := by
  rcases x with (_ | _) | _ <;> simp [Failure.report]

section

variable (hspacing : 0 < v.tickSpacing)

include hspacing

lemma exists_nextStep (tick : ℤ) :
    ∃ step, v.nextStep tick = .ok step ∧
      ∃ next, Found v.tickBitmap v.zeroForOne (tick / v.tickSpacing) next step.initialized ∧
        step.tickNext = max minTick (min maxTick (next * v.tickSpacing)) ∧
        step.sqrtPriceNextX96.toNat = sqrtRatio step.tickNext := by
  obtain ⟨next, initialized, hnext, hfound⟩ :=
    nextInitializedTick_spec v.tickBitmap tick hspacing v.zeroForOne
  obtain ⟨t, ht⟩ : ∃ t, t = max minTick (min maxTick (next * v.tickSpacing)) := ⟨_, rfl⟩
  have hrange : t.natAbs ≤ 887272 := by
    rw [ht]
    unfold minTick maxTick
    omega
  obtain ⟨q, hq, hprice⟩ := exists_getSqrtRatioAtTick hrange
  refine ⟨⟨t, initialized, q⟩, ?_, next, hfound, ht, hprice⟩
  rw [ht] at hq ⊢
  exact Rounds.bind_ok_iff.mpr ⟨(_, _), report_ok_iff.mpr hnext,
    Rounds.bind_ok_iff.mpr ⟨q, report_ok_iff.mpr hq, rfl⟩⟩

variable (h : v.nextStep tick = .ok step)

include h

lemma nextStep_spec :
    ∃ next, Found v.tickBitmap v.zeroForOne (tick / v.tickSpacing) next step.initialized ∧
      step.tickNext = max minTick (min maxTick (next * v.tickSpacing)) ∧
      step.sqrtPriceNextX96.toNat = sqrtRatio step.tickNext := by
  obtain ⟨step', hstep', hspec⟩ := exists_nextStep hspacing tick
  obtain rfl := Except.ok.inj (h.symm.trans hstep')
  exact hspec

lemma nextStep_range : minTick ≤ step.tickNext ∧ step.tickNext ≤ maxTick := by
  obtain ⟨next, -, htick, -⟩ := nextStep_spec hspacing h
  rw [htick]
  unfold minTick maxTick
  omega

lemma nextStep_price_pos :
    0 < step.sqrtPriceNextX96.toNat ∧ step.sqrtPriceNextX96.toNat < 2 ^ 160 := by
  obtain ⟨hmin, hmax⟩ := nextStep_range hspacing h
  obtain ⟨-, -, -, hprice⟩ := nextStep_spec hspacing h
  have hlow := minSqrtRatio_le_sqrtRatio hmin hmax
  have hhigh := sqrtRatio_le_maxSqrtRatio hmin hmax
  have hpos : 0 < minSqrtRatio.toNat := by decide
  have hlt : maxSqrtRatio.toNat < 2 ^ 160 := by decide
  omega

end

/-! ### Targets -/

lemma toNat_limit_true (h : v.zeroForOne = true) :
    v.sqrtPriceLimitX96.toNat = sqrtRatio minTick + 1 := by
  rw [sqrtPriceLimitX96, if_pos h, sqrtRatio_minTick]
  decide

lemma toNat_limit_false (h : v.zeroForOne = false) :
    v.sqrtPriceLimitX96.toNat + 1 = sqrtRatio maxTick := by
  rw [sqrtPriceLimitX96, h, if_neg (by simp), sqrtRatio_maxTick]
  decide

lemma limit_pos : 0 < v.sqrtPriceLimitX96.toNat ∧ v.sqrtPriceLimitX96.toNat < 2 ^ 160 := by
  unfold sqrtPriceLimitX96
  cases v.zeroForOne <;> decide

lemma target_eq_or (v : Setting) (step : StepComputations) :
    v.swapTargetSqrtRatio step = step.sqrtPriceNextX96 ∨
      v.swapTargetSqrtRatio step = v.sqrtPriceLimitX96 := by
  unfold swapTargetSqrtRatio
  split_ifs
  · exact Or.inr rfl
  · exact Or.inl rfl
  · exact Or.inr rfl
  · exact Or.inl rfl

lemma ahead_target_iff (v : Setting) (step : StepComputations) (x : ℕ) :
    Ahead v.zeroForOne x (v.swapTargetSqrtRatio step).toNat ↔
      Ahead v.zeroForOne x step.sqrtPriceNextX96.toNat ∧
        Ahead v.zeroForOne x v.sqrtPriceLimitX96.toNat := by
  unfold swapTargetSqrtRatio
  cases v.zeroForOne with
  | true =>
      rw [if_pos rfl]
      simp only [ahead_true]
      split_ifs with h
      · have := BitVec.lt_def.mp h
        omega
      · have := BitVec.le_def.mp (BitVec.not_lt.mp h)
        omega
  | false =>
      rw [if_neg (by simp)]
      simp only [ahead_false]
      split_ifs with h
      · have := BitVec.lt_def.mp h
        omega
      · have := BitVec.le_def.mp (BitVec.not_lt.mp h)
        omega

lemma target_ahead_limit (v : Setting) (step : StepComputations) :
    Ahead v.zeroForOne (v.swapTargetSqrtRatio step).toNat v.sqrtPriceLimitX96.toNat :=
  ((ahead_target_iff v step _).mp Ahead.rfl).2

lemma target_pos (hspacing : 0 < v.tickSpacing) (h : v.nextStep tick = .ok step) :
    0 < (v.swapTargetSqrtRatio step).toNat ∧ (v.swapTargetSqrtRatio step).toNat < 2 ^ 160 := by
  rcases target_eq_or v step with htarget | htarget
  · rw [htarget]
    exact nextStep_price_pos hspacing h
  · rw [htarget]
    exact limit_pos

lemma tickNext_of_target (hspacing : 0 < v.tickSpacing) (h : v.nextStep tick = .ok step)
    (htarget : v.swapTargetSqrtRatio step = step.sqrtPriceNextX96) :
    if v.zeroForOne then minTick < step.tickNext else step.tickNext < maxTick := by
  obtain ⟨hmin, hmax⟩ := nextStep_range hspacing h
  obtain ⟨-, -, -, hprice⟩ := nextStep_spec hspacing h
  have hahead := target_ahead_limit v step
  rw [htarget, hprice] at hahead
  cases hdir : v.zeroForOne with
  | true =>
      rw [hdir, ahead_true, toNat_limit_true hdir] at hahead
      rw [if_pos rfl]
      refine lt_of_le_of_ne hmin fun heq => ?_
      rw [← heq] at hahead
      omega
  | false =>
      have hlimit := toNat_limit_false hdir
      rw [hdir, ahead_false] at hahead
      rw [if_neg (by simp)]
      refine lt_of_le_of_ne hmax fun heq => ?_
      rw [heq] at hahead
      omega

/-! ### The way from leg to leg -/

/-- The leg from one position leads to the other. -/
def Leg (v : Setting) (p : Position) (step : StepComputations) (p' : Position) : Prop :=
  v.nextStep p.tick = .ok step ∧ v.moveTo p step (v.swapTargetSqrtRatio step) = .ok p'

lemma moveTo_price {price : U256} (h : v.moveTo p step price = .ok p') :
    p'.sqrtPriceX96 = price := by
  unfold moveTo at h
  by_cases hnext : price = step.sqrtPriceNextX96
  · rw [if_pos hnext] at h
    obtain ⟨_, -, h⟩ := Rounds.bind_ok h
    exact Except.ok.inj h ▸ rfl
  · rw [if_neg hnext] at h
    by_cases hstart : price ≠ p.sqrtPriceX96
    · rw [if_pos hstart] at h
      obtain ⟨_, -, h⟩ := Rounds.bind_ok h
      exact Except.ok.inj h ▸ rfl
    · rw [if_neg hstart] at h
      exact Except.ok.inj h ▸ rfl

lemma moveTo_tick (h : v.moveTo p step step.sqrtPriceNextX96 = .ok p') :
    p'.tick = (if v.zeroForOne then step.tickNext - 1 else step.tickNext) ∧
      v.liquidityBeyond p.liquidity step = .ok p'.liquidity := by
  rw [moveTo, if_pos rfl] at h
  obtain ⟨liquidity, hcross, h⟩ := Rounds.bind_ok h
  obtain rfl := Except.ok.inj h
  exact ⟨rfl, hcross⟩

/-- How many legs there can be from a tick to the limit. -/
def legsLeft (zeroForOne : Bool) (tick : ℤ) : ℕ :=
  if zeroForOne then (min tick maxTick - minTick).toNat + 1
  else (maxTick - max tick (minTick - 1)).toNat + 1

lemma legsLeft_pos (zeroForOne : Bool) (tick : ℤ) : 0 < legsLeft zeroForOne tick := by
  unfold legsLeft
  split_ifs <;> omega

lemma legsLeft_lt (zeroForOne : Bool) (tick : ℤ) : legsLeft zeroForOne tick < 2 ^ 21 := by
  unfold legsLeft minTick maxTick
  split_ifs <;> omega

lemma Leg.price_eq (h : v.Leg p step p') : p'.sqrtPriceX96 = v.swapTargetSqrtRatio step :=
  moveTo_price h.2

lemma Leg.target_eq (h : v.Leg p step p') (hlimit : p'.sqrtPriceX96 ≠ v.sqrtPriceLimitX96) :
    v.swapTargetSqrtRatio step = step.sqrtPriceNextX96 := by
  rcases target_eq_or v step with htarget | htarget
  · exact htarget
  · exact absurd (h.price_eq.trans htarget) hlimit

lemma Leg.tick_eq (h : v.Leg p step p') (hlimit : p'.sqrtPriceX96 ≠ v.sqrtPriceLimitX96) :
    p'.tick = if v.zeroForOne then step.tickNext - 1 else step.tickNext := by
  have hmove := h.2
  rw [h.target_eq hlimit] at hmove
  exact (moveTo_tick hmove).1

lemma nextStep_toward (hspacing : 0 < v.tickSpacing) (h : v.nextStep tick = .ok step)
    (htarget : v.swapTargetSqrtRatio step = step.sqrtPriceNextX96) :
    if v.zeroForOne then step.tickNext ≤ min tick maxTick
    else max tick (minTick - 1) < step.tickNext := by
  obtain ⟨next, hfound, htick, -⟩ := nextStep_spec hspacing h
  have hinside := tickNext_of_target hspacing h htarget
  have htoward := hfound.toward
  have hle := Int.ediv_mul_le tick hspacing.ne'
  have hlt := Int.lt_ediv_add_one_mul_self tick hspacing
  cases hdir : v.zeroForOne with
  | true =>
      rw [hdir, if_pos rfl] at hinside htoward
      rw [if_pos rfl]
      have := Int.mul_le_mul_of_nonneg_right htoward hspacing.le
      omega
  | false =>
      rw [hdir, if_neg (by simp)] at hinside htoward
      rw [if_neg (by simp)]
      have := Int.mul_le_mul_of_nonneg_right htoward hspacing.le
      unfold minTick maxTick at *
      omega

/-- **The way is finite.** -/
lemma Leg.legsLeft_lt (hspacing : 0 < v.tickSpacing) (h : v.Leg p step p')
    (hlimit : p'.sqrtPriceX96 ≠ v.sqrtPriceLimitX96) :
    legsLeft v.zeroForOne p'.tick < legsLeft v.zeroForOne p.tick := by
  have htarget := h.target_eq hlimit
  have hinside := tickNext_of_target hspacing h.1 htarget
  have htoward := nextStep_toward hspacing h.1 htarget
  rw [h.tick_eq hlimit]
  unfold legsLeft
  cases hdir : v.zeroForOne with
  | true =>
      rw [hdir, if_pos rfl] at hinside htoward
      rw [if_pos rfl, if_pos rfl, if_pos rfl]
      omega
  | false =>
      rw [hdir, if_neg (by simp)] at hinside htoward
      rw [if_neg (by simp), if_neg (by simp), if_neg (by simp)]
      omega

/-! ## Rounds -/

/-- The step that a round computes. -/
structure StepOf (v : Setting) (s : CurrentState) (step : StepComputations)
    (computed : ComputedStep) : Prop where
  nextStep_eq : v.nextStep s.tick = .ok step
  computed_eq : computeSwapStep s.sqrtPriceX96 (v.swapTargetSqrtRatio step) s.liquidity
    s.amountSpecifiedRemaining v.fee = .ok computed

/-- What a round has done that returns. -/
structure RoundOf (v : Setting) (specified : Specified) (s s' : CurrentState)
    (step : StepComputations) (computed : ComputedStep) : Prop extends
    v.StepOf s step computed where
  moveTo_eq : v.moveTo s.position step computed.sqrtRatioNext = .ok s'.position
  remaining_eq : s'.amountSpecifiedRemaining =
    specified.remaining s.amountSpecifiedRemaining computed
  calculated_eq : s'.amountCalculated = specified.calculated s.amountCalculated computed

variable {specified : Specified} {s s' : CurrentState} {computed : ComputedStep}

lemma exists_roundOf (h : v.round specified s = .ok s') :
    ∃ step computed, v.RoundOf specified s s' step computed := by
  obtain ⟨step, hstep, h⟩ := Rounds.bind_ok h
  obtain ⟨computed, hcomputed, h⟩ := Rounds.bind_ok h
  obtain ⟨p, hmove, h⟩ := Rounds.bind_ok h
  obtain rfl := Except.ok.inj h
  exact ⟨step, computed, ⟨hstep, report_ok_iff.mp hcomputed⟩, hmove, rfl, rfl⟩

namespace StepOf

lemma price_pos (hspacing : 0 < v.tickSpacing) (h : v.StepOf s step computed) :
    0 < s.sqrtPriceX96.toNat := by
  refine U256.toNat_pos_iff.mpr fun hzero => ?_
  have hcomputed := h.computed_eq
  rw [hzero] at hcomputed
  exact computeSwapStep_zero (target_pos hspacing h.nextStep_eq).1 hcomputed

section

variable (hv : v.Supported) (h : v.StepOf s step computed) (hr : s.amountSpecifiedRemaining ≠ 0)
  (hlt : specified.left s.amountSpecifiedRemaining < 2 ^ 255)

include hv h hr hlt

lemma cases {zeroForOne : Bool}
    (hahead : Ahead zeroForOne s.sqrtPriceX96.toNat (v.swapTargetSqrtRatio step).toNat) :
    specified.need zeroForOne v.fee.toNat s.liquidity.toNat s.sqrtPriceX96.toNat
          (v.swapTargetSqrtRatio step).toNat ≤ specified.left s.amountSpecifiedRemaining ∧
        ReachesTarget zeroForOne s.sqrtPriceX96 (v.swapTargetSqrtRatio step) s.liquidity.toNat
          v.fee.toNat computed ∨
      specified.left s.amountSpecifiedRemaining < specified.need zeroForOne v.fee.toNat
          s.liquidity.toNat s.sqrtPriceX96.toNat (v.swapTargetSqrtRatio step).toNat ∧
        specified.Stops zeroForOne s.sqrtPriceX96 (v.swapTargetSqrtRatio step) s.liquidity
          v.fee.toNat (specified.left s.amountSpecifiedRemaining) computed := by
  have hf := hv.fee_le
  exact Specified.computeSwapStep_cases (h.price_pos hv.spacing_pos)
    (target_pos hv.spacing_pos h.nextStep_eq).1 (by omega) hahead hr hlt h.computed_eq

lemma taken_le : specified.taken computed ≤ specified.left s.amountSpecifiedRemaining := by
  rcases h.cases hv hr hlt (ahead_target _ _) with ⟨hle, hreach⟩ | ⟨-, hstops⟩
  · rw [Specified.taken_of_reachesTarget hreach]
    exact hle
  · exact hstops.taken_eq.le

lemma counted_lt (hprice : s.sqrtPriceX96.toNat < 2 ^ 160) :
    specified.counted computed < 2 ^ 225 := by
  have hf := hv.fee_le
  have hpos := h.price_pos hv.spacing_pos
  obtain ⟨htpos, htlt⟩ := target_pos hv.spacing_pos h.nextStep_eq
  rcases h.cases hv hr hlt (ahead_target _ _) with ⟨-, hreach⟩ | ⟨-, hstops⟩
  · rw [Specified.counted_of_reachesTarget hreach]
    exact Specified.gain_lt (by omega) s.liquidity.isLt hpos htpos hprice htlt
  · have hnext : computed.sqrtRatioNext.toNat < 2 ^ 160 :=
      lt_of_le_of_lt (between_of_ahead hstops.ahead hstops.before).2 (max_lt hprice htlt)
    rw [hstops.counted_eq]
    exact Specified.gain_lt (by omega) s.liquidity.isLt hpos hstops.next_pos hprice hnext

lemma next_between {zeroForOne : Bool}
    (hahead : Ahead zeroForOne s.sqrtPriceX96.toNat (v.swapTargetSqrtRatio step).toNat) :
    Ahead zeroForOne s.sqrtPriceX96.toNat computed.sqrtRatioNext.toNat ∧
      Ahead zeroForOne computed.sqrtRatioNext.toNat (v.swapTargetSqrtRatio step).toNat := by
  rcases h.cases hv hr hlt hahead with ⟨-, hreach⟩ | ⟨-, hstops⟩
  · rw [hreach.next_eq]
    exact ⟨hahead, Ahead.rfl⟩
  · exact ⟨hstops.ahead, hstops.before⟩

end

end StepOf

namespace RoundOf

variable (hv : v.Supported) (h : v.RoundOf specified s s' step computed)
  (hr : s.amountSpecifiedRemaining ≠ 0)
  (hlt : specified.left s.amountSpecifiedRemaining < 2 ^ 255)

include h

lemma price_eq : s'.sqrtPriceX96 = computed.sqrtRatioNext := moveTo_price h.moveTo_eq

include hv hr hlt

lemma left_eq : specified.left s'.amountSpecifiedRemaining =
    specified.left s.amountSpecifiedRemaining - specified.taken computed :=
  h.remaining_eq ▸ Specified.left_remaining (h.toStepOf.taken_le hv hr hlt)

lemma leg_of_left {zeroForOne : Bool}
    (hahead : Ahead zeroForOne s.sqrtPriceX96.toNat (v.swapTargetSqrtRatio step).toNat)
    (hr' : s'.amountSpecifiedRemaining ≠ 0) :
    v.Leg s.position step s'.position ∧
      specified.need zeroForOne v.fee.toNat s.liquidity.toNat s.sqrtPriceX96.toNat
        (v.swapTargetSqrtRatio step).toNat ≤ specified.left s.amountSpecifiedRemaining ∧
      ReachesTarget zeroForOne s.sqrtPriceX96 (v.swapTargetSqrtRatio step) s.liquidity.toNat
        v.fee.toNat computed := by
  rcases h.toStepOf.cases hv hr hlt hahead with ⟨hle, hreach⟩ | ⟨-, hstops⟩
  · refine ⟨⟨h.nextStep_eq, ?_⟩, hle, hreach⟩
    rw [← hreach.next_eq]
    exact h.moveTo_eq
  · refine absurd ?_ hr'
    rw [← Specified.left_eq_zero_iff, h.left_eq hv hr hlt, hstops.taken_eq, Nat.sub_self]

end RoundOf

/-! ### Panics -/

lemma report_ne_panic {α : Type} {x : MathResult α} (h : x ≠ .error .panic) :
    Failure.report x ≠ .error .panic := by
  rcases x with (_ | _) | _ <;> simp_all [Failure.report]

lemma crossTick_ne_panic (v : Setting) (liquidity : U128) (tickNext : ℤ) :
    v.crossTick liquidity tickNext ≠ .error .panic := by
  simp only [crossTick]
  split_ifs <;> simp

lemma moveTo_ne_panic (v : Setting) (p : Position) (step : StepComputations) (price : U256) :
    v.moveTo p step price ≠ .error .panic := by
  unfold moveTo
  by_cases hnext : price = step.sqrtPriceNextX96
  · rw [if_pos hnext]
    refine Rounds.bind_ne_error ?_ fun _ _ => by simp
    unfold liquidityBeyond
    split_ifs
    · exact crossTick_ne_panic v _ _
    · simp
  · rw [if_neg hnext]
    by_cases hstart : price ≠ p.sqrtPriceX96
    · rw [if_pos hstart]
      exact Rounds.bind_ne_error (report_ne_panic (getTickAtSqrtRatio_ne_panic _))
        fun _ _ => by simp
    · rw [if_neg hstart]
      simp

lemma round_ne_panic (hv : v.Supported) : v.round specified s ≠ .error .panic := by
  have hf := hv.fee_le
  obtain ⟨step, hstep, -⟩ := exists_nextStep hv.spacing_pos s.tick
  refine Rounds.bind_ne_error (by rw [hstep]; simp) fun step _ => ?_
  refine Rounds.bind_ne_error (report_ne_panic (computeSwapStep_ne_panic (by omega))) fun c _ => ?_
  exact Rounds.bind_ne_error (moveTo_ne_panic v _ _ _) fun p _ => by simp

/-! ## Positions on their tick -/

/-- The tick is that of the price, or one less if the price is that of a tick. -/
structure OnTick (p : Position) : Prop where
  minTick_le : minTick ≤ p.tick
  lt_maxTick : p.tick < maxTick
  lower : sqrtRatio p.tick ≤ p.sqrtPriceX96.toNat
  upper : p.sqrtPriceX96.toNat ≤ sqrtRatio (p.tick + 1)
  minSqrtRatio_lt : minSqrtRatio.toNat < p.sqrtPriceX96.toNat
  lt_maxSqrtRatio : p.sqrtPriceX96.toNat < maxSqrtRatio.toNat

namespace OnTick

lemma tickNext (hspacing : 0 < v.tickSpacing) (h : OnTick p)
    (hstep : v.nextStep p.tick = .ok step) :
    if v.zeroForOne then step.tickNext ≤ p.tick else p.tick < step.tickNext := by
  obtain ⟨next, hfound, htick, -⟩ := nextStep_spec hspacing hstep
  obtain ⟨hmin, hmax, -, -, -, -⟩ := h
  have htoward := hfound.toward
  have hle := Int.ediv_mul_le p.tick hspacing.ne'
  have hlt := Int.lt_ediv_add_one_mul_self p.tick hspacing
  cases hdir : v.zeroForOne with
  | true =>
      rw [hdir, if_pos rfl] at htoward
      rw [if_pos rfl]
      have := Int.mul_le_mul_of_nonneg_right htoward hspacing.le
      omega
  | false =>
      rw [hdir, if_neg (by simp)] at htoward
      rw [if_neg (by simp)]
      have := Int.mul_le_mul_of_nonneg_right htoward hspacing.le
      omega

lemma ahead (hspacing : 0 < v.tickSpacing) (h : OnTick p) (hstep : v.nextStep p.tick = .ok step) :
    Ahead v.zeroForOne p.sqrtPriceX96.toNat (v.swapTargetSqrtRatio step).toNat := by
  obtain ⟨hmin, hmax⟩ := nextStep_range hspacing hstep
  obtain ⟨-, -, -, hprice⟩ := nextStep_spec hspacing hstep
  have htick := h.tickNext hspacing hstep
  obtain ⟨hlow, hhigh, hlower, hupper, habove, hbelow⟩ := h
  rw [ahead_target_iff, hprice]
  unfold minTick maxTick at *
  cases hdir : v.zeroForOne with
  | true =>
      rw [hdir, if_pos rfl] at htick
      rw [ahead_true, ahead_true, toNat_limit_true hdir, sqrtRatio_minTick]
      exact ⟨(sqrtRatio_mono htick (by omega) (by omega)).trans hlower, habove⟩
  | false =>
      rw [hdir, if_neg (by simp)] at htick
      have hlimit := toNat_limit_false hdir
      rw [sqrtRatio_maxTick] at hlimit
      rw [ahead_false, ahead_false]
      exact ⟨hupper.trans (sqrtRatio_mono htick (by omega) (by omega)), by omega⟩

lemma leg (hspacing : 0 < v.tickSpacing) (h : OnTick p) (hleg : v.Leg p step p')
    (hlimit : p'.sqrtPriceX96 ≠ v.sqrtPriceLimitX96) : OnTick p' := by
  have htarget := hleg.target_eq hlimit
  have hinside := tickNext_of_target hspacing hleg.1 htarget
  have htick := hleg.tick_eq hlimit
  have hprice := hleg.price_eq
  obtain ⟨hmin, hmax⟩ := nextStep_range hspacing hleg.1
  obtain ⟨-, -, -, hnext⟩ := nextStep_spec hspacing hleg.1
  have htoward := h.tickNext hspacing hleg.1
  have hahead := target_ahead_limit v step
  have hmove := h.ahead hspacing hleg.1
  obtain ⟨hlow, hhigh, hlower, hupper, habove, hbelow⟩ := h
  rw [htarget] at hprice hahead hmove
  rw [hnext] at hahead hmove
  unfold minTick maxTick at *
  cases hdir : v.zeroForOne with
  | true =>
      rw [hdir, if_pos rfl] at hinside htick htoward
      rw [hdir, ahead_true] at hahead hmove
      rw [toNat_limit_true hdir, sqrtRatio_minTick] at hahead
      have hprev := sqrtRatio_mono (show step.tickNext - 1 ≤ step.tickNext by omega) (by omega)
        (by omega)
      refine ⟨?_, ?_, ?_, ?_, ?_, ?_⟩
      · rw [htick, minTick]
        omega
      · rw [htick, maxTick]
        omega
      · rw [htick, hprice, hnext]
        exact hprev
      · rw [htick, hprice, hnext, sub_add_cancel]
      · rw [hprice, hnext]
        exact hahead
      · rw [hprice, hnext]
        omega
  | false =>
      rw [hdir, if_neg (by simp)] at hinside htick htoward
      rw [hdir, ahead_false] at hahead hmove
      have hlimit := toNat_limit_false hdir
      rw [sqrtRatio_maxTick] at hlimit
      have hsucc := sqrtRatio_mono (show step.tickNext ≤ step.tickNext + 1 by omega) (by omega)
        (by omega)
      refine ⟨?_, ?_, ?_, ?_, ?_, ?_⟩
      · rw [htick, minTick]
        omega
      · rw [htick, maxTick]
        omega
      · rw [htick, hprice, hnext]
      · rw [htick, hprice, hnext]
        exact hsucc
      · rw [hprice, hnext]
        omega
      · rw [hprice, hnext]
        omega

/-- Downwards a leg never divides the price by more than `2 ^ 32`. -/
lemma price_le_mul (hv : v.Supported) (h : OnTick p) (hstep : v.nextStep p.tick = .ok step)
    (hdir : v.zeroForOne = true) :
    p.sqrtPriceX96.toNat ≤ 2 ^ 32 * (v.swapTargetSqrtRatio step).toNat := by
  have hspacing := hv.spacing_pos
  obtain ⟨next, hfound, htick, hprice⟩ := nextStep_spec hspacing hstep
  obtain ⟨hmin, hmax⟩ := nextStep_range hspacing hstep
  have hword := hfound.same_word
  have htoward := h.tickNext hspacing hstep
  have hlt := Int.lt_ediv_add_one_mul_self p.tick hspacing
  have hclose : p.tick / v.tickSpacing + 1 ≤ next + 256 := by
    rw [hdir, firstIndex, if_pos rfl] at hword
    omega
  have hspan := (Int.mul_le_mul_of_nonneg_right hclose hspacing.le).trans_eq (add_mul _ _ _)
  have hle := hv.spacing_le
  rw [hdir, if_pos rfl] at htoward
  have hratio : sqrtRatio (p.tick + 1) ≤ 2 ^ 32 * sqrtRatio step.tickNext := by
    have hhigh := h.lt_maxTick
    refine sqrtRatio_le_mul hmin (by omega) (by omega) ?_
    unfold minTick maxTick at *
    omega
  have htarget := (ahead_target_iff v step _).mp Ahead.rfl
  rw [hdir, ahead_true, ahead_true, hprice] at htarget
  calc p.sqrtPriceX96.toNat ≤ sqrtRatio (p.tick + 1) := h.upper
    _ ≤ 2 ^ 32 * sqrtRatio step.tickNext := hratio
    _ ≤ 2 ^ 32 * (v.swapTargetSqrtRatio step).toNat := Nat.mul_le_mul_left _ htarget.1

end OnTick

/-! ## Sound states -/

lemma goesOn_iff : v.goesOn s = true ↔
    s.amountSpecifiedRemaining ≠ 0 ∧ s.sqrtPriceX96 ≠ v.sqrtPriceLimitX96 := by
  rw [goesOn, Bool.and_eq_true, decide_eq_true_eq, decide_eq_true_eq]

/-- What holds in the rounds of a swap that has started on its tick.  What has been counted, and
would be counted at most in the legs that are left, stays far below the end of the range. -/
structure Sound (v : Setting) (specified : Specified) (s : CurrentState) : Prop where
  left_lt : specified.left s.amountSpecifiedRemaining < 2 ^ 255
  soFar_le : specified.soFar s.amountCalculated ≤ 2 ^ 247
  ahead_limit : Ahead v.zeroForOne s.sqrtPriceX96.toNat v.sqrtPriceLimitX96.toNat
  onTick : v.goesOn s = true → OnTick s.position
  room : v.goesOn s = true → specified.soFar s.amountCalculated +
    2 ^ 225 * legsLeft v.zeroForOne s.tick ≤ 2 ^ 247

lemma left_start (p : Position) (specified : Specified) (amount : U256) :
    specified.left (p.start specified amount).amountSpecifiedRemaining = amount.toNat :=
  Specified.left_initial amount

lemma OnTick.sound_start (hv : v.Supported) (h : OnTick p) (specified : Specified) {amount : U256}
    (hamount : amount.toNat < 2 ^ 255) : v.Sound specified (p.start specified amount) := by
  have hcount : specified.soFar (p.start specified amount).amountCalculated = 0 :=
    Specified.soFar_zero
  refine ⟨(left_start p specified amount).trans_lt hamount, by omega, ?_, fun _ => h, fun _ => ?_⟩
  · obtain ⟨step, hstep, -⟩ := exists_nextStep hv.spacing_pos p.tick
    exact (h.ahead hv.spacing_pos hstep).trans (target_ahead_limit v step)
  · have hlegs : legsLeft v.zeroForOne (p.start specified amount).tick < 2 ^ 21 :=
      legsLeft_lt v.zeroForOne _
    omega

namespace Sound

variable (hv : v.Supported) (h : v.Sound specified s) (hgo : v.goesOn s = true)

include hv h hgo

lemma ahead (hstep : v.nextStep s.tick = .ok step) :
    Ahead v.zeroForOne s.sqrtPriceX96.toNat (v.swapTargetSqrtRatio step).toNat :=
  (h.onTick hgo).ahead hv.spacing_pos hstep

lemma counted_lt (hcomputed : v.StepOf s step computed) :
    specified.counted computed < 2 ^ 225 :=
  hcomputed.counted_lt hv (goesOn_iff.mp hgo).1 h.left_lt
    ((h.onTick hgo).lt_maxSqrtRatio.trans (by decide))

lemma soFar_add_le (hcomputed : v.StepOf s step computed) :
    specified.soFar s.amountCalculated + specified.counted computed ≤ 2 ^ 247 := by
  have hcounted := h.counted_lt hv hgo hcomputed
  have hroom := h.room hgo
  have hpos := legsLeft_pos v.zeroForOne s.tick
  omega

lemma soFar_eq (hround : v.RoundOf specified s s' step computed) :
    specified.soFar s'.amountCalculated =
      specified.soFar s.amountCalculated + specified.counted computed := by
  have hle := h.soFar_add_le hv hgo hround.toStepOf
  rw [hround.calculated_eq, Specified.soFar_calculated (by omega)]

/-- **Rounds keep a state sound.** -/
lemma round (hround : v.RoundOf specified s s' step computed) : v.Sound specified s' := by
  obtain ⟨hr, -⟩ := goesOn_iff.mp hgo
  have hahead := h.ahead hv hgo hround.nextStep_eq
  have hsoFar := h.soFar_eq hv hgo hround
  have hleft := hround.left_eq hv hr h.left_lt
  have hleg : v.goesOn s' = true → v.Leg s.position step s'.position := fun hgo' =>
    (hround.leg_of_left hv hr h.left_lt hahead (goesOn_iff.mp hgo').1).1
  refine ⟨?_, ?_, ?_, fun hgo' => ?_, fun hgo' => ?_⟩
  · have := h.left_lt
    omega
  · exact hsoFar.trans_le (h.soFar_add_le hv hgo hround.toStepOf)
  · rw [hround.price_eq]
    exact (hround.toStepOf.next_between hv hr h.left_lt hahead).2.trans (target_ahead_limit v step)
  · exact (h.onTick hgo).leg hv.spacing_pos (hleg hgo') (goesOn_iff.mp hgo').2
  · have hfewer : legsLeft v.zeroForOne s'.tick < legsLeft v.zeroForOne s.tick :=
      (hleg hgo').legsLeft_lt hv.spacing_pos (goesOn_iff.mp hgo').2
    have hcounted := h.counted_lt hv hgo hround.toStepOf
    have hroom := h.room hgo
    omega

end Sound

lemma Sound.reached (hv : v.Supported) (h : v.Sound specified s)
    (hreached : WhileLoop.Reached v.goesOn (v.round specified) s s') : v.Sound specified s' := by
  refine hreached.invariant (fun s s' hs hround => ?_) h
  obtain ⟨step, computed, hof⟩ := exists_roundOf hround.2
  exact hs.round hv hround.1 hof

end Setting

/-! ## Whole simulations -/

section Simulation

variable [Keccak] {specified : Specified} {db : DatabaseRef} {pool : UniswapV3Pool}
  {tokenIn : Address} {amount : U256} {p : Position}

lemma simulateSwap_of_ok (hamount : amount ≠ 0) (hp : readPosition db pool.address = .ok p)
    (rounds : ℕ) :
    simulateSwap specified rounds db pool tokenIn amount =
      (WhileLoop.run (setting db pool.address pool tokenIn).goesOn
        ((setting db pool.address pool tokenIn).round specified) rounds
        (p.start specified amount)).map fun last => last.bind (finish specified) := by
  simp only [simulateSwap, UniswapV3Pool.getAddress, if_neg hamount, hp]

lemma simulateSwap_ok (hamount : amount ≠ 0) (hp : readPosition db pool.address = .ok p)
    {rounds : ℕ} {r : U256}
    (h : simulateSwap specified rounds db pool tokenIn amount = some (.ok r)) :
    ∃ last, WhileLoop.Ends (setting db pool.address pool tokenIn).goesOn
        ((setting db pool.address pool tokenIn).round specified) (p.start specified amount)
        (.ok last) ∧
      last.amountSpecifiedRemaining = 0 ∧ specified.result last.amountCalculated = r := by
  rw [simulateSwap_of_ok hamount hp] at h
  obtain ⟨result, hrun, hfinish⟩ := Option.map_eq_some_iff.mp h
  obtain ⟨last, rfl, hlast⟩ := Rounds.bind_ok hfinish
  unfold finish at hlast
  split_ifs at hlast with hzero
  exact ⟨last, WhileLoop.ends_of_run hrun, hzero, Except.ok.inj hlast⟩

lemma setting_supported (h : pool.tickSpacing ≠ 0) :
    (setting db pool.address pool tokenIn).Supported := by
  simp only [Setting.Supported, setting]
  unfold UniswapV3Pool.tickSpacing UniswapV3Pool.getPriceStep at h ⊢
  split_ifs at h ⊢ with h₁ h₂ h₃ h₄
  · exact Or.inl ⟨h₁, rfl⟩
  · exact Or.inr (Or.inl ⟨h₂, rfl⟩)
  · exact Or.inr (Or.inr (Or.inl ⟨h₃, rfl⟩))
  · exact Or.inr (Or.inr (Or.inr ⟨h₄, rfl⟩))
  · exact absurd rfl h

lemma setting_supported_of_fee (db : DatabaseRef) (tokenIn : Address)
    (hfee : pool.fee = 100 ∨ pool.fee = 500 ∨ pool.fee = 3000 ∨ pool.fee = 10000) :
    (setting db pool.address pool tokenIn).Supported := by
  refine setting_supported ?_
  unfold UniswapV3Pool.tickSpacing
  rcases hfee with h | h | h | h <;> rw [h] <;> decide

end Simulation

end UniswapV3PoolVirtual

end Kabu
