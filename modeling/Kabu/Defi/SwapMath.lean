import Kabu.Defi.SqrtPriceMath

/-!
# One step of a swap

Inside a range of constant liquidity a swap moves the price towards a target.  If the remaining
amount is enough the target is reached, and otherwise the price that the amount pays for, or that is
needed for it.  The amounts that come in and go out are then computed for the price that is reached,
and the fee is a share of what comes in, or whatever is left of the input.

In which direction the price moves is read off the target, and a remaining amount that is not
negative is an input.

The two directions differ in what comes in and what goes out, and in the order of the prices.
`amountIn` and `amountOut` are the amounts for both of them, and `Ahead` is the order.  In these
terms a next price from an input is the farthest the input pays for, or not quite as far
(`amountIn_le_of_input`), and one from an output is the nearest that gives it (`le_amountOut_iff`).
-/

namespace Kabu

open RoundedCurve FullMath SqrtPriceMath

def U256.ofU32 (x : UInt32) : U256 := BitVec.ofNat 256 x.toNat

namespace SwapMath

structure ComputedStep where
  sqrtRatioNext : U256
  amountIn : U256
  amountOut : U256
  feeAmount : U256
  deriving DecidableEq, Repr

def inDelta (zeroForOne : Bool) (sqrtRatioCurrent sqrtRatioNext : U256) (liquidity : U128) :
    MathResult U256 :=
  if zeroForOne then getAmount0Delta sqrtRatioNext sqrtRatioCurrent liquidity true
  else getAmount1Delta sqrtRatioCurrent sqrtRatioNext liquidity true

def outDelta (zeroForOne : Bool) (sqrtRatioCurrent sqrtRatioNext : U256) (liquidity : U128) :
    MathResult U256 :=
  if zeroForOne then getAmount1Delta sqrtRatioNext sqrtRatioCurrent liquidity false
  else getAmount0Delta sqrtRatioCurrent sqrtRatioNext liquidity false

/-- The next price for an input, with the input for the target. -/
def nextForInput (zeroForOne : Bool) (sqrtRatioCurrent sqrtRatioTarget : U256) (liquidity : U128)
    (amountRemaining : I256) (feePips : UInt32) : MathResult (U256 × U256) := do
  let amountRemainingLessFee ←
    Failure.lift (mulDiv amountRemaining (U256.ofU32 (1000000 - feePips)) 1000000)
  let amountIn ← inDelta zeroForOne sqrtRatioCurrent sqrtRatioTarget liquidity
  if amountIn ≤ amountRemainingLessFee then .ok (sqrtRatioTarget, amountIn)
  else do
    let sqrtRatioNext ←
      getNextSqrtPriceFromInput sqrtRatioCurrent liquidity amountRemainingLessFee zeroForOne
    .ok (sqrtRatioNext, amountIn)

/-- The next price for an output, with the output for the target. -/
def nextForOutput (zeroForOne : Bool) (sqrtRatioCurrent sqrtRatioTarget : U256) (liquidity : U128)
    (amountRemaining : I256) : MathResult (U256 × U256) := do
  let amountOut ← outDelta zeroForOne sqrtRatioCurrent sqrtRatioTarget liquidity
  if amountOut ≤ -amountRemaining then .ok (sqrtRatioTarget, amountOut)
  else do
    let sqrtRatioNext ←
      getNextSqrtPriceFromOutput sqrtRatioCurrent liquidity (-amountRemaining) zeroForOne
    .ok (sqrtRatioNext, amountOut)

/-- An amount is computed again, or stays. -/
def recompute (again : Bool) (delta : MathResult U256) (amount : U256) : MathResult U256 :=
  if again then delta else .ok amount

/-- The step once the next price is known, with the amounts that are known already. -/
def finishStep (zeroForOne exactIn : Bool) (sqrtRatioCurrent sqrtRatioTarget : U256)
    (liquidity : U128) (amountRemaining : I256) (feePips : UInt32)
    (sqrtRatioNext amountIn amountOut : U256) : MathResult ComputedStep := do
  let max := decide (sqrtRatioTarget = sqrtRatioNext)
  let amountIn ← recompute (!max || !exactIn)
    (inDelta zeroForOne sqrtRatioCurrent sqrtRatioNext liquidity) amountIn
  let amountOut ← recompute (!max || exactIn)
    (outDelta zeroForOne sqrtRatioCurrent sqrtRatioNext liquidity) amountOut
  let amountOut :=
    if !exactIn && decide (-amountRemaining < amountOut) then -amountRemaining else amountOut
  if exactIn && !max then
    .ok ⟨sqrtRatioNext, amountIn, amountOut, amountRemaining - amountIn⟩
  else do
    let feeAmount ← Failure.lift
      (mulDivRoundingUp amountIn (U256.ofU32 feePips) (U256.ofU32 (1000000 - feePips)))
    .ok ⟨sqrtRatioNext, amountIn, amountOut, feeAmount⟩

def computeSwapStep (sqrtRatioCurrent sqrtRatioTarget : U256) (liquidity : U128)
    (amountRemaining : I256) (feePips : UInt32) : MathResult ComputedStep :=
  let zeroForOne := decide (sqrtRatioTarget ≤ sqrtRatioCurrent)
  if 0 ≤ amountRemaining.toInt then do
    let (sqrtRatioNext, amountIn) ← nextForInput zeroForOne sqrtRatioCurrent sqrtRatioTarget
      liquidity amountRemaining feePips
    finishStep zeroForOne true sqrtRatioCurrent sqrtRatioTarget liquidity amountRemaining feePips
      sqrtRatioNext amountIn 0
  else do
    let (sqrtRatioNext, amountOut) ← nextForOutput zeroForOne sqrtRatioCurrent sqrtRatioTarget
      liquidity amountRemaining
    finishStep zeroForOne false sqrtRatioCurrent sqrtRatioTarget liquidity amountRemaining feePips
      sqrtRatioNext 0 amountOut

/-! ## Both directions at once -/

/-- The second price is not behind the first. -/
def Ahead (zeroForOne : Bool) (p q : ℕ) : Prop :=
  if zeroForOne then q ≤ p else p ≤ q

/-- What comes in between two prices, rounded up. -/
def amountIn (zeroForOne : Bool) (L p q : ℕ) : ℕ :=
  if zeroForOne then baseUp (L * resolution) q p else quoteUp resolution L p q

/-- What goes out between two prices, rounded down. -/
def amountOut (zeroForOne : Bool) (L p q : ℕ) : ℕ :=
  if zeroForOne then quoteDown resolution L q p else baseDown (L * resolution) p q

/-- The fee on an amount that comes in, rounded up. -/
def feeOn (f a : ℕ) : ℕ := a * f ⌈/⌉ (1000000 - f)

section Ahead

variable {zeroForOne : Bool} {L p q s : ℕ}

lemma ahead_true : Ahead true p q ↔ q ≤ p := Iff.rfl
lemma ahead_false : Ahead false p q ↔ p ≤ q := Iff.rfl

lemma amountIn_true : amountIn true L p q = baseUp (L * resolution) q p := if_pos rfl
lemma amountIn_false : amountIn false L p q = quoteUp resolution L p q := if_neg (by simp)
lemma amountOut_true : amountOut true L p q = quoteDown resolution L q p := if_pos rfl
lemma amountOut_false : amountOut false L p q = baseDown (L * resolution) p q := if_neg (by simp)

lemma Ahead.rfl : Ahead zeroForOne p p := by
  cases zeroForOne <;> exact le_rfl

lemma Ahead.trans (h : Ahead zeroForOne p q) (h' : Ahead zeroForOne q s) :
    Ahead zeroForOne p s := by
  cases zeroForOne with
  | false => exact le_trans (show p ≤ q from h) h'
  | true => exact le_trans (show s ≤ q from h') h

lemma Ahead.total (zeroForOne : Bool) (p q : ℕ) :
    Ahead zeroForOne p q ∨ Ahead zeroForOne q p := by
  cases zeroForOne with
  | false => exact le_total p q
  | true => exact le_total q p

lemma Ahead.antisymm (h : Ahead zeroForOne p q) (h' : Ahead zeroForOne q p) : p = q := by
  cases zeroForOne with
  | false => exact le_antisymm (show p ≤ q from h) h'
  | true => exact le_antisymm (show p ≤ q from h') h

lemma between_of_ahead (hpq : Ahead zeroForOne p q) (hqt : Ahead zeroForOne q s) :
    min p s ≤ q ∧ q ≤ max p s := by
  cases zeroForOne with
  | true =>
      rw [ahead_true] at hpq hqt
      exact ⟨(min_le_right _ _).trans hqt, hpq.trans (le_max_left _ _)⟩
  | false =>
      rw [ahead_false] at hpq hqt
      exact ⟨(min_le_left _ _).trans hpq, hqt.trans (le_max_right _ _)⟩

lemma amountOut_le_amountIn : amountOut zeroForOne L p q ≤ amountIn (!zeroForOne) L q p := by
  cases zeroForOne with
  | true =>
      rw [amountOut_true, Bool.not_true, amountIn_false]
      exact floorDiv_le_ceilDiv (a := resolution) (b := L * (p - q))
  | false =>
      rw [amountOut_false, Bool.not_false, amountIn_true]
      exact floorDiv_le_ceilDiv (a := p * q) (b := L * resolution * (q - p))

lemma amountIn_self (L p : ℕ) : amountIn zeroForOne L p p = 0 := by
  cases zeroForOne with
  | true => rw [amountIn_true, baseUp, Nat.sub_self, Nat.mul_zero, zero_ceilDiv]
  | false => rw [amountIn_false, quoteUp, Nat.sub_self, Nat.mul_zero, zero_ceilDiv]

lemma amountOut_self (L p : ℕ) : amountOut zeroForOne L p p = 0 :=
  Nat.eq_zero_of_le_zero (amountOut_le_amountIn.trans_eq (amountIn_self L p))

lemma amountOut_eq_zero (hp : 0 < p) (hq : 0 < q) (h : amountIn zeroForOne L p q = 0) :
    amountOut zeroForOne L p q = 0 := by
  cases zeroForOne with
  | true =>
      rw [amountIn_true, baseUp] at h
      have hzero := (ceilDiv_le_iff_le_mul (Nat.mul_pos hq hp)).mp h.le
      rw [Nat.mul_zero, Nat.le_zero, Nat.mul_right_comm, Nat.mul_eq_zero] at hzero
      rw [amountOut_true, quoteDown, hzero.resolve_right resolution_pos.ne', Nat.zero_div]
  | false =>
      rw [amountIn_false, quoteUp] at h
      have hzero := (ceilDiv_le_iff_le_mul resolution_pos).mp h.le
      rw [Nat.mul_zero, Nat.le_zero] at hzero
      rw [amountOut_false, baseDown, Nat.mul_right_comm, hzero, Nat.zero_mul, Nat.zero_div]

end Ahead

section Deltas

variable {zeroForOne : Bool} {current next r : U256} {liquidity : U128}
  (hcurrent : 0 < current.toNat) (hnext : 0 < next.toNat)
  (h : Ahead zeroForOne current.toNat next.toNat)

include hnext h in
lemma inDelta_ok_iff :
    inDelta zeroForOne current next liquidity = .ok r ↔
      r.toNat = amountIn zeroForOne liquidity.toNat current.toNat next.toNat := by
  unfold inDelta amountIn
  cases zeroForOne with
  | true =>
      rw [if_pos rfl, if_pos rfl, getAmount0Delta_up (BitVec.le_def.mpr h)]
      exact and_iff_right hnext
  | false =>
      rw [if_neg (by simp), if_neg (by simp), getAmount1Delta_up (BitVec.le_def.mpr h)]

include hcurrent h in
lemma outDelta_ok_iff :
    outDelta zeroForOne current next liquidity = .ok r ↔
      r.toNat = amountOut zeroForOne liquidity.toNat current.toNat next.toNat := by
  unfold outDelta amountOut
  cases zeroForOne with
  | true => rw [if_pos rfl, if_pos rfl, getAmount1Delta_down (BitVec.le_def.mpr h)]
  | false =>
      rw [if_neg (by simp), if_neg (by simp), getAmount0Delta_down (BitVec.le_def.mpr h)]
      exact and_iff_right hcurrent

end Deltas

/-! ## The next prices -/

section Reach

variable {zeroForOne : Bool} {price amount q : U256} {liquidity : U128}

/-- Nothing wraps when the amount comes in. -/
def InputFits (zeroForOne : Bool) (L p a : ℕ) : Prop :=
  if zeroForOne then L * resolution / p + a < 2 ^ 256 else p + a * resolution / L < 2 ^ 256

/-- Nothing wraps for an input that does not reach a target. -/
lemma inputFits_of_lt (hL : liquidity ≠ 0) {p t a : ℕ} (ha : a < 2 ^ 255) (ht : t < 2 ^ 256)
    (h : a < amountIn zeroForOne liquidity.toNat p t) :
    InputFits zeroForOne liquidity.toNat p a := by
  cases zeroForOne with
  | true =>
      rw [InputFits, if_pos rfl]
      have hquot := Nat.div_le_self (liquidity.toNat * resolution) p
      have hN := numerator_lt liquidity
      omega
  | false =>
      rw [InputFits, if_neg (by simp)]
      have hfar : ¬ t - p ≤ a * resolution / liquidity.toNat := by
        rw [← quoteUp_le_iff resolution_pos (toNat_pos_of_ne hL), ← amountIn_false]
        exact not_le_of_gt h
      generalize a * resolution / liquidity.toNat = change at hfar ⊢
      omega

/-- The next price for an input is ahead, and every price before it can be paid. -/
lemma amountIn_le_of_input (hp : price ≠ 0) (hL : liquidity ≠ 0)
    (hfits : InputFits zeroForOne liquidity.toNat price.toNat amount.toNat)
    (hq : getNextSqrtPriceFromInput price liquidity amount zeroForOne = .ok q) :
    0 < q.toNat ∧ Ahead zeroForOne price.toNat q.toNat ∧
      ∀ s, Ahead zeroForOne price.toNat s → Ahead zeroForOne s q.toNat →
        amountIn zeroForOne liquidity.toNat price.toNat s ≤ amount.toNat := by
  have hpos := U256.toNat_pos_iff.mpr hp
  have hLpos := toNat_pos_of_ne hL
  have hN : 0 < liquidity.toNat * resolution := Nat.mul_pos hLpos resolution_pos
  rw [getNextSqrtPriceFromInput_eq hp hL] at hq
  cases zeroForOne with
  | true =>
      rw [if_pos rfl] at hq
      rw [InputFits, if_pos rfl] at hfits
      -- with or without the wrap, the price is not below the exact one
      have hbounds : liquidity.toNat * resolution * price.toNat ⌈/⌉
          (liquidity.toNat * resolution + amount.toNat * price.toNat) ≤ q.toNat ∧
          q.toNat ≤ price.toNat := by
        rcases lt_or_ge (liquidity.toNat * resolution + amount.toNat * price.toNat) (2 ^ 256) with
          hsum | hsum
        · have hexact := (amount0_add_ok_iff hL hsum).mp hq
          exact ⟨hexact.ge, hexact.trans_le (ceilDiv_add_le hN)⟩
        · obtain ⟨ha, d, hd, hresult⟩ := amount0_add_of_wraps hp hsum
          rw [Nat.mod_eq_of_lt hfits] at hd
          obtain ⟨-, hquot⟩ := divRoundingUp_ok_iff.mp (hresult.symm.trans hq)
          rw [toNat_numerator, hd] at hquot
          exact ⟨hquot ▸ ceilDiv_add_le_ceilDiv_floor hN ha, hquot ▸ ceilDiv_floor_le hpos ha⟩
      have hqpos : 0 < q.toNat :=
        lt_of_lt_of_le (ceilDiv_pos (by omega) (Nat.mul_pos hN hpos)) hbounds.1
      simp only [ahead_true, amountIn_true]
      refine ⟨hqpos, hbounds.2, fun s hs hsq => ?_⟩
      exact (baseUp_le_iff (by omega) hs hN).mpr (hbounds.1.trans hsq)
  | false =>
      rw [if_neg (by simp)] at hq
      rw [InputFits, if_neg (by simp)] at hfits
      obtain ⟨-, hsum, -⟩ := (amount1_add_ok_iff hL).mp hq
      rw [Nat.mod_eq_of_lt hfits] at hsum
      have hup : price.toNat ≤ q.toNat := hsum ▸ Nat.le_add_right _ _
      simp only [ahead_false, amountIn_false]
      refine ⟨lt_of_lt_of_le hpos hup, hup, fun s hs hsq => ?_⟩
      rw [quoteUp_le_iff resolution_pos hLpos]
      omega

/-- If not even the product has wrapped, the next price for an input is the farthest. -/
lemma ahead_of_amountIn_le (hp : price ≠ 0) (hL : liquidity ≠ 0)
    (hexact : zeroForOne = true →
      liquidity.toNat * resolution + amount.toNat * price.toNat < 2 ^ 256)
    (hfits : InputFits zeroForOne liquidity.toNat price.toNat amount.toNat)
    (hq : getNextSqrtPriceFromInput price liquidity amount zeroForOne = .ok q) {s : ℕ} (hs : 0 < s)
    (hahead : Ahead zeroForOne price.toNat s)
    (hle : amountIn zeroForOne liquidity.toNat price.toNat s ≤ amount.toNat) :
    Ahead zeroForOne s q.toNat := by
  have hLpos := toNat_pos_of_ne hL
  rw [getNextSqrtPriceFromInput_eq hp hL] at hq
  cases zeroForOne with
  | true =>
      rw [if_pos rfl] at hq
      have hq := (amount0_add_ok_iff hL (hexact rfl)).mp hq
      rw [ahead_true] at hahead ⊢
      rw [amountIn_true] at hle
      exact hq.trans_le ((baseUp_le_iff hs hahead (Nat.mul_pos hLpos resolution_pos)).mp hle)
  | false =>
      rw [if_neg (by simp)] at hq
      rw [InputFits, if_neg (by simp)] at hfits
      obtain ⟨-, hsum, -⟩ := (amount1_add_ok_iff hL).mp hq
      rw [Nat.mod_eq_of_lt hfits] at hsum
      rw [ahead_false] at hahead ⊢
      rw [amountIn_false, quoteUp_le_iff resolution_pos hLpos] at hle
      omega

/-- The next price for an output is the nearest that gives it. -/
lemma le_amountOut_iff (hp : price ≠ 0) (hL : liquidity ≠ 0)
    (hq : getNextSqrtPriceFromOutput price liquidity amount zeroForOne = .ok q) :
    0 < q.toNat ∧ Ahead zeroForOne price.toNat q.toNat ∧
      ∀ s, Ahead zeroForOne price.toNat s →
        (amount.toNat ≤ amountOut zeroForOne liquidity.toNat price.toNat s ↔
          Ahead zeroForOne q.toNat s) := by
  have hpos := U256.toNat_pos_iff.mpr hp
  have hLpos := toNat_pos_of_ne hL
  rw [getNextSqrtPriceFromOutput_eq hp hL] at hq
  cases zeroForOne with
  | true =>
      rw [if_pos rfl] at hq
      obtain ⟨hless, hq⟩ := (amount1_sub_ok_iff hL).mp hq
      simp only [ahead_true, amountOut_true, le_quoteDown_iff resolution_pos hLpos]
      refine ⟨by omega, by omega, fun s hs => ?_⟩
      omega
  | false =>
      rw [if_neg (by simp)] at hq
      obtain ⟨hthere, hq⟩ := (amount0_sub_ok_iff hL).mp hq
      have hup : price.toNat ≤ q.toNat := hq ▸ le_ceilDiv_sub hthere
      simp only [ahead_false, amountOut_false]
      refine ⟨lt_of_lt_of_le hpos hup, hup, fun s hs => ?_⟩
      rw [le_baseDown_iff hpos hs (Nat.mul_pos hLpos resolution_pos), and_iff_right hthere, ← hq]

end Reach

/-! ## The outcomes of a step -/

section Outcomes

variable {zeroForOne : Bool} {current target : U256} {liquidity : U128} {remaining : I256}
  {feePips : UInt32} {step : ComputedStep}

/-- The step goes all the way. -/
structure ReachesTarget (zeroForOne : Bool) (current target : U256) (L f : ℕ)
    (step : ComputedStep) : Prop where
  next_eq : step.sqrtRatioNext = target
  amountIn_eq : step.amountIn.toNat = amountIn zeroForOne L current.toNat target.toNat
  amountOut_eq : step.amountOut.toNat = amountOut zeroForOne L current.toNat target.toNat
  fee_eq : step.feeAmount.toNat = feeOn f (amountIn zeroForOne L current.toNat target.toNat)

/-- The step stops where the input, of which `a` is left without the fee, is used up. -/
structure StopsForInput (zeroForOne : Bool) (current target : U256) (liquidity : U128) (a r : ℕ)
    (step : ComputedStep) : Prop where
  liquidity_ne : liquidity ≠ 0
  next_from : getNextSqrtPriceFromInput current liquidity (BitVec.ofNat 256 a) zeroForOne =
    .ok step.sqrtRatioNext
  next_pos : 0 < step.sqrtRatioNext.toNat
  ahead : Ahead zeroForOne current.toNat step.sqrtRatioNext.toNat
  before : Ahead zeroForOne step.sqrtRatioNext.toNat target.toNat
  next_ne : step.sqrtRatioNext ≠ target
  amountIn_eq : step.amountIn.toNat =
    amountIn zeroForOne liquidity.toNat current.toNat step.sqrtRatioNext.toNat
  amountIn_le : step.amountIn.toNat ≤ a
  amountOut_eq : step.amountOut.toNat =
    amountOut zeroForOne liquidity.toNat current.toNat step.sqrtRatioNext.toNat
  fee_eq : step.amountIn.toNat + step.feeAmount.toNat = r

/-- The step stops where the output `o` is there. -/
structure StopsForOutput (zeroForOne : Bool) (current target : U256) (liquidity : U128) (f o : ℕ)
    (step : ComputedStep) : Prop where
  liquidity_ne : liquidity ≠ 0
  next_from : getNextSqrtPriceFromOutput current liquidity (BitVec.ofNat 256 o) zeroForOne =
    .ok step.sqrtRatioNext
  next_pos : 0 < step.sqrtRatioNext.toNat
  ahead : Ahead zeroForOne current.toNat step.sqrtRatioNext.toNat
  before : Ahead zeroForOne step.sqrtRatioNext.toNat target.toNat
  amountIn_eq : step.amountIn.toNat =
    amountIn zeroForOne liquidity.toNat current.toNat step.sqrtRatioNext.toNat
  amountOut_eq : step.amountOut.toNat = o
  le_amountOut : o ≤ amountOut zeroForOne liquidity.toNat current.toNat step.sqrtRatioNext.toNat
  fee_eq : step.feeAmount.toNat = feeOn f step.amountIn.toNat

lemma toNat_ofU32 (x : UInt32) : (U256.ofU32 x).toNat = x.toNat := by
  have := x.toNat_lt
  rw [U256.ofU32, BitVec.toNat_ofNat, Nat.mod_eq_of_lt (by omega)]

lemma toNat_feeRest (hf : feePips.toNat < 1000000) :
    (U256.ofU32 (1000000 - feePips)).toNat = 1000000 - feePips.toNat := by
  have hle : feePips ≤ 1000000 := UInt32.le_iff_toNat_le.mpr hf.le
  rw [toNat_ofU32, UInt32.toNat_sub_of_le _ _ hle]
  rfl

lemma lessFee_le (r f : ℕ) : r * (1000000 - f) / 1000000 ≤ r :=
  Nat.div_le_of_le_mul (by rw [mul_comm]; exact Nat.mul_le_mul_right _ (Nat.sub_le _ _))

lemma toNat_lt_of_nonneg {x : I256} (h : 0 ≤ x.toInt) : x.toNat < 2 ^ 255 := by
  rw [BitVec.toInt_eq_toNat_cond] at h
  have := x.isLt
  split_ifs at h with hsmall
  · omega
  · omega

lemma ahead_target (current target : U256) :
    Ahead (decide (target ≤ current)) current.toNat target.toNat := by
  by_cases h : target ≤ current
  · rw [decide_eq_true h, ahead_true]
    exact BitVec.le_def.mp h
  · rw [decide_eq_false h, ahead_false]
    exact (BitVec.lt_def.mp (BitVec.not_le.mp h)).le

lemma fee_ok {a fee : U256} (hf : feePips.toNat < 1000000)
    (h : mulDivRoundingUp a (U256.ofU32 feePips) (U256.ofU32 (1000000 - feePips)) = .ok fee) :
    fee.toNat = feeOn feePips.toNat a.toNat := by
  obtain ⟨-, hfee⟩ := mulDivRoundingUp_ok_iff.mp h
  rw [hfee, toNat_ofU32, toNat_feeRest hf, feeOn]

section Finish

variable {next guessIn guessOut : U256}

lemma finishStep_target (hf : feePips.toNat < 1000000)
    (h : finishStep zeroForOne true current target liquidity remaining feePips target guessIn
      guessOut = .ok step) :
    step.sqrtRatioNext = target ∧ step.amountIn = guessIn ∧
      outDelta zeroForOne current target liquidity = .ok step.amountOut ∧
      step.feeAmount.toNat = feeOn feePips.toNat guessIn.toNat := by
  simp only [finishStep, recompute, decide_true, Bool.not_true, Bool.or_self, Bool.false_or,
    Bool.and_false, Bool.false_and, if_true, Bool.false_eq_true, if_false] at h
  obtain ⟨x, hx, h⟩ := Rounds.bind_ok h
  cases Except.ok.inj hx
  obtain ⟨out, hout, h⟩ := Rounds.bind_ok h
  obtain ⟨fee, hfee, h⟩ := Rounds.bind_ok h
  cases Except.ok.inj h
  exact ⟨rfl, rfl, hout, fee_ok hf (lift_ok_iff.mp hfee)⟩

lemma finishStep_short (hne : target ≠ next)
    (h : finishStep zeroForOne true current target liquidity remaining feePips next guessIn
      guessOut = .ok step) :
    step.sqrtRatioNext = next ∧ inDelta zeroForOne current next liquidity = .ok step.amountIn ∧
      outDelta zeroForOne current next liquidity = .ok step.amountOut ∧
      step.feeAmount = remaining - step.amountIn := by
  simp only [finishStep, recompute, decide_eq_false hne, Bool.not_false, Bool.true_or, if_true,
    Bool.and_self, Bool.not_true, Bool.false_and, Bool.false_eq_true, if_false] at h
  obtain ⟨x, hx, h⟩ := Rounds.bind_ok h
  obtain ⟨y, hy, h⟩ := Rounds.bind_ok h
  cases Except.ok.inj h
  exact ⟨rfl, hx, hy, rfl⟩

/-- An output.  What was computed for the target is kept if the target is the next price, and the
output is cut down to what remains. -/
lemma finishStep_output (hf : feePips.toNat < 1000000)
    (h : finishStep zeroForOne false current target liquidity remaining feePips next guessIn
      guessOut = .ok step) :
    step.sqrtRatioNext = next ∧ inDelta zeroForOne current next liquidity = .ok step.amountIn ∧
      step.feeAmount.toNat = feeOn feePips.toNat step.amountIn.toNat ∧
      ∃ out, (target = next ∧ out = guessOut ∨
          target ≠ next ∧ outDelta zeroForOne current next liquidity = .ok out) ∧
        step.amountOut = if -remaining < out then -remaining else out := by
  simp only [finishStep, Bool.not_false, Bool.or_true, Bool.or_false, Bool.true_and,
    Bool.false_and, Bool.false_eq_true, if_false, decide_eq_true_eq] at h
  obtain ⟨x, hx, h⟩ := Rounds.bind_ok h
  obtain ⟨y, hy, h⟩ := Rounds.bind_ok h
  obtain ⟨fee, hfee, h⟩ := Rounds.bind_ok h
  cases Except.ok.inj h
  refine ⟨rfl, hx, fee_ok hf (lift_ok_iff.mp hfee), y, ?_, rfl⟩
  by_cases hmax : target = next
  · rw [recompute, decide_eq_true hmax] at hy
    exact Or.inl ⟨hmax, (Except.ok.inj hy).symm⟩
  · rw [recompute, decide_eq_false hmax] at hy
    exact Or.inr ⟨hmax, hy⟩

end Finish

lemma computeSwapStep_zero (htarget : 0 < target.toNat) :
    computeSwapStep 0 target liquidity remaining feePips ≠ .ok step := by
  have hdir : decide (target ≤ (0 : U256)) = false := by
    refine decide_eq_false fun hle => ?_
    have : target.toNat ≤ 0 := BitVec.le_def.mp hle
    omega
  have hnone : ∀ next : U256, ∀ r, outDelta false 0 next liquidity ≠ .ok r := by
    intro next r h
    rw [outDelta, if_neg (by simp), getAmount0Delta_down (BitVec.le_def.mpr (Nat.zero_le _))] at h
    exact absurd h.1 (Nat.lt_irrefl 0)
  intro h
  simp only [computeSwapStep, hdir] at h
  by_cases hin : 0 ≤ remaining.toInt
  · rw [if_pos hin] at h
    obtain ⟨⟨next, guess⟩, hnext, h⟩ := Rounds.bind_ok h
    by_cases hmax : target = next
    · subst hmax
      obtain ⟨x, -, h⟩ := Rounds.bind_ok h
      obtain ⟨y, hy, -⟩ := Rounds.bind_ok h
      rw [recompute, Bool.or_true, if_pos rfl] at hy
      exact hnone _ _ hy
    · exact hnone _ _ (finishStep_short hmax h).2.2.1
  · rw [if_neg hin] at h
    obtain ⟨⟨next, guess⟩, hnext, -⟩ := Rounds.bind_ok h
    obtain ⟨out, hout, -⟩ := Rounds.bind_ok hnext
    exact hnone _ _ hout

variable (hcurrent : 0 < current.toNat) (htarget : 0 < target.toNat)
  (hf : feePips.toNat < 1000000)

include hcurrent htarget hf

/-- **Inputs.** -/
lemma computeSwapStep_input (hin : 0 ≤ remaining.toInt)
    (h : computeSwapStep current target liquidity remaining feePips = .ok step) :
    amountIn (decide (target ≤ current)) liquidity.toNat current.toNat target.toNat ≤
        remaining.toNat * (1000000 - feePips.toNat) / 1000000 ∧
      ReachesTarget (decide (target ≤ current)) current target liquidity.toNat feePips.toNat step ∨
    remaining.toNat * (1000000 - feePips.toNat) / 1000000 <
        amountIn (decide (target ≤ current)) liquidity.toNat current.toNat target.toNat ∧
      StopsForInput (decide (target ≤ current)) current target liquidity
        (remaining.toNat * (1000000 - feePips.toNat) / 1000000) remaining.toNat step := by
  have hahead := ahead_target current target
  simp only [computeSwapStep] at h
  generalize decide (target ≤ current) = zeroForOne at hahead h ⊢
  rw [if_pos hin] at h
  obtain ⟨⟨next, guess⟩, hnext, hfinish⟩ := Rounds.bind_ok h
  obtain ⟨less, hless, hnext⟩ := Rounds.bind_ok hnext
  obtain ⟨ain, hain, hnext⟩ := Rounds.bind_ok hnext
  have hless' : less.toNat = remaining.toNat * (1000000 - feePips.toNat) / 1000000 := by
    rw [(mulDiv_ok_iff.mp (lift_ok_iff.mp hless)).2, toNat_feeRest hf]
    rfl
  have hain := (inDelta_ok_iff htarget hahead).mp hain
  rw [← hless', ← hain]
  by_cases henough : ain ≤ less
  · left
    rw [if_pos henough] at hnext
    obtain ⟨rfl, rfl⟩ := Prod.mk.inj (Except.ok.inj hnext)
    obtain ⟨hnext, hin, hout, hfee⟩ := finishStep_target hf hfinish
    refine ⟨BitVec.le_def.mp henough, hnext, by rw [hin, hain],
      (outDelta_ok_iff hcurrent hahead).mp hout, by rw [hfee, hain]⟩
  · right
    rw [if_neg henough] at hnext
    obtain ⟨q, hq, hnext⟩ := Rounds.bind_ok hnext
    obtain ⟨rfl, rfl⟩ := Prod.mk.inj (Except.ok.inj hnext)
    have hlt : less.toNat < ain.toNat := BitVec.lt_def.mp (BitVec.not_le.mp henough)
    have hremaining := toNat_lt_of_nonneg hin
    have hsmall : less.toNat ≤ remaining.toNat := hless'.trans_le (lessFee_le _ _)
    have hL : liquidity ≠ 0 := by
      rintro rfl
      rw [getNextSqrtPriceFromInput, if_neg (U256.toNat_pos_iff.mp hcurrent), if_pos rfl] at hq
      simp at hq
    have hfits : InputFits zeroForOne liquidity.toNat current.toNat less.toNat :=
      inputFits_of_lt hL (by omega) target.isLt (hain ▸ hlt)
    obtain ⟨hqpos, hcq, hpaid⟩ :=
      amountIn_le_of_input (U256.toNat_pos_iff.mp hcurrent) hL hfits hq
    -- the target cannot be paid, so it is beyond the next price
    have hbeyond : ¬ Ahead zeroForOne target.toNat q.toNat := by
      intro hbehind
      have := hpaid target.toNat hahead hbehind
      omega
    have hqt := (Ahead.total zeroForOne q.toNat target.toNat).resolve_right hbeyond
    have hne : target ≠ q := by
      rintro rfl
      exact hbeyond Ahead.rfl
    obtain ⟨hnext, hin', hout, hfee⟩ := finishStep_short hne hfinish
    have hin' := (inDelta_ok_iff hqpos hcq).mp hin'
    have hle : step.amountIn.toNat ≤ less.toNat := hin' ▸ hpaid q.toNat hcq Ahead.rfl
    refine ⟨hlt, ?_⟩
    subst hnext
    refine ⟨hL, ?_, hqpos, hcq, hqt, hne.symm, hin', hle, (outDelta_ok_iff hcurrent hcq).mp hout,
      ?_⟩
    · rw [BitVec.ofNat_toNat, BitVec.setWidth_eq]
      exact hq
    · rw [hfee, BitVec.toNat_sub_of_le (BitVec.le_def.mpr (hle.trans hsmall))]
      omega

/-- **Outputs.** -/
lemma computeSwapStep_output (hin : ¬ 0 ≤ remaining.toInt)
    (h : computeSwapStep current target liquidity remaining feePips = .ok step) :
    amountOut (decide (target ≤ current)) liquidity.toNat current.toNat target.toNat ≤
        (-remaining).toNat ∧
      ReachesTarget (decide (target ≤ current)) current target liquidity.toNat feePips.toNat step ∨
    (-remaining).toNat <
        amountOut (decide (target ≤ current)) liquidity.toNat current.toNat target.toNat ∧
      StopsForOutput (decide (target ≤ current)) current target liquidity feePips.toNat
        (-remaining).toNat step := by
  have hahead := ahead_target current target
  simp only [computeSwapStep] at h
  generalize decide (target ≤ current) = zeroForOne at hahead h ⊢
  rw [if_neg hin] at h
  obtain ⟨⟨next, guess⟩, hnext, hfinish⟩ := Rounds.bind_ok h
  obtain ⟨aout, haout, hnext⟩ := Rounds.bind_ok hnext
  have haout := (outDelta_ok_iff hcurrent hahead).mp haout
  rw [← haout]
  by_cases henough : aout ≤ -remaining
  · left
    rw [if_pos henough] at hnext
    obtain ⟨rfl, rfl⟩ := Prod.mk.inj (Except.ok.inj hnext)
    obtain ⟨hnext, hin', hfee, out, hkept, hcut⟩ := finishStep_output hf hfinish
    have hamount := (inDelta_ok_iff htarget hahead).mp hin'
    have hout : out = aout := by
      rcases hkept with ⟨-, hout⟩ | ⟨hne, -⟩
      · exact hout
      · exact absurd rfl hne
    rw [hout, if_neg (BitVec.not_lt.mpr henough)] at hcut
    exact ⟨BitVec.le_def.mp henough, hnext, hamount, by rw [hcut, haout], by rw [hfee, hamount]⟩
  · right
    rw [if_neg henough] at hnext
    obtain ⟨q, hq, hnext⟩ := Rounds.bind_ok hnext
    obtain ⟨rfl, rfl⟩ := Prod.mk.inj (Except.ok.inj hnext)
    have hlt : (-remaining).toNat < aout.toNat := BitVec.lt_def.mp (BitVec.not_le.mp henough)
    have hL : liquidity ≠ 0 := by
      rintro rfl
      rw [getNextSqrtPriceFromOutput, if_neg (U256.toNat_pos_iff.mp hcurrent), if_pos rfl] at hq
      simp at hq
    obtain ⟨hqpos, hcq, hgives⟩ := le_amountOut_iff (U256.toNat_pos_iff.mp hcurrent) hL hq
    have hqt : Ahead zeroForOne q.toNat target.toNat :=
      (hgives target.toNat hahead).mp (by omega)
    have hthere := (hgives q.toNat hcq).mpr Ahead.rfl
    obtain ⟨hnext, hin', hfee, out, hkept, hcut⟩ := finishStep_output hf hfinish
    have hin' := (inDelta_ok_iff hqpos hcq).mp hin'
    have hout : (-remaining).toNat ≤ out.toNat := by
      rcases hkept with ⟨-, rfl⟩ | ⟨-, hout⟩
      · exact hlt.le
      · rw [(outDelta_ok_iff hcurrent hcq).mp hout]
        exact hthere
    have hcut' : step.amountOut = -remaining := by
      rw [hcut]
      split_ifs with hless
      · rfl
      · exact BitVec.eq_of_toNat_eq (le_antisymm (BitVec.le_def.mp (BitVec.not_lt.mp hless)) hout)
    refine ⟨hlt, ?_⟩
    subst hnext
    refine ⟨hL, ?_, hqpos, hcq, hqt, hin', by rw [hcut'], hthere, hfee⟩
    rw [BitVec.ofNat_toNat, BitVec.setWidth_eq]
    exact hq

/-- Whatever remains, the price stays between what it was and the target. -/
lemma computeSwapStep_between
    (h : computeSwapStep current target liquidity remaining feePips = .ok step) :
    min current.toNat target.toNat ≤ step.sqrtRatioNext.toNat ∧
      step.sqrtRatioNext.toNat ≤ max current.toNat target.toNat := by
  have hahead := ahead_target current target
  by_cases hin : 0 ≤ remaining.toInt
  · rcases computeSwapStep_input hcurrent htarget hf hin h with ⟨-, hreach⟩ | ⟨-, hstops⟩
    · exact between_of_ahead (hreach.next_eq ▸ hahead) (hreach.next_eq ▸ Ahead.rfl)
    · exact between_of_ahead hstops.ahead hstops.before
  · rcases computeSwapStep_output hcurrent htarget hf hin h with ⟨-, hreach⟩ | ⟨-, hstops⟩
    · exact between_of_ahead (hreach.next_eq ▸ hahead) (hreach.next_eq ▸ Ahead.rfl)
    · exact between_of_ahead hstops.ahead hstops.before

end Outcomes

/-! ## Steps that return -/

section Returns

variable {zeroForOne : Bool} {current target : U256} {liquidity : U128} {remaining : I256}
  {feePips : UInt32}

lemma amountIn_zero (p q : ℕ) : amountIn zeroForOne 0 p q = 0 := by
  cases zeroForOne with
  | true => rw [amountIn_true, baseUp, Nat.zero_mul, Nat.zero_mul, zero_ceilDiv]
  | false => rw [amountIn_false, quoteUp, Nat.zero_mul, zero_ceilDiv]

lemma exists_lessFee (hf : feePips.toNat < 1000000) (r : U256) :
    ∃ less, mulDiv r (U256.ofU32 (1000000 - feePips)) 1000000 = .ok less ∧
      less.toNat = r.toNat * (1000000 - feePips.toNat) / 1000000 := by
  obtain ⟨less, hless⟩ := U256.exists_toNat_eq ((lessFee_le r.toNat feePips.toNat).trans_lt r.isLt)
  refine ⟨less, mulDiv_ok_iff.mpr ?_, hless⟩
  rw [toNat_feeRest hf]
  exact ⟨by decide, hless⟩

lemma getNextSqrtPriceFromInput_zero (hcurrent : 0 < current.toNat)
    (hcurrent' : current.toNat < 2 ^ 160) (hL : liquidity ≠ 0) (zeroForOne : Bool) :
    getNextSqrtPriceFromInput current liquidity 0 zeroForOne = .ok current := by
  rw [getNextSqrtPriceFromInput_eq (U256.toNat_pos_iff.mp hcurrent) hL]
  cases zeroForOne with
  | true => rw [if_pos rfl, getNextSqrtPriceFromAmount0RoundingUp, if_pos rfl]
  | false =>
      rw [if_neg Bool.false_ne_true, amount1_add_ok_iff hL, U256.toNat_zero, Nat.zero_mul,
        Nat.zero_div, Nat.add_zero, Nat.mod_eq_of_lt current.isLt]
      exact ⟨by decide, rfl, by omega⟩

section

variable (hcurrent : 0 < current.toNat) (htarget : 0 < target.toNat)
  (hf : feePips.toNat < 1000000)
  (hamountIn : amountIn (decide (target ≤ current)) liquidity.toNat current.toNat target.toNat <
    2 ^ 256)

include hcurrent htarget hf hamountIn

lemma exists_computeSwapStep_of_enough (hin : 0 ≤ remaining.toInt)
    (hamountOut : amountOut (decide (target ≤ current)) liquidity.toNat current.toNat
      target.toNat < 2 ^ 256)
    (hfee : feeOn feePips.toNat (amountIn (decide (target ≤ current)) liquidity.toNat
      current.toNat target.toNat) < 2 ^ 256)
    (henough : amountIn (decide (target ≤ current)) liquidity.toNat current.toNat target.toNat ≤
      remaining.toNat * (1000000 - feePips.toNat) / 1000000) :
    ∃ step, computeSwapStep current target liquidity remaining feePips = .ok step := by
  have hahead := ahead_target current target
  obtain ⟨less, hless, hless'⟩ := exists_lessFee hf remaining
  obtain ⟨ain, hain⟩ := U256.exists_toNat_eq hamountIn
  obtain ⟨aout, haout⟩ := U256.exists_toNat_eq hamountOut
  obtain ⟨fee, hfee⟩ := U256.exists_toNat_eq hfee
  have hle : ain ≤ less := by
    rw [BitVec.le_def, hain, hless']
    exact henough
  rw [computeSwapStep, if_pos hin]
  refine ⟨⟨target, ain, aout, fee⟩, Rounds.bind_ok_iff.mpr ⟨(target, ain), ?_, ?_⟩⟩
  · refine Rounds.bind_ok_iff.mpr ⟨less, lift_ok_iff.mpr hless,
      Rounds.bind_ok_iff.mpr ⟨ain, ?_, ?_⟩⟩
    · exact (inDelta_ok_iff htarget hahead).mpr hain
    · exact if_pos hle
  · refine Rounds.bind_ok_iff.mpr ⟨ain, by simp [recompute], ?_⟩
    refine Rounds.bind_ok_iff.mpr ⟨aout, ?_, ?_⟩
    · simpa [recompute] using (outDelta_ok_iff hcurrent hahead).mpr haout
    · simp only [Bool.not_true, Bool.false_and, Bool.false_eq_true, if_false, decide_true,
        Bool.and_false]
      refine Rounds.bind_ok_iff.mpr ⟨fee, lift_ok_iff.mpr (mulDivRoundingUp_ok_iff.mpr ?_), rfl⟩
      rw [toNat_feeRest hf, toNat_ofU32, hain]
      exact ⟨by omega, hfee⟩

/-- An input of one unit is all fee, and the price stays. -/
lemma exists_computeSwapStep_of_one (hcurrent' : current.toNat < 2 ^ 160)
    (hfee : 0 < feePips.toNat)
    (hpos : 0 < amountIn (decide (target ≤ current)) liquidity.toNat current.toNat target.toNat) :
    ∃ step, computeSwapStep current target liquidity 1 feePips = .ok step ∧
      step.sqrtRatioNext = current := by
  have hahead := ahead_target current target
  obtain ⟨ain, hain⟩ := U256.exists_toNat_eq hamountIn
  obtain ⟨less, hless, hless'⟩ := exists_lessFee hf 1
  obtain rfl : less = 0 := by
    refine U256.toNat_eq_zero_iff.mp (hless'.trans ?_)
    have hone : (1 : U256).toNat = 1 := rfl
    rw [hone, Nat.one_mul]
    exact Nat.div_eq_of_lt (by omega)
  have hle : ¬ ain ≤ 0 := by
    rw [BitVec.le_def, hain, U256.toNat_zero]
    omega
  have hL : liquidity ≠ 0 := by
    rintro rfl
    exact hpos.ne' (amountIn_zero _ _)
  have hne : target ≠ current := by
    rintro rfl
    exact hpos.ne' (amountIn_self _ _)
  have hstay : inDelta (decide (target ≤ current)) current current liquidity = .ok 0 :=
    (inDelta_ok_iff hcurrent Ahead.rfl).mpr (amountIn_self _ _).symm
  have hstay' : outDelta (decide (target ≤ current)) current current liquidity = .ok 0 :=
    (outDelta_ok_iff hcurrent Ahead.rfl).mpr (amountOut_self _ _).symm
  rw [computeSwapStep, if_pos (by decide)]
  refine ⟨⟨current, 0, 0, 1⟩, Rounds.bind_ok_iff.mpr ⟨(current, ain), ?_, ?_⟩, rfl⟩
  · refine Rounds.bind_ok_iff.mpr ⟨0, lift_ok_iff.mpr hless, Rounds.bind_ok_iff.mpr ⟨ain, ?_, ?_⟩⟩
    · exact (inDelta_ok_iff htarget hahead).mpr hain
    · rw [if_neg hle]
      exact Rounds.bind_ok_iff.mpr
        ⟨current, getNextSqrtPriceFromInput_zero hcurrent hcurrent' hL _, rfl⟩
  · refine Rounds.bind_ok_iff.mpr ⟨0, by simp [recompute, hne, hstay], ?_⟩
    refine Rounds.bind_ok_iff.mpr ⟨0, by simp [recompute, hne, hstay'], ?_⟩
    simp [hne]

end

end Returns

/-! ## Panics -/

section Panics

variable {zeroForOne exactIn : Bool} {current target next guessIn guessOut : U256}
  {liquidity : U128} {remaining : I256} {feePips : UInt32}

lemma inDelta_ne_panic : inDelta zeroForOne current next liquidity ≠ .error .panic := by
  unfold inDelta
  split_ifs
  · exact getAmount0Delta_ne_panic _ _ _ _
  · exact getAmount1Delta_ne_panic _ _ _ _

lemma outDelta_ne_panic : outDelta zeroForOne current next liquidity ≠ .error .panic := by
  unfold outDelta
  split_ifs
  · exact getAmount1Delta_ne_panic _ _ _ _
  · exact getAmount0Delta_ne_panic _ _ _ _

lemma recompute_ne_panic {again : Bool} {delta : MathResult U256} {amount : U256}
    (h : delta ≠ .error .panic) : recompute again delta amount ≠ .error .panic := by
  unfold recompute
  split_ifs
  · exact h
  · simp

lemma finishStep_ne_panic :
    finishStep zeroForOne exactIn current target liquidity remaining feePips next guessIn
      guessOut ≠ .error .panic := by
  refine Rounds.bind_ne_error (recompute_ne_panic inDelta_ne_panic) fun x _ => ?_
  refine Rounds.bind_ne_error (recompute_ne_panic outDelta_ne_panic) fun y _ => ?_
  dsimp only
  by_cases hrest : (exactIn && !decide (target = next)) = true
  · rw [if_pos hrest]
    simp
  · rw [if_neg hrest]
    exact Rounds.bind_ne_error (lift_ne_panic _) fun z _ => by simp

lemma computeSwapStep_ne_panic (hf : feePips.toNat < 1000000) :
    computeSwapStep current target liquidity remaining feePips ≠ .error .panic := by
  simp only [computeSwapStep]
  split_ifs with hin
  · refine Rounds.bind_ne_error ?_ fun _ _ => finishStep_ne_panic
    refine Rounds.bind_ne_error (lift_ne_panic _) fun less hless => ?_
    refine Rounds.bind_ne_error inDelta_ne_panic fun x _ => ?_
    have hsmall : less.toNat < 2 ^ 255 := by
      refine lt_of_le_of_lt ?_ (toNat_lt_of_nonneg hin)
      rw [(mulDiv_ok_iff.mp (lift_ok_iff.mp hless)).2, toNat_feeRest hf]
      exact lessFee_le _ _
    split_ifs
    · simp
    · exact Rounds.bind_ne_error (getNextSqrtPriceFromInput_ne_panic hsmall _) fun y _ => by simp
  · refine Rounds.bind_ne_error ?_ fun _ _ => finishStep_ne_panic
    refine Rounds.bind_ne_error outDelta_ne_panic fun x _ => ?_
    split_ifs
    · simp
    · exact Rounds.bind_ne_error (getNextSqrtPriceFromOutput_ne_panic _) fun y _ => by simp

end Panics

end SwapMath

end Kabu
