import Kabu.Framework.Rounds
import Kabu.Defi.FullMath

/-!
# Square-root prices and amounts

A UniswapV3 pool keeps the square root of its price, times `2 ^ 96`.  From a price, a liquidity and
an amount the next price is computed, and from two prices and a liquidity the amounts of the two
tokens between them.

What is computed is said in the terms of `RoundedCurve`, with `L * 2 ^ 96` for the base side and
`2 ^ 96` for the divisor of the quote side.  The amounts between two prices are the four roundings
(`getAmount0Delta_up` and so on).  For the next prices there is one lemma for each way of computing
one; three of them add or multiply without a check, and there the lemmas say what is computed when
the word wraps.
-/

namespace Kabu

open RoundedCurve FullMath

abbrev U128 := BitVec 128
abbrev I256 := BitVec 256

def U256.ofU128 (x : U128) : U256 := x.setWidth 256

namespace SqrtPriceMath

def maxU160 : U256 := 1461501637330902918203684832716283019655932542975
def q96 : U256 := 79228162514264337593543950336
def fixedPoint96Resolution : ℕ := 96

/-! ## The next price -/

def getNextSqrtPriceFromAmount0RoundingUp (sqrtPriceX96 : U256) (liquidity : U128) (amount : U256)
    (add : Bool) : MathResult U256 :=
  if amount = 0 then .ok sqrtPriceX96
  else
    let numerator₁ := U256.ofU128 liquidity <<< 96
    let product := amount * sqrtPriceX96
    if add then
      if product / amount = sqrtPriceX96 ∧ numerator₁ ≤ numerator₁ + product then
        Failure.lift (mulDivRoundingUp numerator₁ sqrtPriceX96 (numerator₁ + product))
      else do
        let quotient ← U256.divOrPanic numerator₁ sqrtPriceX96
        divRoundingUp numerator₁ (quotient + amount)
    else if product / amount = sqrtPriceX96 ∧ product < numerator₁ then
      Failure.lift (mulDivRoundingUp numerator₁ sqrtPriceX96 (numerator₁ - product))
    else .error (.error .productDivAmount)

/-- The change of the price by an amount that comes in. -/
def quotientDown (amount liquidity : U256) : MathResult U256 :=
  if amount ≤ maxU160 then U256.divOrPanic (amount <<< fixedPoint96Resolution) liquidity
  else Failure.lift (mulDiv amount q96 liquidity)

/-- The change of the price by an amount that goes out. -/
def quotientUp (amount liquidity : U256) : MathResult U256 :=
  if amount ≤ maxU160 then divRoundingUp (amount <<< fixedPoint96Resolution) liquidity
  else Failure.lift (mulDivRoundingUp amount q96 liquidity)

def getNextSqrtPriceFromAmount1RoundingDown (sqrtPriceX96 : U256) (liquidity : U128)
    (amount : U256) (add : Bool) : MathResult U256 :=
  let liquidity := U256.ofU128 liquidity
  if add then do
    let quotient ← quotientDown amount liquidity
    let nextSqrtPrice := sqrtPriceX96 + quotient
    if maxU160 < nextSqrtPrice then .error (.error .safeCastToU160Overflow) else .ok nextSqrtPrice
  else do
    let quotient ← quotientUp amount liquidity
    if sqrtPriceX96 ≤ quotient then .error (.error .sqrtPriceIsLteQuotient)
    else .ok (sqrtPriceX96 - quotient)

def getNextSqrtPriceFromInput (sqrtPrice : U256) (liquidity : U128) (amountIn : U256)
    (zeroForOne : Bool) : MathResult U256 :=
  if sqrtPrice = 0 then .error (.error .sqrtPriceIsZero)
  else if liquidity = 0 then .error (.error .liquidityIsZero)
  else if zeroForOne then
    getNextSqrtPriceFromAmount0RoundingUp sqrtPrice liquidity amountIn true
  else getNextSqrtPriceFromAmount1RoundingDown sqrtPrice liquidity amountIn true

def getNextSqrtPriceFromOutput (sqrtPrice : U256) (liquidity : U128) (amountOut : U256)
    (zeroForOne : Bool) : MathResult U256 :=
  if sqrtPrice = 0 then .error (.error .sqrtPriceIsZero)
  else if liquidity = 0 then .error (.error .liquidityIsZero)
  else if zeroForOne then
    getNextSqrtPriceFromAmount1RoundingDown sqrtPrice liquidity amountOut false
  else getNextSqrtPriceFromAmount0RoundingUp sqrtPrice liquidity amountOut false

/-! ## Amounts between two prices -/

/-- The source's swap of two prices that are out of order. -/
def inOrder (sqrtRatioA sqrtRatioB : U256) : U256 × U256 :=
  if sqrtRatioB < sqrtRatioA then (sqrtRatioB, sqrtRatioA) else (sqrtRatioA, sqrtRatioB)

/-- The source's `_get_amount_0_delta`. -/
def getAmount0Delta (sqrtRatioA sqrtRatioB : U256) (liquidity : U128) (roundUp : Bool) :
    MathResult U256 :=
  let (sqrtRatioA, sqrtRatioB) := inOrder sqrtRatioA sqrtRatioB
  let numerator₁ := U256.ofU128 liquidity <<< 96
  let numerator₂ := sqrtRatioB - sqrtRatioA
  if sqrtRatioA = 0 then .error (.error .sqrtPriceIsZero)
  else if roundUp then do
    let numeratorPartial ← Failure.lift (mulDivRoundingUp numerator₁ numerator₂ sqrtRatioB)
    divRoundingUp numeratorPartial sqrtRatioA
  else do
    let numeratorPartial ← Failure.lift (mulDiv numerator₁ numerator₂ sqrtRatioB)
    U256.divOrPanic numeratorPartial sqrtRatioA

/-- The source's `_get_amount_1_delta`. -/
def getAmount1Delta (sqrtRatioA sqrtRatioB : U256) (liquidity : U128) (roundUp : Bool) :
    MathResult U256 :=
  let (sqrtRatioA, sqrtRatioB) := inOrder sqrtRatioA sqrtRatioB
  if roundUp then
    Failure.lift (mulDivRoundingUp (U256.ofU128 liquidity) (sqrtRatioB - sqrtRatioA) q96)
  else Failure.lift (mulDiv (U256.ofU128 liquidity) (sqrtRatioB - sqrtRatioA) q96)

/-! ## What is computed -/

/-- The divisor of the quote side. -/
def resolution : ℕ := 2 ^ 96

lemma resolution_pos : 0 < resolution := Nat.two_pow_pos 96

lemma toNat_q96 : q96.toNat = resolution := rfl

@[simp] lemma toNat_ofU128 (x : U128) : (U256.ofU128 x).toNat = x.toNat := by
  rw [U256.ofU128, BitVec.toNat_setWidth, Nat.mod_eq_of_lt (x.isLt.trans (by decide))]

lemma toNat_pos_of_ne {liquidity : U128} (h : liquidity ≠ 0) : 0 < liquidity.toNat :=
  Nat.pos_of_ne_zero fun hzero => h (BitVec.eq_of_toNat_eq hzero)

lemma ofU128_ne_zero {liquidity : U128} (h : liquidity ≠ 0) : U256.ofU128 liquidity ≠ 0 := by
  rw [← U256.toNat_pos_iff, toNat_ofU128]
  exact toNat_pos_of_ne h

lemma numerator_lt (liquidity : U128) : liquidity.toNat * resolution < 2 ^ 224 := by
  have := liquidity.isLt
  unfold resolution
  omega

@[simp] lemma toNat_numerator (liquidity : U128) :
    (U256.ofU128 liquidity <<< 96).toNat = liquidity.toNat * resolution := by
  have := numerator_lt liquidity
  rw [BitVec.toNat_shiftLeft, toNat_ofU128, Nat.shiftLeft_eq, ← resolution,
    Nat.mod_eq_of_lt (this.trans (by decide))]

lemma numerator_mul_ceilDiv_self {liquidity : U128} (hL : liquidity ≠ 0) (p : ℕ) :
    liquidity.toNat * resolution * p ⌈/⌉ (liquidity.toNat * resolution) = p :=
  smul_ceilDiv (β := ℕ) (Nat.mul_pos (toNat_pos_of_ne hL) resolution_pos) p

lemma toNat_shift {amount : U256} (h : amount ≤ maxU160) :
    (amount <<< fixedPoint96Resolution).toNat = amount.toNat * resolution := by
  have hlt : amount.toNat ≤ 2 ^ 160 - 1 := BitVec.le_def.mp h
  rw [fixedPoint96Resolution, BitVec.toNat_shiftLeft, Nat.shiftLeft_eq, ← resolution]
  refine Nat.mod_eq_of_lt ?_
  unfold resolution
  omega

lemma lift_ok_iff {α E : Type*} {x : Except E α} {a : α} : Failure.lift x = .ok a ↔ x = .ok a := by
  cases x <;> simp [Failure.lift]

lemma lift_ne_panic {α E : Type*} (x : Except E α) : Failure.lift x ≠ .error .panic := by
  cases x <;> simp [Failure.lift]

/-- The check of the source that a product has not wrapped. -/
lemma mul_div_eq_iff {amount price : U256} (h : amount ≠ 0) :
    amount * price / amount = price ↔ amount.toNat * price.toNat < 2 ^ 256 := by
  have hpos := U256.toNat_pos_iff.mpr h
  rw [← BitVec.toNat_inj, BitVec.toNat_udiv, BitVec.toNat_mul]
  constructor
  · intro hdiv
    by_contra hge
    have hsplit := Nat.div_add_mod (amount.toNat * price.toNat) (2 ^ 256)
    have hquot : 1 ≤ amount.toNat * price.toNat / 2 ^ 256 :=
      (Nat.one_le_div_iff (by decide)).mpr (not_lt.mp hge)
    have hmul : price.toNat * amount.toNat ≤ amount.toNat * price.toNat % 2 ^ 256 := by
      rw [← Nat.le_div_iff_mul_le hpos, hdiv]
    rw [mul_comm] at hmul
    omega
  · intro hlt
    rw [Nat.mod_eq_of_lt hlt, Nat.mul_div_cancel_left _ hpos]

section NextPrice

variable {price amount q : U256} {liquidity : U128}

lemma getNextSqrtPriceFromInput_eq (hp : price ≠ 0) (hL : liquidity ≠ 0) (zeroForOne : Bool) :
    getNextSqrtPriceFromInput price liquidity amount zeroForOne =
      if zeroForOne then getNextSqrtPriceFromAmount0RoundingUp price liquidity amount true
      else getNextSqrtPriceFromAmount1RoundingDown price liquidity amount true := by
  rw [getNextSqrtPriceFromInput, if_neg hp, if_neg hL]

lemma getNextSqrtPriceFromOutput_eq (hp : price ≠ 0) (hL : liquidity ≠ 0) (zeroForOne : Bool) :
    getNextSqrtPriceFromOutput price liquidity amount zeroForOne =
      if zeroForOne then getNextSqrtPriceFromAmount1RoundingDown price liquidity amount false
      else getNextSqrtPriceFromAmount0RoundingUp price liquidity amount false := by
  rw [getNextSqrtPriceFromOutput, if_neg hp, if_neg hL]

/-- Base tokens come in, and nothing wraps. -/
lemma amount0_add_ok_iff (hL : liquidity ≠ 0)
    (h : liquidity.toNat * resolution + amount.toNat * price.toNat < 2 ^ 256) :
    getNextSqrtPriceFromAmount0RoundingUp price liquidity amount true = .ok q ↔
      q.toNat = liquidity.toNat * resolution * price.toNat ⌈/⌉
        (liquidity.toNat * resolution + amount.toNat * price.toNat) := by
  have hN : 0 < liquidity.toNat * resolution := Nat.mul_pos (toNat_pos_of_ne hL) resolution_pos
  unfold getNextSqrtPriceFromAmount0RoundingUp
  by_cases ha : amount = 0
  · rw [if_pos ha, ha, U256.toNat_zero, Nat.zero_mul, Nat.add_zero, numerator_mul_ceilDiv_self hL]
    exact U256.ok_iff_toNat rfl
  · have hproduct : amount.toNat * price.toNat < 2 ^ 256 := by omega
    have hmul := BitVec.toNat_mul_of_lt hproduct
    have hsum : (U256.ofU128 liquidity <<< 96 + amount * price).toNat =
        liquidity.toNat * resolution + amount.toNat * price.toNat := by
      rw [BitVec.toNat_add, toNat_numerator, hmul, Nat.mod_eq_of_lt h]
    have hle : U256.ofU128 liquidity <<< 96 ≤ U256.ofU128 liquidity <<< 96 + amount * price := by
      rw [BitVec.le_def, hsum, toNat_numerator]
      exact Nat.le_add_right _ _
    dsimp only
    rw [if_neg ha, if_pos rfl, if_pos ⟨(mul_div_eq_iff ha).mpr hproduct, hle⟩, lift_ok_iff,
      mulDivRoundingUp_ok_iff, hsum, toNat_numerator]
    exact and_iff_right (by omega)

/-- Base tokens come in, and the product or the sum has wrapped. -/
lemma amount0_add_of_wraps (hp : price ≠ 0)
    (h : 2 ^ 256 ≤ liquidity.toNat * resolution + amount.toNat * price.toNat) :
    0 < amount.toNat ∧ ∃ d : U256,
      d.toNat = (liquidity.toNat * resolution / price.toNat + amount.toNat) % 2 ^ 256 ∧
      getNextSqrtPriceFromAmount0RoundingUp price liquidity amount true =
        divRoundingUp (U256.ofU128 liquidity <<< 96) d := by
  have hN := numerator_lt liquidity
  have ha : amount ≠ 0 := by
    rintro rfl
    rw [U256.toNat_zero, Nat.zero_mul] at h
    omega
  have hnot : ¬ (amount * price / amount = price ∧
      U256.ofU128 liquidity <<< 96 ≤ U256.ofU128 liquidity <<< 96 + amount * price) := by
    rintro ⟨hdiv, hle⟩
    have hproduct := (mul_div_eq_iff ha).mp hdiv
    rw [BitVec.le_def, BitVec.toNat_add, toNat_numerator, BitVec.toNat_mul,
      Nat.mod_eq_of_lt hproduct, Nat.mod_eq_sub_mod h, Nat.mod_eq_of_lt (by omega)] at hle
    omega
  refine ⟨U256.toNat_pos_iff.mpr ha, U256.ofU128 liquidity <<< 96 / price + amount, ?_, ?_⟩
  · rw [BitVec.toNat_add, BitVec.toNat_udiv, toNat_numerator]
  · unfold getNextSqrtPriceFromAmount0RoundingUp
    dsimp only
    rw [if_neg ha, if_pos rfl, if_neg hnot, U256.divOrPanic_of_ne hp]
    rfl

variable (hL : liquidity ≠ 0)

include hL

/-- Base tokens go out. -/
lemma amount0_sub_ok_iff :
    getNextSqrtPriceFromAmount0RoundingUp price liquidity amount false = .ok q ↔
      amount.toNat * price.toNat < liquidity.toNat * resolution ∧
      q.toNat = liquidity.toNat * resolution * price.toNat ⌈/⌉
        (liquidity.toNat * resolution - amount.toNat * price.toNat) := by
  have hN : 0 < liquidity.toNat * resolution := Nat.mul_pos (toNat_pos_of_ne hL) resolution_pos
  have hlt := numerator_lt liquidity
  unfold getNextSqrtPriceFromAmount0RoundingUp
  by_cases ha : amount = 0
  · rw [if_pos ha, ha, U256.toNat_zero, Nat.zero_mul, Nat.sub_zero, numerator_mul_ceilDiv_self hL]
    exact U256.ok_eq_ok_iff hN rfl
  · dsimp only
    rw [if_neg ha, if_neg (by simp)]
    by_cases hproduct : amount.toNat * price.toNat < liquidity.toNat * resolution
    · have hword : amount.toNat * price.toNat < 2 ^ 256 := by omega
      have hmul := BitVec.toNat_mul_of_lt hword
      have hless : amount * price < U256.ofU128 liquidity <<< 96 := by
        rw [BitVec.lt_def, hmul, toNat_numerator]
        exact hproduct
      have hsub : (U256.ofU128 liquidity <<< 96 - amount * price).toNat =
          liquidity.toNat * resolution - amount.toNat * price.toNat := by
        rw [BitVec.toNat_sub_of_le (BitVec.le_of_lt hless), toNat_numerator, hmul]
      rw [if_pos ⟨(mul_div_eq_iff ha).mpr hword, hless⟩, lift_ok_iff, mulDivRoundingUp_ok_iff,
        hsub, toNat_numerator]
      exact and_congr_left fun _ => iff_of_true (by omega) hproduct
    · refine iff_of_false ?_ (fun h => hproduct h.1)
      rw [if_neg]
      · simp
      · rintro ⟨hdiv, hless⟩
        have hsmall := (mul_div_eq_iff ha).mp hdiv
        rw [BitVec.lt_def, BitVec.toNat_mul, Nat.mod_eq_of_lt hsmall, toNat_numerator] at hless
        exact hproduct hless

lemma quotientDown_ok_iff :
    quotientDown amount (U256.ofU128 liquidity) = .ok q ↔
      q.toNat = amount.toNat * resolution / liquidity.toNat := by
  have hpos := toNat_pos_of_ne hL
  unfold quotientDown
  by_cases ha : amount ≤ maxU160
  · rw [if_pos ha, U256.divOrPanic_of_ne (ofU128_ne_zero hL)]
    exact U256.ok_iff_toNat (by rw [BitVec.toNat_udiv, toNat_shift ha, toNat_ofU128])
  · rw [if_neg ha, lift_ok_iff, mulDiv_ok_iff, toNat_ofU128, toNat_q96]
    exact and_iff_right hpos

lemma quotientUp_ok_iff :
    quotientUp amount (U256.ofU128 liquidity) = .ok q ↔
      q.toNat = amount.toNat * resolution ⌈/⌉ liquidity.toNat := by
  have hpos := toNat_pos_of_ne hL
  unfold quotientUp
  by_cases ha : amount ≤ maxU160
  · rw [if_pos ha, divRoundingUp_ok_iff, toNat_shift ha, toNat_ofU128]
    exact and_iff_right hpos
  · rw [if_neg ha, lift_ok_iff, mulDivRoundingUp_ok_iff, toNat_ofU128, toNat_q96]
    exact and_iff_right hpos

/-- Quote tokens come in.  The sum may wrap. -/
lemma amount1_add_ok_iff :
    getNextSqrtPriceFromAmount1RoundingDown price liquidity amount true = .ok q ↔
      amount.toNat * resolution / liquidity.toNat < 2 ^ 256 ∧
      q.toNat = (price.toNat + amount.toNat * resolution / liquidity.toNat) % 2 ^ 256 ∧
      q.toNat ≤ 2 ^ 160 - 1 := by
  unfold getNextSqrtPriceFromAmount1RoundingDown
  dsimp only
  rw [if_pos rfl, Rounds.bind_ok_iff]
  constructor
  · rintro ⟨x, hx, hq⟩
    have hx := (quotientDown_ok_iff hL).mp hx
    by_cases hlarge : maxU160 < price + x
    · rw [if_pos hlarge] at hq
      simp at hq
    · rw [if_neg hlarge] at hq
      cases Except.ok.inj hq
      refine ⟨hx ▸ x.isLt, ?_, BitVec.le_def.mp (BitVec.not_lt.mp hlarge)⟩
      rw [BitVec.toNat_add, hx]
  · rintro ⟨hword, hq, hsmall⟩
    obtain ⟨x, hx⟩ := U256.exists_toNat_eq hword
    have hsum : price + x = q := BitVec.eq_of_toNat_eq (by rw [BitVec.toNat_add, hx, hq])
    refine ⟨x, (quotientDown_ok_iff hL).mpr hx, ?_⟩
    rw [hsum, if_neg (BitVec.not_lt.mpr (BitVec.le_def.mpr hsmall))]

/-- Quote tokens go out. -/
lemma amount1_sub_ok_iff :
    getNextSqrtPriceFromAmount1RoundingDown price liquidity amount false = .ok q ↔
      amount.toNat * resolution ⌈/⌉ liquidity.toNat < price.toNat ∧
      q.toNat = price.toNat - amount.toNat * resolution ⌈/⌉ liquidity.toNat := by
  unfold getNextSqrtPriceFromAmount1RoundingDown
  dsimp only
  rw [if_neg (by simp), Rounds.bind_ok_iff]
  constructor
  · rintro ⟨x, hx, hq⟩
    have hx := (quotientUp_ok_iff hL).mp hx
    by_cases hlarge : price ≤ x
    · rw [if_pos hlarge] at hq
      simp at hq
    · rw [if_neg hlarge] at hq
      cases Except.ok.inj hq
      have hless : x < price := BitVec.not_le.mp hlarge
      rw [← hx]
      exact ⟨BitVec.lt_def.mp hless, BitVec.toNat_sub_of_le (BitVec.le_of_lt hless)⟩
  · rintro ⟨hless, hq⟩
    obtain ⟨x, hx⟩ := U256.exists_toNat_eq (hless.trans price.isLt)
    have hlt : x < price := BitVec.lt_def.mpr (hx ▸ hless)
    refine ⟨x, (quotientUp_ok_iff hL).mpr hx, ?_⟩
    rw [if_neg (BitVec.not_le.mpr hlt), U256.ok_iff_toNat rfl,
      BitVec.toNat_sub_of_le (BitVec.le_of_lt hlt), hx, hq]

end NextPrice

section Amounts

variable {a b r : U256} {liquidity : U128}

lemma inOrder_of_le (h : a ≤ b) : inOrder a b = (a, b) := if_neg (BitVec.not_lt.mpr h)

lemma getAmount0Delta_up (h : a ≤ b) :
    getAmount0Delta a b liquidity true = .ok r ↔
      0 < a.toNat ∧ r.toNat = baseUp (liquidity.toNat * resolution) a.toNat b.toNat := by
  unfold getAmount0Delta
  simp only [inOrder_of_le h]
  by_cases ha : a = 0
  · rw [if_pos ha, ha]
    simp
  · have hapos := U256.toNat_pos_iff.mpr ha
    have hbpos : 0 < b.toNat := lt_of_lt_of_le hapos (BitVec.le_def.mp h)
    have hpart : liquidity.toNat * resolution * (b.toNat - a.toNat) ⌈/⌉ b.toNat < 2 ^ 256 := by
      have hle : liquidity.toNat * resolution * (b.toNat - a.toNat) ⌈/⌉ b.toNat ≤
          liquidity.toNat * resolution := by
        rw [ceilDiv_le_iff_le_mul hbpos, mul_comm]
        exact Nat.mul_le_mul_right _ (Nat.sub_le _ _)
      exact (hle.trans_lt (numerator_lt liquidity)).trans (by decide)
    rw [if_neg ha, if_pos trivial, Rounds.bind_ok_iff, baseUp, mul_comm a.toNat b.toNat,
      ← ceilDiv_ceilDiv hbpos hapos]
    simp only [lift_ok_iff, mulDivRoundingUp_ok_iff, divRoundingUp_ok_iff, toNat_numerator,
      BitVec.toNat_sub_of_le h]
    constructor
    · rintro ⟨x, ⟨-, hx⟩, -, hr⟩
      exact ⟨hapos, by rw [hr, hx]⟩
    · rintro ⟨-, hr⟩
      obtain ⟨x, hx⟩ := U256.exists_toNat_eq hpart
      exact ⟨x, ⟨hbpos, hx⟩, hapos, by rw [hr, hx]⟩

lemma getAmount0Delta_down (h : a ≤ b) :
    getAmount0Delta a b liquidity false = .ok r ↔
      0 < a.toNat ∧ r.toNat = baseDown (liquidity.toNat * resolution) a.toNat b.toNat := by
  unfold getAmount0Delta
  simp only [inOrder_of_le h]
  by_cases ha : a = 0
  · rw [if_pos ha, ha]
    simp
  · have hapos := U256.toNat_pos_iff.mpr ha
    have hbpos : 0 < b.toNat := lt_of_lt_of_le hapos (BitVec.le_def.mp h)
    have hpart : liquidity.toNat * resolution * (b.toNat - a.toNat) / b.toNat < 2 ^ 256 := by
      refine lt_of_le_of_lt (Nat.div_le_of_le_mul ?_) ((numerator_lt liquidity).trans (by decide))
      rw [mul_comm]
      exact Nat.mul_le_mul_right _ (Nat.sub_le _ _)
    rw [if_neg ha, if_neg (by simp), Rounds.bind_ok_iff, baseDown, mul_comm a.toNat b.toNat,
      ← Nat.div_div_eq_div_mul]
    simp only [lift_ok_iff, mulDiv_ok_iff, U256.divOrPanic_of_ne ha, U256.ok_iff_toNat rfl,
      toNat_numerator, BitVec.toNat_sub_of_le h, BitVec.toNat_udiv]
    constructor
    · rintro ⟨x, ⟨-, hx⟩, hr⟩
      exact ⟨hapos, by rw [hr, hx]⟩
    · rintro ⟨-, hr⟩
      obtain ⟨x, hx⟩ := U256.exists_toNat_eq hpart
      exact ⟨x, ⟨hbpos, hx⟩, by rw [hr, hx]⟩

lemma getAmount1Delta_up (h : a ≤ b) :
    getAmount1Delta a b liquidity true = .ok r ↔
      r.toNat = quoteUp resolution liquidity.toNat a.toNat b.toNat := by
  unfold getAmount1Delta
  simp only [inOrder_of_le h]
  rw [if_pos trivial, lift_ok_iff, mulDivRoundingUp_ok_iff, toNat_ofU128, BitVec.toNat_sub_of_le h,
    toNat_q96]
  exact and_iff_right resolution_pos

lemma getAmount1Delta_down (h : a ≤ b) :
    getAmount1Delta a b liquidity false = .ok r ↔
      r.toNat = quoteDown resolution liquidity.toNat a.toNat b.toNat := by
  unfold getAmount1Delta
  simp only [inOrder_of_le h]
  rw [if_neg (by simp), lift_ok_iff, mulDiv_ok_iff, toNat_ofU128, BitVec.toNat_sub_of_le h,
    toNat_q96]
  exact and_iff_right resolution_pos

end Amounts

/-! ## Panics -/

section Panics

variable {price amount : U256} {liquidity : U128}

lemma divRoundingUp_panic_iff {a b : U256} : divRoundingUp a b = .error .panic ↔ b = 0 := by
  unfold divRoundingUp
  split_ifs with hb
  · exact iff_of_true rfl hb
  · exact iff_of_false (by simp) hb
  · exact iff_of_false (by simp) hb

lemma divOrPanic_panic_iff {a b : U256} : U256.divOrPanic a b = .error .panic ↔ b = 0 := by
  unfold U256.divOrPanic
  split_ifs with hb
  · exact iff_of_true rfl hb
  · exact iff_of_false (by simp) hb

lemma getAmount0Delta_ne_panic (a b : U256) (liquidity : U128) (roundUp : Bool) :
    getAmount0Delta a b liquidity roundUp ≠ .error .panic := by
  unfold getAmount0Delta
  simp only
  split_ifs with ha hround
  · simp
  · exact Rounds.bind_ne_error (lift_ne_panic _) fun _ _ h => ha (divRoundingUp_panic_iff.mp h)
  · exact Rounds.bind_ne_error (lift_ne_panic _) fun _ _ h => ha (divOrPanic_panic_iff.mp h)

lemma getAmount1Delta_ne_panic (a b : U256) (liquidity : U128) (roundUp : Bool) :
    getAmount1Delta a b liquidity roundUp ≠ .error .panic := by
  unfold getAmount1Delta
  simp only
  split_ifs
  · exact lift_ne_panic _
  · exact lift_ne_panic _

lemma amount1_ne_panic (hL : liquidity ≠ 0) (add : Bool) :
    getNextSqrtPriceFromAmount1RoundingDown price liquidity amount add ≠ .error .panic := by
  unfold getNextSqrtPriceFromAmount1RoundingDown quotientDown quotientUp
  simp only
  split_ifs
  · refine Rounds.bind_ne_error (fun h => ?_) fun _ _ => by split_ifs <;> simp
    exact ofU128_ne_zero hL (divOrPanic_panic_iff.mp h)
  · exact Rounds.bind_ne_error (lift_ne_panic _) fun _ _ => by split_ifs <;> simp
  · refine Rounds.bind_ne_error (fun h => ?_) fun _ _ => by split_ifs <;> simp
    exact ofU128_ne_zero hL (divRoundingUp_panic_iff.mp h)
  · exact Rounds.bind_ne_error (lift_ne_panic _) fun _ _ => by split_ifs <;> simp

lemma amount0_sub_ne_panic :
    getNextSqrtPriceFromAmount0RoundingUp price liquidity amount false ≠ .error .panic := by
  unfold getNextSqrtPriceFromAmount0RoundingUp
  dsimp only
  rw [if_neg (by simp : ¬ false = true)]
  split_ifs
  · simp
  · exact lift_ne_panic _
  · simp

/-- An amount that is not negative cannot bring the sum to zero. -/
lemma amount0_add_ne_panic (hp : price ≠ 0) (ha : amount.toNat < 2 ^ 255) :
    getNextSqrtPriceFromAmount0RoundingUp price liquidity amount true ≠ .error .panic := by
  unfold getNextSqrtPriceFromAmount0RoundingUp
  dsimp only
  rw [if_pos (rfl : true = true)]
  split_ifs with hzero hfits
  · simp
  · exact lift_ne_panic _
  · refine Rounds.bind_ne_error (fun h => hp (divOrPanic_panic_iff.mp h)) fun quotient hquot h => ?_
    have hpos := U256.toNat_pos_iff.mpr hzero
    have hsmall : quotient.toNat < 2 ^ 224 := by
      rw [U256.divOrPanic_of_ne hp] at hquot
      rw [← Except.ok.inj hquot, BitVec.toNat_udiv, toNat_numerator]
      exact lt_of_le_of_lt (Nat.div_le_self _ _) (numerator_lt liquidity)
    have hsum := congrArg BitVec.toNat (divRoundingUp_panic_iff.mp h)
    rw [BitVec.toNat_add_of_lt (by omega), U256.toNat_zero] at hsum
    omega

lemma getNextSqrtPriceFromInput_ne_panic (ha : amount.toNat < 2 ^ 255) (zeroForOne : Bool) :
    getNextSqrtPriceFromInput price liquidity amount zeroForOne ≠ .error .panic := by
  unfold getNextSqrtPriceFromInput
  split_ifs with hp hL
  · simp
  · simp
  · exact amount0_add_ne_panic hp ha
  · exact amount1_ne_panic hL true

lemma getNextSqrtPriceFromOutput_ne_panic (zeroForOne : Bool) :
    getNextSqrtPriceFromOutput price liquidity amount zeroForOne ≠ .error .panic := by
  unfold getNextSqrtPriceFromOutput
  split_ifs with hp hL
  · simp
  · simp
  · exact amount1_ne_panic hL false
  · exact amount0_sub_ne_panic

end Panics

end SqrtPriceMath

end Kabu
