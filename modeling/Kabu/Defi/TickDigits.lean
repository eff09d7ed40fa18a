import Kabu.Framework.RoundedLog
import Kabu.Defi.TickMath

/-!
# The tick of a price, digit by digit

The tick of a price is found from fourteen binary digits of its logarithm.  The position of the
highest one of the price is the whole part, and the digits after it are found by squaring what is
left.  Two candidates are computed from the digits, by a factor that changes the base of the
logarithm, and by what is taken off or added for the digits that are missing.

Here the words are turned into numbers.  `foldl_logStep` says that the loop makes the squarings of
the library of logarithms, and `getTickAtSqrtRatio_eq` is the function with the two candidates as
quotients of integers.
-/

namespace Kabu

namespace TickMath

open RoundedLog

def digitOne : ℕ := 2 ^ 127

lemma digitOne_pos : 0 < digitOne := Nat.two_pow_pos 127

/-! ## The highest one -/

/-- The table of the search for the highest one. -/
def msbEntries : ℕ → List (U256 × ℕ)
  | 0 => []
  | j + 1 => (BitVec.ofNat 256 (2 ^ 2 ^ j - 1), 2 ^ j) :: msbEntries j

lemma msbOf_eq (ratio : U256) : msbOf ratio = ((msbEntries 8).foldl msbStep (ratio, 0)).2 := by
  have hentries : msbEntries 8 =
      [(340282366920938463463374607431768211455, 128), (18446744073709551615, 64),
        (4294967295, 32), (65535, 16), (255, 8), (15, 4), (3, 2), (1, 1)] := by decide +kernel
  rw [hentries, msbOf]

section HighestOne

variable {found : U256 × U256} {j : ℕ}

lemma toNat_msbEntry (hj : j < 8) : (BitVec.ofNat 256 (2 ^ 2 ^ j - 1)).toNat = 2 ^ 2 ^ j - 1 := by
  have hpow : 2 ^ 2 ^ j ≤ 2 ^ 2 ^ 7 :=
    Nat.pow_le_pow_right (by decide) (Nat.pow_le_pow_right (by decide) (by omega))
  have hlast : 2 ^ 2 ^ 7 < 2 ^ 256 := by decide +kernel
  rw [BitVec.toNat_ofNat, Nat.mod_eq_of_lt (by omega)]

lemma msbStep_of_le (hj : j < 8) (hle : 2 ^ 2 ^ j ≤ found.1.toNat)
    (hdvd : 2 ^ (j + 1) ∣ found.2.toNat) :
    (msbStep found (BitVec.ofNat 256 (2 ^ 2 ^ j - 1), 2 ^ j)).1.toNat =
        found.1.toNat / 2 ^ 2 ^ j ∧
      (msbStep found (BitVec.ofNat 256 (2 ^ 2 ^ j - 1), 2 ^ j)).2.toNat =
        found.2.toNat + 2 ^ j := by
  have hpos : 0 < 2 ^ 2 ^ j := Nat.two_pow_pos _
  have hfound : BitVec.ofNat 256 (2 ^ 2 ^ j - 1) < found.1 := by
    rw [BitVec.lt_def, toNat_msbEntry hj]
    omega
  have hword : (BitVec.ofNat 256 (2 ^ j)).toNat = 2 ^ j := by
    have hlt : 2 ^ j < 2 ^ 256 := Nat.pow_lt_pow_right (by decide) (by omega)
    rw [BitVec.toNat_ofNat, Nat.mod_eq_of_lt hlt]
  obtain ⟨a, ha⟩ := hdvd
  simp only [msbStep, if_pos hfound]
  refine ⟨by rw [BitVec.toNat_ushiftRight, Nat.shiftRight_eq_div_pow], ?_⟩
  -- the bit is below the bits found before
  rw [BitVec.toNat_or, hword, ha, ← Nat.two_pow_add_eq_or_of_lt]
  exact Nat.pow_lt_pow_right (by decide) (by omega)

lemma msbStep_of_lt (hj : j < 8) (hlt : found.1.toNat < 2 ^ 2 ^ j) :
    msbStep found (BitVec.ofNat 256 (2 ^ 2 ^ j - 1), 2 ^ j) = found := by
  have hfound : ¬ BitVec.ofNat 256 (2 ^ 2 ^ j - 1) < found.1 := by
    rw [BitVec.lt_def, toNat_msbEntry hj]
    omega
  simp [msbStep, if_neg hfound]

/-- The search, with the bits that are still to be looked at. -/
lemma foldl_msbStep (hj : j ≤ 8) (hpos : 0 < found.1.toNat) (hlt : found.1.toNat < 2 ^ 2 ^ j)
    (hdvd : 2 ^ j ∣ found.2.toNat) :
    ∃ d, ((msbEntries j).foldl msbStep found).2.toNat = found.2.toNat + d ∧
      2 ^ d ≤ found.1.toNat ∧ found.1.toNat < 2 ^ (d + 1) := by
  induction j generalizing found with
  | zero => exact ⟨0, rfl, hpos, hlt⟩
  | succ j ih =>
      rw [msbEntries, List.foldl_cons]
      have hpow : 0 < 2 ^ 2 ^ j := Nat.two_pow_pos _
      have hdvd' : 2 ^ j ∣ found.2.toNat := (pow_dvd_pow 2 (Nat.le_succ j)).trans hdvd
      by_cases hle : 2 ^ 2 ^ j ≤ found.1.toNat
      · obtain ⟨hnumber, hbits⟩ := msbStep_of_le (by omega) hle hdvd
        have hlt' : found.1.toNat / 2 ^ 2 ^ j < 2 ^ 2 ^ j := by
          rw [Nat.div_lt_iff_lt_mul hpow, ← pow_add, ← two_mul, ← pow_succ']
          exact hlt
        obtain ⟨d, hd, hlow, hhigh⟩ := ih (by omega) (hnumber ▸ Nat.div_pos hle hpow)
          (hnumber ▸ hlt') (hbits ▸ hdvd'.add dvd_rfl)
        rw [hnumber] at hlow hhigh
        refine ⟨2 ^ j + d, by rw [hd, hbits, Nat.add_assoc], ?_, ?_⟩
        · rw [pow_add, mul_comm]
          exact (Nat.le_div_iff_mul_le hpow).mp hlow
        · rw [Nat.add_assoc, pow_add, mul_comm]
          exact (Nat.div_lt_iff_lt_mul hpow).mp hhigh
      · rw [msbStep_of_lt (by omega) (not_le.mp hle)]
        exact ih (by omega) hpos (not_le.mp hle) hdvd'

/-- **The highest one of a word.** -/
lemma msbOf_spec {ratio : U256} (h : 0 < ratio.toNat) :
    2 ^ (msbOf ratio).toNat ≤ ratio.toNat ∧ ratio.toNat < 2 ^ ((msbOf ratio).toNat + 1) := by
  have hsearch : ∃ d, ((msbEntries 8).foldl msbStep (ratio, 0)).2.toNat = 0 + d ∧
      2 ^ d ≤ ratio.toNat ∧ ratio.toNat < 2 ^ (d + 1) :=
    foldl_msbStep le_rfl h ratio.isLt (dvd_zero _)
  obtain ⟨d, hd, hbounds⟩ := hsearch
  rw [msbOf_eq, hd, Nat.zero_add]
  exact hbounds

end HighestOne

/-! ## The digits -/

/-- A state of the loop over the digits stands for a number and the digits found so far, in front of
so many zeros. -/
structure Holds (zeros : ℕ) (s : ℕ × ℤ) (found : U256 × I256) : Prop where
  number : found.1.toNat = s.1
  digits : found.2 = BitVec.ofInt 256 s.2 <<< zeros

section DigitLoop

variable {s : ℕ × ℤ} {found : U256 × I256}

/-- The digit goes into the place of a zero. -/
lemma ofInt_shiftLeft_or {E : ℤ} {f : U256} (hf : f.toNat ≤ 1) (i : ℕ) :
    BitVec.ofInt 256 E <<< (i + 1) ||| f <<< i = BitVec.ofInt 256 (2 * E + f.toNat) <<< i := by
  have hdouble : BitVec.ofInt 256 E <<< 1 = BitVec.ofInt 256 (2 * E) := by
    rw [BitVec.ofInt_mul, BitVec.shiftLeft_eq_mul_twoPow, mul_comm]
    rfl
  have hdisjoint : BitVec.ofInt 256 E <<< 1 &&& f = 0 := by
    refine BitVec.eq_of_getLsbD_eq fun j _ => ?_
    rw [BitVec.getLsbD_and, BitVec.getLsbD_shiftLeft]
    rcases Nat.eq_zero_or_pos j with rfl | hpos
    · simp
    · have hbit : f.getLsbD j = false :=
        Nat.testBit_eq_false_of_lt (lt_of_le_of_lt hf (Nat.one_lt_two_pow (by omega)))
      simp [hbit]
  rw [Nat.add_comm i 1, BitVec.shiftLeft_add, ← BitVec.shiftLeft_or_distrib,
    ← BitVec.add_eq_or_of_and_eq_zero _ _ hdisjoint, hdouble, BitVec.ofInt_add,
    BitVec.ofInt_natCast, BitVec.ofNat_toNat, BitVec.setWidth_eq]

/-- One turn of the loop is one squaring. -/
lemma Holds.logStep {i : ℕ} (h : Holds (i + 1) s found) (hlow : digitOne ≤ s.1)
    (hhigh : s.1 < 2 * digitOne) :
    Holds i (squareStep digitOne s) (TickMath.logStep found i) := by
  have hsquare : s.1 * s.1 < 2 ^ 256 := by
    have : s.1 * s.1 < 2 * digitOne * (2 * digitOne) := Nat.mul_lt_mul_of_lt_of_lt hhigh hhigh
    exact lt_of_lt_of_le this (by decide +kernel)
  have hr : ((found.1 * found.1) >>> 127).toNat = s.1 * s.1 / digitOne := by
    rw [BitVec.toNat_ushiftRight, BitVec.toNat_mul, h.number, Nat.mod_eq_of_lt hsquare,
      Nat.shiftRight_eq_div_pow, digitOne]
  have hf : ((found.1 * found.1) >>> 127 >>> 128).toNat =
      s.1 * s.1 / digitOne / (2 * digitOne) := by
    rw [BitVec.toNat_ushiftRight, hr, Nat.shiftRight_eq_div_pow]
    rfl
  obtain ⟨hdigit, -⟩ := squareStep_range digitOne_pos hlow hhigh
  refine ⟨?_, ?_⟩
  · dsimp only [TickMath.logStep, squareStep]
    rw [BitVec.toNat_ushiftRight, hr, hf, Nat.shiftRight_eq_div_pow]
  · dsimp only [TickMath.logStep, squareStep]
    rw [h.digits, ofInt_shiftLeft_or (hf.trans_le hdigit), hf]

/-- The places of the digits, the highest first. -/
def places (last : ℕ) : ℕ → List ℕ
  | 0 => []
  | k + 1 => (last + k) :: places last k

lemma foldl_logStep {last k : ℕ} (h : Holds (last + k) s found) (hlow : digitOne ≤ s.1)
    (hhigh : s.1 < 2 * digitOne) :
    Holds last ((squareStep digitOne)^[k] s) ((places last k).foldl TickMath.logStep found) := by
  induction k generalizing s found with
  | zero => exact h
  | succ k ih =>
      obtain ⟨-, hlow', hhigh'⟩ := squareStep_range digitOne_pos hlow hhigh
      rw [places, List.foldl_cons, Function.iterate_succ_apply]
      exact ih (h.logStep hlow hhigh) hlow' hhigh'

/-- A number between one and two, and the whole part of the logarithm of the ratio. -/
def normalise (ratio m : ℕ) : ℕ × ℤ :=
  (if 128 ≤ m then ratio / 2 ^ (m - 127) else ratio * 2 ^ (127 - m), (m : ℤ) - 128)

lemma normalise_range {ratio m : ℕ} (hlow : 2 ^ m ≤ ratio) (hhigh : ratio < 2 ^ (m + 1)) :
    digitOne ≤ (normalise ratio m).1 ∧ (normalise ratio m).1 < 2 * digitOne := by
  have htwo : 2 * digitOne = 2 ^ 128 := rfl
  rw [normalise, digitOne, ← digitOne, htwo]
  by_cases hm : 128 ≤ m
  · have hpos : 0 < 2 ^ (m - 127) := Nat.two_pow_pos _
    rw [if_pos hm, digitOne]
    refine ⟨(Nat.le_div_iff_mul_le hpos).mpr ?_, (Nat.div_lt_iff_lt_mul hpos).mpr ?_⟩
    · rwa [← pow_add, show 127 + (m - 127) = m by omega]
    · rwa [← pow_add, show 128 + (m - 127) = m + 1 by omega]
  · have hpos : 0 < 2 ^ (127 - m) := Nat.two_pow_pos _
    rw [if_neg hm, digitOne]
    constructor
    · calc 2 ^ 127 = 2 ^ m * 2 ^ (127 - m) := by rw [← pow_add, show m + (127 - m) = 127 by omega]
        _ ≤ ratio * 2 ^ (127 - m) := Nat.mul_le_mul_right _ hlow
    · calc ratio * 2 ^ (127 - m) < 2 ^ (m + 1) * 2 ^ (127 - m) :=
            Nat.mul_lt_mul_of_pos_right hhigh hpos
        _ = 2 ^ 128 := by rw [← pow_add, show m + 1 + (127 - m) = 128 by omega]

/-- The loop starts with the whole part. -/
lemma holds_normalise {ratio : U256} (h : 0 < ratio.toNat) :
    Holds 64 (normalise ratio.toNat (msbOf ratio).toNat)
      (if 128 ≤ msbOf ratio then ratio >>> (msbOf ratio - 127).toNat
        else ratio <<< (127 - msbOf ratio).toNat, (msbOf ratio - 128) <<< 64) := by
  obtain ⟨hlow, hhigh⟩ := msbOf_spec h
  obtain ⟨-, hlt⟩ := normalise_range hlow hhigh
  generalize msbOf ratio = msb at hlow hhigh hlt ⊢
  have h127 : (127 : U256).toNat = 127 := rfl
  have h128 : (128 : U256).toNat = 128 := rfl
  have hcondition : 128 ≤ msb ↔ 128 ≤ msb.toNat := by rw [BitVec.le_def, h128]
  constructor
  · dsimp only [normalise]
    by_cases hm : 128 ≤ msb
    · have hm' := hcondition.mp hm
      rw [if_pos hm, if_pos hm', BitVec.toNat_ushiftRight, Nat.shiftRight_eq_div_pow,
        BitVec.toNat_sub_of_le (BitVec.le_def.mpr (by omega)), h127]
    · have hm' : ¬ 128 ≤ msb.toNat := fun hle => hm (hcondition.mpr hle)
      rw [normalise, if_neg hm'] at hlt
      rw [if_neg hm, if_neg hm', BitVec.toNat_shiftLeft, Nat.shiftLeft_eq,
        BitVec.toNat_sub_of_le (BitVec.le_def.mpr (by omega)), h127]
      exact Nat.mod_eq_of_lt (hlt.trans (by decide +kernel))
  · dsimp only [normalise]
    rw [Int.sub_eq_add_neg, BitVec.ofInt_add, BitVec.ofInt_natCast, BitVec.ofNat_toNat,
      BitVec.setWidth_eq, BitVec.sub_eq_add_neg]
    rfl

end DigitLoop

/-! ## The candidates -/

/-- The lowest 32 bits of a shifted word, for a number that has 32 bits when it is shifted. -/
lemma toInt_setWidth_shiftRight {z : ℤ} (hlow : -2 ^ 31 ≤ z / 2 ^ 128)
    (hhigh : z / 2 ^ 128 < 2 ^ 31) :
    ((BitVec.ofInt 256 z >>> 128).setWidth 32).toInt = z / 2 ^ 128 := by
  have hword : (BitVec.ofInt 256 z >>> 128).setWidth 32 = BitVec.ofInt 32 (z / 2 ^ 128) := by
    refine BitVec.eq_of_toNat_eq ?_
    rw [BitVec.toNat_setWidth, BitVec.toNat_ushiftRight, BitVec.toNat_ofInt, BitVec.toNat_ofInt,
      Nat.shiftRight_eq_div_pow]
    push_cast
    omega
  rw [hword, BitVec.toInt_ofInt]
  exact Int.bmod_eq_of_le (by omega) (by omega)

/-- The digits in the base of the ticks, with an offset, as a tick. -/
def candidate (digits offset : ℤ) : ℤ :=
  (digits * 2 ^ 50 * sqrt10001.toNat + offset) / 2 ^ 128

def lowCandidate (digits : ℤ) : ℤ := candidate digits (-tickLow.toNat)

def highCandidate (digits : ℤ) : ℤ := candidate digits tickHigh.toNat

/-- The choice between the candidates. -/
def pick (sqrtPriceX96 : U256) (low high : ℤ) : MathResult ℤ :=
  if low = high then .ok low
  else do
    let sqrtRatioHigh ← getSqrtRatioAtTick high
    .ok (if sqrtRatioHigh ≤ sqrtPriceX96 then high else low)

/-- The digits of the logarithm of a price. -/
def digitsOf (sqrtPriceX96 : U256) : ℕ × ℤ :=
  (squareStep digitOne)^[14]
    (normalise (sqrtPriceX96 <<< 32).toNat (msbOf (sqrtPriceX96 <<< 32)).toNat)

lemma toNat_price_shiftLeft {price : U256} (h : price < maxSqrtRatio) :
    (price <<< 32).toNat = price.toNat * 2 ^ 32 := by
  have hlt : price.toNat < maxSqrtRatio.toNat := BitVec.lt_def.mp h
  have hmax : maxSqrtRatio.toNat < 2 ^ 160 := by decide +kernel
  rw [BitVec.toNat_shiftLeft, Nat.shiftLeft_eq, Nat.mod_eq_of_lt (by omega)]

lemma toInt_candidate {E offset : ℤ} {c : I256} (hc : BitVec.ofInt 256 offset = c)
    (hE : -2 ^ 21 ≤ E ∧ E ≤ 2 ^ 21) (hoffset : -2 ^ 128 ≤ offset ∧ offset ≤ 2 ^ 128) :
    (((BitVec.ofInt 256 E <<< 50 * sqrt10001 + c) >>> 128).setWidth 32).toInt =
      candidate E offset := by
  have hbase : (sqrt10001.toNat : ℤ) = 255738958999603826347141 := by decide +kernel
  have hword : BitVec.ofInt 256 E <<< 50 * sqrt10001 + c =
      BitVec.ofInt 256 (E * 2 ^ 50 * sqrt10001.toNat + offset) := by
    rw [BitVec.ofInt_add, hc, BitVec.ofInt_mul, BitVec.ofInt_mul, BitVec.ofInt_natCast,
      BitVec.ofNat_toNat, BitVec.setWidth_eq, BitVec.shiftLeft_eq_mul_twoPow]
    rfl
  rw [hword]
  refine toInt_setWidth_shiftRight ?_ ?_
  · rw [hbase]
    omega
  · rw [hbase]
    omega

/-- **The tick of a price is picked from two candidates**, which come from the digits. -/
lemma getTickAtSqrtRatio_eq {price : U256} (hmin : minSqrtRatio ≤ price)
    (hmax : price < maxSqrtRatio)
    (hE : -2 ^ 21 ≤ (digitsOf price).2 ∧ (digitsOf price).2 ≤ 2 ^ 21) :
    getTickAtSqrtRatio price =
      pick price (lowCandidate (digitsOf price).2) (highCandidate (digitsOf price).2) := by
  have hpos : 0 < (price <<< 32).toNat := by
    have hle : minSqrtRatio.toNat ≤ price.toNat := BitVec.le_def.mp hmin
    have hminpos : 0 < minSqrtRatio.toNat := by decide +kernel
    rw [toNat_price_shiftLeft hmax]
    omega
  obtain ⟨hlow, hhigh⟩ := msbOf_spec hpos
  obtain ⟨hlow', hhigh'⟩ := normalise_range hlow hhigh
  have hloop : Holds 50 (digitsOf price) ((places 50 14).foldl logStep _) :=
    foldl_logStep (holds_normalise hpos) hlow' hhigh'
  have hplaces : places 50 14 = [63, 62, 61, 60, 59, 58, 57, 56, 55, 54, 53, 52, 51, 50] := rfl
  have hlowWord : BitVec.ofInt 256 (-tickLow.toNat) = -tickLow := by decide +kernel
  have hhighWord : BitVec.ofInt 256 tickHigh.toNat = tickHigh := by decide +kernel
  have htickLow : (tickLow.toNat : ℤ) ≤ 2 ^ 128 := by decide +kernel
  have htickHigh : (tickHigh.toNat : ℤ) ≤ 2 ^ 128 := by decide +kernel
  unfold getTickAtSqrtRatio
  rw [if_neg (not_not.mpr ⟨hmin, hmax⟩), ← hplaces]
  dsimp only
  rw [hloop.digits, BitVec.sub_eq_add_neg, toInt_candidate hlowWord hE (by omega),
    toInt_candidate hhighWord hE (by omega)]
  rfl

end TickMath

end Kabu
