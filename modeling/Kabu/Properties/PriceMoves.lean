import Kabu.Defi.SqrtPriceMath

/-!
# Prices move the right way, or fail

A price falls when token 0 comes in and rises when token 1 does, it stays below `2 ^ 160`, and an
amount that would take it out of range is refused.  `Moves` says this of one computation.

Three of the four computations have a corner in which a word wraps or a cast is missing, and the
result is then a price on the wrong side, a price out of range, or a panic:

* token 0 comes in: the divisor `L * 2 ^ 96 / price + amount` wraps;
* token 1 comes in: the sum of the price and the quotient wraps;
* token 0 goes out: the price is not checked against `2 ^ 160`.

`Fits` excludes the three corners, and `moves_iff_fits` says that this is exactly what is needed.
-/

namespace Kabu

open RoundedCurve FullMath

namespace SqrtPriceMath

/-- The side of the price on which the next one should be. -/
def RightWay (zeroForOne : Bool) (price q : U256) : Prop :=
  if zeroForOne then q ≤ price else price ≤ q

/-- One computation of a next price does what it should. -/
structure Moves (zeroForOne : Bool) (price : U256) (tooLarge : Prop) (result : MathResult U256) :
    Prop where
  no_panic : result ≠ .error .panic
  right_way : ∀ q, result = .ok q → RightWay zeroForOne price q ∧ q.toNat ≤ 2 ^ 160 - 1
  refused : tooLarge → ∃ e, result = .error (.error e)

section Fits

variable (zeroForOne : Bool) (price : U256) (liquidity : U128) (amount : U256)

/-- An amount that comes in and takes the price out of range.  The price can always fall. -/
def TooLargeInput : Prop :=
  zeroForOne = false ∧
    2 ^ 160 - 1 < price.toNat + amount.toNat * resolution / liquidity.toNat

/-- An amount that goes out and takes the price out of range, or is not there. -/
def TooLargeOutput : Prop :=
  if zeroForOne then price.toNat ≤ amount.toNat * resolution ⌈/⌉ liquidity.toNat
  else liquidity.toNat * resolution ≤ amount.toNat * price.toNat ∨
    2 ^ 160 - 1 < liquidity.toNat * resolution * price.toNat ⌈/⌉
      (liquidity.toNat * resolution - amount.toNat * price.toNat)

/-- Nothing wraps when the amount comes in. -/
def FitsInput : Prop :=
  if zeroForOne then
    liquidity.toNat * resolution / price.toNat + amount.toNat < 2 ^ 256
  else amount.toNat * resolution / liquidity.toNat < 2 ^ 256 →
    price.toNat + amount.toNat * resolution / liquidity.toNat < 2 ^ 256

/-- The price is in range when the amount goes out, or is not even a word. -/
def FitsOutput : Prop :=
  zeroForOne = false → amount.toNat * price.toNat < liquidity.toNat * resolution →
    liquidity.toNat * resolution * price.toNat ⌈/⌉
      (liquidity.toNat * resolution - amount.toNat * price.toNat) < 2 ^ 256 →
    liquidity.toNat * resolution * price.toNat ⌈/⌉
      (liquidity.toNat * resolution - amount.toNat * price.toNat) ≤ 2 ^ 160 - 1

def Fits : Prop :=
  FitsInput zeroForOne price liquidity amount ∧ FitsOutput zeroForOne price liquidity amount

end Fits

variable {zeroForOne : Bool} {price amount q : U256} {liquidity : U128} {tooLarge : Prop}
  {result : MathResult U256}

lemma exists_error (hpanic : result ≠ .error .panic) (hok : ∀ q, result ≠ .ok q) :
    ∃ e, result = .error (.error e) := by
  rcases result with (e | -) | q
  · exact ⟨e, rfl⟩
  · exact absurd rfl hpanic
  · exact absurd rfl (hok q)

/-- A computation with one possible result, which is a word if it is what it should be. -/
lemma Moves.of_ok {n : ℕ} (hok : ∀ q, result = .ok q ↔ q.toNat = n) (hn : n ≤ 2 ^ 160 - 1)
    (hway : ∀ q : U256, q.toNat = n → RightWay zeroForOne price q) (hlarge : ¬ tooLarge) :
    Moves zeroForOne price tooLarge result := by
  have hresult : result = .ok (BitVec.ofNat 256 n) := by
    rw [hok, BitVec.toNat_ofNat, Nat.mod_eq_of_lt (by omega)]
  refine ⟨by simp [hresult], fun q hq => ?_, fun h => absurd h hlarge⟩
  have hq := (hok q).mp hq
  exact ⟨hway q hq, by omega⟩

/-! ## The four computations -/

section Computations

variable (hp : price ≠ 0) (hL : liquidity ≠ 0)

include hp in
/-- A divisor that wraps leaves the next price above the price, or panics. -/
lemma not_moves_of_wraps
    (h : 2 ^ 256 ≤ liquidity.toNat * resolution / price.toNat + amount.toNat) :
    ¬ Moves true price tooLarge
      (getNextSqrtPriceFromAmount0RoundingUp price liquidity amount true) := by
  intro hmoves
  have hpos := U256.toNat_pos_iff.mpr hp
  have hfloor := Nat.div_mul_le_self (liquidity.toNat * resolution) price.toNat
  have hquot := Nat.div_le_self (liquidity.toNat * resolution) price.toNat
  have hN := numerator_lt liquidity
  have ha := amount.isLt
  have hwraps : 2 ^ 256 ≤ liquidity.toNat * resolution + amount.toNat * price.toNat := by nlinarith
  obtain ⟨-, d, hd, hresult⟩ := amount0_add_of_wraps hp hwraps
  rw [Nat.mod_eq_sub_mod h, Nat.mod_eq_of_lt (by omega)] at hd
  rw [hresult] at hmoves
  by_cases hzero : d = 0
  · exact hmoves.no_panic (divRoundingUp_panic_iff.mpr hzero)
  · have hdpos := U256.toNat_pos_iff.mpr hzero
    have hword : liquidity.toNat * resolution ⌈/⌉ d.toNat < 2 ^ 256 :=
      lt_of_le_of_lt (ceilDiv_le_self hdpos) (by omega)
    have hq : (BitVec.ofNat 256 (liquidity.toNat * resolution ⌈/⌉ d.toNat)).toNat =
        liquidity.toNat * resolution ⌈/⌉ d.toNat :=
      (BitVec.toNat_ofNat _ 256).trans (Nat.mod_eq_of_lt hword)
    obtain ⟨hway, -⟩ := hmoves.right_way _
      (divRoundingUp_ok_iff.mpr ⟨hdpos, by rw [hq, toNat_numerator]⟩)
    have hle : liquidity.toNat * resolution ⌈/⌉ d.toNat ≤ price.toNat := hq ▸ BitVec.le_def.mp hway
    rw [ceilDiv_le_iff_le_mul hdpos] at hle
    have hless : d.toNat + 1 ≤ liquidity.toNat * resolution / price.toNat := by omega
    nlinarith

include hp hL in
lemma moves_input_zeroForOne_iff (hrange : price.toNat ≤ 2 ^ 160 - 1) :
    Moves true price (TooLargeInput true price liquidity amount)
        (getNextSqrtPriceFromInput price liquidity amount true) ↔
      FitsInput true price liquidity amount := by
  have hpos := U256.toNat_pos_iff.mpr hp
  have hLpos := toNat_pos_of_ne hL
  have hlarge : ¬ TooLargeInput true price liquidity amount := fun h => absurd h.1 (by simp)
  rw [getNextSqrtPriceFromInput_eq hp hL, if_pos rfl, FitsInput, if_pos rfl]
  refine ⟨fun hmoves => ?_, fun hfits => ?_⟩
  · by_contra hwraps
    exact not_moves_of_wraps hp (not_lt.mp hwraps) hmoves
  rcases lt_or_ge (liquidity.toNat * resolution + amount.toNat * price.toNat) (2 ^ 256) with
    hsum | hsum
  · have hdown : liquidity.toNat * resolution * price.toNat ⌈/⌉
        (liquidity.toNat * resolution + amount.toNat * price.toNat) ≤ price.toNat :=
      ceilDiv_add_le (Nat.mul_pos hLpos resolution_pos)
    exact .of_ok (fun q => amount0_add_ok_iff hL hsum) (hdown.trans hrange)
      (fun q hq => BitVec.le_def.mpr (hq ▸ hdown)) hlarge
  · obtain ⟨ha, d, hd, hresult⟩ := amount0_add_of_wraps hp hsum
    rw [Nat.mod_eq_of_lt hfits] at hd
    have hdpos : 0 < d.toNat := hd ▸ Nat.add_pos_right _ ha
    have hdown : liquidity.toNat * resolution ⌈/⌉ d.toNat ≤ price.toNat := by
      rw [hd]
      exact ceilDiv_floor_le hpos ha
    have hok : ∀ q, divRoundingUp (U256.ofU128 liquidity <<< 96) d = .ok q ↔
        q.toNat = liquidity.toNat * resolution ⌈/⌉ d.toNat := by
      intro q
      rw [divRoundingUp_ok_iff, toNat_numerator]
      exact and_iff_right hdpos
    rw [hresult]
    exact .of_ok hok (hdown.trans hrange) (fun q hq => BitVec.le_def.mpr (hq ▸ hdown)) hlarge

include hp hL in
lemma moves_input_oneForZero_iff (hrange : price.toNat ≤ 2 ^ 160 - 1) :
    Moves false price (TooLargeInput false price liquidity amount)
        (getNextSqrtPriceFromInput price liquidity amount false) ↔
      FitsInput false price liquidity amount := by
  rw [getNextSqrtPriceFromInput_eq hp hL, if_neg (by simp), FitsInput, if_neg (by simp)]
  constructor
  · intro hmoves hquot
    by_contra hwraps
    -- the sum has wrapped to a price below the price
    have hsum : (price.toNat + amount.toNat * resolution / liquidity.toNat) % 2 ^ 256 =
        price.toNat + amount.toNat * resolution / liquidity.toNat - 2 ^ 256 := by
      rw [Nat.mod_eq_sub_mod (by omega), Nat.mod_eq_of_lt (by omega)]
    have hq : (BitVec.ofNat 256 (price.toNat + amount.toNat * resolution / liquidity.toNat)).toNat =
        price.toNat + amount.toNat * resolution / liquidity.toNat - 2 ^ 256 :=
      (BitVec.toNat_ofNat _ 256).trans hsum
    obtain ⟨hway, -⟩ := hmoves.right_way _
      ((amount1_add_ok_iff hL).mpr ⟨hquot, BitVec.toNat_ofNat _ 256, by omega⟩)
    have hle : price.toNat ≤ _ := BitVec.le_def.mp hway
    omega
  · intro hfits
    refine ⟨amount1_ne_panic hL true, fun q hq => ?_, fun hlarge => ?_⟩
    · obtain ⟨hquot, hsum, hsmall⟩ := (amount1_add_ok_iff hL).mp hq
      rw [Nat.mod_eq_of_lt (hfits hquot)] at hsum
      exact ⟨BitVec.le_def.mpr (hsum ▸ Nat.le_add_right _ _), hsmall⟩
    · refine exists_error (amount1_ne_panic hL true) fun q hq => ?_
      obtain ⟨hquot, hsum, hsmall⟩ := (amount1_add_ok_iff hL).mp hq
      rw [Nat.mod_eq_of_lt (hfits hquot)] at hsum
      have := hlarge.2
      omega

include hp hL in
/-- When token 1 goes out nothing can go wrong. -/
lemma moves_output_zeroForOne (hrange : price.toNat ≤ 2 ^ 160 - 1) :
    Moves true price (TooLargeOutput true price liquidity amount)
      (getNextSqrtPriceFromOutput price liquidity amount true) := by
  rw [getNextSqrtPriceFromOutput_eq hp hL, if_pos rfl]
  refine ⟨amount1_ne_panic hL false, fun q hq => ?_, fun hlarge => ?_⟩
  · obtain ⟨-, hq⟩ := (amount1_sub_ok_iff hL).mp hq
    exact ⟨BitVec.le_def.mpr (by omega), by omega⟩
  · refine exists_error (amount1_ne_panic hL false) fun q hq => ?_
    exact absurd ((amount1_sub_ok_iff hL).mp hq).1 (not_lt_of_ge hlarge)

include hp hL in
lemma moves_output_oneForZero_iff :
    Moves false price (TooLargeOutput false price liquidity amount)
        (getNextSqrtPriceFromOutput price liquidity amount false) ↔
      FitsOutput false price liquidity amount := by
  rw [getNextSqrtPriceFromOutput_eq hp hL, if_neg (by simp)]
  constructor
  · intro hmoves _ hthere hword
    have hq := (BitVec.toNat_ofNat _ 256).trans (Nat.mod_eq_of_lt hword)
    obtain ⟨-, hsmall⟩ := hmoves.right_way _ ((amount0_sub_ok_iff hL).mpr ⟨hthere, hq⟩)
    exact hq ▸ hsmall
  · intro hfits
    refine ⟨amount0_sub_ne_panic, fun q hq => ?_, fun hlarge => ?_⟩
    · obtain ⟨hthere, hq⟩ := (amount0_sub_ok_iff hL).mp hq
      have hup : price.toNat ≤ q.toNat := hq ▸ le_ceilDiv_sub hthere
      exact ⟨BitVec.le_def.mpr hup, hq ▸ hfits rfl hthere (hq ▸ q.isLt)⟩
    · refine exists_error amount0_sub_ne_panic fun q hq => ?_
      obtain ⟨hthere, hq⟩ := (amount0_sub_ok_iff hL).mp hq
      rcases hlarge with hnot | hhigh
      · exact absurd hthere (not_lt_of_ge hnot)
      · exact absurd (hfits rfl hthere (hq ▸ q.isLt)) (not_le_of_gt hhigh)

end Computations

/-- **Price moves.**  For prices in range and liquidity, the next price is on the right side and in
range, or the amount is refused, exactly if nothing wraps and the price that goes up fits into 160
bits. -/
theorem moves_iff_fits (hp : 1 ≤ price.toNat) (hrange : price.toNat ≤ 2 ^ 160 - 1)
    (hL : 0 < liquidity.toNat) :
    Moves zeroForOne price (TooLargeInput zeroForOne price liquidity amount)
        (getNextSqrtPriceFromInput price liquidity amount zeroForOne) ∧
      Moves zeroForOne price (TooLargeOutput zeroForOne price liquidity amount)
        (getNextSqrtPriceFromOutput price liquidity amount zeroForOne) ↔
      Fits zeroForOne price liquidity amount := by
  have hprice : price ≠ 0 := U256.toNat_pos_iff.mp hp
  have hliquidity : liquidity ≠ 0 := by
    rintro rfl
    simp at hL
  unfold Fits
  cases zeroForOne with
  | true =>
      rw [moves_input_zeroForOne_iff hprice hliquidity hrange]
      exact and_congr_right fun _ =>
        iff_of_true (moves_output_zeroForOne hprice hliquidity hrange) (fun h => absurd h (by simp))
  | false =>
      rw [moves_input_oneForZero_iff hprice hliquidity hrange,
        moves_output_oneForZero_iff hprice hliquidity]

theorem moves_iff_fits_at_one :
    Moves true 1 (TooLargeInput true 1 1 1) (getNextSqrtPriceFromInput 1 1 1 true) ∧
      Moves true 1 (TooLargeOutput true 1 1 1) (getNextSqrtPriceFromOutput 1 1 1 true) :=
  (moves_iff_fits (by decide) (by decide) (by decide)).mpr
    ⟨by unfold FitsInput resolution; decide, fun h => absurd h (by decide)⟩

/-- A quote amount that wraps the sum, so that the price falls from `2` to `1`; a base amount that
wraps the divisor, so that the price rises from `1`; and a base amount that goes out and leaves a
price of 192 bits. -/
theorem wrapped_prices :
    getNextSqrtPriceFromInput 2 79228162514264337593543950336 (BitVec.allOnes 256) false = .ok 1 ∧
      getNextSqrtPriceFromInput 1 1 (1 - 79228162514264337593543950336) true =
        .ok 79228162514264337593543950336 ∧
      getNextSqrtPriceFromInput 1 1 (0 - 79228162514264337593543950336) true = .error .panic ∧
      getNextSqrtPriceFromOutput 79228162514264337593543950335 1 1 false =
        .ok (79228162514264337593543950336 * 79228162514264337593543950335) := by
  decide +kernel

end SqrtPriceMath

end Kabu
