import Kabu.Framework.RoundedCurve
import Kabu.Framework.WideDivision
import Kabu.Market.SwapLine

/-!
# Multiplying and dividing with 512 bits

The arithmetic under the prices of UniswapV3: a product of two words is divided by a third, with
the product computed in 512 bits, and the result is rounded down or up.  The words wrap, as those of
the source do, and a division by zero panics.

What these functions compute is said in natural numbers by `mulDiv_ok_iff` and
`mulDivRoundingUp_ok_iff`.  They return exactly if the quotient is a word, and then it is the
quotient.  `mulDiv_exact` adds that they never panic.
-/

namespace Kabu

open RoundedCurve WideDivision

inductive UniswapV3MathError
  | denominatorIsZero
  | resultIsU256Max
  | sqrtPriceIsZero
  | sqrtPriceIsLteQuotient
  | zeroValue
  | liquidityIsZero
  | productDivAmount
  | denominatorIsLteProdOne
  | t
  | r
  | safeCastToU160Overflow
  | tickSpacingError
  deriving DecidableEq, Repr

def UniswapV3MathError.message : UniswapV3MathError → Report
  | .denominatorIsZero => "Denominator is 0"
  | .resultIsU256Max => "Result is U256::MAX"
  | .sqrtPriceIsZero => "Sqrt price is 0"
  | .sqrtPriceIsLteQuotient => "Sqrt price is less than or equal to quotient"
  | .zeroValue =>
      "Can not get most significant bit or least significant bit on zero value"
  | .liquidityIsZero => "Liquidity is 0"
  | .productDivAmount =>
      "require((product = amount * sqrtPX96) / amount == sqrtPX96 && numerator1 > product);"
  | .denominatorIsLteProdOne => "Denominator is less than or equal to prod_1"
  | .t => "The given tick must be less than, or equal to, the maximum tick"
  | .r => "Second inequality must be < because the price can never reach the price at the max tick"
  | .safeCastToU160Overflow => "Overflow when casting to U160"
  | .tickSpacingError => "Tick spacing error"

/-- What the functions of this crate return. -/
abbrev MathResult (α : Type) := Except (Failure UniswapV3MathError) α

/-! ## Words -/

namespace U256

/-- The source's `mul_mod`, which is zero for the modulus zero. -/
def mulMod (a b modulus : U256) : U256 :=
  if modulus = 0 then 0 else BitVec.ofNat 256 (a.toNat * b.toNat % modulus.toNat)

/-- A division that panics on zero. -/
def divOrPanic (a b : U256) : MathResult U256 :=
  if b = 0 then .error .panic else .ok (a / b)

lemma toNat_zero : (0 : U256).toNat = 0 := rfl

lemma toNat_eq_zero_iff {x : U256} : x.toNat = 0 ↔ x = 0 :=
  ⟨fun h => BitVec.eq_of_toNat_eq h, fun h => congrArg BitVec.toNat h⟩

lemma toNat_pos_iff {x : U256} : 0 < x.toNat ↔ x ≠ 0 := by
  rw [Nat.pos_iff_ne_zero, Ne, toNat_eq_zero_iff]

/-- A number of 256 bits is a word. -/
lemma exists_toNat_eq {n : ℕ} (h : n < 2 ^ 256) : ∃ x : U256, x.toNat = n :=
  ⟨BitVec.ofNat 256 n, by rw [BitVec.toNat_ofNat, Nat.mod_eq_of_lt h]⟩

lemma toNat_mulMod {a b modulus : U256} (h : modulus ≠ 0) :
    (mulMod a b modulus).toNat = a.toNat * b.toNat % modulus.toNat := by
  rw [mulMod, if_neg h, BitVec.toNat_ofNat, Nat.mod_eq_of_lt]
  exact (Nat.mod_lt _ (toNat_pos_iff.mpr h)).trans modulus.isLt

lemma ok_iff_toNat {ε : Type*} {x q : U256} {n : ℕ} (hx : x.toNat = n) :
    (.ok x : Except ε U256) = .ok q ↔ q.toNat = n := by
  rw [Except.ok.injEq, ← BitVec.toNat_inj, hx, eq_comm]

lemma ok_eq_ok_iff {ε : Type*} {x q : U256} {n : ℕ} {P : Prop} (hP : P) (hx : x.toNat = n) :
    (.ok x : Except ε U256) = .ok q ↔ P ∧ q.toNat = n :=
  (ok_iff_toNat hx).trans (and_iff_right hP).symm

@[simp] lemma divOrPanic_of_ne {a b : U256} (h : b ≠ 0) : divOrPanic a b = .ok (a / b) := if_neg h

end U256

/-! ## Division of a product -/

namespace FullMath

/-- The division of a product of two words by a word that is greater than its high word. -/
def divideWide (prod₁ prod₀ remainder denominator : U256) : U256 :=
  let prod₁ := prod₁ - if prod₀ < remainder then 1 else 0
  let prod₀ := prod₀ - remainder
  let twos := -denominator &&& denominator
  let denominator := denominator / twos
  let prod₀ := shiftDown prod₁ prod₀ twos
  -- six steps take the seed from 4 bits to 256
  prod₀ * (newtonStep denominator)^[6] (3 * denominator ^^^ 2)

def mulDiv (a b denominator : U256) : Except UniswapV3MathError U256 :=
  let mm := U256.mulMod a b (BitVec.allOnes 256)
  let prod₀ := a * b
  let prod₁ := highWord prod₀ mm
  if prod₁ = 0 then
    if denominator = 0 then .error .denominatorIsZero else .ok (prod₀ / denominator)
  else if denominator ≤ prod₁ then .error .denominatorIsLteProdOne
  else .ok (divideWide prod₁ prod₀ (U256.mulMod a b denominator) denominator)

def mulDivRoundingUp (a b denominator : U256) : Except UniswapV3MathError U256 := do
  let result ← mulDiv a b denominator
  if 0 < U256.mulMod a b denominator then
    if result = BitVec.allOnes 256 then .error .resultIsU256Max else .ok (result + 1)
  else .ok result

def divRoundingUp (a b : U256) : MathResult U256 :=
  if b = 0 then .error .panic
  else if a % b = 0 then .ok (a / b) else .ok (a / b + 1)

variable {a b denominator q : U256}

lemma inverse_of_odd {d : U256} (hodd : d.toNat % 2 = 1) :
    d * (newtonStep d)^[6] (3 * d ^^^ 2) = 1 := by
  obtain ⟨c, hc⟩ := mul_seed (by decide) hodd
  refine mul_iterate_newtonStep ?_
  have hzero : (16 : U256) ^ 2 ^ 6 = 0 := by decide +kernel
  rw [hc, mul_pow, hzero, zero_mul]

lemma divideWide_eq {prod₁ prod₀ remainder : U256} (hd : denominator ≠ 0)
    (hremainder : remainder.toNat =
      (prod₁.toNat * 2 ^ 256 + prod₀.toNat) % denominator.toNat) :
    divideWide prod₁ prod₀ remainder denominator =
      BitVec.ofNat 256 ((prod₁.toNat * 2 ^ 256 + prod₀.toNat) / denominator.toNat) := by
  obtain ⟨t, m, ht, hdm, hodd, htwos⟩ := exists_lowestBit hd
  generalize hP : prod₁.toNat * 2 ^ 256 + prod₀.toNat = P at hremainder ⊢
  have hpow : 0 < 2 ^ t := Nat.two_pow_pos t
  have hm : m < 2 ^ 256 := lt_of_le_of_lt (by rw [hdm]; exact Nat.le_mul_of_pos_left m hpow)
    denominator.isLt
  have hodd' : (BitVec.ofNat 256 m).toNat % 2 = 1 := by
    rw [BitVec.toNat_ofNat, Nat.mod_eq_of_lt hm]
    exact hodd
  have hdiv : denominator / BitVec.twoPow 256 t = BitVec.ofNat 256 m := by
    refine BitVec.eq_of_toNat_eq ?_
    rw [BitVec.toNat_udiv, BitVec.toNat_twoPow, BitVec.toNat_ofNat, Nat.mod_eq_of_lt hm,
      Nat.mod_eq_of_lt (Nat.pow_lt_pow_right (by decide) ht), hdm, Nat.mul_div_cancel_left m hpow]
  -- without the remainder the division is exact
  have hexact : (P - P % denominator.toNat) / 2 ^ t = P / denominator.toNat * m := by
    have hsplit : P - P % denominator.toNat = denominator.toNat * (P / denominator.toNat) := by
      have := Nat.div_add_mod P denominator.toNat
      omega
    rw [hsplit]
    nth_rewrite 1 [hdm]
    rw [mul_assoc, Nat.mul_div_cancel_left _ hpow, mul_comm]
  have hrest : remainder.toNat ≤ prod₁.toNat * 2 ^ 256 + prod₀.toNat := by
    rw [hP, hremainder]
    exact Nat.mod_le _ _
  have hsub := toNat_subWide hrest
  dsimp only [divideWide]
  rw [htwos, hdiv, shiftDown_eq ht, hsub, hP, hremainder, hexact]
  exact mul_inverse_eq (inverse_of_odd hodd')

lemma toNat_mul_eq (a b : U256) :
    a.toNat * b.toNat / 2 ^ 256 * 2 ^ 256 + (a * b).toNat = a.toNat * b.toNat := by
  rw [BitVec.toNat_mul, mul_comm _ (2 ^ 256)]
  exact Nat.div_add_mod _ _

/-- **Rounding down.** -/
lemma mulDiv_ok_iff :
    mulDiv a b denominator = .ok q ↔
      0 < denominator.toNat ∧ q.toNat = a.toNat * b.toNat / denominator.toNat := by
  have hmm : (U256.mulMod a b (BitVec.allOnes 256)).toNat = a.toNat * b.toNat % (2 ^ 256 - 1) :=
    U256.toNat_mulMod (by decide)
  have hhigh := toNat_highWord (by decide) hmm
  have hwords := toNat_mul_eq a b
  dsimp only [mulDiv]
  generalize highWord (a * b) (U256.mulMod a b (BitVec.allOnes 256)) = prod₁ at hhigh ⊢
  rw [← hhigh] at hwords
  by_cases hzero : prod₁ = 0
  · have hlow : (a * b).toNat = a.toNat * b.toNat := by
      rw [hzero] at hwords
      simpa using hwords
    rw [if_pos hzero]
    by_cases hd : denominator = 0
    · simp [hd]
    · rw [if_neg hd, ← hlow]
      exact U256.ok_eq_ok_iff (U256.toNat_pos_iff.mpr hd) BitVec.toNat_udiv
  · rw [if_neg hzero]
    by_cases hle : denominator ≤ prod₁
    · -- the quotient is not a word
      rw [if_pos hle]
      refine iff_of_false (by simp) ?_
      rintro ⟨hpos, hq⟩
      have hlarge : 2 ^ 256 ≤ a.toNat * b.toNat / denominator.toNat := by
        rw [Nat.le_div_iff_mul_le hpos, ← hwords]
        have := BitVec.le_def.mp hle
        nlinarith
      exact absurd q.isLt (by omega)
    · rw [if_neg hle]
      have hlt : prod₁.toNat < denominator.toNat := by
        rw [← BitVec.lt_def]
        exact BitVec.not_le.mp hle
      have hpos : 0 < denominator.toNat := lt_of_le_of_lt (Nat.zero_le _) hlt
      have hquotient : a.toNat * b.toNat / denominator.toNat < 2 ^ 256 := by
        rw [Nat.div_lt_iff_lt_mul hpos, ← hwords]
        have := (a * b).isLt
        nlinarith
      have hremainder := U256.toNat_mulMod (a := a) (b := b) (U256.toNat_pos_iff.mp hpos)
      rw [← hwords] at hremainder
      rw [divideWide_eq (U256.toNat_pos_iff.mp hpos) hremainder, hwords]
      exact U256.ok_eq_ok_iff hpos (by rw [BitVec.toNat_ofNat, Nat.mod_eq_of_lt hquotient])

lemma toNat_add_one {x : U256} (h : x.toNat + 1 < 2 ^ 256) : (x + 1).toNat = x.toNat + 1 :=
  (BitVec.toNat_add x 1).trans (Nat.mod_eq_of_lt h)

/-- **Rounding up.** -/
lemma mulDivRoundingUp_ok_iff :
    mulDivRoundingUp a b denominator = .ok q ↔
      0 < denominator.toNat ∧ q.toNat = a.toNat * b.toNat ⌈/⌉ denominator.toNat := by
  unfold mulDivRoundingUp
  cases hdiv : mulDiv a b denominator with
  | error e =>
      refine iff_of_false (by simp [bind, Except.bind]) ?_
      rintro ⟨hpos, hq⟩
      have hle := floorDiv_le_ceilDiv (a := denominator.toNat) (b := a.toNat * b.toNat)
      rw [← hq, Nat.floorDiv_eq_div] at hle
      have hok : mulDiv a b denominator =
          .ok (BitVec.ofNat 256 (a.toNat * b.toNat / denominator.toNat)) := by
        refine mulDiv_ok_iff.mpr ⟨hpos, ?_⟩
        rw [BitVec.toNat_ofNat, Nat.mod_eq_of_lt (lt_of_le_of_lt hle q.isLt)]
      rw [hok] at hdiv
      simp at hdiv
  | ok result =>
      obtain ⟨hpos, hresult⟩ := mulDiv_ok_iff.mp hdiv
      have hmod := U256.toNat_mulMod (a := a) (b := b) (U256.toNat_pos_iff.mp hpos)
      have hiff : 0 < U256.mulMod a b denominator ↔ a.toNat * b.toNat % denominator.toNat ≠ 0 := by
        rw [BitVec.lt_def, hmod, ← Nat.pos_iff_ne_zero]
        rfl
      simp only [bind, Except.bind]
      by_cases hrest : a.toNat * b.toNat % denominator.toNat = 0
      · rw [if_neg (by rw [hiff]; simpa using hrest), ceilDiv_of_dvd hpos hrest]
        exact U256.ok_eq_ok_iff hpos hresult
      · rw [if_pos (hiff.mpr hrest), ceilDiv_of_not_dvd hpos hrest, ← hresult]
        by_cases hmax : result = BitVec.allOnes 256
        · rw [if_pos hmax]
          refine iff_of_false (by simp) ?_
          rintro ⟨-, hq⟩
          have hall : result.toNat = 2 ^ 256 - 1 := by rw [hmax]; rfl
          have := q.isLt
          omega
        · have hlt : result.toNat + 1 < 2 ^ 256 := by
            have hne : result.toNat ≠ 2 ^ 256 - 1 := fun h => hmax (BitVec.eq_of_toNat_eq h)
            have := result.isLt
            omega
          rw [if_neg hmax]
          exact U256.ok_eq_ok_iff hpos (toNat_add_one hlt)

lemma divRoundingUp_ok_iff :
    divRoundingUp a b = .ok q ↔ 0 < b.toNat ∧ q.toNat = a.toNat ⌈/⌉ b.toNat := by
  unfold divRoundingUp
  by_cases hb : b = 0
  · rw [if_pos hb, hb]
    simp
  · have hpos := U256.toNat_pos_iff.mpr hb
    have hmod : a % b = 0 ↔ a.toNat % b.toNat = 0 := by
      rw [← BitVec.toNat_inj, BitVec.toNat_umod]
      rfl
    rw [if_neg hb]
    by_cases hrest : a.toNat % b.toNat = 0
    · rw [if_pos (hmod.mpr hrest), ceilDiv_of_dvd hpos hrest]
      exact U256.ok_eq_ok_iff hpos BitVec.toNat_udiv
    · have hdiv : (a / b).toNat + 1 < 2 ^ 256 := by
        have hone : b.toNat ≠ 1 := by
          intro h
          rw [h] at hrest
          exact hrest (Nat.mod_one _)
        have hhalf : a.toNat / b.toNat ≤ a.toNat / 2 := Nat.div_le_div_left (by omega) (by decide)
        have := a.isLt
        rw [BitVec.toNat_udiv]
        omega
      rw [if_neg (fun h => hrest (hmod.mp h)), ceilDiv_of_not_dvd hpos hrest, ← BitVec.toNat_udiv]
      exact U256.ok_eq_ok_iff hpos (toNat_add_one hdiv)

/-! ## Nothing panics

A division by zero panics.  `mulDiv` divides by zero nowhere, so that it is written without panics.
Here are the functions once more, with the divisions as the source has them. -/

def divideWideOrPanic (prod₁ prod₀ remainder denominator : U256) : MathResult U256 := do
  let prod₁ := prod₁ - if prod₀ < remainder then 1 else 0
  let prod₀ := prod₀ - remainder
  let twos := -denominator &&& denominator
  let denominator ← U256.divOrPanic denominator twos
  let prod₀ ← U256.divOrPanic prod₀ twos
  let flipped ← U256.divOrPanic (-twos) twos
  let twos := flipped + 1
  let prod₀ := prod₀ ||| prod₁ * twos
  return prod₀ * (newtonStep denominator)^[6] (3 * denominator ^^^ 2)

def mulDivOrPanic (a b denominator : U256) : MathResult U256 :=
  let mm := U256.mulMod a b (BitVec.allOnes 256)
  let prod₀ := a * b
  let prod₁ := highWord prod₀ mm
  if prod₁ = 0 then
    if denominator = 0 then .error (.error .denominatorIsZero)
    else U256.divOrPanic prod₀ denominator
  else if denominator ≤ prod₁ then .error (.error .denominatorIsLteProdOne)
  else divideWideOrPanic prod₁ prod₀ (U256.mulMod a b denominator) denominator

def mulDivRoundingUpOrPanic (a b denominator : U256) : MathResult U256 := do
  let result ← mulDivOrPanic a b denominator
  if 0 < U256.mulMod a b denominator then
    if result = BitVec.allOnes 256 then .error (.error .resultIsU256Max) else .ok (result + 1)
  else .ok result

/-- A denominator that is not zero has a lowest bit. -/
lemma divideWideOrPanic_eq {prod₁ prod₀ remainder : U256} (hd : denominator ≠ 0) :
    divideWideOrPanic prod₁ prod₀ remainder denominator =
      .ok (divideWide prod₁ prod₀ remainder denominator) := by
  have htwos : -denominator &&& denominator ≠ 0 := by
    obtain ⟨t, m, ht, -, -, htwos⟩ := exists_lowestBit hd
    rw [htwos, ← U256.toNat_pos_iff, BitVec.toNat_twoPow,
      Nat.mod_eq_of_lt (Nat.pow_lt_pow_right (by decide) ht)]
    exact Nat.two_pow_pos t
  simp only [divideWideOrPanic, U256.divOrPanic_of_ne htwos]
  rfl

lemma mulDivOrPanic_eq (a b denominator : U256) :
    mulDivOrPanic a b denominator = Failure.lift (mulDiv a b denominator) := by
  dsimp only [mulDivOrPanic, mulDiv]
  generalize highWord (a * b) (U256.mulMod a b (BitVec.allOnes 256)) = prod₁
  by_cases hzero : prod₁ = 0
  · rw [if_pos hzero, if_pos hzero]
    by_cases hd : denominator = 0
    · rw [if_pos hd, if_pos hd]
      rfl
    · rw [if_neg hd, if_neg hd, U256.divOrPanic_of_ne hd]
      rfl
  · rw [if_neg hzero, if_neg hzero]
    by_cases hle : denominator ≤ prod₁
    · rw [if_pos hle, if_pos hle]
      rfl
    · have hd : denominator ≠ 0 := by
        rintro rfl
        exact hle (BitVec.le_def.mpr (Nat.zero_le _))
      rw [if_neg hle, if_neg hle, divideWideOrPanic_eq hd]
      rfl

lemma mulDivRoundingUpOrPanic_eq (a b denominator : U256) :
    mulDivRoundingUpOrPanic a b denominator =
      Failure.lift (mulDivRoundingUp a b denominator) := by
  unfold mulDivRoundingUpOrPanic mulDivRoundingUp
  rw [mulDivOrPanic_eq]
  cases mulDiv a b denominator with
  | error e => rfl
  | ok result =>
      simp only [Failure.lift, bind, Except.bind]
      split_ifs <;> rfl

/-- The result is the quotient if there is one and it is a word, and an error otherwise. -/
def QuotientOrErr (result : MathResult U256) (denominator : U256) (quotient : ℕ) : Prop :=
  if 0 < denominator.toNat ∧ quotient < 2 ^ 256 then ∃ q, result = .ok q ∧ q.toNat = quotient
  else ∃ e, result = .error (.error e)

/-- What returns exactly the quotients that are words, without a panic. -/
lemma quotientOrErr_lift {result : Except UniswapV3MathError U256} {quotient : ℕ}
    (h : ∀ q, result = .ok q ↔ 0 < denominator.toNat ∧ q.toNat = quotient) :
    QuotientOrErr (Failure.lift result) denominator quotient := by
  unfold QuotientOrErr
  split_ifs with hword
  · obtain ⟨hpos, hlt⟩ := hword
    obtain ⟨q, hq⟩ := U256.exists_toNat_eq hlt
    exact ⟨q, by rw [(h q).mpr ⟨hpos, hq⟩]; rfl, hq⟩
  · cases result with
    | error e => exact ⟨e, rfl⟩
    | ok q =>
        obtain ⟨hpos, hq⟩ := (h q).mp rfl
        exact absurd ⟨hpos, hq ▸ q.isLt⟩ hword

/-- **Dividing a product rounds the exact quotient, and never panics.** -/
theorem mulDiv_exact (a b denominator : U256) :
    QuotientOrErr (mulDivOrPanic a b denominator) denominator
        (a.toNat * b.toNat / denominator.toNat) ∧
      QuotientOrErr (mulDivRoundingUpOrPanic a b denominator) denominator
        (a.toNat * b.toNat ⌈/⌉ denominator.toNat) := by
  rw [mulDivOrPanic_eq, mulDivRoundingUpOrPanic_eq]
  exact ⟨quotientOrErr_lift fun q => mulDiv_ok_iff,
    quotientOrErr_lift fun q => mulDivRoundingUp_ok_iff⟩

end FullMath

end Kabu
