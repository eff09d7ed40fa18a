import Mathlib.Algebra.Order.Group.Int
import Mathlib.Data.Nat.Bitwise
import Kabu.Framework.BinaryProduct
import Kabu.Defi.SqrtPriceMath

/-!
# Ticks and their prices

The prices at which liquidity can change are the powers of `1.0001`, and a tick is an exponent.  The
square root of the price of a tick is computed from a table of twenty factors, one for each binary
digit of the exponent, and inverted for positive ticks.  The tick of a price is computed by a
logarithm, of which two candidates are kept and compared.

The prices are given in natural numbers by `sqrtRatio` (`getSqrtRatioAtTick_ok_iff`).  They are
ordered as the ticks are (`sqrtRatio_mono`), and over the ticks of one word of a bitmap they grow by
no more than a factor of `2 ^ 32` (`sqrtRatio_le_mul`).

A tick is a 32-bit integer in the source.  Those that occur are far from the ends of the range, and
here they are integers.
-/

namespace Kabu

open BinaryProduct RoundedCurve SqrtPriceMath

/-- A word from its four limbs, the lowest first. -/
def U256.fromLimbs (l₀ l₁ l₂ l₃ : ℕ) : U256 :=
  BitVec.ofNat 256 (l₀ + l₁ * 2 ^ 64 + l₂ * 2 ^ 128 + l₃ * 2 ^ 192)

namespace TickMath

def minTick : ℤ := -887272
def maxTick : ℤ := 887272

def minSqrtRatio : U256 := U256.fromLimbs 4295128739 0 0 0
def maxSqrtRatio : U256 := U256.fromLimbs 6743328256752651558 17280870778742802505 4294805859 0

def sqrt10001 : I256 := U256.fromLimbs 11745905768312294533 13863 0 0
def tickLow : I256 := U256.fromLimbs 6552757943157144234 184476617836266586 0 0
def tickHigh : I256 := U256.fromLimbs 4998474450511881007 15793544031827761793 0 0

/-! ## The price of a tick -/

/-- The factor of the lowest digit. -/
def firstFactor : U256 := U256.fromLimbs 12262481743371124737 18445821805675392311 0 0

/-- The factors of the other digits, with their masks. -/
def ratioFactors : List (ℕ × U256) :=
  [(2, U256.fromLimbs 6459403834229662010 18444899583751176498 0 0),
    (4, U256.fromLimbs 17226890335427755468 18443055278223354162 0 0),
    (8, U256.fromLimbs 2032852871939366096 18439367220385604838 0 0),
    (16, U256.fromLimbs 14545316742740207172 18431993317065449817 0 0),
    (32, U256.fromLimbs 5129152022828963008 18417254355718160513 0 0),
    (64, U256.fromLimbs 4894419605888772193 18387811781193591352 0 0),
    (128, U256.fromLimbs 1280255884321894483 18329067761203520168 0 0),
    (256, U256.fromLimbs 15924666964335305636 18212142134806087854 0 0),
    (512, U256.fromLimbs 8010504389359918676 17980523815641551639 0 0),
    (1024, U256.fromLimbs 10668036004952895731 17526086738831147013 0 0),
    (2048, U256.fromLimbs 4878133418470705625 16651378430235024244 0 0),
    (4096, U256.fromLimbs 9537173718739605541 15030750278693429944 0 0),
    (8192, U256.fromLimbs 9972618978014552549 12247334978882834399 0 0),
    (16384, U256.fromLimbs 10428997489610666743 8131365268884726200 0 0),
    (32768, U256.fromLimbs 9305304367709015974 3584323654723342297 0 0),
    (65536, U256.fromLimbs 14301143598189091785 696457651847595233 0 0),
    (131072, U256.fromLimbs 7393154844743099908 26294789957452057 0 0),
    (262144, U256.fromLimbs 2209338891292245656 37481735321082 0 0),
    (524288, U256.fromLimbs 10518117631919034274 76158723 0 0)]

/-- One of the source's twenty branches. -/
def multiplyIf (absTick : ℕ) (ratio : U256) (entry : ℕ × U256) : U256 :=
  if absTick &&& entry.1 = 0 then ratio else (ratio * entry.2) >>> 128

def ratioAt (absTick : ℕ) : U256 :=
  ratioFactors.foldl (multiplyIf absTick)
    (if absTick &&& 1 = 0 then U256.fromLimbs 0 0 1 0 else firstFactor)

def getSqrtRatioAtTick (tick : ℤ) : MathResult U256 :=
  let absTick := tick.natAbs
  if 887272 < absTick then .error (.error .t)
  else do
    let ratio ←
      if 0 < tick then U256.divOrPanic (BitVec.allOnes 256) (ratioAt absTick)
      else .ok (ratioAt absTick)
    .ok (ratio >>> 32 + if ratio % 4294967296 = 0 then 0 else 1)

/-! ## The tick of a price -/

/-- One step of the search for the highest one. -/
def msbStep (found : U256 × U256) (entry : U256 × ℕ) : U256 × U256 :=
  let f := if entry.1 < found.1 then entry.2 else 0
  (found.1 >>> f, found.2 ||| BitVec.ofNat 256 f)

/-- The position of the highest one of a word. -/
def msbOf (ratio : U256) : U256 :=
  ([(340282366920938463463374607431768211455, 128), (18446744073709551615, 64), (4294967295, 32),
    (65535, 16), (255, 8), (15, 4), (3, 2), (1, 1)].foldl msbStep (ratio, 0)).2

/-- One more digit of the logarithm. -/
def logStep (found : U256 × I256) (i : ℕ) : U256 × I256 :=
  let r := (found.1 * found.1) >>> 127
  let f := r >>> 128
  (r >>> f.toNat, found.2 ||| f <<< i)

def getTickAtSqrtRatio (sqrtPriceX96 : U256) : MathResult ℤ :=
  if ¬ (minSqrtRatio ≤ sqrtPriceX96 ∧ sqrtPriceX96 < maxSqrtRatio) then .error (.error .r)
  else
    let ratio := sqrtPriceX96 <<< 32
    let msb := msbOf ratio
    let r := if 128 ≤ msb then ratio >>> (msb - 127).toNat else ratio <<< (127 - msb).toNat
    let log₂ := (msb - 128) <<< 64
    let log₂ :=
      ([63, 62, 61, 60, 59, 58, 57, 56, 55, 54, 53, 52, 51, 50].foldl logStep (r, log₂)).2
    let logSqrt10001 := log₂ * sqrt10001
    -- the lowest 32 bits of the shifted words, as integers
    let low := (((logSqrt10001 - tickLow) >>> 128).setWidth 32).toInt
    let high := (((logSqrt10001 + tickHigh) >>> 128).setWidth 32).toInt
    if low = high then .ok low
    else do
      let sqrtRatioHigh ← getSqrtRatioAtTick high
      .ok (if sqrtRatioHigh ≤ sqrtPriceX96 then high else low)

/-! ## Prices as natural numbers -/

/-- The unit of the table. -/
def unit : ℕ := 2 ^ 128

lemma unit_pos : 0 < unit := Nat.two_pow_pos 128

/-- The factors of all twenty digits. -/
def factors : List ℕ := firstFactor.toNat :: ratioFactors.map fun entry => entry.2.toNat

/-- The price of a negative tick, before it is rounded. -/
def ratioOf (n : ℕ) : ℕ := product unit factors n unit

def sqrtRatio (tick : ℤ) : ℕ :=
  (if 0 < tick then (2 ^ 256 - 1) / ratioOf tick.natAbs else ratioOf tick.natAbs) ⌈/⌉ 2 ^ 32

/-- The masks of the table are consecutive powers of two, and the factors are below the unit. -/
def Tabulated : ℕ → List (ℕ × U256) → Prop
  | _, [] => True
  | k, entry :: entries =>
      entry.1 = 2 ^ k ∧ entry.2.toNat < unit ∧ Tabulated (k + 1) entries

instance Tabulated.decidable : ∀ k entries, Decidable (Tabulated k entries)
  | _, [] => isTrue trivial
  | k, _ :: entries =>
      @instDecidableAnd _ _ _ (@instDecidableAnd _ _ _ (Tabulated.decidable (k + 1) entries))

lemma and_two_pow_eq_zero_iff (n k : ℕ) : n &&& 2 ^ k = 0 ↔ ¬ n / 2 ^ k % 2 = 1 := by
  rw [Nat.and_two_pow, Nat.testBit_eq_decide_div_mod_eq]
  by_cases h : n / 2 ^ k % 2 = 1
  · simp [h]
  · simp [h]

lemma toNat_foldl_multiplyIf {n k : ℕ} {entries : List (ℕ × U256)} (h : Tabulated k entries)
    {x : U256} (hx : x.toNat ≤ unit) :
    (entries.foldl (multiplyIf n) x).toNat =
      product unit (entries.map fun entry => entry.2.toNat) (n / 2 ^ k) x.toNat := by
  induction entries generalizing k x with
  | nil => rfl
  | cons entry entries ih =>
      obtain ⟨hmask, hfactor, hrest⟩ := h
      have hstep : (multiplyIf n x entry).toNat =
          if n / 2 ^ k % 2 = 1 then x.toNat * entry.2.toNat / unit else x.toNat := by
        unfold multiplyIf
        rw [hmask]
        by_cases hbit : n / 2 ^ k % 2 = 1
        · have hproduct : x.toNat * entry.2.toNat < 2 ^ 256 := by
            unfold unit at hx hfactor
            nlinarith
          rw [if_neg (by rw [and_two_pow_eq_zero_iff]; simpa using hbit), if_pos hbit,
            BitVec.toNat_ushiftRight, BitVec.toNat_mul, Nat.mod_eq_of_lt hproduct,
            Nat.shiftRight_eq_div_pow, unit]
        · rw [if_pos ((and_two_pow_eq_zero_iff n k).mpr hbit), if_neg hbit]
      have hle : (multiplyIf n x entry).toNat ≤ unit := by
        rw [hstep]
        split_ifs
        · exact (Nat.div_le_of_le_mul (Nat.mul_le_mul hx hfactor.le)).trans le_rfl
        · exact hx
      rw [List.foldl_cons, ih hrest hle, hstep, List.map_cons, product, pow_succ,
        Nat.div_div_eq_div_mul]

lemma tabulated_ratioFactors : Tabulated 1 ratioFactors := by decide +kernel

lemma toNat_ratioAt (n : ℕ) : (ratioAt n).toNat = ratioOf n := by
  have hstart : (if n &&& 1 = 0 then U256.fromLimbs 0 0 1 0 else firstFactor).toNat =
      if n % 2 = 1 then unit * firstFactor.toNat / unit else unit := by
    have hbit := and_two_pow_eq_zero_iff n 0
    rw [pow_zero, Nat.div_one] at hbit
    by_cases h : n % 2 = 1
    · rw [if_neg (by rw [hbit]; simpa using h), if_pos h,
        Nat.mul_div_cancel_left _ unit_pos]
    · rw [if_pos (hbit.mpr h), if_neg h]
      rfl
  have hle : (if n &&& 1 = 0 then U256.fromLimbs 0 0 1 0 else firstFactor).toNat ≤ unit := by
    split_ifs
    · exact le_rfl
    · unfold unit; decide +kernel
  rw [ratioAt, toNat_foldl_multiplyIf tabulated_ratioFactors hle, hstart, ratioOf, factors, product,
    pow_one]

/-! ## The order of the prices -/

lemma carries_factors : Carries unit factors unit := by decide +kernel

lemma length_factors : factors.length = 20 := rfl

lemma ratioOf_antitone {m n : ℕ} (h : m ≤ n) (hn : n < 2 ^ 20) : ratioOf n ≤ ratioOf m :=
  product_antitone unit_pos carries_factors h hn

lemma ratioOf_le_unit (n : ℕ) : ratioOf n ≤ unit := by
  refine product_le ?_ n unit
  have hall : factors.all fun c => decide (c ≤ unit) := by decide +kernel
  intro c hc
  exact of_decide_eq_true (List.all_eq_true.mp hall c hc)

lemma ratioOf_pos {n : ℕ} (hn : n < 2 ^ 20) : 0 < ratioOf n := by
  have hlast : 0 < ratioOf (2 ^ 20 - 1) := by decide +kernel
  exact lt_of_lt_of_le hlast (ratioOf_antitone (by omega) (by decide))

lemma toNat_roundUp (ratio : U256) :
    (ratio >>> 32 + if ratio % 4294967296 = 0 then 0 else 1).toNat = ratio.toNat ⌈/⌉ 2 ^ 32 := by
  have hshift : (ratio >>> 32).toNat = ratio.toNat / 2 ^ 32 := by
    rw [BitVec.toNat_ushiftRight, Nat.shiftRight_eq_div_pow]
  have hmod : ratio % 4294967296 = 0 ↔ ratio.toNat % 2 ^ 32 = 0 := by
    rw [← BitVec.toNat_inj, BitVec.toNat_umod]
    exact Iff.rfl
  by_cases hrest : ratio.toNat % 2 ^ 32 = 0
  · rw [if_pos (hmod.mpr hrest), ceilDiv_of_dvd (by decide) hrest, ← hshift]
    exact congrArg BitVec.toNat (add_zero _)
  · have hlt : (ratio >>> 32).toNat + 1 < 2 ^ 256 := by
      have := ratio.isLt
      rw [hshift]
      omega
    rw [if_neg (fun h => hrest (hmod.mp h)), ceilDiv_of_not_dvd (by decide) hrest, ← hshift,
      FullMath.toNat_add_one hlt]

/-- **The price of a tick.** -/
lemma getSqrtRatioAtTick_ok_iff {tick : ℤ} {q : U256} :
    getSqrtRatioAtTick tick = .ok q ↔ tick.natAbs ≤ 887272 ∧ q.toNat = sqrtRatio tick := by
  simp only [getSqrtRatioAtTick]
  by_cases hlarge : 887272 < tick.natAbs
  · rw [if_pos hlarge]
    exact iff_of_false (by simp) (fun h => absurd h.1 (not_le_of_gt hlarge))
  · rw [if_neg hlarge]
    have hne : ratioAt tick.natAbs ≠ 0 := by
      rw [← U256.toNat_pos_iff, toNat_ratioAt]
      exact ratioOf_pos (by omega)
    by_cases hpos : 0 < tick
    · rw [if_pos hpos, U256.divOrPanic_of_ne hne, sqrtRatio, if_pos hpos]
      refine U256.ok_eq_ok_iff (by omega) ?_
      rw [toNat_roundUp, BitVec.toNat_udiv, toNat_ratioAt]
      rfl
    · rw [if_neg hpos, sqrtRatio, if_neg hpos]
      refine U256.ok_eq_ok_iff (by omega) ?_
      rw [toNat_roundUp, toNat_ratioAt]

lemma exists_getSqrtRatioAtTick {tick : ℤ} (h : tick.natAbs ≤ 887272) :
    ∃ q, getSqrtRatioAtTick tick = .ok q ∧ q.toNat = sqrtRatio tick := by
  have hlt : sqrtRatio tick < 2 ^ 256 := by
    rw [sqrtRatio]
    refine lt_of_le_of_lt (ceilDiv_le_self (by decide)) ?_
    split_ifs
    · exact lt_of_le_of_lt (Nat.div_le_self _ _) (by decide)
    · exact lt_of_le_of_lt (ratioOf_le_unit _) (by decide)
  have hq := (BitVec.toNat_ofNat (sqrtRatio tick) 256).trans (Nat.mod_eq_of_lt hlt)
  exact ⟨_, getSqrtRatioAtTick_ok_iff.mpr ⟨h, hq⟩, hq⟩

/-- **The order of the prices.** -/
lemma sqrtRatio_mono {s t : ℤ} (h : s ≤ t) (hs : -1048576 < s) (ht : t < 1048576) :
    sqrtRatio s ≤ sqrtRatio t := by
  refine ceilDiv_mono (by decide) ?_
  have hunit : unit ≤ (2 ^ 256 - 1) / ratioOf t.natAbs ∨ t ≤ 0 := by
    rcases le_or_gt t 0 with hneg | hpos
    · exact Or.inr hneg
    · have hone : ratioOf t.natAbs ≤ ratioOf 1 := ratioOf_antitone (by omega) (by omega)
      have hdiv : (2 ^ 256 - 1) / ratioOf 1 ≤ (2 ^ 256 - 1) / ratioOf t.natAbs :=
        Nat.div_le_div_left hone (ratioOf_pos (by omega))
      have hvalue : unit ≤ (2 ^ 256 - 1) / ratioOf 1 := by decide +kernel
      exact Or.inl (hvalue.trans hdiv)
  by_cases hspos : 0 < s
  · rw [if_pos hspos, if_pos (by omega)]
    exact Nat.div_le_div_left (ratioOf_antitone (by omega) (by omega)) (ratioOf_pos (by omega))
  · rw [if_neg hspos]
    by_cases htpos : 0 < t
    · rw [if_pos htpos]
      exact (ratioOf_le_unit _).trans (hunit.resolve_right (by omega))
    · rw [if_neg htpos]
      exact ratioOf_antitone (by omega) (by omega)

lemma sqrtRatio_minTick : sqrtRatio minTick = minSqrtRatio.toNat := by decide +kernel
lemma sqrtRatio_maxTick : sqrtRatio maxTick = maxSqrtRatio.toNat := by decide +kernel

/-! ## How far the prices of one word are apart -/

lemma sqrtRatio_grid : ∀ k : ℕ, k < 28 →
    sqrtRatio ((k : ℤ) * 65536 - 786432) ≤ 2 ^ 32 * sqrtRatio ((k : ℤ) * 65536 - 917504) := by
  decide +kernel

lemma sqrtRatio_le_mul {s t : ℤ} (hs : minTick ≤ s) (hst : s ≤ t) (ht : t ≤ maxTick)
    (hspan : t - s ≤ 65536) : sqrtRatio t ≤ 2 ^ 32 * sqrtRatio s := by
  unfold minTick at hs
  unfold maxTick at ht
  -- the multiple of `2 ^ 16` below `s` and the second one above it
  obtain ⟨k, hk⟩ : ∃ k : ℕ, (k : ℤ) = (s + 917504) / 65536 :=
    ⟨((s + 917504) / 65536).toNat, by omega⟩
  calc sqrtRatio t ≤ sqrtRatio ((k : ℤ) * 65536 - 786432) :=
        sqrtRatio_mono (by omega) (by omega) (by omega)
    _ ≤ 2 ^ 32 * sqrtRatio ((k : ℤ) * 65536 - 917504) := sqrtRatio_grid k (by omega)
    _ ≤ 2 ^ 32 * sqrtRatio s :=
        Nat.mul_le_mul_left _ (sqrtRatio_mono (by omega) (by omega) (by omega))

lemma minSqrtRatio_le_sqrtRatio {t : ℤ} (hmin : minTick ≤ t) (hmax : t ≤ maxTick) :
    minSqrtRatio.toNat ≤ sqrtRatio t := by
  rw [← sqrtRatio_minTick]
  unfold minTick maxTick at *
  exact sqrtRatio_mono hmin (by omega) (by omega)

lemma sqrtRatio_le_maxSqrtRatio {t : ℤ} (hmin : minTick ≤ t) (hmax : t ≤ maxTick) :
    sqrtRatio t ≤ maxSqrtRatio.toNat := by
  rw [← sqrtRatio_maxTick]
  unfold minTick maxTick at *
  exact sqrtRatio_mono hmax (by omega) (by omega)

/-! ## Panics -/

lemma getSqrtRatioAtTick_ne_panic (tick : ℤ) : getSqrtRatioAtTick tick ≠ .error .panic := by
  by_cases hrange : tick.natAbs ≤ 887272
  · obtain ⟨q, hq, -⟩ := exists_getSqrtRatioAtTick hrange
    rw [hq]
    simp
  · simp only [getSqrtRatioAtTick]
    rw [if_pos (not_le.mp hrange)]
    simp

lemma getTickAtSqrtRatio_ne_panic (price : U256) : getTickAtSqrtRatio price ≠ .error .panic := by
  -- whatever the two candidates are
  have hcandidates : ∀ low high : ℤ, (if low = high then .ok low else do
      let sqrtRatioHigh ← getSqrtRatioAtTick high
      .ok (if sqrtRatioHigh ≤ price then high else low) : MathResult ℤ) ≠ .error .panic := by
    intro low high
    split_ifs
    · simp
    · exact Rounds.bind_ne_error (getSqrtRatioAtTick_ne_panic _) fun q _ => by simp
  unfold getTickAtSqrtRatio
  dsimp only
  by_cases hrange : ¬ (minSqrtRatio ≤ price ∧ price < maxSqrtRatio)
  · rw [if_pos hrange]
    simp
  · rw [if_neg hrange]
    exact hcandidates _ _

end TickMath

end Kabu
