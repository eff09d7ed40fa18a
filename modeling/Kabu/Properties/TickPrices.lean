import Mathlib.Analysis.Complex.ExponentialBounds
import Kabu.Defi.TickDigits

/-!
# Ticks and prices

A tick is the exponent of a price, and the two are computed in different ways: the price by a
product of rounded factors, and the tick by a rounded logarithm.  `tick_price_galois` says that they
fit together.  The prices are strictly ordered as their ticks, and the tick of a price is the
greatest one whose price is not above it.

Both are compared with the real logarithm.  The logarithm of the price of a tick is a multiple of
`tickLog`, up to an error of a billionth (`log_sqrtRatio`), where two ticks are fifty millionths
apart.  The digits of a price are those of its logarithm, cut off after fourteen, and the two
candidates leave room for that and for all the errors (`candidate_bounds`).
-/

namespace Kabu

namespace TickMath

open BinaryProduct Real RoundedLog

/-! ## Constants -/

/-- The logarithm of the square root of `1.0001`. -/
noncomputable def tickLog : ℝ := log (sqrt (10001 / 10000))

lemma tickLog_eq : tickLog = log (10001 / 10000) / 2 := log_sqrt (by norm_num)

lemma tickLog_bounds : 0.0000499975001665 < tickLog ∧ tickLog < 0.0000499975001667 := by
  have hseries := abs_log_sub_add_sum_range_le (x := 1 / 10001) (by rw [abs_of_pos] <;> norm_num) 3
  have hinverse : log (1 - 1 / 10001) = -log (10001 / 10000) := by
    rw [← log_inv]
    norm_num
  rw [hinverse, abs_of_pos (by norm_num : (0 : ℝ) < 1 / 10001), abs_le] at hseries
  norm_num [Finset.sum_range_succ] at hseries
  rw [tickLog_eq]
  constructor <;> linarith

/-- The factor that changes the base of the logarithm. -/
lemma sqrt10001_mul_tickLog :
    |(sqrt10001.toNat : ℝ) * tickLog / 2 ^ 64 - log 2| ≤ 1 / 10 ^ 9 := by
  have hbase : (sqrt10001.toNat : ℝ) = 255738958999603826347141 := by
    have hnat : sqrt10001.toNat = 255738958999603826347141 := by decide +kernel
    rw [hnat]
    norm_num
  obtain ⟨hlow, hhigh⟩ := tickLog_bounds
  have hlog := log_two_gt_d9
  have hlog' := log_two_lt_d9
  rw [hbase, abs_le]
  constructor <;> norm_num at * <;> linarith

/-! ## The prices of the ticks -/

lemma powers_factors :
    Powers unit (2 ^ 20 * (1 / 2 ^ 80 + 1 / ((2 ^ 80 : ℕ) : ℝ))) factors tickLog := by
  have hsquares : Squares unit (2 ^ 80) firstFactor.toNat
      (ratioFactors.map fun entry => entry.2.toNat) := by decide +kernel
  have hpos : 0 < firstFactor.toNat := by decide +kernel
  refine powers_of_squares unit_pos (by positivity) hpos ?_ hsquares
  have hfirst : |log (firstFactor.toNat * firstFactor.toNat * 10001 : ℕ) -
      log (unit * unit * 10000 : ℕ)| ≤ 1 / ((2 ^ 80 : ℕ) : ℝ) :=
    abs_log_sub_log_le (by positivity) (by positivity) (by decide +kernel) (by decide +kernel)
  have hc : (firstFactor.toNat : ℝ) ≠ 0 := by exact_mod_cast hpos.ne'
  have hunit : (unit : ℝ) ≠ 0 := by exact_mod_cast unit_pos.ne'
  push_cast at hfirst
  rw [log_mul (mul_ne_zero hc hc) (by norm_num), log_mul hc hc,
    log_mul (mul_ne_zero hunit hunit) (by norm_num), log_mul hunit hunit] at hfirst
  rw [tickLog_eq, log_div (by norm_num) (by norm_num)]
  have herror : (0 : ℝ) < 1 / 2 ^ 80 := by positivity
  rw [abs_le] at hfirst ⊢
  constructor <;> linarith

lemma two_pow_le_ratioOf {n : ℕ} (hn : n ≤ 887272) : 2 ^ 64 ≤ ratioOf n := by
  have hlast : 2 ^ 64 ≤ ratioOf 887272 := by decide +kernel
  exact hlast.trans (ratioOf_antitone hn (by decide))

lemma log_unit : log unit = 128 * log 2 := by
  rw [unit, Nat.cast_pow, log_pow]
  norm_num

lemma log_ratioOf {n : ℕ} (hn : n ≤ 887272) :
    |log (ratioOf n) - 128 * log 2 + n * tickLog| ≤ 1 / 10 ^ 10 := by
  have hall : factors.all fun c => decide (c ≤ unit) := by decide +kernel
  have hle : ∀ c ∈ factors, c ≤ unit := fun c hc =>
    of_decide_eq_true (List.all_eq_true.mp hall c hc)
  have hproduct := log_product hle powers_factors (by decide) (n := n) (x := unit)
    (by rw [length_factors]; omega) (two_pow_le_ratioOf hn)
  rw [← ratioOf, log_unit, length_factors] at hproduct
  refine hproduct.trans ?_
  norm_num

/-- What is left of a logarithm when a number of 64 bits or more is rounded to 32 bits less. -/
lemma log_roundUp {x : ℕ} (hx : 2 ^ 64 ≤ x) :
    0 ≤ log (x ⌈/⌉ 2 ^ 32 : ℕ) - (log x - 32 * log 2) ∧
      log (x ⌈/⌉ 2 ^ 32 : ℕ) - (log x - 32 * log 2) ≤ 3 / 10 ^ 10 := by
  have hpos : 0 < x := lt_of_lt_of_le (by decide) hx
  obtain ⟨hlow, hhigh⟩ := log_ceilDiv_sub_log (k := 2 ^ 32) (by decide) hpos
  have hpow : log ((2 ^ 32 : ℕ) : ℝ) = 32 * log 2 := by
    rw [Nat.cast_pow, log_pow]
    norm_num
  rw [hpow] at hlow hhigh
  refine ⟨hlow, hhigh.trans ?_⟩
  have hx' : (2 : ℝ) ^ 64 ≤ x := by exact_mod_cast hx
  have hxpos : (0 : ℝ) < x := by exact_mod_cast hpos
  have hnum : ((2 ^ 32 : ℕ) : ℝ) = 4294967296 := by norm_num
  rw [div_le_iff₀ hxpos, hnum]
  linarith

lemma log_inverse {n : ℕ} (hn : n ≤ 887272) :
    2 ^ 64 ≤ (2 ^ 256 - 1) / ratioOf n ∧
      |log ((2 ^ 256 - 1) / ratioOf n : ℕ) - (256 * log 2 - log (ratioOf n))| ≤ 1 / 10 ^ 10 := by
  have hratio : 0 < ratioOf n := ratioOf_pos (by omega)
  generalize hall : 2 ^ 256 - 1 = all
  have hall' : (all : ℝ) + 1 = 2 ^ 256 := by
    have hnat : all + 1 = 2 ^ 256 := by rw [← hall]; rfl
    exact_mod_cast hnat
  have hlarge : 2 ^ 64 ≤ all / ratioOf n := by
    rw [← hall]
    calc 2 ^ 64 ≤ (2 ^ 256 - 1) / unit := by decide +kernel
      _ ≤ (2 ^ 256 - 1) / ratioOf n := Nat.div_le_div_left (ratioOf_le_unit n) hratio
  have hinverse := log_div_sub_log (lt_of_lt_of_le (by decide) hlarge)
  have hlast := log_sub_log_bounds (a := all) (b := 2 ^ 256) (d := 1) (by linarith) (by linarith)
    hall'.ge
  rw [log_pow] at hlast
  have hloss : 1 / ((all / ratioOf n : ℕ) : ℝ) ≤ 1 / 2 ^ 64 := by
    gcongr
    exact_mod_cast hlarge
  have hloss' : (1 : ℝ) / all ≤ 1 / 2 ^ 64 := by
    gcongr
    linarith
  refine ⟨hlarge, ?_⟩
  rw [abs_le]
  norm_num at hlast hinverse hloss hloss' ⊢
  constructor <;> linarith

/-- **The price of a tick is a power.** -/
lemma log_sqrtRatio {tick : ℤ} (h : tick.natAbs ≤ 887272) :
    |log (sqrtRatio tick) - 96 * log 2 - tick * tickLog| ≤ 1 / 10 ^ 9 := by
  have hratio := log_ratioOf h
  rw [sqrtRatio]
  by_cases hpos : 0 < tick
  · obtain ⟨hlarge, hinverse⟩ := log_inverse h
    obtain ⟨hround, hround'⟩ := log_roundUp hlarge
    have hcast : (tick.natAbs : ℝ) = tick := by
      rw [Nat.cast_natAbs, abs_of_pos hpos]
    rw [if_pos hpos]
    rw [hcast] at hratio
    rw [abs_le] at hratio hinverse ⊢
    constructor <;> linarith
  · obtain ⟨hround, hround'⟩ := log_roundUp (two_pow_le_ratioOf h)
    have hcast : (tick.natAbs : ℝ) = -tick := by
      rw [Nat.cast_natAbs, abs_of_nonpos (not_lt.mp hpos)]
      push_cast
      rfl
    rw [hcast, neg_mul, abs_le] at hratio
    rw [if_neg hpos, abs_le]
    generalize log (ratioOf tick.natAbs ⌈/⌉ 2 ^ 32 : ℕ) = rounded at hround hround' ⊢
    constructor <;> linarith

lemma sqrtRatio_pos {tick : ℤ} (h : tick.natAbs ≤ 887272) : (0 : ℝ) < sqrtRatio tick := by
  have hmin : minSqrtRatio.toNat ≤ sqrtRatio tick :=
    minSqrtRatio_le_sqrtRatio (by unfold minTick; omega) (by unfold maxTick; omega)
  have hpos : 0 < minSqrtRatio.toNat := by decide +kernel
  exact_mod_cast hpos.trans_le hmin

/-- **The prices are strictly ordered.** -/
lemma sqrtRatio_strictMono {s t : ℤ} (hs : s.natAbs ≤ 887272) (ht : t.natAbs ≤ 887272)
    (hst : s < t) : sqrtRatio s < sqrtRatio t := by
  obtain ⟨hlow, -⟩ := tickLog_bounds
  have hstep : (s : ℝ) + 1 ≤ t := by exact_mod_cast hst
  have hone : tickLog ≤ (t - s) * tickLog := by nlinarith
  have hlogs := abs_le.mp (log_sqrtRatio hs)
  have hlogt := abs_le.mp (log_sqrtRatio ht)
  have hlt : log (sqrtRatio s) < log (sqrtRatio t) := by
    rw [sub_mul] at hone
    norm_num at hlow
    linarith
  exact_mod_cast (log_lt_log_iff (sqrtRatio_pos hs) (sqrtRatio_pos ht)).mp hlt

/-! ## The digits of a price -/

section Price

/-- The logarithm of a price, of which one is the price of the tick zero. -/
noncomputable def priceLog (price : U256) : ℝ := log price.toNat - log (2 ^ 96 : ℕ)

variable {price : U256}

lemma priceLog_eq : priceLog price = log price.toNat - 96 * log 2 := by
  rw [priceLog, Nat.cast_pow, log_pow]
  norm_num

lemma digits_normalise {ratio m : ℕ} (hlow : 2 ^ m ≤ ratio) (hhigh : ratio < 2 ^ (m + 1)) :
    Digits digitOne (log ratio - 128 * log 2) (1 / digitOne) (normalise ratio m) := by
  obtain ⟨hone, htwo⟩ := normalise_range hlow hhigh
  have hratio : (ratio : ℝ) ≠ 0 := by
    exact_mod_cast (lt_of_lt_of_le (Nat.two_pow_pos m) hlow).ne'
  have hdigitOne : log digitOne = 127 * log 2 := by
    rw [digitOne, Nat.cast_pow, log_pow]
    norm_num
  have hpositive : (0 : ℝ) < 1 / digitOne := by
    have := digitOne_pos
    positivity
  -- the number is the ratio divided by a power of two, rounded down
  have hnumber : 0 ≤ log ratio - ((m : ℝ) - 127) * log 2 - log (normalise ratio m).1 ∧
      log ratio - ((m : ℝ) - 127) * log 2 - log (normalise ratio m).1 ≤ 1 / digitOne := by
    by_cases hm : 128 ≤ m
    · have hvalue : (normalise ratio m).1 = ratio / 2 ^ (m - 127) := if_pos hm
      have hround := log_div_sub_log (hvalue ▸ digitOne_pos.trans_le hone)
      rw [← hvalue, Nat.cast_pow, log_pow, Nat.cast_sub (by omega)] at hround
      have hloss : 1 / ((normalise ratio m).1 : ℝ) ≤ 1 / digitOne := by
        have := digitOne_pos
        gcongr
      norm_num at hround hloss ⊢
      constructor <;> linarith
    · have hvalue : (normalise ratio m).1 = ratio * 2 ^ (127 - m) := if_neg hm
      have hexact : log (normalise ratio m).1 = log ratio - ((m : ℝ) - 127) * log 2 := by
        rw [hvalue, Nat.cast_mul, Nat.cast_pow, log_mul hratio (by positivity), log_pow,
          Nat.cast_sub (by omega)]
        push_cast
        ring
      rw [hexact, sub_self]
      exact ⟨le_rfl, hpositive.le⟩
  have hwhole : (((normalise ratio m).2 : ℤ) : ℝ) = m - 128 := by
    dsimp only [normalise]
    push_cast
    rfl
  refine ⟨hone, htwo, ?_, ?_⟩
  · rw [hwhole, hdigitOne]
    linarith
  · rw [hwhole, hdigitOne]
    linarith

/-- The price is in the range of the prices of the ticks. -/
structure InRange (price : U256) : Prop where
  min : minSqrtRatio ≤ price
  max : price < maxSqrtRatio

namespace InRange

variable (h : InRange price)

include h

lemma toNat_pos : (0 : ℝ) < price.toNat := by
  have hle : minSqrtRatio.toNat ≤ price.toNat := BitVec.le_def.mp h.min
  have hpos : 0 < minSqrtRatio.toNat := by decide +kernel
  exact_mod_cast hpos.trans_le hle

lemma digits_bounds :
    (digitsOf price).2 * log 2 ≤ 2 ^ 14 * priceLog price ∧
      2 ^ 14 * priceLog price ≤ ((digitsOf price).2 + 1) * log 2 + 1 / 10 ^ 10 := by
  have hshift := toNat_price_shiftLeft h.max
  have hpos : 0 < (price <<< 32).toNat := by
    rw [hshift]
    have := h.toNat_pos
    have hnat : 0 < price.toNat := by exact_mod_cast this
    omega
  obtain ⟨hlow, hhigh⟩ := msbOf_spec hpos
  have hlog : log (price <<< 32).toNat - 128 * log 2 = priceLog price := by
    rw [hshift, Nat.cast_mul, Nat.cast_pow, log_mul h.toNat_pos.ne' (by positivity), log_pow,
      priceLog_eq]
    push_cast
    ring
  have hdigits := ((digits_normalise hlow hhigh).iterate digitOne_pos 14).bounds digitOne_pos
  rw [hlog, ← digitsOf] at hdigits
  refine ⟨hdigits.1, hdigits.2.trans ?_⟩
  have herror : (2 : ℝ) ^ 14 * (1 / digitOne + 1 / digitOne) - 1 / digitOne ≤ 1 / 10 ^ 10 := by
    rw [digitOne]
    norm_num
  linarith

lemma priceLog_bounds :
    -887272 * tickLog - 1 / 10 ^ 9 ≤ priceLog price ∧
      priceLog price ≤ 887272 * tickLog + 1 / 10 ^ 9 := by
  have hmin : ((-887272 : ℤ)).natAbs ≤ 887272 := by decide
  have hmax : ((887272 : ℤ)).natAbs ≤ 887272 := by decide
  have hfirst := abs_le.mp (log_sqrtRatio hmin)
  have hlast := abs_le.mp (log_sqrtRatio hmax)
  have hle : log (sqrtRatio (-887272)) ≤ log price.toNat := by
    refine log_le_log (sqrtRatio_pos hmin) ?_
    have hnat : sqrtRatio minTick ≤ price.toNat := by
      rw [sqrtRatio_minTick]
      exact BitVec.le_def.mp h.min
    exact_mod_cast hnat
  have hle' : log price.toNat ≤ log (sqrtRatio 887272) := by
    refine log_le_log h.toNat_pos ?_
    have hnat : price.toNat ≤ sqrtRatio maxTick := by
      rw [sqrtRatio_maxTick]
      exact (BitVec.lt_def.mp h.max).le
    exact_mod_cast hnat
  push_cast at hfirst hlast
  rw [priceLog_eq]
  constructor <;> linarith

lemma abs_digits_le : -2 ^ 21 ≤ (digitsOf price).2 ∧ (digitsOf price).2 ≤ 2 ^ 21 := by
  obtain ⟨hlow, hhigh⟩ := h.digits_bounds
  obtain ⟨hmin, hmax⟩ := h.priceLog_bounds
  obtain ⟨-, htick⟩ := tickLog_bounds
  have hlog := log_two_gt_d9
  generalize (digitsOf price).2 = E at hlow hhigh ⊢
  norm_num at htick hlog hmin hmax hhigh
  constructor
  · by_contra hlt
    have hE : (E : ℝ) + 1 ≤ -2097152 := by exact_mod_cast (by omega : E + 1 ≤ -2097152)
    nlinarith
  · by_contra hlt
    have hE : (2097152 : ℝ) ≤ E := by exact_mod_cast (by omega : (2097152 : ℤ) ≤ E)
    nlinarith

end InRange

/-! ## The candidates -/

lemma candidate_mul_tickLog (E offset : ℤ) :
    candidate E offset * tickLog ≤
        E / 2 ^ 14 * (sqrt10001.toNat * tickLog / 2 ^ 64) + offset * tickLog / 2 ^ 128 ∧
      E / 2 ^ 14 * (sqrt10001.toNat * tickLog / 2 ^ 64) + offset * tickLog / 2 ^ 128 ≤
        (candidate E offset + 1) * tickLog := by
  have hpos : 0 < tickLog := lt_trans (by norm_num) tickLog_bounds.1
  have hlow : candidate E offset * 2 ^ 128 ≤ E * 2 ^ 50 * sqrt10001.toNat + offset :=
    Int.ediv_mul_le _ (by norm_num)
  have hhigh : E * 2 ^ 50 * sqrt10001.toNat + offset ≤ (candidate E offset + 1) * 2 ^ 128 :=
    (Int.lt_ediv_add_one_mul_self _ (by norm_num)).le
  have hlow' : (candidate E offset : ℝ) * 2 ^ 128 ≤ E * 2 ^ 50 * sqrt10001.toNat + offset := by
    exact_mod_cast hlow
  have hhigh' : (E : ℝ) * 2 ^ 50 * sqrt10001.toNat + offset ≤
      (candidate E offset + 1) * 2 ^ 128 := by
    exact_mod_cast hhigh
  have hvalue : (E : ℝ) / 2 ^ 14 * (sqrt10001.toNat * tickLog / 2 ^ 64) +
      offset * tickLog / 2 ^ 128 =
        (E * 2 ^ 50 * sqrt10001.toNat + offset) / 2 ^ 128 * tickLog := by
    ring
  rw [hvalue]
  constructor
  · gcongr
    rwa [le_div_iff₀ (by positivity)]
  · gcongr
    rwa [div_le_iff₀ (by positivity)]

/-- **The candidates leave room for the digits that are missing and for all errors.** -/
lemma candidate_bounds (h : InRange price) :
    (lowCandidate (digitsOf price).2 * tickLog ≤ priceLog price - 3 / 10 ^ 7 ∧
        priceLog price - 43 / 10 ^ 6 ≤ (lowCandidate (digitsOf price).2 + 1) * tickLog) ∧
      highCandidate (digitsOf price).2 * tickLog ≤ priceLog price + 43 / 10 ^ 6 ∧
        priceLog price + 3 / 10 ^ 7 ≤ (highCandidate (digitsOf price).2 + 1) * tickLog := by
  obtain ⟨hlow, hhigh⟩ := h.digits_bounds
  obtain ⟨hE, hE'⟩ := h.abs_digits_le
  generalize (digitsOf price).2 = E at hlow hhigh hE hE' ⊢
  obtain ⟨htick, htick'⟩ := tickLog_bounds
  have hlog := log_two_lt_d9
  have hbase := sqrt10001_mul_tickLog
  -- the change of the base
  have hchange : |E / 2 ^ 14 * (sqrt10001.toNat * tickLog / 2 ^ 64) - E / 2 ^ 14 * log 2| ≤
      13 / 10 ^ 8 := by
    have hsize : |(E : ℝ) / 2 ^ 14| ≤ 128 := by
      have hcast : (-2 ^ 21 : ℝ) ≤ E := by exact_mod_cast hE
      have hcast' : (E : ℝ) ≤ 2 ^ 21 := by exact_mod_cast hE'
      rw [abs_le]
      constructor
      · rw [le_div_iff₀ (by positivity)]
        linarith
      · rw [div_le_iff₀ (by positivity)]
        linarith
    rw [← mul_sub, abs_mul]
    calc |(E : ℝ) / 2 ^ 14| * |(sqrt10001.toNat : ℝ) * tickLog / 2 ^ 64 - log 2|
        ≤ 128 * (1 / 10 ^ 9) := by gcongr
      _ ≤ 13 / 10 ^ 8 := by norm_num
  have htickLow : (((-tickLow.toNat : ℤ)) : ℝ) = -3402992956809132418596140100660247210 := by
    have hnat : (-tickLow.toNat : ℤ) = -3402992956809132418596140100660247210 := by decide +kernel
    rw [hnat]
    norm_num
  have htickHigh : ((tickHigh.toNat : ℤ) : ℝ) = 291339464771989622907027621153398088495 := by
    have hnat : (tickHigh.toNat : ℤ) = 291339464771989622907027621153398088495 := by decide +kernel
    rw [hnat]
    norm_num
  have hlower := candidate_mul_tickLog E (-tickLow.toNat)
  have hupper := candidate_mul_tickLog E tickHigh.toNat
  rw [htickLow] at hlower
  rw [htickHigh] at hupper
  rw [← lowCandidate] at hlower
  rw [← highCandidate] at hupper
  have hcut : (E : ℝ) / 2 ^ 14 * log 2 ≤ priceLog price ∧
      priceLog price - 42307 / 10 ^ 9 ≤ (E : ℝ) / 2 ^ 14 * log 2 := by
    rw [div_mul_eq_mul_div]
    constructor
    · rw [div_le_iff₀ (by positivity)]
      linarith
    · rw [le_div_iff₀ (by positivity)]
      norm_num at hhigh hlog ⊢
      linarith
  generalize (E : ℝ) / 2 ^ 14 * (sqrt10001.toNat * tickLog / 2 ^ 64) = changed
    at hchange hlower hupper
  generalize (E : ℝ) / 2 ^ 14 * log 2 = digits at hchange hcut
  rw [abs_le] at hchange
  norm_num at hchange hcut hlower hupper htick htick' ⊢
  refine ⟨⟨?_, ?_⟩, ?_, ?_⟩ <;> linarith

lemma candidates_near (E : ℤ) :
    lowCandidate E ≤ highCandidate E ∧ highCandidate E ≤ lowCandidate E + 1 := by
  have hlow : (tickLow.toNat : ℤ) = 3402992956809132418596140100660247210 := by decide +kernel
  have hhigh : (tickHigh.toNat : ℤ) = 291339464771989622907027621153398088495 := by decide +kernel
  unfold lowCandidate highCandidate candidate
  rw [hlow, hhigh]
  generalize E * 2 ^ 50 * (sqrt10001.toNat : ℤ) = x
  omega

/-! ## The tick of a price -/

lemma sqrtRatio_le_of_tickLog {tick : ℤ} (h : InRange price) (htick : tick.natAbs ≤ 887272)
    (hle : tick * tickLog ≤ priceLog price - 3 / 10 ^ 7) : sqrtRatio tick ≤ price.toNat := by
  have hlog := abs_le.mp (log_sqrtRatio htick)
  have hle' : log (sqrtRatio tick) ≤ log price.toNat := by
    rw [priceLog_eq] at hle
    norm_num at hle hlog
    linarith
  exact_mod_cast (log_le_log_iff (sqrtRatio_pos htick) h.toNat_pos).mp hle'

lemma lt_sqrtRatio_of_tickLog {tick : ℤ} (h : InRange price) (htick : tick.natAbs ≤ 887272)
    (hle : priceLog price + 3 / 10 ^ 7 ≤ tick * tickLog) : price.toNat < sqrtRatio tick := by
  have hlog := abs_le.mp (log_sqrtRatio htick)
  have hlt : log price.toNat < log (sqrtRatio tick) := by
    rw [priceLog_eq] at hle
    norm_num at hle hlog
    linarith
  exact_mod_cast (log_lt_log_iff h.toNat_pos (sqrtRatio_pos htick)).mp hlt

/-- The tick is the last one whose price is not above. -/
structure IsTickOf (price : U256) (tick : ℤ) : Prop where
  range : tick.natAbs ≤ 887272
  price_le : sqrtRatio tick ≤ price.toNat
  lt_next : (tick + 1).natAbs ≤ 887272 → price.toNat < sqrtRatio (tick + 1)

lemma candidates_range (h : InRange price) :
    (highCandidate (digitsOf price).2).natAbs ≤ 887272 ∧
      -887273 ≤ lowCandidate (digitsOf price).2 := by
  obtain ⟨⟨-, hlow⟩, hhigh, hhigh'⟩ := candidate_bounds h
  obtain ⟨hmin, hmax⟩ := h.priceLog_bounds
  obtain ⟨htick, -⟩ := tickLog_bounds
  have hpos : 0 < tickLog := lt_trans (by norm_num) htick
  generalize lowCandidate (digitsOf price).2 = low at hlow ⊢
  generalize highCandidate (digitsOf price).2 = high at hhigh hhigh' ⊢
  norm_num at htick hmin hmax hlow hhigh hhigh'
  -- each bound is compared with a multiple of the logarithm
  have hlow' : (-887273 : ℝ) < low + 1 := by
    refine lt_of_mul_lt_mul_right ?_ hpos.le
    linarith
  have habove : (high : ℝ) < 887273 := by
    refine lt_of_mul_lt_mul_right ?_ hpos.le
    linarith
  have hbelow : (-887272 : ℝ) < high + 1 := by
    refine lt_of_mul_lt_mul_right ?_ hpos.le
    linarith
  have hlowInt : (-887273 : ℤ) < low + 1 := by exact_mod_cast hlow'
  have haboveInt : high < (887273 : ℤ) := by exact_mod_cast habove
  have hbelowInt : (-887272 : ℤ) < high + 1 := by exact_mod_cast hbelow
  omega

lemma exists_pick (h : InRange price) :
    ∃ tick, pick price (lowCandidate (digitsOf price).2) (highCandidate (digitsOf price).2) =
      .ok tick ∧ IsTickOf price tick := by
  obtain ⟨⟨hlow, -⟩, -, hhigh⟩ := candidate_bounds h
  obtain ⟨hhighRange, hlowRange⟩ := candidates_range h
  obtain ⟨hle, hnear⟩ := candidates_near (digitsOf price).2
  generalize lowCandidate (digitsOf price).2 = low at hlow hlowRange hle hnear ⊢
  generalize highCandidate (digitsOf price).2 = high at hhigh hhighRange hle hnear ⊢
  have hnext : (high + 1).natAbs ≤ 887272 → price.toNat < sqrtRatio (high + 1) := fun hrange =>
    lt_sqrtRatio_of_tickLog h hrange (by push_cast; exact hhigh)
  obtain ⟨q, hq, hvalue⟩ := exists_getSqrtRatioAtTick hhighRange
  unfold pick
  by_cases heq : low = high
  · subst heq
    exact ⟨low, if_pos rfl, hhighRange, sqrtRatio_le_of_tickLog h hhighRange hlow, hnext⟩
  · have hsucc : high = low + 1 := by omega
    rw [if_neg heq, hq]
    by_cases hqp : q ≤ price
    · refine ⟨high, congrArg Except.ok (if_pos hqp), hhighRange, ?_, hnext⟩
      rw [← hvalue]
      exact BitVec.le_def.mp hqp
    · have hlt : price.toNat < sqrtRatio high := by
        rw [← hvalue]
        exact BitVec.lt_def.mp (BitVec.not_le.mp hqp)
      -- the price of the first tick is never above
      have hfirst : high ≠ minTick := by
        rintro rfl
        rw [sqrtRatio_minTick] at hlt
        exact absurd (BitVec.le_def.mp h.min) (not_le_of_gt hlt)
      have hrange : low.natAbs ≤ 887272 := by
        unfold minTick at hfirst
        omega
      refine ⟨low, congrArg Except.ok (if_neg hqp), hrange, ?_, fun _ => hsucc ▸ hlt⟩
      exact sqrtRatio_le_of_tickLog h hrange hlow

end Price

lemma natAbs_le_of_range {tick : ℤ} (hmin : minTick ≤ tick) (hmax : tick ≤ maxTick) :
    tick.natAbs ≤ 887272 := by
  unfold minTick at hmin
  unfold maxTick at hmax
  omega

/-- **Ticks and prices.**  The price of a tick is strictly increasing, and the tick of a price is
the greatest one whose price is not above it. -/
theorem tick_price_galois :
    (∀ s t : ℤ, minTick ≤ s → s < t → t ≤ maxTick → ∃ p q, getSqrtRatioAtTick s = .ok p ∧
        getSqrtRatioAtTick t = .ok q ∧ p < q) ∧
      ∀ price : U256, minSqrtRatio ≤ price → price < maxSqrtRatio →
        ∃ tick, getTickAtSqrtRatio price = .ok tick ∧
          IsGreatest {t : ℤ | minTick ≤ t ∧ t ≤ maxTick ∧
            ∃ q, getSqrtRatioAtTick t = .ok q ∧ q ≤ price} tick := by
  constructor
  · intro s t hs hst ht
    have hsrange := natAbs_le_of_range hs (hst.le.trans ht)
    have htrange := natAbs_le_of_range (hs.trans hst.le) ht
    obtain ⟨p, hp, hpvalue⟩ := exists_getSqrtRatioAtTick hsrange
    obtain ⟨q, hq, hqvalue⟩ := exists_getSqrtRatioAtTick htrange
    refine ⟨p, q, hp, hq, BitVec.lt_def.mpr ?_⟩
    rw [hpvalue, hqvalue]
    exact sqrtRatio_strictMono hsrange htrange hst
  · intro price hmin hmax
    have h : InRange price := ⟨hmin, hmax⟩
    obtain ⟨tick, hpick, htick⟩ := exists_pick h
    obtain ⟨q, hq, hvalue⟩ := exists_getSqrtRatioAtTick htick.range
    refine ⟨tick, (getTickAtSqrtRatio_eq hmin hmax h.abs_digits_le).trans hpick, ?_, ?_⟩
    · have hrange := htick.range
      refine ⟨by unfold minTick; omega, by unfold maxTick; omega, q, hq, BitVec.le_def.mpr ?_⟩
      rw [hvalue]
      exact htick.price_le
    · rintro t ⟨htmin, htmax, q', hq', hle⟩
      obtain ⟨htrange, htvalue⟩ := getSqrtRatioAtTick_ok_iff.mp hq'
      by_contra hlt
      -- the next tick would not be above `t`
      have hrange := htick.range
      have hnext : price.toNat < sqrtRatio (tick + 1) := htick.lt_next (by omega)
      have hmono : sqrtRatio (tick + 1) ≤ sqrtRatio t :=
        sqrtRatio_mono (by omega) (by omega) (by omega)
      have hle' := BitVec.le_def.mp hle
      omega

end TickMath

end Kabu
