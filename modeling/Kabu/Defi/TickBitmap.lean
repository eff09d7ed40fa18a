import Kabu.Defi.TickMath

/-!
# The bitmap of the ticks

Only some ticks have liquidity that changes there, and these are marked in a bitmap of 256-bit
words.  A pool uses the multiples of its tick spacing, and the bits are numbered by the multiple.
To find the next tick that is marked, one word is read: that of the tick itself when the price
falls, and that of the next multiple when it rises.  If nothing is marked in the rest of the word
the last tick of it is returned instead, as one that is not initialized.

A word that cannot be read counts as empty.

`Initialized` is what a bit says of a multiple, and `lookup_spec` says what is found in its terms:
the first multiple in the direction that is initialized or is the last of its word.
-/

namespace Kabu

open SqrtPriceMath

namespace BitMath

/-- The source's `255 - leading_zeros`. -/
def mostSignificantBit (x : U256) : Except UniswapV3MathError ℕ :=
  if x = 0 then .error .zeroValue else .ok (255 - x.clz.toNat)

def leastSignificantBit (x : U256) : Except UniswapV3MathError ℕ :=
  if x = 0 then .error .zeroValue else .ok x.ctz.toNat

end BitMath

namespace TickBitmap

open BitMath

/-- The word and the bit of a multiple.  The word is cast to 16 bits. -/
def position (tick : ℤ) : ℤ × ℕ := (Int.bmod (tick / 256) 65536, (tick % 256).toNat)

/-- The multiple of the spacing at or below a tick. -/
def compress (tick tickSpacing : ℤ) : ℤ :=
  if tick < 0 ∧ tick.tmod tickSpacing ≠ 0 then tick.tdiv tickSpacing - 1
  else tick.tdiv tickSpacing

/-- The bits up to a position. -/
def maskLte (bitPos : ℕ) : U256 := (1 : U256) <<< bitPos - 1 + (1 : U256) <<< bitPos

/-- The bits from a position on. -/
def maskGt (bitPos : ℕ) : U256 := ~~~((1 : U256) <<< bitPos - 1)

/-- The next multiple, and if it is initialized.  Differences of bit positions are bytes. -/
def lookup (getTick : ℤ → Except Report U256) (compressed : ℤ) (lte : Bool) :
    Except UniswapV3MathError (ℤ × Bool) :=
  if lte then
    let (wordPos, bitPos) := position compressed
    let masked := unwrapOr 0 (getTick wordPos) &&& maskLte bitPos
    if masked = 0 then .ok (compressed - bitPos, false)
    else do
      let bit ← mostSignificantBit masked
      .ok (compressed - ((bitPos + 256 - bit) % 256 : ℕ), true)
  else
    let (wordPos, bitPos) := position (compressed + 1)
    let masked := unwrapOr 0 (getTick wordPos) &&& maskGt bitPos
    if masked = 0 then .ok (compressed + 1 + (255 - bitPos : ℕ), false)
    else do
      let bit ← leastSignificantBit masked
      .ok (compressed + 1 + ((bit + 256 - bitPos) % 256 : ℕ), true)

/-- A spacing of zero cannot be divided by. -/
def nextInitializedTickWithinOneWord (getTick : ℤ → Except Report U256) (tick tickSpacing : ℤ)
    (lte : Bool) : MathResult (ℤ × Bool) :=
  if tickSpacing = 0 then .error .panic
  else do
    let (next, initialized) ← Failure.lift (lookup getTick (compress tick tickSpacing) lte)
    .ok (next * tickSpacing, initialized)

/-- The bitmap with the bit of a tick flipped.  A tick that is not a multiple of the spacing is
refused. -/
def flipTick (tickBitmap : AssocMap ℤ U256) (tick tickSpacing : ℤ) :
    AssocMap ℤ U256 × MathResult Unit :=
  if tickSpacing = 0 then (tickBitmap, .error .panic)
  else if tick.tmod tickSpacing ≠ 0 then (tickBitmap, .error (.error .tickSpacingError))
  else
    let (wordPos, bitPos) := position (tick.tdiv tickSpacing)
    let mask := (1 : U256) <<< bitPos
    let word := (tickBitmap.lookup wordPos).getD 0
    (tickBitmap.insert wordPos (word ^^^ mask), .ok ())

/-! ## Bits -/

/-- A multiple is marked in the bitmap. -/
def Initialized (getTick : ℤ → Except Report U256) (index : ℤ) : Prop :=
  (unwrapOr 0 (getTick (position index).1)).getLsbD (position index).2 = true

instance (getTick : ℤ → Except Report U256) (index : ℤ) : Decidable (Initialized getTick index) :=
  inferInstanceAs (Decidable (_ = true))

lemma compress_eq {tick tickSpacing : ℤ} (h : 0 < tickSpacing) :
    compress tick tickSpacing = tick / tickSpacing := by
  unfold compress
  rcases le_or_gt 0 tick with hpos | hneg
  · rw [if_neg (fun h => absurd h.1 (not_lt_of_ge hpos)), Int.tdiv_eq_ediv_of_nonneg hpos]
  · rw [Int.tdiv_eq_ediv, Int.tmod_eq_emod]
    have hsign : tickSpacing.sign = 1 := Int.sign_eq_one_of_pos h
    by_cases hdvd : tickSpacing ∣ tick
    · rw [if_neg, if_pos (Or.inr hdvd), add_zero]
      rintro ⟨-, hne⟩
      rw [if_pos (Or.inr hdvd), Nat.cast_zero, sub_zero] at hne
      exact hne (Int.emod_eq_zero_of_dvd hdvd)
    · have hnot : ¬ (0 ≤ tick ∨ tickSpacing ∣ tick) := by
        rintro (hpos | hdvd')
        · omega
        · exact hdvd hdvd'
      rw [if_pos, if_neg hnot, hsign, add_sub_cancel_right]
      refine ⟨hneg, ?_⟩
      rw [if_neg hnot]
      have := Int.emod_lt_of_pos tick h
      omega

lemma toNat_one_shiftLeft {b : ℕ} (hb : b < 256) : ((1 : U256) <<< b).toNat = 2 ^ b := by
  have hlt : 2 ^ b < 2 ^ 256 := Nat.pow_lt_pow_right (by decide) hb
  have hone : (1 : U256).toNat = 1 := rfl
  rw [BitVec.toNat_shiftLeft, hone, Nat.shiftLeft_eq, one_mul, Nat.mod_eq_of_lt hlt]

lemma toNat_shiftLeft_sub_one {b : ℕ} (hb : b < 256) :
    ((1 : U256) <<< b - 1).toNat = 2 ^ b - 1 := by
  have hone : (1 : U256) ≤ (1 : U256) <<< b := by
    rw [BitVec.le_def, toNat_one_shiftLeft hb]
    exact Nat.one_le_two_pow
  rw [BitVec.toNat_sub_of_le hone, toNat_one_shiftLeft hb]
  rfl

lemma getLsbD_maskLte {b : ℕ} (hb : b < 256) (j : ℕ) :
    (maskLte b).getLsbD j = decide (j ≤ b) := by
  have hlt : 2 ^ b ≤ 2 ^ 255 := Nat.pow_le_pow_right (by decide) (by omega)
  have hpos : 0 < 2 ^ b := Nat.two_pow_pos b
  have htoNat : (maskLte b).toNat = 2 ^ (b + 1) - 1 := by
    rw [maskLte, BitVec.toNat_add, toNat_shiftLeft_sub_one hb, toNat_one_shiftLeft hb,
      Nat.mod_eq_of_lt (by omega), pow_succ]
    omega
  rw [BitVec.getLsbD, htoNat, Nat.testBit_two_pow_sub_one]
  exact decide_eq_decide.mpr Nat.lt_succ_iff

lemma getLsbD_maskGt {b : ℕ} (hb : b < 256) {j : ℕ} (hj : j < 256) :
    (maskGt b).getLsbD j = decide (b ≤ j) := by
  rw [maskGt, BitVec.getLsbD_not, BitVec.getLsbD, toNat_shiftLeft_sub_one hb,
    Nat.testBit_two_pow_sub_one, decide_eq_true hj, Bool.true_and, ← decide_not]
  exact decide_eq_decide.mpr not_lt

lemma mostSignificantBit_spec {x : U256} (hx : x ≠ 0) :
    ∃ b < 256, mostSignificantBit x = .ok b ∧ x.getLsbD b = true ∧
      ∀ j, b < j → x.getLsbD j = false := by
  have hclz : x.clz.toNat < 256 := by
    have := BitVec.lt_def.mp (BitVec.clz_lt_iff_ne_zero.mpr hx)
    simpa using this
  refine ⟨255 - x.clz.toNat, by omega, if_neg hx, ?_, fun j hj => ?_⟩
  · have := BitVec.getLsbD_true_clz_of_ne_zero (by decide) hx
    simpa using this
  · have hlt := BitVec.toNat_lt_two_pow_sub_clz (x := x)
    rw [BitVec.getLsbD]
    refine Nat.testBit_eq_false_of_lt (lt_of_lt_of_le hlt ?_)
    exact Nat.pow_le_pow_right (by decide) (by omega)

lemma leastSignificantBit_spec {x : U256} (hx : x ≠ 0) :
    ∃ b < 256, leastSignificantBit x = .ok b ∧ x.getLsbD b = true ∧
      ∀ j < b, x.getLsbD j = false := by
  have hctz : x.ctz.toNat < 256 := by
    have := BitVec.lt_def.mp (BitVec.ctz_lt_iff_ne_zero.mpr hx)
    simpa using this
  refine ⟨x.ctz.toNat, hctz, if_neg hx, BitVec.getLsbD_true_ctz_of_ne_zero hx, fun j hj => ?_⟩
  exact BitVec.getLsbD_false_of_lt_ctz hj

/-! ## What is found -/

/-- The first multiple that is looked at. -/
def firstIndex (lte : Bool) (compressed : ℤ) : ℤ := if lte then compressed else compressed + 1

/-- A multiple lies between the first one that is looked at and another one. -/
def Passed (lte : Bool) (compressed next index : ℤ) : Prop :=
  if lte then next < index ∧ index ≤ compressed else compressed + 1 ≤ index ∧ index < next

/-- The first multiple that is initialized or the last of its word. -/
structure Found (getTick : ℤ → Except Report U256) (lte : Bool) (compressed next : ℤ)
    (initialized : Bool) : Prop where
  initialized_eq : initialized = decide (Initialized getTick next)
  same_word : next / 256 = firstIndex lte compressed / 256
  toward : if lte then next ≤ compressed else compressed + 1 ≤ next
  passed : ∀ index, Passed lte compressed next index → ¬ Initialized getTick index
  last : initialized = false → next % 256 = if lte then 0 else 255

variable {getTick : ℤ → Except Report U256} {c : ℤ}

lemma position_of_same_word {i j : ℤ} (h : i / 256 = j / 256) :
    position i = ((position j).1, (i % 256).toNat) := by
  rw [position, position, h]

lemma initialized_iff {i : ℤ} (h : i / 256 = c / 256) :
    Initialized getTick i ↔
      (unwrapOr 0 (getTick (position c).1)).getLsbD (i % 256).toNat = true := by
  unfold Initialized
  rw [position_of_same_word h]

lemma bitPos_lt (i : ℤ) : (i % 256).toNat < 256 := by omega

lemma masked_getLsbD_lte {i : ℤ} (hword : i / 256 = c / 256) (hle : i ≤ c) :
    (unwrapOr 0 (getTick (position c).1) &&& maskLte (c % 256).toNat).getLsbD (i % 256).toNat =
      decide (Initialized getTick i) := by
  rw [BitVec.getLsbD_and, getLsbD_maskLte (bitPos_lt c), decide_eq_true (by omega), Bool.and_true]
  rw [Bool.eq_iff_iff, decide_eq_true_iff]
  exact (initialized_iff hword).symm

lemma masked_getLsbD_gt {i : ℤ} (hword : i / 256 = c / 256) (hle : c ≤ i) :
    (unwrapOr 0 (getTick (position c).1) &&& maskGt (c % 256).toNat).getLsbD (i % 256).toNat =
      decide (Initialized getTick i) := by
  rw [BitVec.getLsbD_and, getLsbD_maskGt (bitPos_lt c) (bitPos_lt i), decide_eq_true (by omega),
    Bool.and_true]
  rw [Bool.eq_iff_iff, decide_eq_true_iff]
  exact (initialized_iff hword).symm

lemma lookup_lte (getTick : ℤ → Except Report U256) (c : ℤ) :
    ∃ next initialized, lookup getTick c true = .ok (next, initialized) ∧
      Found getTick true c next initialized := by
  unfold lookup
  rw [if_pos rfl]
  have hbit : (position c).2 = (c % 256).toNat := rfl
  simp only [hbit]
  generalize hmasked : unwrapOr 0 (getTick (position c).1) &&& maskLte (c % 256).toNat = masked
  have hmarked : ∀ i, i / 256 = c / 256 → i ≤ c →
      masked.getLsbD (i % 256).toNat = decide (Initialized getTick i) := by
    intro i hword hle
    rw [← hmasked]
    exact masked_getLsbD_lte hword hle
  by_cases hzero : masked = 0
  · rw [if_pos hzero]
    have hnone : ∀ i, i / 256 = c / 256 → i ≤ c → ¬ Initialized getTick i := by
      intro i hword hle hinit
      have := hmarked i hword hle
      rw [hzero, decide_eq_true hinit] at this
      simp at this
    refine ⟨_, _, rfl, ?_, ?_, ?_, ?_, ?_⟩
    · exact (decide_eq_false (hnone _ (by omega) (by omega))).symm
    · rw [firstIndex, if_pos rfl]
      omega
    · rw [if_pos rfl]
      omega
    · intro i hi
      rw [Passed, if_pos rfl] at hi
      exact hnone i (by omega) hi.2
    · intro _
      rw [if_pos rfl]
      omega
  · rw [if_neg hzero]
    obtain ⟨b, hb, hfound, hone, habove⟩ := mostSignificantBit_spec hzero
    have hle : b ≤ (c % 256).toNat := by
      rw [← hmasked, BitVec.getLsbD_and, getLsbD_maskLte (bitPos_lt c), Bool.and_eq_true,
        decide_eq_true_eq] at hone
      exact hone.2
    have hdiff : ((c % 256).toNat + 256 - b) % 256 = (c % 256).toNat - b := by omega
    rw [hfound]
    dsimp only [bind, Except.bind]
    rw [hdiff]
    refine ⟨_, _, rfl, ?_, ?_, ?_, ?_, ?_⟩
    · have hinit := hmarked (c - ((c % 256).toNat - b : ℕ)) (by omega) (by omega)
      rw [show ((c - ((c % 256).toNat - b : ℕ)) % 256).toNat = b by omega, hone] at hinit
      exact hinit
    · rw [firstIndex, if_pos rfl]
      omega
    · rw [if_pos rfl]
      omega
    · intro i hi hinit
      rw [Passed, if_pos rfl] at hi
      have := hmarked i (by omega) hi.2
      rw [habove _ (by omega), decide_eq_true hinit] at this
      simp at this
    · exact fun h => absurd h (by simp)

lemma lookup_gt (getTick : ℤ → Except Report U256) (c : ℤ) :
    ∃ next initialized, lookup getTick c false = .ok (next, initialized) ∧
      Found getTick false c next initialized := by
  unfold lookup
  rw [if_neg (by simp)]
  have hbit : (position (c + 1)).2 = ((c + 1) % 256).toNat := rfl
  simp only [hbit]
  generalize hmasked :
    unwrapOr 0 (getTick (position (c + 1)).1) &&& maskGt ((c + 1) % 256).toNat = masked
  have hmarked : ∀ i, i / 256 = (c + 1) / 256 → c + 1 ≤ i →
      masked.getLsbD (i % 256).toNat = decide (Initialized getTick i) := by
    intro i hword hle
    rw [← hmasked]
    exact masked_getLsbD_gt hword hle
  by_cases hzero : masked = 0
  · rw [if_pos hzero]
    have hnone : ∀ i, i / 256 = (c + 1) / 256 → c + 1 ≤ i → ¬ Initialized getTick i := by
      intro i hword hle hinit
      have := hmarked i hword hle
      rw [hzero, decide_eq_true hinit] at this
      simp at this
    refine ⟨_, _, rfl, ?_, ?_, ?_, ?_, ?_⟩
    · exact (decide_eq_false (hnone _ (by omega) (by omega))).symm
    · rw [firstIndex, if_neg (by simp)]
      omega
    · rw [if_neg (by simp)]
      omega
    · intro i hi
      rw [Passed, if_neg (by simp)] at hi
      exact hnone i (by omega) hi.1
    · intro _
      rw [if_neg (by simp)]
      omega
  · rw [if_neg hzero]
    obtain ⟨b, hb, hfound, hone, hbelow⟩ := leastSignificantBit_spec hzero
    have hle : ((c + 1) % 256).toNat ≤ b := by
      rw [← hmasked, BitVec.getLsbD_and, getLsbD_maskGt (bitPos_lt (c + 1)) hb, Bool.and_eq_true,
        decide_eq_true_eq] at hone
      exact hone.2
    have hdiff : (b + 256 - ((c + 1) % 256).toNat) % 256 = b - ((c + 1) % 256).toNat := by omega
    rw [hfound]
    dsimp only [bind, Except.bind]
    rw [hdiff]
    refine ⟨_, _, rfl, ?_, ?_, ?_, ?_, ?_⟩
    · have hinit := hmarked (c + 1 + (b - ((c + 1) % 256).toNat : ℕ)) (by omega) (by omega)
      rw [show ((c + 1 + (b - ((c + 1) % 256).toNat : ℕ)) % 256).toNat = b by omega, hone] at hinit
      exact hinit
    · rw [firstIndex, if_neg (by simp)]
      omega
    · rw [if_neg (by simp)]
      omega
    · intro i hi hinit
      rw [Passed, if_neg (by simp)] at hi
      have := hmarked i (by omega) hi.1
      rw [hbelow _ (by omega), decide_eq_true hinit] at this
      simp at this
    · exact fun h => absurd h (by simp)

/-- **The lookup.** -/
lemma lookup_spec (getTick : ℤ → Except Report U256) (c : ℤ) (lte : Bool) :
    ∃ next initialized, lookup getTick c lte = .ok (next, initialized) ∧
      Found getTick lte c next initialized := by
  cases lte with
  | true => exact lookup_lte getTick c
  | false => exact lookup_gt getTick c

lemma nextInitializedTick_spec (getTick : ℤ → Except Report U256) (tick : ℤ) {tickSpacing : ℤ}
    (h : 0 < tickSpacing) (lte : Bool) :
    ∃ next initialized,
      nextInitializedTickWithinOneWord getTick tick tickSpacing lte =
        .ok (next * tickSpacing, initialized) ∧
      Found getTick lte (tick / tickSpacing) next initialized := by
  obtain ⟨next, initialized, hlookup, hfound⟩ := lookup_spec getTick (tick / tickSpacing) lte
  refine ⟨next, initialized, ?_, hfound⟩
  rw [nextInitializedTickWithinOneWord, if_neg h.ne', compress_eq h, hlookup]
  rfl

end TickBitmap

end Kabu
