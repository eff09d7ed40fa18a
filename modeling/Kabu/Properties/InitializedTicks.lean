import Mathlib.Algebra.Order.Ring.Abs
import Mathlib.Algebra.Ring.Parity
import Mathlib.Data.List.Induction
import Kabu.Defi.UniswapV3Virtual

/-!
# Ticks and their bits

A pool marks a tick by flipping its bit, and a swap looks for the next tick that is marked.  On the
ticks of a pool the two agree about where the bit of a tick is, since distinct multiples have
distinct bits there (`position_injective`); farther out the words wrap around.

* `nextInitializedTick_within_word`: what is looked for is found.  The tick that is returned is the
  next one that is marked, or the last one of the word, and nothing that is marked is passed over.
  A tick is marked if it was flipped an odd number of times.
* `prefetchCentred_iff`: before a swap is simulated, the state of some words around the tick is
  loaded.  They are centred on the word that the simulation reads, except where the quotient by
  which the word is found is rounded towards zero and so leaves the word.
-/

namespace Kabu

namespace TickBitmap

/-- A tick of a pool is marked: it is a multiple of the spacing, and its bit is one. -/
def TickInitialized (getTick : ℤ → Except Report U256) (tickSpacing tick : ℤ) : Prop :=
  tickSpacing ∣ tick ∧ Initialized getTick (tick / tickSpacing)

/-- A bitmap that is kept in a map, in which no word is unreadable. -/
def wordsOf (tickBitmap : AssocMap ℤ U256) (wordPos : ℤ) : Except Report U256 :=
  .ok ((tickBitmap.lookup wordPos).getD 0)

/-- The bitmap after some flips, from the empty one. -/
def flipTicks (tickSpacing : ℤ) (ticks : List ℤ) : AssocMap ℤ U256 :=
  ticks.foldl (fun tickBitmap tick => (flipTick tickBitmap tick tickSpacing).1) ∅

/-! ## Flips -/

section Flips

variable {tickSpacing tick i j : ℤ} {tickBitmap : AssocMap ℤ U256}

/-- Near zero no two multiples have the same bit. -/
lemma position_injective (hi : |i| ≤ 887273) (hj : |j| ≤ 887273)
    (hword : (position i).1 = (position j).1) (hbit : (position i).2 = (position j).2) : i = j := by
  rw [abs_le] at hi hj
  have hword' : i / 256 = j / 256 := by
    dsimp only [position] at hword
    rwa [Int.bmod_eq_of_le (by omega) (by omega), Int.bmod_eq_of_le (by omega) (by omega)] at hword
  dsimp only [position] at hbit
  omega

lemma getLsbD_one_shiftLeft {b k : ℕ} (hb : b < 256) :
    ((1 : U256) <<< b).getLsbD k = decide (b = k) := by
  have hpow : (1 : U256) <<< b = BitVec.twoPow 256 b := rfl
  rw [hpow, BitVec.getLsbD_twoPow, decide_eq_true hb, Bool.true_and]

/-- A flip changes the bit of its tick and no other. -/
lemma initialized_flipTick (hs : 0 < tickSpacing) (hj : |j| ≤ 887273) (hi : |i| ≤ 887273) :
    Initialized (wordsOf (flipTick tickBitmap (j * tickSpacing) tickSpacing).1) i ↔
      if i = j then ¬ Initialized (wordsOf tickBitmap) i
      else Initialized (wordsOf tickBitmap) i := by
  have hmod : (j * tickSpacing).tmod tickSpacing = 0 := Int.mul_tmod_left j tickSpacing
  unfold flipTick
  rw [if_neg hs.ne', if_neg (not_not.mpr hmod), Int.mul_tdiv_cancel j hs.ne']
  unfold Initialized wordsOf
  simp only [AssocMap.lookup_insert_eq, unwrapOr]
  by_cases hword : (position i).1 = (position j).1
  · have hbit : (position j).2 < 256 := bitPos_lt j
    rw [if_pos hword, Option.getD_some, BitVec.getLsbD_xor, getLsbD_one_shiftLeft hbit, hword]
    by_cases hij : i = j
    · rw [if_pos hij, hij, decide_eq_true rfl]
      simp
    · rw [if_neg hij, decide_eq_false fun h => hij (position_injective hi hj hword h.symm)]
      simp
  · have hij : i ≠ j := by
      rintro rfl
      exact hword rfl
    rw [if_neg hword, if_neg hij]

lemma flipTick_of_not_dvd (h : ¬ tickSpacing ∣ tick) :
    (flipTick tickBitmap tick tickSpacing).1 = tickBitmap := by
  unfold flipTick
  split_ifs with hzero hmod
  · rfl
  · rfl
  · exact absurd (Int.dvd_of_tmod_eq_zero (not_not.mp hmod)) h

lemma abs_le_of_mul (hs : 0 < tickSpacing) (h : |j * tickSpacing| ≤ 887273) : |j| ≤ 887273 := by
  rw [abs_mul, abs_of_pos hs] at h
  nlinarith [abs_nonneg j]

/-- **A tick is marked if it was flipped an odd number of times.** -/
lemma tickInitialized_flipTicks (hs : 0 < tickSpacing) (htick : |tick| ≤ 887273) {ticks : List ℤ}
    (hticks : ∀ t ∈ ticks, |t| ≤ 887273) :
    TickInitialized (wordsOf (flipTicks tickSpacing ticks)) tickSpacing tick ↔
      tickSpacing ∣ tick ∧ Odd (ticks.count tick) := by
  refine and_congr_right fun hdvd => ?_
  obtain ⟨i, rfl⟩ := exists_eq_mul_left_of_dvd hdvd
  rw [Int.mul_ediv_cancel i hs.ne']
  have hi := abs_le_of_mul hs htick
  induction ticks using List.reverseRecOn with
  | nil => simp [flipTicks, Initialized, wordsOf, unwrapOr]
  | append_singleton ticks t ih =>
      have hrest : Initialized (wordsOf (flipTicks tickSpacing ticks)) i ↔
          Odd (ticks.count (i * tickSpacing)) :=
        ih fun t' ht' => hticks t' (List.mem_append_left _ ht')
      have hflip : flipTicks tickSpacing (ticks ++ [t]) =
          (flipTick (flipTicks tickSpacing ticks) t tickSpacing).1 := List.foldl_append
      rw [hflip, List.count_append, List.count_singleton]
      by_cases ht : tickSpacing ∣ t
      · obtain ⟨j, rfl⟩ := exists_eq_mul_left_of_dvd ht
        have hj := abs_le_of_mul hs (hticks _ (List.mem_append_right _ (List.mem_singleton_self _)))
        rw [initialized_flipTick hs hj hi, hrest]
        by_cases hij : i = j
        · rw [if_pos hij, hij, beq_self_eq_true, if_pos rfl, Nat.odd_add_one]
        · have hne : ¬ (j * tickSpacing == i * tickSpacing) = true := by
            rw [beq_iff_eq]
            exact fun h => hij (Int.eq_of_mul_eq_mul_right hs.ne' h).symm
          rw [if_neg hij, if_neg hne, Nat.add_zero]
      · have hne : ¬ (t == i * tickSpacing) = true := by
          rw [beq_iff_eq]
          rintro rfl
          exact ht (Dvd.intro_left i rfl)
        rw [flipTick_of_not_dvd ht, hrest, if_neg hne, Nat.add_zero]

end Flips

/-! ## Lookups -/

/-- The ticks that a lookup passes over before it comes to one. -/
def PassedTick (lte : Bool) (tick next t : ℤ) : Prop :=
  if lte then next < t ∧ t ≤ tick else tick < t ∧ t < next

/-- What a lookup is for: the next tick of the pool in the direction that is marked or the last one
of its word. -/
structure NextTick (getTick : ℤ → Except Report U256) (tickSpacing tick : ℤ) (lte : Bool)
    (next : ℤ) (initialized : Bool) : Prop where
  dvd : tickSpacing ∣ next
  /-- The tick is one of 32 bits. -/
  fits : -2 ^ 31 ≤ next ∧ next < 2 ^ 31
  toward : if lte then next ≤ tick else tick < next
  passed : ∀ t, tickSpacing ∣ t → PassedTick lte tick next t →
    ¬ TickInitialized getTick tickSpacing t
  initialized_iff : initialized = true ↔ TickInitialized getTick tickSpacing next
  same_word : next / tickSpacing / 256 = firstIndex lte (tick / tickSpacing) / 256
  last : initialized = false → next / tickSpacing % 256 = if lte then 0 else 255

section Lookups

variable {getTick : ℤ → Except Report U256} {tickSpacing tick next : ℤ} {lte initialized : Bool}

lemma Found.fits (hs : 0 < tickSpacing) (hs' : tickSpacing < 16384) (htick : |tick| ≤ 887273)
    (h : Found getTick lte (tick / tickSpacing) next initialized) :
    -2 ^ 31 ≤ next * tickSpacing ∧ next * tickSpacing < 2 ^ 31 := by
  have hword := h.same_word
  rw [abs_le] at htick
  have hdiv := Int.mul_ediv_add_emod tick tickSpacing
  have hmod := Int.emod_nonneg tick hs.ne'
  have hmod' := Int.emod_lt_of_pos tick hs
  have hnear : -256 ≤ next - tick / tickSpacing ∧ next - tick / tickSpacing ≤ 256 := by
    cases lte <;> simp only [firstIndex] at hword <;> grind
  constructor <;> nlinarith

/-- What is found among the multiples is what is looked for among the ticks. -/
lemma Found.nextTick (hs : 0 < tickSpacing) (hs' : tickSpacing < 16384) (htick : |tick| ≤ 887273)
    (h : Found getTick lte (tick / tickSpacing) next initialized) :
    NextTick getTick tickSpacing tick lte (next * tickSpacing) initialized := by
  have hnext : next * tickSpacing / tickSpacing = next := Int.mul_ediv_cancel next hs.ne'
  have hle : ∀ i, i * tickSpacing ≤ tick ↔ i ≤ tick / tickSpacing := fun i =>
    (Int.le_ediv_iff_mul_le hs).symm
  refine ⟨Dvd.intro_left next rfl, h.fits hs hs' htick, ?_, ?_, ?_, ?_, ?_⟩
  · have htoward := h.toward
    cases lte with
    | true => exact (hle next).mpr htoward
    | false =>
        exact not_le.mp fun hnot =>
          absurd ((hle next).mp hnot) (not_le_of_gt (Int.add_one_le_iff.mp htoward))
  · rintro t ht hpassed ⟨-, hinit⟩
    obtain ⟨i, rfl⟩ := exists_eq_mul_left_of_dvd ht
    rw [Int.mul_ediv_cancel i hs.ne'] at hinit
    refine h.passed i ?_ hinit
    cases lte with
    | true => exact ⟨lt_of_mul_lt_mul_right hpassed.1 hs.le, (hle i).mp hpassed.2⟩
    | false =>
        refine ⟨?_, lt_of_mul_lt_mul_right hpassed.2 hs.le⟩
        exact Int.add_one_le_iff.mpr
          (not_le.mp fun hnot => not_lt_of_ge ((hle i).mpr hnot) hpassed.1)
  · rw [h.initialized_eq, decide_eq_true_iff, TickInitialized, hnext]
    exact (and_iff_right (Dvd.intro_left next rfl)).symm
  · rw [hnext]
    exact h.same_word
  · rw [hnext]
    exact h.last

/-- **The next tick is found, and it is marked if it was flipped an odd number of times.** -/
theorem nextInitializedTick_within_word (getTick : ℤ → Except Report U256) (tickSpacing tick : ℤ)
    (lte : Bool) (hs : 1 ≤ tickSpacing) (hs' : tickSpacing < 16384) (htick : |tick| ≤ 887273) :
    (∃ next initialized,
      nextInitializedTickWithinOneWord getTick tick tickSpacing lte = .ok (next, initialized) ∧
        NextTick getTick tickSpacing tick lte next initialized) ∧
      ∀ ticks : List ℤ, (∀ t ∈ ticks, |t| ≤ 887273) →
        (TickInitialized (wordsOf (flipTicks tickSpacing ticks)) tickSpacing tick ↔
          tickSpacing ∣ tick ∧ Odd (ticks.count tick)) := by
  have hpos : 0 < tickSpacing := hs
  obtain ⟨next, initialized, hlookup, hfound⟩ := nextInitializedTick_spec getTick tick hpos lte
  exact ⟨⟨_, _, hlookup, hfound.nextTick hpos hs' htick⟩,
    fun ticks hticks => tickInitialized_flipTicks hpos htick hticks⟩

/-- Below zero the multiple of a tick is rounded down. -/
theorem nextInitializedTick_of_minus_one :
    nextInitializedTickWithinOneWord (wordsOf (flipTicks 60 [-120, -60, -60])) (-1) 60 true =
        .ok (-120, true) ∧
      ((∃ next initialized,
        nextInitializedTickWithinOneWord (wordsOf (flipTicks 60 [-120, -60, -60])) (-1) 60 true =
            .ok (next, initialized) ∧
          NextTick (wordsOf (flipTicks 60 [-120, -60, -60])) 60 (-1) true next initialized) ∧
        ∀ ticks : List ℤ, (∀ t ∈ ticks, |t| ≤ 887273) →
          (TickInitialized (wordsOf (flipTicks 60 ticks)) 60 (-1) ↔
            60 ∣ (-1 : ℤ) ∧ Odd (ticks.count (-1)))) :=
  ⟨by decide +kernel, nextInitializedTick_within_word (wordsOf (flipTicks 60 [-120, -60, -60])) 60
    (-1) true (by decide) (by decide) (by decide)⟩

end Lookups

/-! ## The words that are loaded -/

section Prefetch

variable {tick tickSpacing : ℤ}

/-- The lookup for a falling price depends on the word and on nothing else of the bitmap. -/
def ReadsWord (tick tickSpacing word : ℤ) : Prop :=
  ∀ getTick getTick' : ℤ → Except Report U256, getTick word = getTick' word →
    nextInitializedTickWithinOneWord getTick tick tickSpacing true =
      nextInitializedTickWithinOneWord getTick' tick tickSpacing true

lemma Found.initialized_of_first {getTick : ℤ → Except Report U256} {c next : ℤ}
    {initialized : Bool} (h : Found getTick true c next initialized)
    (hc : Initialized getTick c) : initialized = true := by
  have heq : next = c := by
    refine le_antisymm h.toward (not_lt.mp fun hlt => ?_)
    exact h.passed c ⟨hlt, le_rfl⟩ hc
  rw [h.initialized_eq, heq, decide_eq_true hc]

lemma readsWord_iff (hs : 0 < tickSpacing) (word : ℤ) :
    ReadsWord tick tickSpacing word ↔ word = (position (tick / tickSpacing)).1 := by
  constructor
  · intro hreads
    by_contra hne
    -- a bitmap without marks, and one in which the multiple of the tick is marked
    let unmarked : ℤ → Except Report U256 := fun _ => .ok 0
    let marked : ℤ → Except Report U256 := fun w =>
      if w = word then .ok 0 else .ok (BitVec.allOnes 256)
    have hsame := hreads unmarked marked (if_pos rfl).symm
    obtain ⟨next, init, hlookup, hfound⟩ := nextInitializedTick_spec unmarked tick hs true
    obtain ⟨next', init', hlookup', hfound'⟩ := nextInitializedTick_spec marked tick hs true
    have hc : Initialized marked (tick / tickSpacing) := by
      have hword : marked (position (tick / tickSpacing)).1 = .ok (BitVec.allOnes 256) :=
        if_neg fun h => hne h.symm
      have hbit : (position (tick / tickSpacing)).2 < 256 := bitPos_lt _
      rw [Initialized, hword, unwrapOr, BitVec.getLsbD_allOnes, decide_eq_true hbit]
    have hinit : init = false := by
      rw [hfound.initialized_eq]
      exact decide_eq_false (by simp [Initialized, unmarked, unwrapOr])
    rw [hlookup, hlookup'] at hsame
    have hflags := congrArg Prod.snd (Except.ok.inj hsame)
    rw [hfound'.initialized_of_first hc, hinit] at hflags
    exact Bool.false_ne_true hflags
  · rintro rfl getTick getTick' hword
    simp only [nextInitializedTickWithinOneWord, compress_eq hs, lookup, if_true, hword]

lemma bmod_word {w : ℤ} (h : -32768 ≤ w) (h' : w < 32768) : Int.bmod w 65536 = w :=
  Int.bmod_eq_of_le (by omega) (by omega)

/-- The quotient by which the word is found has the size of the tick at most. -/
lemma tdiv_bounds (htick : |tick| ≤ 887272) (tickSpacing : ℤ) :
    -887272 ≤ tick.tdiv tickSpacing ∧ tick.tdiv tickSpacing ≤ 887272 := by
  have hle := Int.natAbs_tdiv_le_natAbs tick tickSpacing
  rw [abs_le] at htick
  omega

lemma getTickBitmapIndex_eq (htick : |tick| ≤ 887272) :
    UniswapV3Pool.getTickBitmapIndex tick tickSpacing = tick.tdiv tickSpacing / 256 := by
  have hq := tdiv_bounds htick tickSpacing
  unfold UniswapV3Pool.getTickBitmapIndex
  generalize tick.tdiv tickSpacing = q at hq ⊢
  dsimp only
  split_ifs with hneg
  · have htdiv : (q + 1).tdiv 256 - 1 = q / 256 := by
      have hsign : Int.sign 256 = 1 := rfl
      rw [Int.tdiv_eq_ediv, hsign]
      split_ifs <;> omega
    rw [htdiv, bmod_word (by omega) (by omega)]
  · exact bmod_word (by omega) (by omega)

/-- The tick is below zero, within one spacing below the first tick of a word. -/
def BelowWord (tick tickSpacing : ℤ) : Prop :=
  ∃ k ≤ 0, 256 * k * tickSpacing - tickSpacing < tick ∧ tick < 256 * k * tickSpacing

lemma belowWord_iff (hs : 0 < tickSpacing) :
    BelowWord tick tickSpacing ↔
      ¬ (0 ≤ tick ∨ tickSpacing ∣ tick) ∧ 256 ∣ tick / tickSpacing + 1 := by
  have hdiv := Int.mul_ediv_add_emod tick tickSpacing
  have hmod := Int.emod_nonneg tick hs.ne'
  have hmod' := Int.emod_lt_of_pos tick hs
  constructor
  · rintro ⟨k, hk, hlow, hhigh⟩
    have hneg : tick < 0 := by nlinarith
    have hquotient : tick / tickSpacing = 256 * k - 1 := by
      refine le_antisymm ?_ ?_
      · exact Int.le_sub_one_iff.mpr ((Int.ediv_lt_iff_lt_mul hs).mpr hhigh)
      · refine (Int.le_ediv_iff_mul_le hs).mpr ?_
        rw [sub_mul, one_mul]
        exact hlow.le
    refine ⟨?_, ⟨k, by omega⟩⟩
    rintro (hpos | ⟨m, rfl⟩)
    · omega
    · rw [Int.mul_ediv_cancel_left m hs.ne'] at hquotient
      rw [hquotient] at hlow
      nlinarith
  · rintro ⟨hnot, k, hk⟩
    obtain ⟨hneg, hdvd⟩ := not_or.mp hnot
    have hpos : 0 < tick % tickSpacing := by
      refine lt_of_le_of_ne hmod fun h => hdvd ?_
      exact Int.dvd_of_emod_eq_zero h.symm
    have hquotient : tick / tickSpacing = 256 * k - 1 := by omega
    have hbelow : tick / tickSpacing < 0 := Int.ediv_neg_of_neg_of_pos (by omega) hs
    rw [hquotient] at hdiv
    refine ⟨k, by omega, ?_, ?_⟩ <;> nlinarith

/-- The words agree unless the tick is just below a word. -/
lemma tdiv_word_eq_iff (hs : 0 < tickSpacing) :
    tick.tdiv tickSpacing / 256 = tick / tickSpacing / 256 ↔ ¬ BelowWord tick tickSpacing := by
  rw [belowWord_iff hs, Int.tdiv_eq_ediv, Int.sign_eq_one_of_pos hs]
  generalize tick / tickSpacing = q
  split_ifs with h
  · simp [h]
  · rw [not_and, forall_prop_of_true h]
    omega

/-- The state that is loaded is that of the words around the one the simulation reads first. -/
def PrefetchCentred (tick tickSpacing : ℤ) : Prop :=
  ReadsWord tick tickSpacing (UniswapV3Pool.getTickBitmapIndex tick tickSpacing) ∧
    ∀ word, ReadsWord tick tickSpacing word →
      UniswapV3Pool.prefetchedWords tick tickSpacing =
        [-4, -3, -2, -1, 0, 1, 2, 3].map fun i => word + i

/-- **The words that are loaded are centred on the one that is read, unless the tick is below zero
and just below a word.** -/
theorem prefetchCentred_iff (tick tickSpacing : ℤ) (htick : |tick| ≤ 887272)
    (hs : 1 ≤ tickSpacing) : PrefetchCentred tick tickSpacing ↔ ¬ BelowWord tick tickSpacing := by
  have hpos : 0 < tickSpacing := hs
  have hindex : UniswapV3Pool.getTickBitmapIndex tick tickSpacing = _ := getTickBitmapIndex_eq htick
  have hquotient := tdiv_bounds htick tickSpacing
  have hword : (position (tick / tickSpacing)).1 = tick / tickSpacing / 256 := by
    have htdiv := Int.tdiv_eq_ediv (a := tick) (b := tickSpacing)
    rw [Int.sign_eq_one_of_pos hpos] at htdiv
    refine bmod_word ?_ ?_ <;> split_ifs at htdiv <;> omega
  rw [← tdiv_word_eq_iff hpos, ← hindex, ← hword, ← readsWord_iff hpos]
  refine and_iff_left_of_imp fun hreads word hreads' => ?_
  rw [(readsWord_iff hpos word).mp hreads', ← (readsWord_iff hpos _).mp hreads]
  refine List.map_congr_left fun i hi => ?_
  have hi' : -4 ≤ i ∧ i ≤ 3 := by
    revert i
    decide
  exact bmod_word (by omega) (by omega)

/-- At the tick -1 of a pool with spacing 60 the words are centred on word 0, and word -1 is the one
that is read. -/
theorem prefetch_off_centre :
    UniswapV3Pool.getTickBitmapIndex (-1) 60 = 0 ∧ (position (compress (-1) 60)).1 = -1 ∧
      ¬ PrefetchCentred (-1) 60 := by
  refine ⟨by decide, by decide, fun h => ?_⟩
  have hread := (readsWord_iff (by decide) _).mp h.1
  exact absurd hread (by decide)

/-- At the tick -61 they are centred on the word that is read. -/
theorem prefetch_centred_at : |(-61 : ℤ)| ≤ 887272 ∧ (1 : ℤ) ≤ 60 ∧ PrefetchCentred (-61) 60 := by
  refine ⟨by decide, by decide, (prefetchCentred_iff (-61) 60 (by decide) (by decide)).mpr ?_⟩
  rintro ⟨k, hk, hlow, hhigh⟩
  omega

end Prefetch

end TickBitmap

end Kabu
