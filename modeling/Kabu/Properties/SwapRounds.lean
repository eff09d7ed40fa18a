import Mathlib.Data.Int.ConditionallyCompleteOrder
import Mathlib.Data.Int.Interval
import Mathlib.Order.Interval.Finset.Basic
import Kabu.Defi.UniswapV3Walk

/-!
# The rounds of a simulated swap end and stay in range

A pool whose state is as its contract keeps it is simulated in a bounded number of rounds: one for
each word of the bitmap from the current tick to the limit, and one for each tick that is
initialized there (`wordsAhead`, `ticksAhead`).  A round that is followed by another one has moved
past an initialized tick or past the end of a word.

In none of the rounds does anything wrap.  The price moves in one direction, the amount that remains
keeps its sign and does not grow, and the liquidity changes by exactly what the tick says.  For the
liquidity this needs that the changes at the ticks fit together: there is a liquidity for each
multiple of the spacing, of which the changes are the differences (`Consistent`).
-/

namespace Kabu

open SqrtPriceMath SwapMath TickBitmap TickMath

namespace UniswapV3PoolVirtual

namespace Setting

/-! ## Consistent states -/

/-- The change of the liquidity at a tick. -/
def netAt (v : Setting) (tick : ℤ) : ℤ := (unwrapOr 0 (v.ticksLiquidityNet tick)).toInt

/-- The active liquidity at each multiple of the spacing, as the ticks change it. -/
def Fits (v : Setting) (active : ℤ → U128) : Prop :=
  ∀ i, minTick < i * v.tickSpacing → i * v.tickSpacing < maxTick →
    ((active i).toNat : ℤ) =
      (active (i - 1)).toNat + if Initialized v.tickBitmap i then v.netAt (i * v.tickSpacing) else 0

/-- A state as the contract of the pool keeps it. -/
structure Consistent (v : Setting) (p : Position) : Prop where
  minSqrtRatio_lt : minSqrtRatio < p.sqrtPriceX96
  lt_maxSqrtRatio : p.sqrtPriceX96 < maxSqrtRatio
  tick_range : minTick ≤ p.tick ∧ p.tick < maxTick
  tick_eq : (sqrtRatio p.tick ≤ p.sqrtPriceX96.toNat ∧
      p.sqrtPriceX96.toNat < sqrtRatio (p.tick + 1)) ∨
    p.sqrtPriceX96.toNat = sqrtRatio (p.tick + 1)
  liquidity_eq : ∃ active, v.Fits active ∧ active (p.tick / v.tickSpacing) = p.liquidity

variable {v : Setting} {p p' : Position} {step : StepComputations} {active : ℤ → U128}

lemma Consistent.toOnTick (h : v.Consistent p) : OnTick p := by
  obtain ⟨habove, hbelow, ⟨hmin, hmax⟩, htick, -⟩ := h
  have hnext : sqrtRatio p.tick ≤ sqrtRatio (p.tick + 1) := by
    unfold minTick maxTick at *
    exact sqrtRatio_mono (by omega) (by omega) (by omega)
  exact ⟨hmin, hmax, by omega, by omega, BitVec.lt_def.mp habove, BitVec.lt_def.mp hbelow⟩

/-- If no tick is initialized, any liquidity will do. -/
lemma consistent_of_empty (hempty : ∀ word, unwrapOr 0 (v.tickBitmap word) = 0)
    (habove : minSqrtRatio < p.sqrtPriceX96) (hbelow : p.sqrtPriceX96 < maxSqrtRatio)
    (hrange : minTick ≤ p.tick ∧ p.tick < maxTick)
    (htick : sqrtRatio p.tick ≤ p.sqrtPriceX96.toNat ∧
      p.sqrtPriceX96.toNat < sqrtRatio (p.tick + 1)) : v.Consistent p := by
  refine ⟨habove, hbelow, hrange, Or.inl htick, fun _ => p.liquidity, fun i _ _ => ?_, rfl⟩
  rw [if_neg, add_zero]
  intro hmarked
  rw [Initialized, hempty] at hmarked
  simp at hmarked

/-- A change of the liquidity by a signed word. -/
lemma changed_eq {L L' beyond : U128} {d : I128} {e : ℤ}
    (hd : e = d.toInt ∨ e = 2 ^ 127 ∧ d.toInt = -2 ^ 127)
    (h : (if d.toInt < 0 then
        if L < -d then .error (.error "LIQUIDITY_UNDERFLOW") else .ok (L - -d)
      else .ok (L + d) : Except (Failure Report) U128) = .ok L')
    (hbeyond : (beyond.toNat : ℤ) = L.toNat + e) : L' = beyond := by
  have hL := L.isLt
  have hB := beyond.isLt
  have hdlt := d.isLt
  have hint := BitVec.toInt_eq_toNat_cond d
  refine BitVec.eq_of_toNat_eq ?_
  by_cases hneg : d.toInt < 0
  · rw [if_pos hneg] at h
    have hsize : ((-d).toNat : ℤ) = -d.toInt := by
      rw [BitVec.toNat_neg]
      rw [hint] at hneg ⊢
      split_ifs at hneg ⊢ with hsmall
      · omega
      · rw [Nat.mod_eq_of_lt (by omega)]
        omega
    by_cases hless : L < -d
    · rw [if_pos hless] at h
      simp at h
    · rw [if_neg hless] at h
      have hle := BitVec.le_def.mp (BitVec.not_lt.mp hless)
      rw [← Except.ok.inj h, BitVec.toNat_sub_of_le (BitVec.not_lt.mp hless)]
      omega
  · rw [if_neg hneg] at h
    have hsize : (d.toNat : ℤ) = d.toInt := by
      rw [hint] at hneg ⊢
      split_ifs at hneg ⊢ with hsmall
      · rfl
      · omega
    rw [← Except.ok.inj h, BitVec.toNat_add_of_lt (by omega)]
    omega

lemma neg_toInt_cases (d : I128) :
    -d.toInt = (-d).toInt ∨ -d.toInt = 2 ^ 127 ∧ (-d).toInt = -2 ^ 127 := by
  have hlt := d.isLt
  rw [BitVec.toInt_eq_toNat_cond, BitVec.toInt_eq_toNat_cond, BitVec.toNat_neg]
  by_cases hzero : d.toNat = 0
  · rw [hzero]
    decide
  · rw [Nat.mod_eq_of_lt (by omega)]
    split_ifs <;> omega

/-- Crossing a tick gives the liquidity beyond it, if this is a number of 128 bits. -/
lemma crossTick_eq {liquidity liquidity' beyond : U128} {tick : ℤ}
    (h : v.crossTick liquidity tick = .ok liquidity')
    (hbeyond : (beyond.toNat : ℤ) =
      liquidity.toNat + if v.zeroForOne then -v.netAt tick else v.netAt tick) :
    liquidity' = beyond := by
  simp only [crossTick] at h
  refine changed_eq ?_ h hbeyond
  unfold netAt
  split_ifs
  · exact neg_toInt_cases _
  · exact Or.inl rfl

/-- Between ticks the liquidity is the same. -/
lemma Fits.eq_of_passed (h : v.Fits active) (hspacing : 0 < v.tickSpacing) {lo hi : ℤ}
    (hle : lo ≤ hi) (hlo : minTick < (lo + 1) * v.tickSpacing) (hhi : hi * v.tickSpacing < maxTick)
    (hnone : ∀ i, lo < i → i ≤ hi → ¬ Initialized v.tickBitmap i) : active hi = active lo := by
  induction hi, hle using Int.leInduction with
  | base => rfl
  | succ hi hle ih =>
      have hmono : (lo + 1) * v.tickSpacing ≤ (hi + 1) * v.tickSpacing :=
        Int.mul_le_mul_of_nonneg_right (by omega) hspacing.le
      have hbelow : hi * v.tickSpacing ≤ (hi + 1) * v.tickSpacing :=
        Int.mul_le_mul_of_nonneg_right (by omega) hspacing.le
      have hchange := h (hi + 1) (by omega) hhi
      rw [if_neg (hnone (hi + 1) (by omega) le_rfl), add_sub_cancel_right, add_zero] at hchange
      rw [← ih (by omega) fun i hlo' hhi' => hnone i hlo' (by omega)]
      exact BitVec.eq_of_toNat_eq (by exact_mod_cast hchange)

lemma OnTick.tickNext_eq (hspacing : 0 < v.tickSpacing) (h : OnTick p)
    (hstep : v.nextStep p.tick = .ok step)
    (htarget : v.swapTargetSqrtRatio step = step.sqrtPriceNextX96) :
    ∃ next, Found v.tickBitmap v.zeroForOne (p.tick / v.tickSpacing) next step.initialized ∧
      step.tickNext = next * v.tickSpacing ∧ minTick < step.tickNext ∧ step.tickNext < maxTick := by
  obtain ⟨next, hfound, htick, -⟩ := nextStep_spec hspacing hstep
  have hinside := tickNext_of_target hspacing hstep htarget
  have htoward := h.tickNext hspacing hstep
  have hlow := h.minTick_le
  have hhigh := h.lt_maxTick
  refine ⟨next, hfound, ?_⟩
  cases hdir : v.zeroForOne with
  | true =>
      rw [hdir, if_pos rfl] at hinside htoward
      omega
  | false =>
      rw [hdir, if_neg (by simp)] at hinside htoward
      omega

lemma index_eq (hspacing : 0 < v.tickSpacing) {next : ℤ}
    (h : step.tickNext = next * v.tickSpacing) :
    (if v.zeroForOne then step.tickNext - 1 else step.tickNext) / v.tickSpacing =
      if v.zeroForOne then next - 1 else next := by
  rw [h]
  cases v.zeroForOne with
  | true =>
      have hprev : (next - 1) * v.tickSpacing = next * v.tickSpacing - v.tickSpacing := by
        rw [sub_mul, one_mul]
      rw [if_pos rfl, if_pos rfl, Int.ediv_eq_iff_of_pos hspacing]
      omega
  | false =>
      rw [if_neg Bool.false_ne_true, if_neg Bool.false_ne_true,
        Int.mul_ediv_cancel _ hspacing.ne']

/-- **The liquidity beyond a tick.**  It has changed by what the tick says, and it is that of the
multiple the swap goes on from. -/
lemma Fits.liquidityBeyond (h : v.Fits active) (hspacing : 0 < v.tickSpacing) (hp : OnTick p)
    (hactive : active (p.tick / v.tickSpacing) = p.liquidity)
    (hstep : v.nextStep p.tick = .ok step)
    (htarget : v.swapTargetSqrtRatio step = step.sqrtPriceNextX96) {liquidity' : U128}
    (hbeyond : v.liquidityBeyond p.liquidity step = .ok liquidity') :
    (liquidity'.toNat : ℤ) = p.liquidity.toNat + (if step.initialized then
        if v.zeroForOne then -v.netAt step.tickNext else v.netAt step.tickNext else 0) ∧
      active ((if v.zeroForOne then step.tickNext - 1 else step.tickNext) / v.tickSpacing) =
        liquidity' := by
  obtain ⟨next, hfound, htick, hmin, hmax⟩ := hp.tickNext_eq hspacing hstep htarget
  obtain ⟨hinit, -, htoward, hpassed, -⟩ := hfound
  have hle := Int.ediv_mul_le p.tick hspacing.ne'
  have hlt := Int.lt_ediv_add_one_mul_self p.tick hspacing
  have hlow := hp.minTick_le
  have hhigh := hp.lt_maxTick
  have hchange := h next (htick ▸ hmin) (htick ▸ hmax)
  rw [← htick] at hchange
  -- the liquidity on this side of the tick, and on the other
  obtain ⟨beyond, hhere, hthere⟩ : ∃ beyond,
      (beyond.toNat : ℤ) = p.liquidity.toNat + (if Initialized v.tickBitmap next then
        if v.zeroForOne then -v.netAt step.tickNext else v.netAt step.tickNext else 0) ∧
      active (if v.zeroForOne then next - 1 else next) = beyond := by
    cases hdir : v.zeroForOne with
    | true =>
        rw [hdir, if_pos rfl] at htoward
        have hsame : active (p.tick / v.tickSpacing) = active next := by
          refine h.eq_of_passed hspacing htoward ?_ (by omega) fun i hlo hhi => ?_
          · rw [add_mul]
            omega
          · exact hpassed i (by rw [hdir, Passed, if_pos rfl]; exact ⟨hlo, hhi⟩)
        refine ⟨active (next - 1), ?_, by rw [if_pos rfl]⟩
        rw [← hactive, hsame, if_pos rfl]
        split_ifs at hchange ⊢
        · omega
        · omega
    | false =>
        rw [hdir, if_neg (by simp)] at htoward
        have hsame : active (next - 1) = active (p.tick / v.tickSpacing) := by
          refine h.eq_of_passed hspacing (by omega) (by omega) ?_ fun i hlo hhi => ?_
          · rw [sub_mul]
            omega
          · refine hpassed i ?_
            rw [hdir, Passed, if_neg (by simp)]
            omega
        refine ⟨active next, ?_, by rw [if_neg Bool.false_ne_true]⟩
        rw [← hactive, ← hsame, if_neg Bool.false_ne_true]
        exact hchange
  have heq : liquidity' = beyond := by
    unfold Setting.liquidityBeyond at hbeyond
    by_cases hmarked : Initialized v.tickBitmap next
    · rw [hinit, decide_eq_true hmarked, if_pos rfl] at hbeyond
      rw [if_pos hmarked] at hhere
      exact crossTick_eq hbeyond hhere
    · rw [hinit, decide_eq_false hmarked, if_neg (by simp)] at hbeyond
      rw [if_neg hmarked, add_zero] at hhere
      rw [← Except.ok.inj hbeyond]
      exact BitVec.eq_of_toNat_eq (by exact_mod_cast hhere.symm)
  rw [heq, index_eq hspacing htick, hthere, hinit]
  refine ⟨?_, rfl⟩
  rw [hhere]
  simp only [decide_eq_true_eq]

/-! ## The number of rounds -/

/-- The words of the bitmap from a tick to the limit. -/
def wordsAhead (v : Setting) (tick : ℤ) : ℕ :=
  if v.zeroForOne then (tick / v.tickSpacing / 256 - minTick / v.tickSpacing / 256 + 1).toNat
  else (maxTick / v.tickSpacing / 256 - (tick / v.tickSpacing + 1) / 256 + 1).toNat

noncomputable def multiplesAhead (v : Setting) (tick : ℤ) : Finset ℤ :=
  if v.zeroForOne then Finset.Icc (-(maxTick / v.tickSpacing)) (tick / v.tickSpacing)
  else Finset.Icc (tick / v.tickSpacing + 1) (maxTick / v.tickSpacing)

noncomputable def ticksAhead (v : Setting) (tick : ℤ) : ℕ :=
  ((v.multiplesAhead tick).filter fun i => Initialized v.tickBitmap i).card

lemma OnTick.wordsAhead_pos (hv : v.Supported) (h : OnTick p) : 0 < v.wordsAhead p.tick := by
  have hspacing := hv.spacing_pos
  unfold wordsAhead
  split_ifs
  · have hindex := Int.ediv_le_ediv hspacing h.minTick_le
    omega
  · have hindex := Int.ediv_le_ediv hspacing (Int.le_sub_one_of_lt h.lt_maxTick)
    -- the last multiple and the one after it are in the same word
    have hword : ((maxTick - 1) / v.tickSpacing + 1) / 256 ≤ maxTick / v.tickSpacing / 256 := by
      rcases hv with ⟨-, h⟩ | ⟨-, h⟩ | ⟨-, h⟩ | ⟨-, h⟩ <;> rw [h] <;> decide
    omega

/-- **Progress.**  A round that is followed by another one leaves a word or an initialized tick
behind. -/
lemma OnTick.rounds_lt (hv : v.Supported) (h : OnTick p) (hleg : v.Leg p step p')
    (hlimit : p'.sqrtPriceX96 ≠ v.sqrtPriceLimitX96) :
    v.wordsAhead p'.tick + v.ticksAhead p'.tick < v.wordsAhead p.tick + v.ticksAhead p.tick := by
  have hspacing := hv.spacing_pos
  obtain ⟨next, hfound, htick, hmin, hmax⟩ :=
    h.tickNext_eq hspacing hleg.1 (hleg.target_eq hlimit)
  obtain ⟨hinit, hword, htoward, -, hlast⟩ := hfound
  have hindex : p'.tick / v.tickSpacing = if v.zeroForOne then next - 1 else next := by
    rw [hleg.tick_eq hlimit, index_eq hspacing htick]
  have hwords := h.wordsAhead_pos hv
  have hsub : v.multiplesAhead p'.tick ⊆ v.multiplesAhead p.tick := by
    unfold multiplesAhead
    rw [hindex]
    cases hdir : v.zeroForOne with
    | true =>
        rw [hdir, if_pos rfl] at htoward
        exact Finset.Icc_subset_Icc_right (by rw [if_pos rfl]; omega)
    | false =>
        rw [hdir, if_neg Bool.false_ne_true] at htoward
        exact Finset.Icc_subset_Icc_left (by rw [if_neg Bool.false_ne_true]; omega)
  have hmem : next ∈ v.multiplesAhead p.tick ∧ next ∉ v.multiplesAhead p'.tick := by
    have hup : next ≤ maxTick / v.tickSpacing :=
      (Int.le_ediv_iff_mul_le hspacing).mpr (htick ▸ hmax.le)
    have hdown : -next ≤ maxTick / v.tickSpacing := by
      rw [Int.le_ediv_iff_mul_le hspacing, neg_mul]
      unfold minTick maxTick at *
      omega
    unfold multiplesAhead
    rw [hindex]
    cases hdir : v.zeroForOne with
    | true =>
        rw [hdir, if_pos rfl] at htoward
        simp only [if_true, Finset.mem_Icc]
        omega
    | false =>
        rw [hdir, if_neg Bool.false_ne_true] at htoward
        simp only [Bool.false_eq_true, if_false, Finset.mem_Icc]
        omega
  unfold ticksAhead
  by_cases hmarked : Initialized v.tickBitmap next
  · -- an initialized tick is left behind, and no word comes back
    have hfewer := Finset.card_lt_card (Finset.ssubset_iff_of_subset
      (Finset.filter_subset_filter (fun i => Initialized v.tickBitmap i) hsub) |>.mpr
      ⟨next, Finset.mem_filter.mpr ⟨hmem.1, hmarked⟩,
        fun hnot => hmem.2 (Finset.mem_filter.mp hnot).1⟩)
    have hwords' : v.wordsAhead p'.tick ≤ v.wordsAhead p.tick := by
      unfold wordsAhead
      rw [hindex]
      cases hdir : v.zeroForOne with
      | true =>
          rw [hdir, if_pos rfl] at htoward
          simp only [if_true]
          omega
      | false =>
          rw [hdir, if_neg Bool.false_ne_true] at htoward
          simp only [Bool.false_eq_true, if_false]
          omega
    omega
  · -- the end of a word is left behind
    have hfewer := Finset.card_le_card
      (Finset.filter_subset_filter (fun i => Initialized v.tickBitmap i) hsub)
    have hend := hlast (hinit.trans (decide_eq_false hmarked))
    have hwords' : v.wordsAhead p'.tick < v.wordsAhead p.tick := by
      unfold wordsAhead at hwords ⊢
      rw [hindex]
      cases hdir : v.zeroForOne with
      | true =>
          rw [hdir] at hwords hend hword
          simp only [if_true, firstIndex] at hwords hend hword ⊢
          omega
      | false =>
          rw [hdir] at hwords hend hword
          simp only [Bool.false_eq_true, if_false, firstIndex] at hwords hend hword ⊢
          omega
    omega

end Setting

/-! ## Whole simulations -/

/-- The sign of what remains. -/
def Specified.sign : Specified → ℤ
  | .input => 1
  | .output => -1

/-- Nothing has wrapped in a state. -/
structure InRange (v : Setting) (specified : Specified) (amount : U256) (s : CurrentState) :
    Prop where
  remaining : 0 ≤ specified.sign * s.amountSpecifiedRemaining.toInt ∧
    specified.sign * s.amountSpecifiedRemaining.toInt ≤ amount.toNat
  calculated : s.amountCalculated.toInt =
    -(specified.sign * (specified.result s.amountCalculated).toNat)
  price : Ahead v.zeroForOne s.sqrtPriceX96.toNat v.sqrtPriceLimitX96.toNat

/-- Nothing wraps in a step, and it goes in the right direction. -/
structure StepInRange (v : Setting) (specified : Specified) (s : CurrentState)
    (step : StepComputations) (computed : ComputedStep) : Prop where
  price : Ahead v.zeroForOne s.sqrtPriceX96.toNat computed.sqrtRatioNext.toNat ∧
    Ahead v.zeroForOne computed.sqrtRatioNext.toNat v.sqrtPriceLimitX96.toNat
  paid : (computed.amountIn + computed.feeAmount).toNat =
    computed.amountIn.toNat + computed.feeAmount.toNat
  remaining : (specified.remaining s.amountSpecifiedRemaining computed).toInt =
    s.amountSpecifiedRemaining.toInt - specified.sign * specified.taken computed
  shrinks : 0 ≤ specified.sign * (specified.remaining s.amountSpecifiedRemaining computed).toInt ∧
    specified.sign * (specified.remaining s.amountSpecifiedRemaining computed).toInt ≤
      specified.sign * s.amountSpecifiedRemaining.toInt
  calculated : (specified.calculated s.amountCalculated computed).toInt =
    s.amountCalculated.toInt - specified.sign * specified.counted computed
  liquidity : computed.sqrtRatioNext = step.sqrtPriceNextX96 →
    ∀ liquidity', v.liquidityBeyond s.liquidity step = .ok liquidity' →
      (liquidity'.toNat : ℤ) = s.liquidity.toNat + if step.initialized then
        if v.zeroForOne then -v.netAt step.tickNext else v.netAt step.tickNext else 0

section Simulation

variable {v : Setting} {specified : Specified} {s s' : CurrentState} {step : StepComputations}
  {computed : ComputedStep} {active : ℤ → U128}

lemma Specified.toInt_of_left_lt {r : I256} (h : specified.left r < 2 ^ 255) :
    r.toInt = specified.sign * specified.left r := by
  cases specified with
  | input =>
      rw [sign, one_mul]
      exact toInt_of_toNat_lt h
  | output =>
      rw [sign, neg_one_mul]
      exact toInt_of_neg_toNat_le (le_of_lt h)

lemma Specified.toInt_of_soFar_le {x : I256} (h : specified.soFar x ≤ 2 ^ 247) :
    x.toInt = -(specified.sign * specified.soFar x) := by
  cases specified with
  | input =>
      rw [sign, one_mul]
      exact toInt_of_neg_toNat_le (h.trans (by decide))
  | output =>
      rw [sign, neg_one_mul, neg_neg]
      exact toInt_of_toNat_lt (lt_of_le_of_lt h (by decide))

/-- The states of the rounds: sound, with the liquidity of their multiple. -/
structure Setting.Kept (v : Setting) (specified : Specified) (active : ℤ → U128) (amount : ℕ)
    (s : CurrentState) : Prop where
  sound : v.Sound specified s
  left_le : specified.left s.amountSpecifiedRemaining ≤ amount
  active_eq : v.goesOn s = true → active (s.tick / v.tickSpacing) = s.liquidity

lemma Setting.Kept.round (hv : v.Supported) (hactive : v.Fits active) {amount : ℕ}
    (h : v.Kept specified active amount s)
    (hround : WhileLoop.Round v.goesOn (v.round specified) s s') :
    v.Kept specified active amount s' := by
  obtain ⟨hsound, hleft, hhere⟩ := h
  obtain ⟨hgo, hbody⟩ := hround
  obtain ⟨step, computed, hround⟩ := exists_roundOf hbody
  obtain ⟨hr, -⟩ := Setting.goesOn_iff.mp hgo
  have hleft' := hround.left_eq hv hr hsound.left_lt
  refine ⟨hsound.round hv hgo hround, by omega, fun hgo' => ?_⟩
  obtain ⟨hr', hlimit⟩ := Setting.goesOn_iff.mp hgo'
  have hahead := hsound.ahead hv hgo hround.nextStep_eq
  obtain ⟨hleg, -⟩ := hround.leg_of_left hv hr hsound.left_lt hahead hr'
  have htarget := hleg.target_eq hlimit
  have hmove := hleg.2
  rw [htarget] at hmove
  obtain ⟨htick, hbeyond⟩ := Setting.moveTo_tick hmove
  have := (hactive.liquidityBeyond hv.spacing_pos (hsound.onTick hgo) (hhere hgo)
    hround.nextStep_eq htarget hbeyond).2
  rw [← htick] at this
  exact this

lemma Setting.Kept.inRange {amount : U256} (h : v.Kept specified active amount.toNat s) :
    InRange v specified amount s := by
  obtain ⟨hsound, hleft, -⟩ := h
  have hrem := Specified.toInt_of_left_lt hsound.left_lt
  refine ⟨?_, Specified.toInt_of_soFar_le hsound.soFar_le, hsound.ahead_limit⟩
  rw [hrem]
  cases specified <;> simp only [Specified.sign] <;> omega

lemma Setting.Kept.stepInRange (hv : v.Supported) (hactive : v.Fits active) {amount : ℕ}
    (h : v.Kept specified active amount s) (hgo : v.goesOn s = true)
    (hstep : v.StepOf s step computed) : StepInRange v specified s step computed := by
  obtain ⟨hsound, hleft, hhere⟩ := h
  obtain ⟨hr, -⟩ := Setting.goesOn_iff.mp hgo
  have hahead := hsound.ahead hv hgo hstep.nextStep_eq
  have hbetween := hstep.next_between hv hr hsound.left_lt hahead
  have htaken := hstep.taken_le hv hr hsound.left_lt
  have hcounted := hsound.counted_lt hv hgo hstep
  have hsum := hsound.soFar_add_le hv hgo hstep
  have hrem := Specified.toInt_of_left_lt hsound.left_lt
  have hcalc := Specified.toInt_of_soFar_le hsound.soFar_le
  have hleft' := Specified.left_remaining htaken
  have hlt := hsound.left_lt
  have hrem' := Specified.toInt_of_left_lt (hleft'.trans_lt (by omega))
  have hsoFar' := Specified.soFar_calculated (hsum.trans_lt (by decide))
  have hcalc' := Specified.toInt_of_soFar_le (hsoFar'.trans_le hsum)
  rw [hleft'] at hrem'
  rw [hsoFar'] at hcalc'
  refine ⟨⟨hbetween.1, hbetween.2.trans (Setting.target_ahead_limit v step)⟩, ?_, ?_, ?_, ?_,
    fun hnext liquidity' hbeyond => ?_⟩
  · refine BitVec.toNat_add_of_lt ?_
    cases specified with
    | input => exact lt_of_le_of_lt htaken (hlt.trans (by decide))
    | output => exact hcounted.trans (by decide)
  · rw [hrem', hrem, Nat.cast_sub htaken]
    ring
  · rw [hrem', hrem, Nat.cast_sub htaken]
    cases specified <;> simp only [Specified.sign] <;> omega
  · rw [hcalc', hcalc, Nat.cast_add]
    ring
  · -- the step has arrived at the tick, so this is the target
    have htarget : v.swapTargetSqrtRatio step = step.sqrtPriceNextX96 := by
      have hthere := ((Setting.ahead_target_iff v step _).mp Ahead.rfl).1
      have hhere := hbetween.2
      rw [hnext] at hhere
      exact BitVec.eq_of_toNat_eq (hthere.antisymm hhere)
    exact (hactive.liquidityBeyond hv.spacing_pos (hsound.onTick hgo) (hhere hgo)
      hstep.nextStep_eq htarget hbeyond).1

lemma Setting.Kept.reached (hv : v.Supported) (hactive : v.Fits active) {amount : ℕ}
    (h : v.Kept specified active amount s)
    (hreached : WhileLoop.Reached v.goesOn (v.round specified) s s') :
    v.Kept specified active amount s' :=
  hreached.invariant (fun _ _ => Setting.Kept.round hv hactive) h

lemma Setting.Kept.rounds_lt (hv : v.Supported) {amount : ℕ}
    (h : v.Kept specified active amount s)
    (hround : WhileLoop.Round v.goesOn (v.round specified) s s') (hgo' : v.goesOn s' = true) :
    v.wordsAhead s'.tick + v.ticksAhead s'.tick < v.wordsAhead s.tick + v.ticksAhead s.tick := by
  obtain ⟨hgo, hbody⟩ := hround
  obtain ⟨step, computed, hround⟩ := exists_roundOf hbody
  obtain ⟨hr', hlimit⟩ := Setting.goesOn_iff.mp hgo'
  have hahead := h.sound.ahead hv hgo hround.nextStep_eq
  obtain ⟨hleg, -⟩ :=
    hround.leg_of_left hv (Setting.goesOn_iff.mp hgo).1 h.sound.left_lt hahead hr'
  have hfewer := (h.sound.onTick hgo).rounds_lt hv hleg hlimit
  exact hfewer

lemma Setting.Kept.exists_run (hv : v.Supported) (hactive : v.Fits active) {amount : ℕ}
    (h : v.Kept specified active amount s) :
    ∃ last, WhileLoop.run v.goesOn (v.round specified) (v.wordsAhead s.tick + v.ticksAhead s.tick)
      s = some last ∧ last ≠ .error .panic := by
  have hpos : ∀ s, v.Kept specified active amount s → v.goesOn s = true →
      0 < v.wordsAhead s.tick + v.ticksAhead s.tick := by
    intro s hs hgo
    have hword := (hs.sound.onTick hgo).wordsAhead_pos hv
    exact Nat.add_pos_left hword _
  have hlower : ∀ s s', v.Kept specified active amount s →
      WhileLoop.Round v.goesOn (v.round specified) s s' → v.goesOn s' = true →
      v.wordsAhead s'.tick + v.ticksAhead s'.tick < v.wordsAhead s.tick + v.ticksAhead s.tick :=
    fun s s' hs => hs.rounds_lt hv
  obtain ⟨last, hlast⟩ := WhileLoop.exists_run (fun _ _ => Setting.Kept.round hv hactive) hpos
    hlower h (fun _ => le_refl _)
  refine ⟨last, hlast, ?_⟩
  rintro rfl
  obtain ⟨s, -, -, hpanic⟩ := (WhileLoop.ends_of_run hlast).failed
  exact Setting.round_ne_panic hv hpanic

end Simulation

/-- A simulation ends after so many rounds as there are words of the bitmap and initialized ticks up
to the limit, and it stays in range. -/
structure StaysInRange [Keccak] (specified : Specified) (db : DatabaseRef) (pool : UniswapV3Pool)
    (tokenIn : Address) (amount : U256) (v : Setting) (s₀ : CurrentState) : Prop where
  returns : ∃ r, simulateSwap specified (v.wordsAhead s₀.tick + v.ticksAhead s₀.tick) db pool
    tokenIn amount = some r ∧ r ≠ .error .panic
  initial : s₀.amountSpecifiedRemaining.toInt = specified.sign * amount.toNat
  states : ∀ s, WhileLoop.Reached v.goesOn (v.round specified) s₀ s → InRange v specified amount s
  steps : ∀ s step computed, WhileLoop.Reached v.goesOn (v.round specified) s₀ s →
    v.goesOn s = true → v.StepOf s step computed → StepInRange v specified s step computed

/-- **Simulated swaps end and stay in range.** -/
theorem simulateSwap_inRange [Keccak] {db : DatabaseRef} {pool : UniswapV3Pool} {tokenIn : Address}
    {amount : U256} {p : Position}
    (hfee : pool.fee = 100 ∨ pool.fee = 500 ∨ pool.fee = 3000 ∨ pool.fee = 10000)
    (hread : readPosition db pool.address = .ok p)
    (hconsistent : (setting db pool.address pool tokenIn).Consistent p)
    (hamount : amount.toNat < 2 ^ 255) (specified : Specified) :
    StaysInRange specified db pool tokenIn amount (setting db pool.address pool tokenIn)
      (p.start specified amount) := by
  have hv := setting_supported_of_fee db tokenIn hfee
  obtain ⟨active, hactive, hhere⟩ := hconsistent.liquidity_eq
  have hleft := Setting.left_start p specified amount
  have hstart : (setting db pool.address pool tokenIn).Kept specified active amount.toNat
      (p.start specified amount) :=
    ⟨hconsistent.toOnTick.sound_start hv specified hamount, hleft.le, fun _ => hhere⟩
  refine ⟨?_, ?_, fun s hs => ?_, fun s step computed hs hgo hstep => ?_⟩
  · by_cases hzero : amount = 0
    · exact ⟨.ok 0, if_pos hzero, by simp⟩
    · obtain ⟨last, hlast, hpanic⟩ := hstart.exists_run hv hactive
      refine ⟨last.bind (finish specified), ?_, Rounds.bind_ne_error hpanic fun s _ => ?_⟩
      · rw [simulateSwap_of_ok hzero hread, hlast, Option.map_some]
      · unfold finish
        split_ifs <;> simp
  · rw [Specified.toInt_of_left_lt hstart.sound.left_lt, hleft]
  · exact (hstart.reached hv hactive hs).inRange
  · exact (hstart.reached hv hactive hs).stepInRange hv hactive hgo hstep

/-- A pool with a liquidity of `3` at the price one, and no initialized tick. -/
def shallowDb : DatabaseRef :=
  cellsDb fun cell => .ok (if cell = 0 then q96 else if cell = 4 then 3 else 0)

def shallowPool : UniswapV3Pool := ⟨1, 2, 3, 3000⟩

lemma shallow_consistent :
    letI := constKeccak
    readPosition shallowDb shallowPool.address = .ok ⟨q96, 0, 3⟩ ∧
      (setting shallowDb shallowPool.address shallowPool 2).Consistent ⟨q96, 0, 3⟩ := by
  let _ := constKeccak
  refine ⟨by decide +kernel, ?_⟩
  exact Setting.consistent_of_empty (fun _ => rfl) (by decide +kernel) (by decide +kernel)
    (by decide) (by decide +kernel)

/-- An input of `3` in the shallow pool. -/
theorem simulateSwap_inRange_of_three :
    letI := constKeccak
    StaysInRange .input shallowDb shallowPool 2 3
      (setting shallowDb shallowPool.address shallowPool 2)
      ((⟨q96, 0, 3⟩ : Position).start .input 3) :=
  let _ := constKeccak
  simulateSwap_inRange (Or.inr (Or.inr (Or.inl rfl))) shallow_consistent.1 shallow_consistent.2
    (by decide) .input

end UniswapV3PoolVirtual

end Kabu
