import Kabu.Defi.UniswapV3Walk

/-!
# Quotes from state that cannot be read

If the price or the liquidity of a pool cannot be read the simulation fails.  A word of the bitmap
or a change of the liquidity that cannot be read counts as zero instead, and the rounds go on.  What
they find then need not be in the pool.

Whether this is ever seen depends on the way that a swap goes (`Walk`), where the cells that cannot
be read are zero.  A failed read is harmless if nothing has to be paid from there on, since then no
amount can end the swap before the limit.  Otherwise there is an amount that is quoted.
-/

namespace Kabu

open RoundedCurve SqrtPriceMath SwapMath TickBitmap TickMath

namespace UniswapV3PoolVirtual

variable {v w : Setting} {specified : Specified} {s s' : CurrentState} {p p' q : Position}
  {step : StepComputations} {computed : ComputedStep}

namespace Setting

/-! ## The reads of a round -/

/-- The word of the bitmap that is read at a tick. -/
def bitmapWord (v : Setting) (tick : ℤ) : ℤ :=
  (position (firstIndex v.zeroForOne (compress tick v.tickSpacing))).1

/-- A round makes a read that fails: of the bitmap, or of the tick at which it arrives.  With a
spacing of zero nothing is read. -/
def ReadFails (v : Setting) (s : CurrentState) : Prop :=
  (v.tickSpacing ≠ 0 ∧ ∃ e, v.tickBitmap (v.bitmapWord s.tick) = .error e) ∨
    ∃ step computed, v.StepOf s step computed ∧
      computed.sqrtRatioNext = step.sqrtPriceNextX96 ∧ step.initialized = true ∧
      ∃ e, v.ticksLiquidityNet step.tickNext = .error e

/-- Whatever can be read in one setting is read in the other. -/
structure Agrees (v w : Setting) : Prop where
  tickSpacing_eq : w.tickSpacing = v.tickSpacing
  fee_eq : w.fee = v.fee
  zeroForOne_eq : w.zeroForOne = v.zeroForOne
  tickBitmap : ∀ word x, v.tickBitmap word = .ok x → w.tickBitmap word = .ok x
  ticksLiquidityNet : ∀ tick x, v.ticksLiquidityNet tick = .ok x → w.ticksLiquidityNet tick = .ok x

lemma lookup_congr {getTick getTick' : ℤ → Except Report U256} {compressed : ℤ} {lte : Bool}
    (h : getTick' (position (firstIndex lte compressed)).1 =
      getTick (position (firstIndex lte compressed)).1) :
    lookup getTick' compressed lte = lookup getTick compressed lte := by
  unfold lookup
  cases lte with
  | true =>
      rw [firstIndex, if_pos rfl] at h
      simp only [if_true, h]
  | false =>
      rw [firstIndex, if_neg Bool.false_ne_true] at h
      simp only [Bool.false_eq_true, if_false, h]

namespace Agrees

variable (h : v.Agrees w)

include h

lemma limit_eq : w.sqrtPriceLimitX96 = v.sqrtPriceLimitX96 := by
  rw [sqrtPriceLimitX96, sqrtPriceLimitX96, h.zeroForOne_eq]

lemma goesOn_eq : w.goesOn = v.goesOn := by
  funext s
  rw [goesOn, goesOn, h.limit_eq]

lemma target_eq (step : StepComputations) :
    w.swapTargetSqrtRatio step = v.swapTargetSqrtRatio step := by
  unfold swapTargetSqrtRatio
  rw [h.limit_eq, h.zeroForOne_eq]

lemma nextStep_eq {tick : ℤ}
    (hread : v.tickSpacing ≠ 0 → ∃ x, v.tickBitmap (v.bitmapWord tick) = .ok x) :
    w.nextStep tick = v.nextStep tick := by
  unfold nextStep nextInitializedTickWithinOneWord
  rw [h.tickSpacing_eq, h.zeroForOne_eq]
  by_cases hspacing : v.tickSpacing = 0
  · rw [if_pos hspacing, if_pos hspacing]
  · obtain ⟨x, hx⟩ := hread hspacing
    rw [if_neg hspacing, if_neg hspacing]
    unfold bitmapWord at hx
    rw [lookup_congr ((h.tickBitmap _ _ hx).trans hx.symm)]

lemma moveTo_eq {price : U256}
    (hread : price = step.sqrtPriceNextX96 → step.initialized = true →
      ∃ x, v.ticksLiquidityNet step.tickNext = .ok x) :
    w.moveTo p step price = v.moveTo p step price := by
  unfold moveTo
  by_cases hnext : price = step.sqrtPriceNextX96
  · have hbeyond : w.liquidityBeyond p.liquidity step = v.liquidityBeyond p.liquidity step := by
      unfold liquidityBeyond
      by_cases hinit : step.initialized = true
      · obtain ⟨x, hx⟩ := hread hnext hinit
        simp only [crossTick, hx, h.ticksLiquidityNet _ _ hx, h.zeroForOne_eq]
      · rw [if_neg hinit, if_neg hinit]
    rw [if_pos hnext, if_pos hnext, hbeyond, h.zeroForOne_eq]
  · rw [if_neg hnext, if_neg hnext]

/-- **A round that makes no failed read** is the same with more cells that can be read. -/
lemma round_eq (hreads : ¬ v.ReadFails s) (specified : Specified) :
    w.round specified s = v.round specified s := by
  have hbitmap : v.tickSpacing ≠ 0 → ∃ x, v.tickBitmap (v.bitmapWord s.tick) = .ok x := by
    intro hspacing
    cases hword : v.tickBitmap (v.bitmapWord s.tick) with
    | error e => exact absurd (Or.inl ⟨hspacing, e, hword⟩) hreads
    | ok x => exact ⟨x, rfl⟩
  unfold round
  rw [h.nextStep_eq hbitmap, h.fee_eq]
  refine Rounds.bind_congr fun step hstep => ?_
  rw [h.target_eq]
  refine Rounds.bind_congr fun computed hcomputed => ?_
  rw [h.moveTo_eq fun hnext hinit => ?_]
  cases hnet : v.ticksLiquidityNet step.tickNext with
  | error e =>
      exact absurd (Or.inr ⟨step, computed, ⟨hstep, report_ok_iff.mp hcomputed⟩, hnext, hinit, e,
        hnet⟩) hreads
  | ok x => exact ⟨x, rfl⟩

end Agrees

/-! ## The way of a swap -/

/-- The swap goes to the end of a leg. -/
def Passes (v : Setting) (p p' : Position) : Prop :=
  p.sqrtPriceX96 ≠ 0 ∧ p.sqrtPriceX96 ≠ v.sqrtPriceLimitX96 ∧ ∃ step, v.Leg p step p'

/-- The way of every swap from a position, as far as its amount goes. -/
abbrev Walk (v : Setting) : Position → Position → Prop := Relation.ReflTransGen v.Passes

/-- At a position some amount makes a read that fails. -/
def Unread (v : Setting) (p : Position) : Prop :=
  p.sqrtPriceX96 ≠ v.sqrtPriceLimitX96 ∧
    ∃ s : CurrentState, s.position = p ∧ s.amountSpecifiedRemaining ≠ 0 ∧ v.ReadFails s

/-- The leg from a position has to be paid for. -/
def Payable (v : Setting) (p : Position) : Prop :=
  p.sqrtPriceX96 ≠ 0 ∧ p.sqrtPriceX96 ≠ v.sqrtPriceLimitX96 ∧
    ∃ step, v.nextStep p.tick = .ok step ∧
      0 < amountIn (decide (v.swapTargetSqrtRatio step ≤ p.sqrtPriceX96)) p.liquidity.toNat
        p.sqrtPriceX96.toNat (v.swapTargetSqrtRatio step).toNat

section Rounds

variable (hv : v.Supported) (hgo : v.goesOn s = true)
  (hlt : specified.left s.amountSpecifiedRemaining < 2 ^ 255)
  (hround : v.RoundOf specified s s' step computed)

include hv hgo hlt hround

lemma left_lt_of_roundOf : specified.left s'.amountSpecifiedRemaining < 2 ^ 255 := by
  have hleft := hround.left_eq hv (goesOn_iff.mp hgo).1 hlt
  omega

lemma passes_of_roundOf (hr' : s'.amountSpecifiedRemaining ≠ 0) :
    v.Passes s.position s'.position := by
  obtain ⟨hr, hlimit⟩ := goesOn_iff.mp hgo
  obtain ⟨hleg, -⟩ := hround.leg_of_left hv hr hlt (ahead_target _ _) hr'
  exact ⟨U256.toNat_pos_iff.mp (hround.toStepOf.price_pos hv.spacing_pos), hlimit, step, hleg⟩

lemma remaining_of_not_payable (hfree : ¬ v.Payable s.position) :
    s'.amountSpecifiedRemaining ≠ 0 := by
  obtain ⟨hr, hlimit⟩ := goesOn_iff.mp hgo
  have hprice := hround.toStepOf.price_pos hv.spacing_pos
  have htarget := (target_pos hv.spacing_pos hround.nextStep_eq).1
  have hin : amountIn (decide (v.swapTargetSqrtRatio step ≤ s.sqrtPriceX96)) s.liquidity.toNat
      s.sqrtPriceX96.toNat (v.swapTargetSqrtRatio step).toNat = 0 := by
    by_contra hne
    exact hfree ⟨U256.toNat_pos_iff.mp hprice, hlimit, step, hround.nextStep_eq,
      Nat.pos_of_ne_zero hne⟩
  have hneed : specified.need (decide (v.swapTargetSqrtRatio step ≤ s.sqrtPriceX96)) v.fee.toNat
      s.liquidity.toNat s.sqrtPriceX96.toNat (v.swapTargetSqrtRatio step).toNat = 0 := by
    cases specified with
    | input => rw [Specified.need, hin, feeOn, Nat.zero_mul, zero_ceilDiv, Nat.add_zero]
    | output => exact amountOut_eq_zero hprice htarget hin
  have hleft := hround.left_eq hv hr hlt
  rcases hround.toStepOf.cases hv hr hlt (ahead_target _ _) with ⟨-, hreach⟩ | ⟨hshort, -⟩
  · rw [Specified.taken_of_reachesTarget hreach, hneed, Nat.sub_zero] at hleft
    intro hzero
    rw [Specified.left_eq_zero_iff.mpr hzero] at hleft
    exact hr (Specified.left_eq_zero_iff.mp hleft.symm)
  · omega

end Rounds

section Runs

variable (hv : v.Supported) (hlt : specified.left s.amountSpecifiedRemaining < 2 ^ 255)
  (h : WhileLoop.Reached v.goesOn (v.round specified) s s')

include hv hlt h

lemma walk_of_reached :
    specified.left s'.amountSpecifiedRemaining < 2 ^ 255 ∧
      (v.goesOn s' = true → v.Walk s.position s'.position) := by
  induction h with
  | refl => exact ⟨hlt, fun _ => .refl⟩
  | tail _ hround ih =>
      obtain ⟨hlt', hwalk⟩ := ih
      obtain ⟨step, computed, hof⟩ := exists_roundOf hround.2
      refine ⟨left_lt_of_roundOf hv hround.1 hlt' hof, fun hgo => ?_⟩
      exact (hwalk hround.1).tail
        (passes_of_roundOf hv hround.1 hlt' hof (goesOn_iff.mp hgo).1)

lemma remaining_of_reached (hr : s.amountSpecifiedRemaining ≠ 0)
    (hfree : ∀ q, v.Walk s.position q → ¬ v.Payable q) :
    s'.amountSpecifiedRemaining ≠ 0 := by
  induction h with
  | refl => exact hr
  | tail hreached hround _ =>
      obtain ⟨hlt', hwalk⟩ := walk_of_reached hv hlt hreached
      obtain ⟨step, computed, hof⟩ := exists_roundOf hround.2
      exact remaining_of_not_payable hv hround.1 hlt' hof (hfree _ (hwalk hround.1))

end Runs

lemma exists_run (hv : v.Supported) (hlt : specified.left s.amountSpecifiedRemaining < 2 ^ 255) :
    ∃ r, WhileLoop.run v.goesOn (v.round specified) (legsLeft v.zeroForOne s.tick) s = some r := by
  have hinv : ∀ s s', specified.left s.amountSpecifiedRemaining < 2 ^ 255 →
      WhileLoop.Round v.goesOn (v.round specified) s s' →
      specified.left s'.amountSpecifiedRemaining < 2 ^ 255 := by
    intro s s' hs hround
    obtain ⟨step, computed, hof⟩ := exists_roundOf hround.2
    exact left_lt_of_roundOf hv hround.1 hs hof
  have hlower : ∀ s s', specified.left s.amountSpecifiedRemaining < 2 ^ 255 →
      WhileLoop.Round v.goesOn (v.round specified) s s' → v.goesOn s' = true →
      legsLeft v.zeroForOne s'.tick < legsLeft v.zeroForOne s.tick := by
    intro s s' hs hround hgo'
    obtain ⟨step, computed, hof⟩ := exists_roundOf hround.2
    obtain ⟨hr', hlimit⟩ := goesOn_iff.mp hgo'
    obtain ⟨-, -, step', hleg⟩ := passes_of_roundOf hv hround.1 hs hof hr'
    exact hleg.legsLeft_lt hv.spacing_pos hlimit
  exact WhileLoop.exists_run hinv (fun s _ _ => legsLeft_pos v.zeroForOne s.tick) hlower hlt
    (fun _ => le_refl _)

/-! ## Amounts of `2 ^ 255` and more -/

section Large

variable (hv : v.Supported) (hprice : s.sqrtPriceX96.toNat < 2 ^ 160)

include hv hprice

lemma StepOf.next_lt (h : v.StepOf s step computed) : computed.sqrtRatioNext.toNat < 2 ^ 160 := by
  have hf := hv.fee_le
  obtain ⟨htpos, htlt⟩ := target_pos hv.spacing_pos h.nextStep_eq
  have hbetween := computeSwapStep_between (h.price_pos hv.spacing_pos) htpos (by omega)
    h.computed_eq
  exact lt_of_le_of_lt hbetween.2 (max_lt hprice htlt)

/-- An amount with the wrong sign is taken for one of the other kind, of which a step takes
little. -/
lemma StepOf.taken_lt (h : v.StepOf s step computed)
    (hlarge : 2 ^ 255 ≤ specified.left s.amountSpecifiedRemaining) :
    specified.taken computed < 2 ^ 225 := by
  have hf := hv.fee_le
  have hpos := h.price_pos hv.spacing_pos
  obtain ⟨htpos, htlt⟩ := target_pos hv.spacing_pos h.nextStep_eq
  have hnext := h.next_lt hv hprice
  have hL := s.liquidity.isLt
  have hneed : ∀ zeroForOne, ∀ q, 0 < q → q < 2 ^ 160 → specified.need zeroForOne v.fee.toNat
      s.liquidity.toNat s.sqrtPriceX96.toNat q < 2 ^ 225 := fun zeroForOne q hq hq' =>
    Specified.need_lt (by omega) hL hpos hq hprice hq'
  by_cases hin : 0 ≤ s.amountSpecifiedRemaining.toInt
  · rcases computeSwapStep_input hpos htpos (by omega) hin h.computed_eq with
      ⟨-, hreach⟩ | ⟨-, hstops⟩
    · rw [Specified.taken_of_reachesTarget hreach]
      exact hneed _ _ htpos htlt
    · cases specified with
      | input =>
          have hsmall := toNat_lt_of_nonneg hin
          rw [Specified.left] at hlarge
          omega
      | output =>
          rw [Specified.taken, hstops.amountOut_eq]
          exact hneed _ _ hstops.next_pos hnext
  · rcases computeSwapStep_output hpos htpos (by omega) hin h.computed_eq with
      ⟨-, hreach⟩ | ⟨hshort, hstops⟩
    · rw [Specified.taken_of_reachesTarget hreach]
      exact hneed _ _ htpos htlt
    · cases specified with
      | input =>
          have hcost := hneed (decide (v.swapTargetSqrtRatio step ≤ s.sqrtPriceX96)) _
            hstops.next_pos hnext
          rw [Specified.need, ← hstops.amountIn_eq] at hcost
          rw [Specified.taken, hstops.fee_eq]
          exact hcost
      | output =>
          rw [Specified.taken, hstops.amountOut_eq]
          exact hshort.trans (hneed _ _ htpos htlt)

end Large

/-- So much is left that the legs up to the limit do not use it up. -/
structure Endless (v : Setting) (specified : Specified) (s : CurrentState) : Prop where
  price_lt : s.sqrtPriceX96.toNat < 2 ^ 160
  left_ge : 2 ^ 254 ≤ specified.left s.amountSpecifiedRemaining
  room : specified.left s.amountSpecifiedRemaining < 2 ^ 255 → v.goesOn s = true →
    2 ^ 254 + 2 ^ 225 * legsLeft v.zeroForOne s.tick ≤ specified.left s.amountSpecifiedRemaining

lemma Endless.round (hv : v.Supported) (h : v.Endless specified s) (hgo : v.goesOn s = true)
    (hround : v.RoundOf specified s s' step computed) : v.Endless specified s' := by
  have hf := hv.fee_le
  obtain ⟨hprice, hge, hroom⟩ := h
  obtain ⟨hr, -⟩ := goesOn_iff.mp hgo
  have hprice' : s'.sqrtPriceX96.toNat < 2 ^ 160 :=
    hround.price_eq ▸ hround.toStepOf.next_lt hv hprice
  rcases lt_or_ge (specified.left s.amountSpecifiedRemaining) (2 ^ 255) with hlt | hlarge
  · -- the amount has its sign, and the leg is completed
    have hroom := hroom hlt hgo
    have hlegs := legsLeft_pos v.zeroForOne s.tick
    obtain ⟨htpos, htlt⟩ := target_pos hv.spacing_pos hround.nextStep_eq
    have hneed : specified.need (decide (v.swapTargetSqrtRatio step ≤ s.sqrtPriceX96)) v.fee.toNat
        s.liquidity.toNat s.sqrtPriceX96.toNat (v.swapTargetSqrtRatio step).toNat < 2 ^ 225 :=
      Specified.need_lt (by omega) s.liquidity.isLt (hround.toStepOf.price_pos hv.spacing_pos) htpos
        hprice htlt
    have hleft := hround.left_eq hv hr hlt
    rcases hround.toStepOf.cases hv hr hlt (ahead_target _ _) with ⟨-, hreach⟩ | ⟨hshort, -⟩
    · rw [Specified.taken_of_reachesTarget hreach] at hleft
      refine ⟨hprice', by omega, fun _ hgo' => ?_⟩
      obtain ⟨hr', hlimit⟩ := goesOn_iff.mp hgo'
      obtain ⟨hleg, -⟩ := hround.leg_of_left hv hr hlt (ahead_target _ _) hr'
      have hfewer : legsLeft v.zeroForOne s'.tick < legsLeft v.zeroForOne s.tick :=
        hleg.legsLeft_lt hv.spacing_pos hlimit
      omega
    · omega
  · have htaken := hround.toStepOf.taken_lt hv hprice hlarge
    have hleft : specified.left s'.amountSpecifiedRemaining =
        specified.left s.amountSpecifiedRemaining - specified.taken computed :=
      hround.remaining_eq ▸ Specified.left_remaining (by omega)
    refine ⟨hprice', by omega, fun _ _ => ?_⟩
    have hlegs := legsLeft_lt v.zeroForOne s'.tick
    omega

lemma Endless.reached (hv : v.Supported) (h : v.Endless specified s)
    (hreached : WhileLoop.Reached v.goesOn (v.round specified) s s') : v.Endless specified s' := by
  refine hreached.invariant (fun s s' hs hround => ?_) h
  obtain ⟨step, computed, hof⟩ := exists_roundOf hround.2
  exact hs.round hv hround.1 hof

/-! ## Amounts that are quoted -/

lemma goesOn_of_left (hlimit : s.position.sqrtPriceX96 ≠ v.sqrtPriceLimitX96)
    (hpos : 0 < specified.left s.amountSpecifiedRemaining) : v.goesOn s = true :=
  goesOn_iff.mpr ⟨fun hzero => hpos.ne' (Specified.left_eq_zero_iff.mpr hzero), hlimit⟩

/-- What has to come in for a leg. -/
def legCost (v : Setting) (p : Position) (step : StepComputations) : ℕ :=
  Specified.need .input (decide (v.swapTargetSqrtRatio step ≤ p.sqrtPriceX96)) v.fee.toNat
    p.liquidity.toNat p.sqrtPriceX96.toNat (v.swapTargetSqrtRatio step).toNat

lemma legCost_lt (hv : v.Supported) (hstep : v.nextStep p.tick = .ok step)
    (hpos : 0 < p.sqrtPriceX96.toNat) (hprice : p.sqrtPriceX96.toNat < 2 ^ 160) :
    v.legCost p step < 2 ^ 225 := by
  have hf := hv.fee_le
  obtain ⟨htpos, htlt⟩ := target_pos hv.spacing_pos hstep
  exact Specified.need_lt (by omega) p.liquidity.isLt hpos htpos hprice htlt

lemma round_of_stepOf (specified : Specified) (hstep : v.StepOf s step computed)
    (hmove : v.moveTo s.position step computed.sqrtRatioNext = .ok p') :
    ∃ s', v.round specified s = .ok s' ∧ s'.position = p' ∧
      s'.amountSpecifiedRemaining = specified.remaining s.amountSpecifiedRemaining computed := by
  refine ⟨⟨specified.remaining s.amountSpecifiedRemaining computed,
    specified.calculated s.amountCalculated computed, p'.sqrtPriceX96, p'.tick, p'.liquidity⟩,
    ?_, rfl, rfl⟩
  exact Rounds.bind_ok_iff.mpr ⟨step, hstep.nextStep_eq, Rounds.bind_ok_iff.mpr
    ⟨computed, report_ok_iff.mpr hstep.computed_eq, Rounds.bind_ok_iff.mpr ⟨p', hmove, rfl⟩⟩⟩

lemma exists_round_of_short (hv : v.Supported) (hgo : v.goesOn s = true)
    (hlt : specified.left s.amountSpecifiedRemaining < 2 ^ 255) (hstep : v.StepOf s step computed)
    (hshort : computed.sqrtRatioNext ≠ v.swapTargetSqrtRatio step)
    (hmove : v.moveTo s.position step computed.sqrtRatioNext = .ok p') :
    ∃ s', WhileLoop.Round v.goesOn (v.round specified) s s' ∧
      s'.amountSpecifiedRemaining = 0 := by
  obtain ⟨s', hround, -, hrem⟩ := round_of_stepOf specified hstep hmove
  refine ⟨s', ⟨hgo, hround⟩, ?_⟩
  rcases hstep.cases hv (goesOn_iff.mp hgo).1 hlt (ahead_target _ _) with ⟨-, hreach⟩ | ⟨-, hstops⟩
  · exact absurd hreach.next_eq hshort
  · rw [← Specified.left_eq_zero_iff, hrem, Specified.left_remaining hstops.taken_eq.le,
      hstops.taken_eq, Nat.sub_self]

section Complete

variable (hv : v.Supported) (hgo : v.goesOn s = true) (hpos : 0 < s.sqrtPriceX96.toNat)
  (hprice : s.sqrtPriceX96.toNat < 2 ^ 160)
  (hlt : Specified.left .input s.amountSpecifiedRemaining < 2 ^ 255)

include hv hgo hpos hprice hlt

lemma exists_round_of_leg (hleg : v.Leg s.position step p')
    (hcost : v.legCost s.position step ≤ Specified.left .input s.amountSpecifiedRemaining) :
    ∃ s' computed, v.StepOf s step computed ∧
      computed.sqrtRatioNext = v.swapTargetSqrtRatio step ∧
      WhileLoop.Round v.goesOn (v.round .input) s s' ∧ s'.position = p' ∧
      Specified.left .input s'.amountSpecifiedRemaining =
        Specified.left .input s.amountSpecifiedRemaining - v.legCost s.position step := by
  have hf := hv.fee_le
  obtain ⟨htpos, htlt⟩ := target_pos hv.spacing_pos hleg.1
  have hL := s.liquidity.isLt
  have hin : 0 ≤ s.amountSpecifiedRemaining.toInt :=
    Specified.toInt_of_toNat_lt hlt ▸ Int.natCast_nonneg _
  have hamountIn : amountIn (decide (v.swapTargetSqrtRatio step ≤ s.sqrtPriceX96))
      s.liquidity.toNat s.sqrtPriceX96.toNat (v.swapTargetSqrtRatio step).toNat < 2 ^ 224 :=
    Specified.amountIn_lt hL hpos htpos hprice htlt
  have hamountOut : amountOut (decide (v.swapTargetSqrtRatio step ≤ s.sqrtPriceX96))
      s.liquidity.toNat s.sqrtPriceX96.toNat (v.swapTargetSqrtRatio step).toNat < 2 ^ 224 :=
    Specified.amountOut_lt hL hpos htpos hprice htlt
  have hfee := Specified.feeOn_le (f := v.fee.toNat) (by omega)
    (amountIn (decide (v.swapTargetSqrtRatio step ≤ s.sqrtPriceX96)) s.liquidity.toNat
      s.sqrtPriceX96.toNat (v.swapTargetSqrtRatio step).toNat)
  have henough : amountIn (decide (v.swapTargetSqrtRatio step ≤ s.sqrtPriceX96))
      s.liquidity.toNat s.sqrtPriceX96.toNat (v.swapTargetSqrtRatio step).toNat ≤
        s.amountSpecifiedRemaining.toNat * (1000000 - v.fee.toNat) / 1000000 :=
    (add_fee_le_iff (by omega)).mp hcost
  obtain ⟨computed, hcomputed⟩ := exists_computeSwapStep_of_enough hpos htpos
    (show v.fee.toNat < 1000000 by omega) (by omega) hin (by omega) (by omega) henough
  have hstep : v.StepOf s step computed := ⟨hleg.1, hcomputed⟩
  rcases hstep.cases hv (goesOn_iff.mp hgo).1 hlt (ahead_target _ _) with
    ⟨-, hreach⟩ | ⟨hshort, -⟩
  · have hmove := hleg.2
    rw [← hreach.next_eq] at hmove
    obtain ⟨s', hround, hposition, hrem⟩ := round_of_stepOf .input hstep hmove
    refine ⟨s', computed, hstep, hreach.next_eq, ⟨hgo, hround⟩, hposition, ?_⟩
    have htaken : Specified.taken .input computed = v.legCost s.position step :=
      Specified.taken_of_reachesTarget hreach
    rw [hrem, Specified.left_remaining (by omega), htaken]
  · exact absurd hcost (not_le_of_gt hshort)

end Complete

lemma walk_price_lt (hv : v.Supported) (h : v.Walk p q) (hprice : p.sqrtPriceX96.toNat < 2 ^ 160) :
    q.sqrtPriceX96.toNat < 2 ^ 160 := by
  rcases h.cases_tail with rfl | ⟨p', -, -, -, step, hleg⟩
  · exact hprice
  · rw [hleg.price_eq]
    exact (target_pos hv.spacing_pos hleg.1).2

/-- **Every position on the way is reached,** with whatever is to be left there, by an input. -/
lemma exists_cost_of_walk (hv : v.Supported) (h : v.Walk p q)
    (hlimit : q.sqrtPriceX96 ≠ v.sqrtPriceLimitX96) (hprice : p.sqrtPriceX96.toNat < 2 ^ 160) :
    ∃ cost, cost ≤ 2 ^ 225 * legsLeft v.zeroForOne p.tick ∧
      ∀ (s : CurrentState) (a : ℕ), s.position = p →
        Specified.left .input s.amountSpecifiedRemaining = cost + a → 0 < a → cost + a < 2 ^ 255 →
        ∃ s', WhileLoop.Reached v.goesOn (v.round .input) s s' ∧ s'.position = q ∧
          Specified.left .input s'.amountSpecifiedRemaining = a := by
  induction h using Relation.ReflTransGen.head_induction_on with
  | refl =>
      refine ⟨0, Nat.zero_le _, fun s a hs hleft _ _ => ⟨s, .refl, hs, ?_⟩⟩
      rw [hleft, Nat.zero_add]
  | @head p p₁ hpass hrest ih =>
      obtain ⟨hne, hon, step, hleg⟩ := hpass
      have hpos := U256.toNat_pos_iff.mpr hne
      have hprice₁ : p₁.sqrtPriceX96.toNat < 2 ^ 160 :=
        hleg.price_eq ▸ (target_pos hv.spacing_pos hleg.1).2
      have hlimit₁ : p₁.sqrtPriceX96 ≠ v.sqrtPriceLimitX96 := by
        rcases hrest.cases_head with rfl | ⟨_, hpass, -⟩
        · exact hlimit
        · exact hpass.2.1
      obtain ⟨cost, hcost, hreach⟩ := ih hprice₁
      have hfewer := hleg.legsLeft_lt hv.spacing_pos hlimit₁
      have hsmall := legCost_lt hv hleg.1 hpos hprice
      refine ⟨v.legCost p step + cost, by omega, fun s a hs hleft ha hsum => ?_⟩
      subst hs
      have hgo : v.goesOn s = true := goesOn_of_left hon (show 0 < Specified.left .input _ by omega)
      obtain ⟨s₁, -, -, -, hround, hs₁, hleft₁⟩ :=
        exists_round_of_leg hv hgo hpos hprice (by omega) hleg (by omega)
      obtain ⟨s', hreached, hs', hleft'⟩ := hreach s₁ a hs₁ (by omega) ha (by omega)
      exact ⟨s', .head hround hreached, hs', hleft'⟩

lemma exists_tick_of_limit (v : Setting) :
    ∃ tick, getTickAtSqrtRatio v.sqrtPriceLimitX96 = .ok tick := by
  unfold sqrtPriceLimitX96
  cases v.zeroForOne with
  | true => exact ⟨-887272, by decide +kernel⟩
  | false => exact ⟨887271, by decide +kernel⟩

/-- On a leg that has to be paid for a swap can end: with one unit, which does not move the price,
or at the limit. -/
lemma exists_last_round (hv : v.Supported) (hpay : v.Payable q)
    (hprice : q.sqrtPriceX96.toNat < 2 ^ 160) :
    ∃ a, 0 < a ∧ a < 2 ^ 225 ∧ ∀ s : CurrentState, s.position = q →
      Specified.left .input s.amountSpecifiedRemaining = a →
      ∃ s', WhileLoop.Round v.goesOn (v.round .input) s s' ∧ s'.amountSpecifiedRemaining = 0 := by
  have hf := hv.fee_le
  have hf' := hv.fee_pos
  obtain ⟨hne, hlimit, step, hstep, hcost⟩ := hpay
  have hpos := U256.toNat_pos_iff.mpr hne
  obtain ⟨htpos, htlt⟩ := target_pos hv.spacing_pos hstep
  have hmoves : v.swapTargetSqrtRatio step ≠ q.sqrtPriceX96 := by
    intro heq
    rw [heq, amountIn_self] at hcost
    exact absurd hcost (Nat.lt_irrefl 0)
  by_cases htarget : v.swapTargetSqrtRatio step = step.sqrtPriceNextX96
  · refine ⟨1, Nat.one_pos, by decide, fun s hs hleft => ?_⟩
    subst hs
    have hgo := goesOn_of_left hlimit (Nat.one_pos.trans_eq hleft.symm)
    have hone : s.amountSpecifiedRemaining = 1 := BitVec.eq_of_toNat_eq hleft
    have hamountIn : amountIn (decide (v.swapTargetSqrtRatio step ≤ s.sqrtPriceX96))
        s.liquidity.toNat s.sqrtPriceX96.toNat (v.swapTargetSqrtRatio step).toNat < 2 ^ 224 :=
      Specified.amountIn_lt s.liquidity.isLt hpos htpos hprice htlt
    obtain ⟨computed, hcomputed, hnext⟩ := exists_computeSwapStep_of_one hpos htpos
      (show v.fee.toNat < 1000000 by omega) (hamountIn.trans (by decide)) hprice hf' hcost
    have hof : v.StepOf s step computed := ⟨hstep, by rw [hone]; exact hcomputed⟩
    have hmove : v.moveTo s.position step computed.sqrtRatioNext = .ok s.position := by
      rw [hnext, moveTo, if_neg (htarget ▸ hmoves.symm), if_neg (not_not.mpr rfl)]
    refine exists_round_of_short hv hgo (hleft.trans_lt (by decide)) hof ?_ hmove
    rw [hnext]
    exact hmoves.symm
  · have hend := (target_eq_or v step).resolve_left htarget
    obtain ⟨tick, htick⟩ := exists_tick_of_limit v
    have hleg : v.Leg q step ⟨v.swapTargetSqrtRatio step, tick, q.liquidity⟩ := by
      refine ⟨hstep, ?_⟩
      rw [moveTo, if_neg htarget, if_pos hmoves]
      rw [← hend] at htick
      exact Rounds.bind_ok_iff.mpr ⟨tick, report_ok_iff.mpr htick, rfl⟩
    have hpaid : 0 < v.legCost q step := Nat.add_pos_left hcost _
    refine ⟨v.legCost q step, hpaid, legCost_lt hv hstep hpos hprice, fun s hs hleft => ?_⟩
    subst hs
    have hgo := goesOn_of_left hlimit (hpaid.trans_eq hleft.symm)
    have hsmall := legCost_lt hv hstep hpos hprice
    obtain ⟨s', -, -, -, hround, -, hleft'⟩ :=
      exists_round_of_leg hv hgo hpos hprice (by omega) hleg hleft.ge
    refine ⟨s', hround, Specified.left_eq_zero_iff.mp (hleft'.trans ?_)⟩
    rw [hleft, Nat.sub_self]

/-- A change of the liquidity that cannot be read never fails. -/
lemma exists_moveTo_of_unread (hinit : step.initialized = true)
    (hnet : ∃ e, v.ticksLiquidityNet step.tickNext = .error e) (p : Position) :
    ∃ p', v.moveTo p step step.sqrtPriceNextX96 = .ok p' := by
  obtain ⟨e, he⟩ := hnet
  have hnone : (if v.zeroForOne then -(0 : I128) else 0) = 0 := by
    split_ifs
    · rfl
    · rfl
  have hcross : v.liquidityBeyond p.liquidity step = .ok (p.liquidity + 0) := by
    have hnonneg : ¬ (0 : I128).toInt < 0 := by decide
    simp only [liquidityBeyond, hinit, if_true, crossTick, he, unwrapOr, hnone, if_neg hnonneg]
  rw [moveTo, if_pos rfl, hcross]
  exact ⟨_, rfl⟩

/-- Only the first position can be beyond the limit. -/
lemma eq_or_ahead_of_walk (h : v.Walk p q) :
    q = p ∨ Ahead v.zeroForOne q.sqrtPriceX96.toNat v.sqrtPriceLimitX96.toNat := by
  rcases h.cases_tail with rfl | ⟨p', -, -, -, step, hleg⟩
  · exact Or.inl rfl
  · right
    rw [hleg.price_eq]
    exact target_ahead_limit v step

/-- From a price that is not beyond the limit, a step that arrives at a tick has gone all the
way. -/
lemma StepOf.target_eq (hv : v.Supported) (h : v.StepOf s step computed)
    (hahead : Ahead v.zeroForOne s.sqrtPriceX96.toNat v.sqrtPriceLimitX96.toNat)
    (hnext : computed.sqrtRatioNext = step.sqrtPriceNextX96) :
    v.swapTargetSqrtRatio step = step.sqrtPriceNextX96 := by
  have hf := hv.fee_le
  obtain ⟨hlow, hhigh⟩ := computeSwapStep_between (h.price_pos hv.spacing_pos)
    (target_pos hv.spacing_pos h.nextStep_eq).1 (by omega) h.computed_eq
  have hnearer := ((ahead_target_iff v step _).mp Ahead.rfl).1
  rcases target_eq_or v step with htarget | htarget
  · exact htarget
  · rw [htarget] at hlow hhigh hnearer
    rw [hnext] at hlow hhigh
    refine htarget.trans (BitVec.eq_of_toNat_eq (hnearer.antisymm ?_))
    cases hdir : v.zeroForOne with
    | true =>
        rw [hdir, ahead_true] at hahead
        rw [ahead_true]
        exact (le_min hahead le_rfl).trans hlow
    | false =>
        rw [hdir, ahead_false] at hahead
        rw [ahead_false]
        exact hhigh.trans (max_le hahead le_rfl)

/-- What remains in a step that stops on the way is an amount that can be given. -/
lemma StepOf.exists_initial (hv : v.Supported) (hprice : s.sqrtPriceX96.toNat < 2 ^ 160)
    (h : v.StepOf s step computed)
    (hshort : computed.sqrtRatioNext ≠ v.swapTargetSqrtRatio step) :
    ∃ (specified : Specified) (amount : U256),
      specified.initial amount = s.amountSpecifiedRemaining ∧ amount.toNat < 2 ^ 255 := by
  have hf := hv.fee_le
  have hpos := h.price_pos hv.spacing_pos
  obtain ⟨htpos, htlt⟩ := target_pos hv.spacing_pos h.nextStep_eq
  by_cases hin : 0 ≤ s.amountSpecifiedRemaining.toInt
  · exact ⟨.input, s.amountSpecifiedRemaining, rfl, toNat_lt_of_nonneg hin⟩
  · refine ⟨.output, -s.amountSpecifiedRemaining, BitVec.neg_neg, ?_⟩
    rcases computeSwapStep_output hpos htpos (by omega) hin h.computed_eq with
      ⟨-, hreach⟩ | ⟨hless, -⟩
    · exact absurd hreach.next_eq hshort
    · have hsmall : amountOut (decide (v.swapTargetSqrtRatio step ≤ s.sqrtPriceX96))
          s.liquidity.toNat s.sqrtPriceX96.toNat (v.swapTargetSqrtRatio step).toNat < 2 ^ 224 :=
        Specified.amountOut_lt s.liquidity.isLt hpos htpos hprice htlt
      omega

/-- A loop from a position makes a failed read and ends with nothing left. -/
def QuotesUnread (v : Setting) (specified : Specified) (s : CurrentState) : Prop :=
  ∃ t last, WhileLoop.Reached v.goesOn (v.round specified) s t ∧ v.goesOn t = true ∧
    v.ReadFails t ∧ WhileLoop.Reached v.goesOn (v.round specified) s last ∧
    last.amountSpecifiedRemaining = 0

/-- An input leads to a position on the way and is used up from there. -/
lemma exists_quotesUnread_of_input (hv : v.Supported) (hwalk : v.Walk p q)
    (hprice : p.sqrtPriceX96.toNat < 2 ^ 160) (hlimit : q.sqrtPriceX96 ≠ v.sqrtPriceLimitX96)
    {a : ℕ} (ha : 0 < a) (ha' : a ≤ 2 ^ 247)
    (h : ∀ s : CurrentState, s.position = q →
      Specified.left .input s.amountSpecifiedRemaining = a → v.goesOn s = true →
      v.ReadFails s ∧ ∃ last, WhileLoop.Reached v.goesOn (v.round .input) s last ∧
        last.amountSpecifiedRemaining = 0) :
    ∃ amount : U256, amount ≠ 0 ∧ v.QuotesUnread .input (p.start .input amount) := by
  obtain ⟨cost, hcost, hreach⟩ := exists_cost_of_walk hv hwalk hlimit hprice
  have hlegs := legsLeft_lt v.zeroForOne p.tick
  obtain ⟨amount, hamount⟩ : ∃ amount : U256, amount.toNat = cost + a :=
    U256.exists_toNat_eq (by omega)
  have hleft := left_start p .input amount
  obtain ⟨t, hreached, ht, hleft'⟩ :=
    hreach (p.start .input amount) a rfl (hleft.trans hamount) ha (by omega)
  have hgo : v.goesOn t = true := goesOn_of_left (ht ▸ hlimit) (ha.trans_eq hleft'.symm)
  obtain ⟨hfails, last, hlast, hzero⟩ := h t ht hleft' hgo
  refine ⟨amount, U256.toNat_pos_iff.mp (by omega), t, last, hreached, hgo, hfails,
    hreached.trans hlast, hzero⟩

section Quotes

variable {m : Position} (hv : v.Supported) (hprice : p.sqrtPriceX96.toNat < 2 ^ 160)

include hv hprice

/-- A walk from a position to a leg that has to be paid for can be used up by an input. -/
lemma exists_input_of_walk (hwalk : v.Walk p m) (hpay : v.Payable m) :
    ∃ a, 0 < a ∧ a ≤ 2 ^ 246 + 2 ^ 225 ∧ ∀ s : CurrentState, s.position = p →
      Specified.left .input s.amountSpecifiedRemaining = a →
      ∃ last, WhileLoop.Reached v.goesOn (v.round .input) s last ∧
        last.amountSpecifiedRemaining = 0 := by
  obtain ⟨a, ha, ha', hlast⟩ := exists_last_round hv hpay (walk_price_lt hv hwalk hprice)
  obtain ⟨cost, hcost, hreach⟩ := exists_cost_of_walk hv hwalk hpay.2.1 hprice
  have hlegs := legsLeft_lt v.zeroForOne p.tick
  refine ⟨cost + a, by omega, by omega, fun s hs hleft => ?_⟩
  obtain ⟨s', hreached, hs', hleft'⟩ := hreach s a hs hleft ha (by omega)
  obtain ⟨last, hround, hzero⟩ := hlast s' hs' hleft'
  exact ⟨last, hreached.tail hround, hzero⟩

/-- A word of the bitmap is read whatever the amount is. -/
lemma exists_quotesUnread_of_bitmap (hpq : v.Walk p q)
    (hlimit : q.sqrtPriceX96 ≠ v.sqrtPriceLimitX96) (hqm : v.Walk q m) (hpay : v.Payable m)
    (hbitmap : ∃ e, v.tickBitmap (v.bitmapWord q.tick) = .error e) :
    ∃ amount : U256, amount ≠ 0 ∧ v.QuotesUnread .input (p.start .input amount) := by
  obtain ⟨a, ha, ha', hlast⟩ := exists_input_of_walk hv (walk_price_lt hv hpq hprice) hqm hpay
  refine exists_quotesUnread_of_input hv hpq hprice hlimit ha (by omega) fun s hs hleft _ => ?_
  have htick : s.tick = q.tick := congrArg Position.tick hs
  exact ⟨Or.inl ⟨hv.spacing_pos.ne', htick ▸ hbitmap⟩, hlast s hs hleft⟩

/-- The liquidity of a tick is read when the leg to it is completed. -/
lemma exists_quotesUnread_of_tick (hpq : v.Walk p q) (hpos : 0 < q.sqrtPriceX96.toNat)
    (hlimit : q.sqrtPriceX96 ≠ v.sqrtPriceLimitX96) (hqm : v.Walk q m) (hpay : v.Payable m)
    (hstep : v.nextStep q.tick = .ok step)
    (htarget : v.swapTargetSqrtRatio step = step.sqrtPriceNextX96)
    (hinit : step.initialized = true) (hnet : ∃ e, v.ticksLiquidityNet step.tickNext = .error e) :
    ∃ amount : U256, amount ≠ 0 ∧ v.QuotesUnread .input (p.start .input amount) := by
  have hpriceq := walk_price_lt hv hpq hprice
  obtain ⟨q', hmove⟩ := exists_moveTo_of_unread hinit hnet q
  have hleg : v.Leg q step q' := ⟨hstep, htarget ▸ hmove⟩
  have hcost := legCost_lt hv hstep hpos hpriceq
  -- what is to be left at the end of the leg
  obtain ⟨a, ha, ha', hlast⟩ : ∃ a, 0 < v.legCost q step + a ∧ a ≤ 2 ^ 246 + 2 ^ 225 ∧
      ∀ s : CurrentState, s.position = q' → Specified.left .input s.amountSpecifiedRemaining = a →
        ∃ last, WhileLoop.Reached v.goesOn (v.round .input) s last ∧
          last.amountSpecifiedRemaining = 0 := by
    rcases hqm.cases_head with rfl | ⟨q₁, ⟨-, -, step', hleg'⟩, hrest⟩
    · obtain ⟨-, -, step', hstep', hpaid⟩ := hpay
      obtain rfl := Except.ok.inj (hstep.symm.trans hstep')
      exact ⟨0, Nat.add_pos_left (Nat.add_pos_left hpaid _) _, Nat.zero_le _,
        fun s _ hleft => ⟨s, .refl, Specified.left_eq_zero_iff.mp hleft⟩⟩
    · obtain rfl := Except.ok.inj (hleg.1.symm.trans hleg'.1)
      obtain rfl := Except.ok.inj (hleg.2.symm.trans hleg'.2)
      obtain ⟨a, ha, ha', hlast⟩ :=
        exists_input_of_walk hv (hleg.price_eq ▸ (target_pos hv.spacing_pos hleg.1).2) hrest hpay
      exact ⟨a, Nat.add_pos_right _ ha, ha', hlast⟩
  refine exists_quotesUnread_of_input hv hpq hprice hlimit ha (by omega) fun s hs hleft hgo => ?_
  subst hs
  obtain ⟨s', computed, hof, hnext, hround, hs', hleft'⟩ := exists_round_of_leg hv hgo hpos
    hpriceq (by omega) hleg (by omega)
  obtain ⟨last, hreached, hzero⟩ := hlast s' hs' (by omega)
  exact ⟨Or.inr ⟨step, computed, hof, hnext.trans htarget, hinit, hnet⟩, last,
    .head hround hreached, hzero⟩

/-- A step from beyond the limit can stop at a tick, with the amount that leads there. -/
lemma exists_quotesUnread_of_short (hlimit : p.sqrtPriceX96 ≠ v.sqrtPriceLimitX96)
    (hs : s.position = p) (hr : s.amountSpecifiedRemaining ≠ 0) (hstep : v.StepOf s step computed)
    (hshort : computed.sqrtRatioNext ≠ v.swapTargetSqrtRatio step)
    (hnext : computed.sqrtRatioNext = step.sqrtPriceNextX96) (hinit : step.initialized = true)
    (hnet : ∃ e, v.ticksLiquidityNet step.tickNext = .error e) :
    ∃ (specified : Specified) (amount : U256), amount ≠ 0 ∧
      v.QuotesUnread specified (p.start specified amount) := by
  subst hs
  obtain ⟨specified, amount, hinitial, hlt⟩ := hstep.exists_initial hv hprice hshort
  have hrem : (s.position.start specified amount).amountSpecifiedRemaining =
    s.amountSpecifiedRemaining := hinitial
  have hleft := left_start s.position specified amount
  have hgo : v.goesOn (s.position.start specified amount) = true :=
    goesOn_iff.mpr ⟨hrem ▸ hr, hlimit⟩
  have hstep' : v.StepOf (s.position.start specified amount) step computed := by
    refine ⟨hstep.nextStep_eq, ?_⟩
    rw [hrem]
    exact hstep.computed_eq
  obtain ⟨p', hmove⟩ := exists_moveTo_of_unread hinit hnet s.position
  rw [← hnext] at hmove
  obtain ⟨last, hround, hzero⟩ :=
    exists_round_of_short hv hgo (hleft.trans_lt hlt) hstep' hshort hmove
  refine ⟨specified, amount, ?_, _, last, .refl, hgo,
    Or.inr ⟨step, computed, hstep', hnext, hinit, hnet⟩, .single hround, hzero⟩
  rintro rfl
  exact (goesOn_iff.mp hgo).1 (Specified.left_eq_zero_iff.mp hleft)

/-- **Quotes.**  If something has to be paid from a failed read on, some amount is quoted. -/
lemma exists_quotesUnread (hpq : v.Walk p q) (hunread : v.Unread q) (hqm : v.Walk q m)
    (hpay : v.Payable m) :
    ∃ (specified : Specified) (amount : U256), amount ≠ 0 ∧
      v.QuotesUnread specified (p.start specified amount) := by
  obtain ⟨hlimit, s, rfl, hr, hfails⟩ := hunread
  rcases hfails with ⟨-, hbitmap⟩ | ⟨step, computed, hstep, hnext, hinit, hnet⟩
  · exact ⟨.input, exists_quotesUnread_of_bitmap hv hprice hpq hlimit hqm hpay hbitmap⟩
  · by_cases htarget : v.swapTargetSqrtRatio step = step.sqrtPriceNextX96
    · exact ⟨.input, exists_quotesUnread_of_tick hv hprice hpq (hstep.price_pos hv.spacing_pos)
        hlimit hqm hpay hstep.nextStep_eq htarget hinit hnet⟩
    · have hs : s.position = p := by
        rcases eq_or_ahead_of_walk hpq with heq | hahead
        · exact heq
        · exact absurd (hstep.target_eq hv hahead hnext) htarget
      have hshort : computed.sqrtRatioNext ≠ v.swapTargetSqrtRatio step := by
        rw [hnext]
        exact Ne.symm htarget
      exact exists_quotesUnread_of_short hv hprice (hs ▸ hlimit) hs hr hstep hshort hnext hinit hnet

end Quotes

end Setting

/-! ## Databases -/

/-- Every cell that can be read in one database is the same in the other. -/
def AgreesOnCells (db db' : DatabaseRef) : Prop :=
  ∀ account cell x, db.storageRef account cell = .ok x → db'.storageRef account cell = .ok x

lemma mapError_ok_iff {ε ε' α : Type} {g : ε → ε'} {x : Except ε α} {a : α} :
    x.mapError g = .ok a ↔ x = .ok a := by
  cases x <;> simp [Except.mapError]

lemma AgreesOnCells.readPosition {db db' : DatabaseRef} (h : AgreesOnCells db db')
    {address : Address} (hread : readPosition db address = .ok p) :
    readPosition db' address = .ok p := by
  obtain ⟨slot0, hslot0, hread⟩ := Rounds.bind_ok hread
  obtain ⟨liquidity, hliquidity, hread⟩ := Rounds.bind_ok hread
  obtain ⟨cell, hcell, hslot0⟩ := Rounds.bind_ok hslot0
  obtain ⟨cell', hcell', hliquidity⟩ := Rounds.bind_ok hliquidity
  refine Rounds.bind_ok_iff.mpr ⟨slot0, Rounds.bind_ok_iff.mpr ⟨cell, ?_, hslot0⟩,
    Rounds.bind_ok_iff.mpr ⟨liquidity, Rounds.bind_ok_iff.mpr ⟨cell', ?_, hliquidity⟩, hread⟩⟩
  · exact mapError_ok_iff.mpr (h _ _ _ (mapError_ok_iff.mp hcell))
  · exact mapError_ok_iff.mpr (h _ _ _ (mapError_ok_iff.mp hcell'))

lemma AgreesOnCells.setting [Keccak] {db db' : DatabaseRef} (h : AgreesOnCells db db')
    (address : Address) (pool : UniswapV3Pool) (tokenIn : Address) :
    (setting db address pool tokenIn).Agrees (setting db' address pool tokenIn) := by
  refine ⟨rfl, rfl, rfl, fun word x hx => ?_, fun tick x hx => ?_⟩
  · exact mapError_ok_iff.mpr (h _ _ _ (mapError_ok_iff.mp hx))
  · obtain ⟨cell, hcell, hx⟩ := Rounds.bind_ok hx
    exact Rounds.bind_ok_iff.mpr
      ⟨cell, mapError_ok_iff.mpr (h _ _ _ (mapError_ok_iff.mp hcell)), hx⟩

lemma readPosition_price_lt {db : DatabaseRef} {address : Address}
    (h : readPosition db address = .ok p) : p.sqrtPriceX96.toNat < 2 ^ 160 := by
  obtain ⟨slot0, -, h⟩ := Rounds.bind_ok h
  obtain ⟨liquidity, -, h⟩ := Rounds.bind_ok h
  obtain rfl := Except.ok.inj h
  have := slot0.sqrtPriceX96.isLt
  rw [BitVec.toNat_setWidth_of_le (by decide)]
  exact this

/-- One of the reads that a simulation makes fails. -/
def FailedRead [Keccak] (specified : Specified) (db : DatabaseRef) (pool : UniswapV3Pool)
    (tokenIn : Address) (amount : U256) : Prop :=
  amount ≠ 0 ∧
    ((∃ e, readPosition db pool.address = .error e) ∨
      ∃ p s, readPosition db pool.address = .ok p ∧
        WhileLoop.Reached (setting db pool.address pool tokenIn).goesOn
          ((setting db pool.address pool tokenIn).round specified) (p.start specified amount) s ∧
        (setting db pool.address pool tokenIn).goesOn s = true ∧
        (setting db pool.address pool tokenIn).ReadFails s)

/-- A quote is only made from cells that have been read.  If a read fails, the simulation returns an
error, as it does whenever it returns, and for less than `2 ^ 255` it returns.  A quote stays what
it is in every database with the same readable cells. -/
structure QuotedFromReads [Keccak] (specified : Specified) (db : DatabaseRef) (pool : UniswapV3Pool)
    (tokenIn : Address) (amount : U256) : Prop where
  error : FailedRead specified db pool tokenIn amount → ∀ rounds r,
    simulateSwap specified rounds db pool tokenIn amount = some r → ∃ e, r = .error (.error e)
  returns : FailedRead specified db pool tokenIn amount → amount.toNat < 2 ^ 255 →
    ∃ rounds r, simulateSwap specified rounds db pool tokenIn amount = some r
  quote_eq : ∀ db' rounds r, AgreesOnCells db db' →
    simulateSwap specified rounds db pool tokenIn amount = some (.ok r) →
    simulateSwap specified rounds db' pool tokenIn amount = some (.ok r)

section Simulation

variable [Keccak] {db : DatabaseRef} {pool : UniswapV3Pool} {tokenIn : Address} {amount : U256}

lemma setting_supported_of_readFails
    (h : (setting db pool.address pool tokenIn).ReadFails s) :
    (setting db pool.address pool tokenIn).Supported := by
  refine setting_supported fun hzero => ?_
  have hspacing : (setting db pool.address pool tokenIn).tickSpacing = 0 := by
    simp only [setting, hzero]
    rfl
  rcases h with ⟨hne, -⟩ | ⟨step, computed, hstep, -⟩
  · exact hne hspacing
  · have hpanic := hstep.nextStep_eq
    simp only [Setting.nextStep, nextInitializedTickWithinOneWord, hspacing, if_true,
      Failure.report] at hpanic
    simp [bind, Except.bind] at hpanic

lemma simulateSwap_of_error {e : Report} (hamount : amount ≠ 0)
    (h : readPosition db pool.address = .error e) (rounds : ℕ) :
    simulateSwap specified rounds db pool tokenIn amount = some (.error (.error e)) := by
  simp only [simulateSwap, UniswapV3Pool.getAddress, if_neg hamount, h]

lemma simulateSwap_error (hamount : amount ≠ 0) (hread : readPosition db pool.address = .ok p)
    (hv : (setting db pool.address pool tokenIn).Supported)
    (hremains : ∀ last, WhileLoop.Ends (setting db pool.address pool tokenIn).goesOn
      ((setting db pool.address pool tokenIn).round specified) (p.start specified amount)
      (.ok last) → last.amountSpecifiedRemaining ≠ 0)
    {rounds : ℕ} {r : Except (Failure Report) U256}
    (h : simulateSwap specified rounds db pool tokenIn amount = some r) :
    ∃ e, r = .error (.error e) := by
  rw [simulateSwap_of_ok hamount hread] at h
  obtain ⟨result, hrun, rfl⟩ := Option.map_eq_some_iff.mp h
  have hends := WhileLoop.ends_of_run hrun
  cases result with
  | ok last =>
      refine ⟨"NOT_ENOUGH_LIQUIDITY", ?_⟩
      exact if_neg (hremains last hends)
  | error failure =>
      cases failure with
      | error e => exact ⟨e, rfl⟩
      | panic =>
          obtain ⟨t, -, -, hpanic⟩ := hends.failed
          exact absurd hpanic (Setting.round_ne_panic hv)

/-- A quote of an amount of `2 ^ 255` or more does not exist. -/
lemma remains_of_large (hv : (setting db pool.address pool tokenIn).Supported)
    (hread : readPosition db pool.address = .ok p) (hlarge : 2 ^ 255 ≤ amount.toNat)
    {last : CurrentState}
    (h : WhileLoop.Ends (setting db pool.address pool tokenIn).goesOn
      ((setting db pool.address pool tokenIn).round specified) (p.start specified amount)
      (.ok last)) : last.amountSpecifiedRemaining ≠ 0 := by
  have hleft := Setting.left_start p specified amount
  have hstart : (setting db pool.address pool tokenIn).Endless specified
      (p.start specified amount) :=
    ⟨readPosition_price_lt hread, by omega, fun hlt => absurd hlt (by omega)⟩
  have hlast := (hstart.reached hv h.reached.1).left_ge
  intro hzero
  rw [Specified.left_eq_zero_iff.mpr hzero] at hlast
  exact absurd hlast (by decide)

/-- **Only from reads.**  The quote of a simulation that makes no failed read. -/
lemma quote_eq_of_not_failedRead (h : ¬ FailedRead specified db pool tokenIn amount)
    {db' : DatabaseRef} (hagrees : AgreesOnCells db db') {rounds : ℕ} {r : U256}
    (hquote : simulateSwap specified rounds db pool tokenIn amount = some (.ok r)) :
    simulateSwap specified rounds db' pool tokenIn amount = some (.ok r) := by
  by_cases hamount : amount = 0
  · rw [simulateSwap, if_pos hamount] at hquote ⊢
    exact hquote
  · cases hread : readPosition db pool.address with
    | error e => exact absurd ⟨hamount, Or.inl ⟨e, hread⟩⟩ h
    | ok p =>
        have hagree := hagrees.setting pool.address pool tokenIn
        rw [simulateSwap_of_ok hamount hread] at hquote
        rw [simulateSwap_of_ok hamount (hagrees.readPosition hread), hagree.goesOn_eq,
          WhileLoop.run_congr (fun t ht hgo => hagree.round_eq
            (fun hfails => h ⟨hamount, Or.inr ⟨p, t, hread, ht, hgo, hfails⟩⟩) specified)]
        exact hquote

end Simulation

/-- A pool with a liquidity of `3` at the price one, where only the price and the liquidity can be
read. -/
def unreadDb : DatabaseRef :=
  cellsDb fun cell => if cell = 0 then .ok q96 else if cell = 4 then .ok 3 else .error .noDB

def unreadPool : UniswapV3Pool := ⟨1, 2, 3, 3000⟩

end UniswapV3PoolVirtual

end Kabu
