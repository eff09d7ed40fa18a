import Kabu.Properties.SwapRounds

/-!
# A quote and the quote back

A swap for an input gives an output, and the other simulation says what input that output needs.
Both go the same way, so a round trip is a comparison of two runs over the same legs.  `Swaps` is
what such a run does in natural numbers, without the state of the loop (`swaps_of_ends`).

An input that has been quoted for an output gives at least that output (`Swaps.le_back`).  The other
round trip asks for no more than the input, except in one case: if the last step has stopped on the
way to its target, and the output is already what the whole way gives, the step back goes to the
target and pays for the whole way.
-/

namespace Kabu

open RoundedCurve SqrtPriceMath SwapMath TickBitmap TickMath UniswapV3PoolVirtual

/-! ## Farther costs more and gives more -/

namespace SwapMath

variable {zeroForOne : Bool} {L p q s : ℕ}

lemma amountIn_mono (hq : 0 < q) (hps : Ahead zeroForOne p s) (hsq : Ahead zeroForOne s q) :
    amountIn zeroForOne L p s ≤ amountIn zeroForOne L p q := by
  cases zeroForOne with
  | true =>
      rw [ahead_true] at hps hsq
      rw [amountIn_true, amountIn_true]
      rcases Nat.eq_zero_or_pos (L * resolution) with hN | hN
      · rw [hN, baseUp, Nat.zero_mul, zero_ceilDiv]
        exact Nat.zero_le _
      · have hfar := (baseUp_le_iff hq (hsq.trans hps) hN).mp le_rfl
        exact (baseUp_le_iff (lt_of_lt_of_le hq hsq) hps hN).mpr (hfar.trans hsq)
  | false =>
      rw [ahead_false] at hps hsq
      rw [amountIn_false, amountIn_false]
      exact ceilDiv_mono resolution_pos (Nat.mul_le_mul_left L (Nat.sub_le_sub_right hsq p))

lemma amountOut_mono (hp : 0 < p) (hps : Ahead zeroForOne p s) (hsq : Ahead zeroForOne s q) :
    amountOut zeroForOne L p s ≤ amountOut zeroForOne L p q := by
  cases zeroForOne with
  | true =>
      rw [ahead_true] at hps hsq
      rw [amountOut_true, amountOut_true]
      exact Nat.div_le_div_right (Nat.mul_le_mul_left L (Nat.sub_le_sub_left hsq p))
  | false =>
      rw [ahead_false] at hps hsq
      rw [amountOut_false, amountOut_false]
      rcases Nat.eq_zero_or_pos (L * resolution) with hN | hN
      · rw [hN, baseDown, Nat.zero_mul, Nat.zero_div]
        exact Nat.zero_le _
      · obtain ⟨hthere, hnear⟩ := (le_baseDown_iff hp hps hN).mp le_rfl
        exact (le_baseDown_iff hp (hps.trans hsq) hN).mpr ⟨hthere, hnear.trans hsq⟩

/-- If a target is within a factor of `2 ^ 32`, an input that does not reach it leads to no product
that wraps. -/
lemma product_lt (hL : L < 2 ^ 128) (hq : 0 < q) (hqp : q ≤ p) (hnear : p ≤ 2 ^ 32 * q) {a : ℕ}
    (h : a < amountIn true L p q) : L * resolution + a * p < 2 ^ 256 := by
  rw [amountIn_true, baseUp] at h
  have hcover : q * p * a < L * resolution * (p - q) := by
    by_contra hle
    exact absurd ((ceilDiv_le_iff_le_mul (Nat.mul_pos hq (by omega))).mpr (not_lt.mp hle))
      (not_le_of_gt h)
  have hN : L * resolution < 2 ^ 224 := by
    unfold resolution
    omega
  generalize L * resolution = N at hcover hN ⊢
  obtain ⟨e, rfl⟩ := Nat.exists_eq_add_of_le hqp
  rw [Nat.add_sub_cancel_left] at hcover
  have hmul : (N + a * (q + e)) * q < 2 ^ 32 * N * q := by
    calc (N + a * (q + e)) * q = N * q + q * (q + e) * a := by ring
      _ < N * q + N * e := by omega
      _ = N * (q + e) := by ring
      _ ≤ N * (2 ^ 32 * q) := Nat.mul_le_mul_left N hnear
      _ = 2 ^ 32 * N * q := by ring
  have := Nat.lt_of_mul_lt_mul_right hmul
  omega

/-! ## Two steps from one price -/

section Steps

variable {current target : U256} {liquidity : U128} {f : ℕ} {there back : ComputedStep}

/-- What is asked for the output is enough for it. -/
lemma StopsForOutput.le_amountOut_of_input {o a r : ℕ} (hcurrent : 0 < current.toNat)
    (hcurrent' : current.toNat < 2 ^ 160) (htarget : 0 < target.toNat)
    (htarget' : target.toNat < 2 ^ 160)
    (hnear : zeroForOne = true → current.toNat ≤ 2 ^ 32 * target.toNat)
    (hahead : Ahead zeroForOne current.toNat target.toNat)
    (hthere : StopsForOutput zeroForOne current target liquidity f o there)
    (hback : StopsForInput zeroForOne current target liquidity a r back)
    (hshort : a < amountIn zeroForOne liquidity.toNat current.toNat target.toNat)
    (hpaid : there.amountIn.toNat ≤ a) : o ≤ back.amountOut.toNat := by
  have hL := hthere.liquidity_ne
  have hp := U256.toNat_pos_iff.mp hcurrent
  have hnext : there.sqrtRatioNext.toNat < 2 ^ 160 :=
    lt_of_le_of_lt (between_of_ahead hthere.ahead hthere.before).2 (max_lt hcurrent' htarget')
  have ho : o < 2 ^ 224 := lt_of_le_of_lt hthere.le_amountOut
    (Specified.amountOut_lt liquidity.isLt hcurrent hthere.next_pos hcurrent' hnext)
  have ha : a < 2 ^ 224 := hshort.trans
    (Specified.amountIn_lt liquidity.isLt hcurrent htarget hcurrent' htarget')
  have ho' : (BitVec.ofNat 256 o).toNat = o := by
    rw [BitVec.toNat_ofNat, Nat.mod_eq_of_lt (by omega)]
  have ha' : (BitVec.ofNat 256 a).toNat = a := by
    rw [BitVec.toNat_ofNat, Nat.mod_eq_of_lt (by omega)]
  obtain ⟨-, -, hgives⟩ := le_amountOut_iff hp hL hthere.next_from
  rw [hback.amountOut_eq, ← ho', hgives _ hback.ahead]
  refine ahead_of_amountIn_le hp hL (fun hdir => ?_) ?_ hback.next_from hthere.next_pos
    hthere.ahead ?_
  · subst hdir
    rw [ha']
    exact product_lt liquidity.isLt htarget hahead (hnear rfl) hshort
  · rw [ha']
    exact inputFits_of_lt hL (by omega) target.isLt hshort
  · rw [ha', ← hthere.amountIn_eq]
    exact hpaid

lemma StopsForInput.amountIn_le_of_output {a r : ℕ} (hcurrent : 0 < current.toNat)
    (hthere : StopsForInput zeroForOne current target liquidity a r there)
    (hback : StopsForOutput zeroForOne current target liquidity f there.amountOut.toNat back) :
    back.amountIn.toNat ≤ a := by
  have hL := hthere.liquidity_ne
  have hp := U256.toNat_pos_iff.mp hcurrent
  have ho : (BitVec.ofNat 256 there.amountOut.toNat).toNat = there.amountOut.toNat := by
    rw [BitVec.toNat_ofNat, Nat.mod_eq_of_lt there.amountOut.isLt]
  obtain ⟨-, -, hgives⟩ := le_amountOut_iff hp hL hback.next_from
  have hbefore : Ahead zeroForOne back.sqrtRatioNext.toNat there.sqrtRatioNext.toNat := by
    rw [← hgives _ hthere.ahead, ho]
    exact hthere.amountOut_eq.le
  calc back.amountIn.toNat ≤ there.amountIn.toNat := by
        rw [hback.amountIn_eq, hthere.amountIn_eq]
        exact amountIn_mono hthere.next_pos hback.ahead hbefore
    _ ≤ a := hthere.amountIn_le

end Steps

end SwapMath

namespace UniswapV3PoolVirtual

/-! ## Swaps without the state of the loop -/

def Setting.legNeed (v : Setting) (specified : Specified) (p : Position)
    (step : StepComputations) : ℕ :=
  specified.need v.zeroForOne v.fee.toNat p.liquidity.toNat p.sqrtPriceX96.toNat
    (v.swapTargetSqrtRatio step).toNat

def Setting.legGain (v : Setting) (specified : Specified) (p : Position)
    (step : StepComputations) : ℕ :=
  specified.gain v.zeroForOne v.fee.toNat p.liquidity.toNat p.sqrtPriceX96.toNat
    (v.swapTargetSqrtRatio step).toNat

/-- From a position on, nothing is left of an amount and so much is counted of the other one. -/
inductive Swaps (v : Setting) (specified : Specified) : Position → ℕ → ℕ → Prop
  | done {p : Position} : Swaps v specified p 0 0
  | leg {p p' : Position} {step : StepComputations} {a y : ℕ} (hpos : 0 < a)
      (hp : Setting.OnTick p) (hleg : v.Leg p step p') (hneed : v.legNeed specified p step ≤ a)
      (hrest : Swaps v specified p' (a - v.legNeed specified p step) y) :
      Swaps v specified p a (v.legGain specified p step + y)
  | stop {p : Position} {step : StepComputations} {computed : ComputedStep} {a : ℕ} (hpos : 0 < a)
      (hp : Setting.OnTick p) (hstep : v.nextStep p.tick = .ok step)
      (hshort : a < v.legNeed specified p step)
      (hstops : specified.Stops v.zeroForOne p.sqrtPriceX96 (v.swapTargetSqrtRatio step)
        p.liquidity v.fee.toNat a computed) :
      Swaps v specified p a (specified.counted computed)

variable {v : Setting} {specified : Specified} {s last : CurrentState} {p : Position}

lemma Swaps.eq_zero {y : ℕ} (h : Swaps v specified p 0 y) : y = 0 := by
  cases h with
  | done => rfl
  | leg hzero => exact absurd hzero (Nat.lt_irrefl 0)
  | stop hzero => exact absurd hzero (Nat.lt_irrefl 0)

/-- **What a loop does that ends with nothing left.** -/
lemma swaps_of_ends (hv : v.Supported) (hs : v.Sound specified s)
    (h : WhileLoop.Ends v.goesOn (v.round specified) s (.ok last))
    (hlast : last.amountSpecifiedRemaining = 0) :
    ∃ y, Swaps v specified s.position (specified.left s.amountSpecifiedRemaining) y ∧
      specified.soFar last.amountCalculated = specified.soFar s.amountCalculated + y := by
  generalize hr : Except.ok last = r at h
  induction h with
  | stop =>
      cases hr
      rw [Specified.left_eq_zero_iff.mpr hlast]
      exact ⟨0, .done, rfl⟩
  | fail => cases hr
  | @round s s' r hround hrest ih =>
      obtain ⟨hgo, hbody⟩ := hround
      obtain ⟨hne, -⟩ := Setting.goesOn_iff.mp hgo
      obtain ⟨step, computed, hround⟩ := Setting.exists_roundOf hbody
      obtain ⟨y, hswaps, hsum⟩ := ih (hs.round hv hgo hround) hr
      have hpos : 0 < specified.left s.amountSpecifiedRemaining :=
        Nat.pos_of_ne_zero fun hzero => hne (Specified.left_eq_zero_iff.mp hzero)
      have hp := hs.onTick hgo
      have hleft := hround.left_eq hv hne hs.left_lt
      rw [hs.soFar_eq hv hgo hround] at hsum
      rcases hround.toStepOf.cases hv hne hs.left_lt (hs.ahead hv hgo hround.nextStep_eq) with
        ⟨hneed, hreach⟩ | ⟨hshort, hstops⟩
      · have hleg : v.Leg s.position step s'.position :=
          ⟨hround.nextStep_eq, hreach.next_eq ▸ hround.moveTo_eq⟩
        rw [hleft, Specified.taken_of_reachesTarget hreach] at hswaps
        refine ⟨_, .leg hpos hp hleg hneed hswaps, ?_⟩
        rw [hsum, Specified.counted_of_reachesTarget hreach, Nat.add_assoc]
        rfl
      · rw [hleft, hstops.taken_eq, Nat.sub_self] at hswaps
        refine ⟨_, .stop hpos hp hround.nextStep_eq hshort hstops, ?_⟩
        rw [hsum, hswaps.eq_zero, Nat.add_zero]

lemma Setting.OnTick.price_pos (h : Setting.OnTick p) :
    0 < p.sqrtPriceX96.toNat ∧ p.sqrtPriceX96.toNat < 2 ^ 160 :=
  ⟨lt_of_le_of_lt (Nat.zero_le _) h.minSqrtRatio_lt, h.lt_maxSqrtRatio.trans (by decide)⟩

lemma Swaps.pos (hv : v.Supported) {o x : ℕ} (h : Swaps v .output p o x) (ho : 0 < o) : 0 < x := by
  induction h with
  | done => exact absurd ho (Nat.lt_irrefl 0)
  | @leg p p' step a y hpos hp hleg hneed hrest ih =>
      by_contra hzero
      obtain ⟨hgain, rfl⟩ : v.legGain .output p step = 0 ∧ y = 0 := by omega
      have hin : amountIn v.zeroForOne p.liquidity.toNat p.sqrtPriceX96.toNat
          (v.swapTargetSqrtRatio step).toNat = 0 := Nat.eq_zero_of_add_eq_zero_right hgain
      have hnone : v.legNeed .output p step = 0 :=
        amountOut_eq_zero hp.price_pos.1 (Setting.target_pos hv.spacing_pos hleg.1).1 hin
      exact absurd (ih (by omega)) (Nat.lt_irrefl 0)
  | @stop p step computed a hpos hp hstep hshort hstops =>
      by_contra hzero
      have hin := Nat.eq_zero_of_add_eq_zero_right (Nat.eq_zero_of_not_pos hzero)
      rw [StopsForOutput.amountIn_eq hstops] at hin
      have hout := StopsForOutput.le_amountOut hstops
      rw [amountOut_eq_zero hp.price_pos.1 (StopsForOutput.next_pos hstops) hin] at hout
      omega

lemma Setting.Leg.unique {p₁ p₂ : Position} {step₁ step₂ : StepComputations}
    (h₁ : v.Leg p step₁ p₁) (h₂ : v.Leg p step₂ p₂) : step₁ = step₂ ∧ p₁ = p₂ := by
  obtain rfl := Except.ok.inj (h₁.1.symm.trans h₂.1)
  exact ⟨rfl, Except.ok.inj (h₁.2.symm.trans h₂.2)⟩

/-- An input that is short of a leg, in terms of what it is worth without the fee. -/
lemma Setting.lt_amountIn_of_short (hv : v.Supported) {step : StepComputations} {x : ℕ}
    (h : x < v.legNeed .input p step) :
    x * (1000000 - v.fee.toNat) / 1000000 < amountIn v.zeroForOne p.liquidity.toNat
      p.sqrtPriceX96.toNat (v.swapTargetSqrtRatio step).toNat := by
  have hf := hv.fee_le
  rw [← not_le] at h ⊢
  rw [← add_fee_le_iff (by omega)]
  exact h

/-- **From an output to an input and back.** -/
lemma Swaps.le_back (hv : v.Supported) {o x y : ℕ} (h : Swaps v .output p o x)
    (hback : Swaps v .input p x y) : o ≤ y := by
  have hf := hv.fee_le
  -- over the legs of the output, which the input completes as well
  induction h generalizing y with
  | done => exact Nat.zero_le y
  | @leg p p' step a x hpos hp hleg hneed hrest ih =>
      have hx := Swaps.pos hv (.leg hpos hp hleg hneed hrest) hpos
      have hcost : v.legNeed .input p step = v.legGain .output p step := rfl
      generalize hsum : v.legGain .output p step + x = total at hback hx
      cases hback with
      | done => exact absurd hx (Nat.lt_irrefl 0)
      | leg _ _ hleg' hneed' hrest' =>
          obtain ⟨rfl, rfl⟩ := hleg.unique hleg'
          have hgain : v.legGain .input p step = v.legNeed .output p step := rfl
          rw [show total - v.legNeed .input p step = x by omega] at hrest'
          have := ih hrest'
          omega
      | stop _ _ hstep hshort =>
          obtain rfl := Except.ok.inj (hleg.1.symm.trans hstep)
          omega
  | @stop p step there a hpos hp hstep hshort hstops =>
      have hx := Swaps.pos hv (.stop hpos hp hstep hshort hstops) hpos
      generalize hsum : Specified.counted .output there = total at hback hx
      cases hback with
      | done => exact absurd hx (Nat.lt_irrefl 0)
      | leg _ _ hleg' =>
          obtain rfl := Except.ok.inj (hstep.symm.trans hleg'.1)
          have hgain : v.legGain .input p step = v.legNeed .output p step := rfl
          omega
      | @stop _ step' back _ _ _ hstep' hshort' hstops' =>
          obtain rfl := Except.ok.inj (hstep.symm.trans hstep')
          obtain ⟨htarget, htarget'⟩ := Setting.target_pos hv.spacing_pos hstep
          have hpaid : there.amountIn.toNat ≤ total * (1000000 - v.fee.toNat) / 1000000 := by
            rw [← add_fee_le_iff (by omega), ← hsum, Specified.counted,
              StopsForOutput.fee_eq hstops, feeOn]
          exact StopsForOutput.le_amountOut_of_input hp.price_pos.1 hp.price_pos.2 htarget htarget'
            (hp.price_le_mul hv hstep) (hp.ahead hv.spacing_pos hstep) hstops hstops'
            (Setting.lt_amountIn_of_short hv hshort') hpaid

/-- The step stops on the way to its target, and gives already what the whole way gives. -/
def Setting.StopsFull (v : Setting) (s : CurrentState) : Prop :=
  v.goesOn s = true ∧ ∃ step computed, v.StepOf s step computed ∧
    computed.sqrtRatioNext ≠ v.swapTargetSqrtRatio step ∧ computed.amountOut ≠ 0 ∧
    outDelta v.zeroForOne s.sqrtPriceX96 (v.swapTargetSqrtRatio step) s.liquidity =
      .ok computed.amountOut

lemma Setting.not_stopsFull_of_zero (h : s.amountSpecifiedRemaining = 0) : ¬ v.StopsFull s :=
  fun hfull => (Setting.goesOn_iff.mp hfull.1).1 h

lemma Setting.StepOf.unique {step₁ step₂ : StepComputations} {computed₁ computed₂ : ComputedStep}
    (h₁ : v.StepOf s step₁ computed₁) (h₂ : v.StepOf s step₂ computed₂) :
    step₁ = step₂ ∧ computed₁ = computed₂ := by
  obtain rfl := Except.ok.inj (h₁.nextStep_eq.symm.trans h₂.nextStep_eq)
  exact ⟨rfl, Except.ok.inj (h₁.computed_eq.symm.trans h₂.computed_eq)⟩

lemma Setting.stopsFull_iff (hv : v.Supported) (hgo : v.goesOn s = true) {step : StepComputations}
    {computed : ComputedStep} (hp : Setting.OnTick s.position) (hstep : v.StepOf s step computed)
    {a r : ℕ} (hstops : StopsForInput v.zeroForOne s.sqrtPriceX96 (v.swapTargetSqrtRatio step)
      s.liquidity a r computed) :
    v.StopsFull s ↔ 0 < computed.amountOut.toNat ∧
      computed.amountOut.toNat = v.legNeed .output s.position step := by
  have hfull : outDelta v.zeroForOne s.sqrtPriceX96 (v.swapTargetSqrtRatio step) s.liquidity =
      .ok computed.amountOut ↔ computed.amountOut.toNat = v.legNeed .output s.position step :=
    outDelta_ok_iff hp.price_pos.1 (hp.ahead hv.spacing_pos hstep.nextStep_eq)
  constructor
  · rintro ⟨-, step', computed', hstep', -, hne, hout⟩
    obtain ⟨rfl, rfl⟩ := hstep.unique hstep'
    exact ⟨U256.toNat_pos_iff.mpr hne, hfull.mp hout⟩
  · rintro ⟨hpos, heq⟩
    exact ⟨hgo, step, computed, hstep, hstops.next_ne, U256.toNat_pos_iff.mp hpos, hfull.mpr heq⟩

/-- **From an input to an output and back.** -/
lemma back_le_iff (hv : v.Supported) (hs : v.Sound .input s)
    (h : WhileLoop.Ends v.goesOn (v.round .input) s (.ok last))
    (hlast : last.amountSpecifiedRemaining = 0) {y x : ℕ}
    (hy : Specified.soFar .input last.amountCalculated =
      Specified.soFar .input s.amountCalculated + y)
    (hback : Swaps v .output s.position y x) :
    x ≤ Specified.left .input s.amountSpecifiedRemaining ↔
      ∀ t, WhileLoop.Reached v.goesOn (v.round .input) s t → ¬ v.StopsFull t := by
  have hf := hv.fee_le
  generalize hr : Except.ok last = r at h
  -- over the rounds of the input, with the legs of the output beside them
  induction h generalizing y x with
  | @stop s hstop =>
      cases hr
      obtain rfl : y = 0 := by omega
      refine iff_of_true (hback.eq_zero ▸ Nat.zero_le _) fun t ht => ?_
      rw [ht.eq_of_not hstop]
      exact Setting.not_stopsFull_of_zero hlast
  | fail => cases hr
  | @round s s' r hround hrest ih =>
      obtain ⟨hgo, hbody⟩ := id hround
      obtain ⟨hne, -⟩ := Setting.goesOn_iff.mp hgo
      obtain ⟨step, computed, hof⟩ := Setting.exists_roundOf hbody
      have hp := hs.onTick hgo
      have hahead := hs.ahead hv hgo hof.nextStep_eq
      have hleft := hof.left_eq hv hne hs.left_lt
      have hsoFar := hs.soFar_eq hv hgo hof
      have hs' := hs.round hv hgo hof
      rw [WhileLoop.forall_reached_of_round hround]
      rcases hof.toStepOf.cases hv hne hs.left_lt hahead with ⟨hneed, hreach⟩ | ⟨hshort, hstops⟩
      · -- the whole leg: the output completes it as well
        have hleg : v.Leg s.position step s'.position :=
          ⟨hof.nextStep_eq, hreach.next_eq ▸ hof.moveTo_eq⟩
        have hnot : ¬ v.StopsFull s := by
          rintro ⟨-, step', computed', hstep', hnext, -⟩
          obtain ⟨rfl, rfl⟩ := hof.toStepOf.unique hstep'
          exact hnext hreach.next_eq
        have htaken : Specified.taken .input computed = v.legGain .output s.position step :=
          Specified.taken_of_reachesTarget hreach
        have hcounted : Specified.counted .input computed = v.legNeed .output s.position step :=
          Specified.counted_of_reachesTarget hreach
        have hle := hof.toStepOf.taken_le hv hne hs.left_lt
        obtain ⟨y', hy'⟩ : ∃ y', y = v.legNeed .output s.position step + y' := by
          obtain ⟨z, -, hz⟩ := swaps_of_ends hv hs' (hr ▸ hrest) hlast
          exact ⟨z, by omega⟩
        rw [and_iff_right hnot]
        cases hback with
        | done =>
            have hnext := ih hs' (y := 0) (by omega) .done hr
            refine Iff.trans ?_ hnext
            exact iff_of_true (Nat.zero_le _) (Nat.zero_le _)
        | leg _ _ hleg' _ hrest' =>
            obtain ⟨rfl, rfl⟩ := hleg.unique hleg'
            rw [hy', Nat.add_sub_cancel_left] at hrest'
            have hnext := ih hs' (by omega) hrest' hr
            refine Iff.trans ?_ hnext
            omega
        | stop _ _ hstep' hshort' =>
            obtain rfl := Except.ok.inj (hof.nextStep_eq.symm.trans hstep')
            omega
      · -- the last step: nothing is left
        have hzero : s'.amountSpecifiedRemaining = 0 := by
          rw [hstops.taken_eq, Nat.sub_self] at hleft
          exact Specified.left_eq_zero_iff.mp hleft
        have hover : v.goesOn s' = false := by
          rw [← Bool.not_eq_true, Setting.goesOn_iff]
          exact fun hgo' => hgo'.1 hzero
        obtain rfl : last = s' := ((hr ▸ hrest).reached.1).eq_of_not hover
        have hout : y = computed.amountOut.toNat := by
          have : Specified.counted .input computed = computed.amountOut.toNat := rfl
          omega
        have hlater : ∀ t, WhileLoop.Reached v.goesOn (v.round .input) last t → ¬ v.StopsFull t :=
          fun t ht => ht.eq_of_not hover ▸ Setting.not_stopsFull_of_zero hzero
        rw [and_iff_left hlater, Setting.stopsFull_iff hv hgo hp hof.toStepOf hstops]
        have hmost : computed.amountOut.toNat ≤ v.legNeed .output s.position step := by
          rw [StopsForInput.amountOut_eq hstops]
          exact amountOut_mono hp.price_pos.1 hstops.ahead hstops.before
        cases hback with
        | done => exact iff_of_true (Nat.zero_le _) (by omega)
        | leg hpos _ hleg' hneed' =>
            obtain rfl := Except.ok.inj (hof.nextStep_eq.symm.trans hleg'.1)
            have hcost : v.legGain .output s.position step = v.legNeed .input s.position step := rfl
            have : Specified.left .input s.amountSpecifiedRemaining <
              v.legNeed .input s.position step := hshort
            omega
        | @stop _ step' back _ hpos _ hstep' hshort' hstops' =>
            obtain rfl := Except.ok.inj (hof.nextStep_eq.symm.trans hstep')
            refine iff_of_true ?_ (by omega)
            rw [hout] at hstops'
            have hpaid := StopsForInput.amountIn_le_of_output hp.price_pos.1 hstops hstops'
            rw [Specified.counted, StopsForOutput.fee_eq hstops', feeOn, add_fee_le_iff (by omega)]
            exact hpaid

/-! ## Quotes -/

section Quotes

variable [Keccak] {db : DatabaseRef} {pool : UniswapV3Pool} {tokenIn : Address} {amount r : U256}
  {rounds : ℕ}

/-- **A quote is a swap.** -/
lemma swaps_of_simulateSwap (hv : (setting db pool.address pool tokenIn).Supported)
    (hread : readPosition db pool.address = .ok p)
    (hp : Setting.OnTick p) (hamount : amount.toNat < 2 ^ 255)
    (h : simulateSwap specified rounds db pool tokenIn amount = some (.ok r)) :
    Swaps (setting db pool.address pool tokenIn) specified p amount.toNat r.toNat ∧
      r.toNat ≤ 2 ^ 247 := by
  by_cases hzero : amount = 0
  · have hnone : simulateSwap specified rounds db pool tokenIn amount = some (.ok 0) := if_pos hzero
    obtain rfl := Except.ok.inj (Option.some.inj (h.symm.trans hnone))
    rw [hzero]
    exact ⟨.done, by decide⟩
  · obtain ⟨last, hends, hlast, rfl⟩ := simulateSwap_ok hzero hread h
    have hsound := hp.sound_start hv specified hamount
    obtain ⟨y, hswaps, hsum⟩ := swaps_of_ends hv hsound hends hlast
    have hstart : specified.soFar (p.start specified amount).amountCalculated = 0 :=
      Specified.soFar_zero
    rw [hstart, Nat.zero_add] at hsum
    rw [Setting.left_start] at hswaps
    have hle := (hsound.reached hv hends.reached.1).soFar_le
    rw [← hsum] at hswaps
    exact ⟨hswaps, hle⟩

end Quotes

/-- **Quotes and quotes back.**  An input that is quoted for an output gives at least that output.
The output that an input gives is quoted for no more than the input, unless the last step has
stopped on the way and gives already what the whole way gives. -/
theorem quotes_back [Keccak] {db : DatabaseRef} {pool : UniswapV3Pool} {tokenIn : Address}
    {p : Position}
    (hfee : pool.fee = 100 ∨ pool.fee = 500 ∨ pool.fee = 3000 ∨ pool.fee = 10000)
    (hread : readPosition db pool.address = .ok p)
    (hconsistent : (setting db pool.address pool tokenIn).Consistent p) :
    (∀ (x y x' : U256) (n m : ℕ), x.toNat < 2 ^ 255 →
      simulateSwapInAmountProvider n db pool tokenIn x = some (.ok y) →
      simulateSwapOutAmountProvided m db pool tokenIn y = some (.ok x') →
      (x' ≤ x ↔ ∀ s, WhileLoop.Reached (setting db pool.address pool tokenIn).goesOn
          ((setting db pool.address pool tokenIn).round .input) (p.start .input x) s →
        ¬ (setting db pool.address pool tokenIn).StopsFull s)) ∧
    ∀ (y x y' : U256) (n m : ℕ), y.toNat < 2 ^ 255 →
      simulateSwapOutAmountProvided n db pool tokenIn y = some (.ok x) →
      simulateSwapInAmountProvider m db pool tokenIn x = some (.ok y') → y ≤ y' := by
  have hv := setting_supported_of_fee db tokenIn hfee
  have hp := hconsistent.toOnTick
  constructor
  · intro x y x' n m hx hthere hback
    obtain ⟨-, hsmall⟩ := swaps_of_simulateSwap hv hread hp hx hthere
    obtain ⟨hswaps, -⟩ := swaps_of_simulateSwap hv hread hp (by omega) hback
    rw [BitVec.le_def]
    by_cases hzero : x = 0
    · subst hzero
      obtain rfl := Except.ok.inj (Option.some.inj hthere)
      obtain rfl := Except.ok.inj (Option.some.inj hback)
      refine iff_of_true le_rfl fun s hs => ?_
      have hover : (setting db pool.address pool tokenIn).goesOn (p.start .input 0) = false := by
        rw [← Bool.not_eq_true, Setting.goesOn_iff]
        exact fun hgo => hgo.1 rfl
      rw [hs.eq_of_not hover]
      exact Setting.not_stopsFull_of_zero rfl
    · obtain ⟨last, hends, hlast, rfl⟩ := simulateSwap_ok hzero hread hthere
      have hsound := hp.sound_start hv .input hx
      have hstart : Specified.soFar .input (p.start .input x).amountCalculated = 0 :=
        Specified.soFar_zero
      have hsum : Specified.soFar .input last.amountCalculated =
          Specified.soFar .input (p.start .input x).amountCalculated +
            (Specified.result .input last.amountCalculated).toNat := by
        rw [hstart, Nat.zero_add]
        rfl
      exact back_le_iff hv hsound hends hlast hsum hswaps
  · intro y x y' n m hy hthere hback
    obtain ⟨hswaps, hsmall⟩ := swaps_of_simulateSwap hv hread hp hy hthere
    obtain ⟨hswaps', -⟩ := swaps_of_simulateSwap hv hread hp (by omega) hback
    exact BitVec.le_def.mpr (hswaps.le_back hv hswaps')

/-- In the shallow pool an input of `3` gives `1`, for which `5` are asked. -/
theorem quoted_above_input :
    letI := constKeccak
    readPosition shallowDb shallowPool.address = .ok ⟨q96, 0, 3⟩ ∧
      (setting shallowDb shallowPool.address shallowPool 2).Consistent ⟨q96, 0, 3⟩ ∧
      simulateSwapInAmountProvider 2 shallowDb shallowPool 2 3 = some (.ok 1) ∧
      simulateSwapOutAmountProvided 2 shallowDb shallowPool 2 1 = some (.ok 5) :=
  let _ := constKeccak
  ⟨shallow_consistent.1, shallow_consistent.2, by decide +kernel, by decide +kernel⟩

/-- There the input of `5` gives the output of `1` again, and a step of the input of `3` has stopped
on the way. -/
theorem quotes_back_of_three :
    letI := constKeccak
    (1 : U256) ≤ 1 ∧ ¬ ∀ s, WhileLoop.Reached
        (setting shallowDb shallowPool.address shallowPool 2).goesOn
        ((setting shallowDb shallowPool.address shallowPool 2).round .input)
        ((⟨q96, 0, 3⟩ : Position).start .input 3) s →
      ¬ (setting shallowDb shallowPool.address shallowPool 2).StopsFull s := by
  let _ := constKeccak
  obtain ⟨hinput, houtput⟩ := quotes_back (Or.inr (Or.inr (Or.inl rfl))) shallow_consistent.1
    shallow_consistent.2
  refine ⟨houtput 1 5 1 2 2 (by decide) (by decide +kernel) (by decide +kernel), fun hall => ?_⟩
  have hle := (hinput 3 1 5 2 2 (by decide) (by decide +kernel) (by decide +kernel)).mpr hall
  exact absurd hle (by decide)

end UniswapV3PoolVirtual

end Kabu
