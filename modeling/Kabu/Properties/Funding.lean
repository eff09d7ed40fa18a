import Kabu.Market.OptimizeRounds

/-!
# The second step spends no more than the first delivers

The two steps of an arbitrage are carried out one after the other, and what the second spends has to
come from the first.  Both searches keep this, for different reasons.

At the start what the first step delivers is split over the lines of the second, and every share is
rounded down (`inTotal_split_le`).  The search from the middle then moves both sides by the same
increase in every round, whatever the prices are (`FundedMiddle`).  The search from the start may
choose a first step that delivers less than before, or from a working copy that is several rounds
old; but it goes on only if the second step spends just what the chosen first step delivers, and
the sums it compares do not wrap (`FundedIn`).

All this is for amounts below `2 ^ 120`.  The bound is needed of the amounts the pools answer for
what they give and of the amounts the second step starts with; the other amounts can be any.
-/

namespace Kabu

open Rounds

namespace SwapStep

/-- The second step spends no more than the first delivers, and both amounts are there. -/
structure Funded (step₀ step₁ : SwapStep) : Prop where
  outSet : ∀ line ∈ step₀.swapLineVec, line.amountOut.isSet = true
  inSet : ∀ line ∈ step₁.swapLineVec, line.amountIn.isSet = true
  le : step₁.inTotal ≤ step₀.outTotal

/-- An amount that is set, below a bound. -/
def Below (bound : ℕ) (amount : SwapAmountType) : Prop := ∃ x, amount = .set x ∧ x.toNat < bound

lemma Below.isSet {bound : ℕ} {amount : SwapAmountType} (h : Below bound amount) :
    amount.isSet = true := by
  obtain ⟨x, rfl, -⟩ := h
  rfl

variable {f : SwapLine → SwapAmountType}

lemma total_lt_of_below {step : SwapStep}
    (h : ∀ line ∈ step.swapLineVec, (f line).unwrapOrDefault.toNat < 2 ^ 120) :
    total (step.swapLineVec.map f) < 2 ^ 184 := by
  have hle : total (step.swapLineVec.map f) ≤
      (step.swapLineVec.map f).length * (2 ^ 120 - 1) :=
    total_le_length_mul
      (List.forall_mem_map.mpr fun line hline => Nat.le_sub_one_of_lt (h line hline))
  rw [List.length_map] at hle
  have hlen := step.length_lt
  omega

/-! ## The start -/

variable {outAmount₀ outAmount₁ : U256}

/-- The shares are set, and rounded down, also where the product wraps. -/
lemma inTotal_split_le {lines lines' : List SwapLine}
    (h : List.Forall₂ (fun line line' : SwapLine => ∃ outAmount, line.amountOut = .set outAmount ∧
      line' = { line with amountIn := .set (outAmount₀ * outAmount / outAmount₁) }) lines lines') :
    (∀ amount ∈ lines'.map SwapLine.amountIn, amount.isSet = true) ∧
      total (lines'.map SwapLine.amountIn) ≤
        outAmount₀.toNat * total (lines.map SwapLine.amountOut) / outAmount₁.toNat := by
  induction h with
  | nil => exact ⟨by simp, Nat.zero_le _⟩
  | @cons line line' lines lines' hline _ ih =>
      obtain ⟨outAmount, hout, rfl⟩ := hline
      have hshare : (outAmount₀ * outAmount / outAmount₁).toNat ≤
          outAmount₀.toNat * outAmount.toNat / outAmount₁.toNat := by
        rw [BitVec.toNat_udiv, BitVec.toNat_mul]
        exact Nat.div_le_div_right (Nat.mod_le _ _)
      have hvalue : line.amountOut.unwrapOrDefault.toNat = outAmount.toNat := by
        rw [hout]
        rfl
      refine ⟨List.forall_mem_cons.mpr ⟨rfl, ih.1⟩, ?_⟩
      rw [List.map_cons, List.map_cons, total_cons, total_cons, hvalue, Nat.mul_add]
      exact (Nat.add_le_add hshare ih.2).trans Nat.div_add_div_le_add_div

/-- **The split.**  What the first step delivers covers the shares of the second. -/
lemma funded_split (quotes : PoolQuotes) {step₀ step₁ split : SwapStep}
    (hout₀ : step₀.getOutAmount = .ok outAmount₀) (hlt₀ : step₀.outTotal < 2 ^ 256)
    (hout₁ : step₁.getOutAmount = .ok outAmount₁) (hlt₁ : step₁.outTotal < 2 ^ 256)
    (hsplit : step₁.splitIn outAmount₀ outAmount₁ = .ok split) :
    Funded step₀ (split.calculateWithInAmount quotes none).2 := by
  obtain ⟨hset₀, rfl⟩ := getOutAmount_ok hout₀
  obtain ⟨-, rfl⟩ := getOutAmount_ok hout₁
  obtain ⟨hset, hshares⟩ := inTotal_split_le (splitIn_ok hsplit)
  have hamounts : (split.calculateWithInAmount quotes none).2.swapLineVec.map SwapLine.amountIn = _ :=
    amountIn_calculateLines quotes split.swapLineVec 0 0
  refine ⟨hset₀, ?_, ?_⟩
  · rw [← hamounts] at hset
    exact List.forall_mem_map.mp hset
  · rw [BitVec.toNat_ofNat, BitVec.toNat_ofNat, Nat.mod_eq_of_lt hlt₀, Nat.mod_eq_of_lt hlt₁]
      at hshares
    rw [inTotal, hamounts]
    exact hshares.trans (Nat.div_le_of_le_mul (Nat.mul_comm _ _).le)

variable {quotes : PoolQuotes}

lemma below_of_calculatedIn (hquotes : quotes.GivesBelow (2 ^ 120)) {line : SwapLine}
    (h : line.CalculatedIn quotes) : Below (2 ^ 120) line.amountOut := by
  obtain ⟨x, result, -, hresult, hout⟩ := h
  exact ⟨result.amount, hout, line.amount_lt_of_calculate hquotes (by decide) hresult⟩

/-! ## The search from the middle -/

/-- The steps are funded, and the rounds that are left have room for their increases. -/
structure FundedMiddle (increase : U256) (rounds : ℕ) (climb : Climb) : Prop where
  copies₀ : List.Forall₂ SamePath climb.step₀.swapLineVec climb.calc₀
  copies₁ : List.Forall₂ SamePath climb.step₁.swapLineVec climb.calc₁
  funded : Funded climb.step₀ climb.step₁
  room : climb.step₀.outTotal + rounds * increase.toNat < 2 ^ 256

lemma checkedAdd_of_lt {x y : U256} (h : x.toNat + y.toNat < 2 ^ 256) :
    checkedAdd x y = some (x + y) := if_pos h

/-- A line with the increase added to one of its amounts. -/
def Increased (f : SwapLine → SwapAmountType) (increase : U256) (line priced : SwapLine) : Prop :=
  SamePath line priced ∧ ∃ x, f line = .set x ∧ f priced = .set (x + increase) ∧
    x.toNat + increase.toNat < 2 ^ 256

variable {line calcLine priced : SwapLine}

lemma increased_of_pricedFor {known wanted : SwapLine → SwapAmountType}
    {quote : SwapLine → U256 → Except (Failure SwapError) Calculation} {placeholder increase : U256}
    (hline : (known line).unwrapOrDefault.toNat + increase.toNat < 2 ^ 256)
    (hpath : SamePath line calcLine)
    (h : PricedFor known wanted quote placeholder increase line calcLine priced) :
    Increased known increase line priced := by
  obtain ⟨hpriced, x, hx, hnew⟩ := h
  rw [hx] at hline
  have hlt : x.toNat + increase.toNat < 2 ^ 256 := hline
  refine ⟨hpriced.trans hpath, x, hx, ?_, hlt⟩
  rcases hnew with ⟨y, hy, hknown, -⟩ | hnone
  · rw [checkedAdd_of_lt hlt] at hy
    rw [hknown, ← Option.some.inj hy]
  · rw [checkedAdd_of_lt hlt] at hnone
    simp at hnone

variable {increase : U256}

lemma Candidate.total_increased {step merged : SwapStep} {calcLines : List SwapLine}
    {accept : SwapStep → Except (Failure Report) Bool}
    (hcopies : List.Forall₂ (Increased f increase) step.swapLineVec calcLines)
    (h : Candidate step calcLines accept merged) :
    total (merged.swapLineVec.map f) = total (step.swapLineVec.map f) + increase.toNat := by
  obtain ⟨i, old, line, hold, -, ⟨-, x, hx, hnew, hlt⟩, hset⟩ :=
    h.exists_set hcopies fun _ _ hrel => hrel.1
  have htotal := total_set f hold line
  have hvalue : (x + increase).toNat = x.toNat + increase.toNat := BitVec.toNat_add_of_lt hlt
  rw [hx, hnew] at htotal
  simp only [SwapAmountType.unwrapOrDefault, SwapAmountType.unwrap, Option.getD_some, hvalue]
    at htotal
  rw [hset]
  omega

lemma Candidate.isSet_increased {step merged : SwapStep} {calcLines : List SwapLine}
    {accept : SwapStep → Except (Failure Report) Bool}
    (hcopies : List.Forall₂ (Increased f increase) step.swapLineVec calcLines)
    (h : Candidate step calcLines accept merged)
    (hstep : ∀ line ∈ step.swapLineVec, (f line).isSet = true) :
    ∀ line ∈ merged.swapLineVec, (f line).isSet = true := by
  obtain ⟨i, old, line, -, -, ⟨-, x, -, hnew, -⟩, hset⟩ :=
    h.exists_set hcopies fun _ _ hrel => hrel.1
  rw [hset]
  intro line' hline'
  rcases List.mem_or_eq_of_mem_set hline' with hmem | rfl
  · exact hstep line' hmem
  · rw [hnew]
    rfl

/-- **One round** of the search from the middle. -/
lemma FundedMiddle.go {n : ℕ} {climb next : Climb} (h : FundedMiddle increase (n + 1) climb)
    (hround : middleRound quotes increase climb = .ok (.go next)) :
    FundedMiddle increase n next := by
  obtain ⟨hcalc₀, hcalc₁, hbest₀, hbest₁⟩ := middleRound_go hround
  have hroom := h.room
  rw [Nat.succ_mul] at hroom
  have hout : ∀ line ∈ climb.step₀.swapLineVec,
      line.amountOut.unwrapOrDefault.toNat + increase.toNat < 2 ^ 256 := by
    intro line hline
    have hle : line.amountOut.unwrapOrDefault.toNat ≤ climb.step₀.outTotal :=
      le_total_of_mem (List.mem_map_of_mem hline)
    omega
  have hin : ∀ line ∈ climb.step₁.swapLineVec,
      line.amountIn.unwrapOrDefault.toNat + increase.toNat < 2 ^ 256 := by
    intro line hline
    have hle : line.amountIn.unwrapOrDefault.toNat ≤ climb.step₁.inTotal :=
      le_total_of_mem (List.mem_map_of_mem hline)
    have hfunded := h.funded.le
    omega
  have hpriced₀ : List.Forall₂ (Increased SwapLine.amountOut increase) climb.step₀.swapLineVec
      next.calc₀ :=
    priceAll_rel (R := fun line calcLine =>
      line.amountOut.unwrapOrDefault.toNat + increase.toNat < 2 ^ 256 ∧ SamePath line calcLine)
      (fun _ _ _ hrel hprice => increased_of_pricedFor hrel.1 hrel.2 (priceOut_ok hprice))
      ((List.forall₂_and_left _ _).mpr ⟨hout, h.copies₀⟩) hcalc₀
  have hpriced₁ : List.Forall₂ (Increased SwapLine.amountIn increase) climb.step₁.swapLineVec
      next.calc₁ :=
    priceAll_rel (R := fun line calcLine =>
      line.amountIn.unwrapOrDefault.toNat + increase.toNat < 2 ^ 256 ∧ SamePath line calcLine)
      (fun _ _ _ hrel hprice => increased_of_pricedFor hrel.1 hrel.2 (priceIn_ok hprice))
      ((List.forall₂_and_left _ _).mpr ⟨hin, h.copies₁⟩) hcalc₁
  have htotal₀ : next.step₀.outTotal = climb.step₀.outTotal + increase.toNat :=
    hbest₀.total_increased hpriced₀
  have htotal₁ : next.step₁.inTotal = climb.step₁.inTotal + increase.toNat :=
    hbest₁.total_increased hpriced₁
  have hfunded := h.funded.le
  refine ⟨hbest₀.copies (hpriced₀.imp fun _ _ hrel => hrel.1),
    hbest₁.copies (hpriced₁.imp fun _ _ hrel => hrel.1),
    ⟨hbest₀.isSet_increased hpriced₀ h.funded.outSet,
      hbest₁.isSet_increased hpriced₁ h.funded.inSet, by omega⟩, by omega⟩

lemma toNat_climbStep_le (x : U256) : (climbStep x).toNat ≤ x.toNat := by
  unfold climbStep
  rw [BitVec.toNat_udiv, BitVec.toNat_mul]
  have hmod := Nat.mod_le (x.toNat * (500 : U256).toNat) (2 ^ 256)
  have h500 : (500 : U256).toNat = 500 := rfl
  have h10000 : (10000 : U256).toNat = 10000 := rfl
  rw [h500] at hmod ⊢
  rw [h10000]
  omega

lemma funded_of_run (Inv : ℕ → Climb → Prop)
    {round : Climb → Except (Failure Report) (Verdict Climb Report)}
    (hfunded : ∀ n climb, Inv n climb → Funded climb.step₀ climb.step₁)
    (hstep : ∀ n climb next, Inv (n + 1) climb → round climb = .ok (.go next) → Inv n next)
    {late : Report} {n : ℕ} {climb : Climb} (hclimb : Inv n climb) {steps : SwapStep × SwapStep}
    (h : run round Climb.steps Climb.checked late n climb = .ok steps) :
    Funded steps.1 steps.2 := by
  obtain ⟨k, last, hlast, hsteps⟩ := run_ok (P := fun _ => True)
    (fun n climb next hclimb _ => hstep n climb next hclimb)
    (everyRound_of_forall (fun _ => trivial) n climb) hclimb h
  have hreturned : last.steps = steps := by
    rcases hsteps with ⟨-, -, hleave⟩ | ⟨message, hchecked⟩
    · exact hleave
    · exact (Climb.checked_ok hchecked).1
  rw [← hreturned]
  exact hfunded k last hlast

/-! ## The search from the start -/

/-- The steps are funded, and no amount that a candidate can have is large enough to wrap. -/
structure FundedIn (climb : Climb) : Prop where
  copies₀ : List.Forall₂ SamePath climb.step₀.swapLineVec climb.calc₀
  copies₁ : List.Forall₂ SamePath climb.step₁.swapLineVec climb.calc₁
  out₀ : ∀ line ∈ climb.step₀.swapLineVec, Below (2 ^ 120) line.amountOut
  outCalc₀ : ∀ line ∈ climb.calc₀, Below (2 ^ 120) line.amountOut
  in₁ : ∀ line ∈ climb.step₁.swapLineVec, line.amountIn.isSet = true
  inCalc₁ : ∀ line ∈ climb.calc₁, Below (2 ^ 185) line.amountIn
  le : climb.step₁.inTotal ≤ climb.step₀.outTotal

lemma outTotal_lt {step : SwapStep}
    (h : ∀ line ∈ step.swapLineVec, Below (2 ^ 120) line.amountOut) : step.outTotal < 2 ^ 184 := by
  refine total_lt_of_below fun line hline => ?_
  obtain ⟨x, hx, hlt⟩ := h line hline
  rw [hx]
  exact hlt

/-- The price of a line of the first step is an answer of a pool, or zero. -/
lemma below_of_priceMore (hquotes : quotes.GivesBelow (2 ^ 120))
    (hcalc : Below (2 ^ 120) calcLine.amountOut)
    (h : priceMore quotes increase line calcLine = .ok priced) :
    SamePath calcLine priced ∧ Below (2 ^ 120) priced.amountOut := by
  rcases priceMore_ok h with rfl | ⟨hpath, x, y, -, -, -, hy, hquoted⟩
  · exact ⟨rfl, hcalc⟩
  · refine ⟨hpath, y, hy, ?_⟩
    rcases hquoted with ⟨result, hresult, rfl⟩ | ⟨-, rfl⟩
    · exact calcLine.amount_lt_of_calculate hquotes (by decide) hresult
    · decide

/-- A line of the second step at most doubles. -/
lemma below_in_of_priceMore (hline : line.amountIn.unwrapOrDefault.toNat < 2 ^ 184)
    (hcalc : Below (2 ^ 185) calcLine.amountIn)
    (h : priceMore quotes increase line calcLine = .ok priced) :
    SamePath calcLine priced ∧ Below (2 ^ 185) priced.amountIn := by
  rcases priceMore_ok h with rfl | ⟨hpath, x, y, hx, hlt, hin, -, -⟩
  · exact ⟨rfl, hcalc⟩
  · refine ⟨hpath, x + increase, hin, ?_⟩
    rw [hx] at hline
    have hxlt : x.toNat < 2 ^ 184 := hline
    have hincrease := BitVec.lt_def.mp hlt
    rw [BitVec.toNat_add]
    omega

lemma spends_ok {best₀ merged : SwapStep} (h : spends best₀ merged = .ok true) :
    ∃ amount, merged.getInAmount = .ok amount ∧ best₀.getOutAmount = .ok amount := by
  obtain ⟨mergedIn, hin, h⟩ := bind_ok h
  obtain ⟨outAmount, hout, h⟩ := bind_ok h
  obtain rfl := of_decide_eq_true (Except.ok.inj h)
  exact ⟨mergedIn, Failure.lift_ok hin, Failure.lift_ok hout⟩

/-- **One round** of the search from the start. -/
lemma FundedIn.go (hquotes : quotes.GivesBelow (2 ^ 120)) {climb next : Climb} (h : FundedIn climb)
    (hround : inRound quotes increase climb = .ok (.go next)) : FundedIn next := by
  obtain ⟨inAmount₁, outAmount₀, -, -, hcalc₀, hcalc₁, hbest₀, hbest₁⟩ := inRound_go hround
  have hlt₀ := outTotal_lt h.out₀
  have hin₁ : ∀ line ∈ climb.step₁.swapLineVec,
      line.amountIn.unwrapOrDefault.toNat < 2 ^ 184 := by
    intro line hline
    have hle : line.amountIn.unwrapOrDefault.toNat ≤ climb.step₁.inTotal :=
      le_total_of_mem (List.mem_map_of_mem hline)
    have hfunded := h.le
    omega
  obtain ⟨hcopies₀, houtCalc₀⟩ := priceAll_forall (P := fun _ => True)
    (fun _ _ _ _ hcalc hprice => below_of_priceMore hquotes hcalc hprice) h.copies₀
    (fun _ _ => trivial) h.outCalc₀ hcalc₀
  obtain ⟨hcopies₁, hinCalc₁⟩ := priceAll_forall
    (fun _ _ _ hline hcalc hprice => below_in_of_priceMore hline hcalc hprice) h.copies₁ hin₁
    h.inCalc₁ hcalc₁
  have hout₀ := hbest₀.forall_line hcopies₀ h.out₀ houtCalc₀
  refine ⟨hbest₀.copies hcopies₀, hbest₁.copies hcopies₁, hout₀, houtCalc₀,
    hbest₁.forall_line hcopies₁ h.in₁ (fun line hline => (hinCalc₁ line hline).isSet), hinCalc₁, ?_⟩
  -- the second step spends what the first delivers, as words and so as numbers
  obtain ⟨amount, hspent, hdelivered⟩ := spends_ok (hbest₁.choose_spec.2.2)
  have hspentLt : next.step₁.inTotal < 2 ^ 256 := by
    obtain ⟨i, old, line, hold, hline, -, hset⟩ :=
      hbest₁.exists_set hcopies₁ fun _ _ hrel => hrel
    have htotal := total_set SwapLine.amountIn hold line
    rw [← hset] at htotal
    obtain ⟨x, hx, hxlt⟩ := hinCalc₁ line (List.mem_of_getElem? hline)
    have hnew : line.amountIn.unwrapOrDefault.toNat < 2 ^ 185 := by
      rw [hx]
      exact hxlt
    have hfunded := h.le
    have hsum : next.step₁.inTotal + old.amountIn.unwrapOrDefault.toNat =
      climb.step₁.inTotal + line.amountIn.unwrapOrDefault.toNat := htotal
    omega
  have hdeliveredLt := outTotal_lt hout₀
  obtain ⟨-, hin⟩ := getInAmount_ok hspent
  obtain ⟨-, hout⟩ := getOutAmount_ok hdelivered
  have hwords := congrArg BitVec.toNat (hin.symm.trans hout)
  rw [BitVec.toNat_ofNat, BitVec.toNat_ofNat, Nat.mod_eq_of_lt hspentLt,
    Nat.mod_eq_of_lt (by omega)] at hwords
  exact hwords.le

/-! ## Both searches -/

lemma funded_of_optimizeWithMiddleAmount {step₀ step₁ s₀ s₁ : SwapStep} {amount : Option U256}
    (hquotes : quotes.GivesBelow (2 ^ 120))
    (hstep₁ : ∀ line ∈ step₁.swapLineVec, line.amountOut.unwrapOrDefault.toNat < 2 ^ 120)
    (h : optimizeWithMiddleAmount quotes step₀ step₁ amount = .ok (s₀, s₁)) : Funded s₀ s₁ := by
  obtain ⟨⟨increase, climb⟩, hstart, hrun⟩ := bind_ok h
  obtain ⟨middle, outAmount₀, outAmount₁, split, hmiddle, hout₀, hout₁, hsplit, rfl, rfl⟩ :=
    middleStart_ok hstart
  obtain ⟨hlines, hsum⟩ := calculateWithInAmount_ok hmiddle
  have hlt₀ := outTotal_lt fun line hline => below_of_calculatedIn hquotes (hlines line hline)
  have hlt₁ : step₁.outTotal < 2 ^ 184 := total_lt_of_below hstep₁
  have hfunded := funded_split quotes hout₀ (by omega) hout₁ (by omega) hsplit
  refine funded_of_run (FundedMiddle (climbStep middle.1)) (fun _ _ hinv => hinv.funded)
    (fun n climb next hinv hround => hinv.go hround)
    ⟨samePath_refl _, samePath_refl _, hfunded, ?_⟩ hrun
  have hincrease := toNat_climbStep_le middle.1
  have hmiddleLt : middle.1.toNat < 2 ^ 184 := by
    rw [hsum, BitVec.toNat_ofNat, Nat.mod_eq_of_lt (by omega)]
    exact hlt₀
  change (step₀.calculateWithInAmount quotes amount).2.outTotal +
    30 * (climbStep middle.1).toNat < 2 ^ 256
  omega

lemma funded_of_optimizeWithInAmount {step₀ step₁ s₀ s₁ : SwapStep} {amount : Option U256}
    (hquotes : quotes.GivesBelow (2 ^ 120))
    (hstep₁ : ∀ line ∈ step₁.swapLineVec, line.amountOut.unwrapOrDefault.toNat < 2 ^ 120)
    (h : optimizeWithInAmount quotes step₀ step₁ amount = .ok (s₀, s₁)) : Funded s₀ s₁ := by
  obtain ⟨⟨increase, climb⟩, hstart, hrun⟩ := bind_ok h
  obtain ⟨answer₀, outAmount₀, outAmount₁, split, answer₁, hanswer₀, hout₀, hout₁, hsplit, -,
    rfl⟩ := inStart_ok hstart
  obtain ⟨hlines, -⟩ := calculateWithInAmount_ok hanswer₀
  have hbelow := fun line hline => below_of_calculatedIn hquotes (hlines line hline)
  have hlt₀ := outTotal_lt hbelow
  have hlt₁ : step₁.outTotal < 2 ^ 184 := total_lt_of_below hstep₁
  have hfunded := funded_split quotes hout₀ (by omega) hout₁ (by omega) hsplit
  have hin₁ : ∀ line ∈ (split.calculateWithInAmount quotes none).2.swapLineVec,
      Below (2 ^ 185) line.amountIn := by
    intro line hline
    have hle : line.amountIn.unwrapOrDefault.toNat ≤
        (split.calculateWithInAmount quotes none).2.inTotal :=
      le_total_of_mem (List.mem_map_of_mem hline)
    obtain ⟨x, hx⟩ := Option.isSome_iff_exists.mp (hfunded.inSet line hline)
    have hset := SwapAmountType.unwrap_eq_some_iff.mp hx
    have hvalue : line.amountIn.unwrapOrDefault = x := by
      rw [hset]
      rfl
    have hcovered := hfunded.le
    rw [hvalue] at hle
    exact ⟨x, hset, by omega⟩
  refine funded_of_run (fun _ => FundedIn)
    (fun _ climb hinv => ⟨fun line hline => (hinv.out₀ line hline).isSet, hinv.in₁, hinv.le⟩)
    (fun n climb next hinv hround => hinv.go hquotes hround) ?_ hrun
  exact ⟨samePath_refl _, samePath_refl _, hbelow, hbelow, hfunded.inSet, hin₁, hfunded.le⟩

/-- **Funding.**  Whatever the pools answer below `2 ^ 120`, and whichever of their answers are
failures, the second of the steps that a search returns spends no more than the first delivers. -/
theorem funded_of_optimize (quotes : PoolQuotes) (step₀ step₁ s₀ s₁ : SwapStep)
    (amount : Option U256) (hquotes : quotes.GivesBelow (2 ^ 120))
    (hstep₁ : ∀ line ∈ step₁.swapLineVec, line.amountOut.unwrapOrDefault.toNat < 2 ^ 120)
    (h : optimizeWithMiddleAmount quotes step₀ step₁ amount = .ok (s₀, s₁) ∨
      optimizeWithInAmount quotes step₀ step₁ amount = .ok (s₀, s₁)) : Funded s₀ s₁ := by
  rcases h with hmiddle | hin
  · exact funded_of_optimizeWithMiddleAmount hquotes hstep₁ hmiddle
  · exact funded_of_optimizeWithInAmount hquotes hstep₁ hin

/-! ### Two steps of one line -/

def samplePool : Pool where
  getClass := .uniswapV2
  getAddress := .address 7
  getPoolId := .address 7
  getTokens := [1, 2]
  getSwapDirections := [⟨1, 2⟩, ⟨2, 1⟩]
  getReadOnlyCellVec := []
  getStateRequired := .ok ⟨[], [], []⟩

def sampleLine (tokenFrom tokenTo : Address) (amountIn amountOut : SwapAmountType) : SwapLine where
  path := .newSwap (.new tokenFrom) (.new tokenTo) samplePool
  amountIn := amountIn
  amountOut := amountOut
  calculationResults := []
  swapTo := none
  gasUsed := none

def sampleStep₀ : SwapStep := single 9 (sampleLine 1 2 (.set 1000) .notSet)

def sampleStep₁ : SwapStep := single 9 (sampleLine 2 1 .notSet (.set 1000))

/-- A pool that doubles what goes in, up to a limit. -/
def doublingQuotes : PoolQuotes where
  canCalculateInAmount _ := true
  calculateOutAmount _ _ _ x := if x.toNat < 5000 then .ok (2 * x, 0) else .error .zeroReserves
  calculateInAmount _ _ _ x := if x.toNat < 5000 then .ok (x / 2 + 1, 0) else .error .zeroReserves

lemma doublingQuotes_givesBelow : doublingQuotes.GivesBelow (2 ^ 120) := by
  intro pool tokenFrom tokenTo x answer h
  unfold doublingQuotes at h
  dsimp only at h
  split at h
  · cases Except.ok.inj h
    have htwo : (2 : U256).toNat = 2 := rfl
    rw [BitVec.toNat_mul, htwo]
    omega
  · simp at h

/-- Both searches return from a profitable pair of steps. -/
theorem doubling_funded :
    (∃ s, optimizeWithMiddleAmount doublingQuotes sampleStep₀ sampleStep₁ none = .ok s ∧
        Funded s.1 s.2) ∧
      ∃ s, optimizeWithInAmount doublingQuotes sampleStep₀ sampleStep₁ none = .ok s ∧
        Funded s.1 s.2 := by
  have hstep₁ : ∀ line ∈ sampleStep₁.swapLineVec,
      line.amountOut.unwrapOrDefault.toNat < 2 ^ 120 := by
    intro line hline
    cases List.mem_singleton.mp hline
    decide
  constructor
  · obtain ⟨s, hs⟩ := exists_of_isOk (show
      (optimizeWithMiddleAmount doublingQuotes sampleStep₀ sampleStep₁ none).isOk = true by
        decide +kernel)
    exact ⟨s, hs, funded_of_optimize _ _ _ _ _ _ doublingQuotes_givesBelow hstep₁ (Or.inl hs)⟩
  · obtain ⟨s, hs⟩ := exists_of_isOk (show
      (optimizeWithInAmount doublingQuotes sampleStep₀ sampleStep₁ none).isOk = true by
        decide +kernel)
    exact ⟨s, hs, funded_of_optimize _ _ _ _ _ _ doublingQuotes_givesBelow hstep₁ (Or.inr hs)⟩

end SwapStep

end Kabu
