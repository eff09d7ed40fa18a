import Kabu.Market.Tips

/-!
# Tips stay within the profit

For a single swap the tip and the gas are paid out of the profit.  `backrun_tips_within_profit` says
so for amounts below 2^120: nothing wraps, the tip and the gas are at most the profit in ETH, what
has to come back is at most the profit in the swap's token, and what is sent along is at most nine
tenths of the balance.  `ExactTips` are the numbers that the words stand for.
-/

namespace Kabu

namespace Tips

/-- The tip before the balance is looked at. -/
def fullTip (profit price gas tipsPct : ℕ) : ℕ := (profit * 10 ^ 18 / price - gas) * tipsPct / 10000

/-- The tips of a single swap, calculated in numbers. -/
structure ExactTips (profit price gas tipsPct balance : ℕ) (weth : Bool) (tips : Tips)
    (value : U256) : Prop where
  profit_eq : tips.profit.toNat = profit
  profitEth_eq : tips.profitEth.toNat = profit * 10 ^ 18 / price
  minChange_eq : tips.minChange.toNat = (gas + fullTip profit price gas tipsPct) * price / 10 ^ 18
  tips_eq : tips.tips.toNat =
    if weth = false ∧ balance * 9000 / 10000 < fullTip profit price gas tipsPct
    then balance * 9000 / 10000 else fullTip profit price gas tipsPct
  value_eq : value.toNat = if weth then 0 else tips.tips.toNat

lemma ExactTips.within {profit price gas tipsPct balance : ℕ} {weth : Bool} {tips : Tips}
    {value : U256} (h : ExactTips profit price gas tipsPct balance weth tips value)
    (hpct : tipsPct ≤ 10000) (hgas : gas ≤ profit * 10 ^ 18 / price) :
    tips.tips.toNat + gas ≤ tips.profitEth.toNat ∧ tips.minChange.toNat ≤ tips.profit.toNat ∧
      (weth = false → 10 * value.toNat ≤ 9 * balance) := by
  have hfull : fullTip profit price gas tipsPct + gas ≤ profit * 10 ^ 18 / price := by
    have hle := share_le (x := profit * 10 ^ 18 / price - gas) hpct
    unfold fullTip
    omega
  refine ⟨?_, ?_, fun hweth => ?_⟩
  · rw [h.tips_eq, h.profitEth_eq]
    split <;> omega
  · rw [h.minChange_eq, h.profit_eq]
    exact (convert_back_le (by omega)).2
  · rw [h.value_eq, h.tips_eq, hweth]
    simp only [Bool.false_eq_true, if_false, true_and]
    split <;> omega

/-! ## Single swaps -/

section Single

variable {swap : Swap} {token : Token}

lemma toNat_calcEthValue {value : U256} (hvalue : value.toNat < 2 ^ 120)
    (price : U256) : (value * oneEther / price).toNat = value.toNat * 10 ^ 18 / price.toNat ∧
      value.toNat * 10 ^ 18 / price.toNat < 2 ^ 180 := by
  have hmul : value.toNat * oneEther.toNat < 2 ^ 256 := by
    rw [toNat_oneEther]
    omega
  refine ⟨toNat_mul_div price hmul, ?_⟩
  exact (Nat.div_le_self _ _).trans_lt (by omega)

lemma toNat_fullTip {profit price gas : U256} {tipsPct : ℕ} (hprofit : profit.toNat < 2 ^ 120)
    (hpct : tipsPct ≤ 10000) (hgas : gas ≤ profit * oneEther / price) :
    ((profit * oneEther / price - gas) * BitVec.ofNat 256 tipsPct / 10000).toNat =
      fullTip profit.toNat price.toNat gas.toNat tipsPct := by
  obtain ⟨hvalue, hlt⟩ := toNat_calcEthValue hprofit price
  have hsub := BitVec.toNat_sub_of_le hgas
  rw [toNat_share (by omega) hpct, hsub, hvalue]
  rfl

lemma toNat_minChange {profit price gas tips : U256} (hprofit : profit.toNat < 2 ^ 120)
    (htips : gas.toNat + tips.toNat ≤ profit.toNat * 10 ^ 18 / price.toNat) :
    ((gas + tips) * price / oneEther).toNat =
      (gas.toNat + tips.toNat) * price.toNat / 10 ^ 18 := by
  obtain ⟨-, hlt⟩ := toNat_calcEthValue hprofit price
  have hadd : (gas + tips).toNat = gas.toNat + tips.toNat := BitVec.toNat_add_of_lt (by omega)
  have hmul := (convert_back_le htips).1
  rw [toNat_mul_div _ (by rw [hadd]; omega), hadd]
  rfl

lemma fullTip_add_le {profit price gas tipsPct : ℕ} (hpct : tipsPct ≤ 10000)
    (hgas : gas ≤ profit * 10 ^ 18 / price) :
    gas + fullTip profit price gas tipsPct ≤ profit * 10 ^ 18 / price := by
  have hle := share_le (x := profit * 10 ^ 18 / price - gas) hpct
  unfold fullTip
  omega

/-- The words of a tip that stand for its numbers. -/
structure TipWords (profit price gas tipsPct : ℕ) (profitEth full minChange : U256) : Prop where
  profitEth_eq : profitEth.toNat = profit * 10 ^ 18 / price
  full_eq : full.toNat = fullTip profit price gas tipsPct
  minChange_eq : minChange.toNat = (gas + fullTip profit price gas tipsPct) * price / 10 ^ 18

lemma tipWords {profit price gas : U256} {tipsPct : ℕ} (hprofit : profit.toNat < 2 ^ 120)
    (hpct : tipsPct ≤ 10000) (hgas : gas ≤ profit * oneEther / price) :
    TipWords profit.toNat price.toNat gas.toNat tipsPct (profit * oneEther / price)
      ((profit * oneEther / price - gas) * BitVec.ofNat 256 tipsPct / 10000)
      ((gas + (profit * oneEther / price - gas) * BitVec.ofNat 256 tipsPct / 10000) * price /
        oneEther) := by
  obtain ⟨hvalue, -⟩ := toNat_calcEthValue hprofit price
  have hfull := toNat_fullTip hprofit hpct hgas
  have hgas' : gas.toNat ≤ profit.toNat * 10 ^ 18 / price.toNat := by
    rw [← hvalue]
    exact BitVec.le_def.mp hgas
  refine ⟨hvalue, hfull, ?_⟩
  rw [← hfull]
  refine toNat_minChange hprofit ?_
  rw [hfull]
  exact fullTip_add_le hpct hgas'

section Cap

variable {profit profitEth full minChange ethBalance : U256} {price gas tipsPct : ℕ} {weth : Bool}
  (hwords : TipWords profit.toNat price gas tipsPct profitEth full minChange)
  (hbalance : ethBalance.toNat < 2 ^ 120)

include hwords hbalance

lemma exactTips_capped (hweth : weth = false) (hcap : nineTenths ethBalance < full) :
    ExactTips profit.toNat price gas tipsPct ethBalance.toNat weth
      ⟨token, profit, profitEth, nineTenths ethBalance, minChange⟩ (nineTenths ethBalance) := by
  have hnine := toNat_nineTenths hbalance
  have hless : ethBalance.toNat * 9000 / 10000 < fullTip profit.toNat price gas tipsPct := by
    rw [← hnine, ← hwords.full_eq]
    exact BitVec.lt_def.mp hcap
  refine ⟨rfl, hwords.profitEth_eq, hwords.minChange_eq, ?_, ?_⟩
  · rw [if_pos ⟨hweth, hless⟩]
    exact hnine
  · rw [hweth]
    rfl

lemma exactTips_uncapped (hcap : ¬ (weth = false ∧ nineTenths ethBalance < full)) :
    ExactTips profit.toNat price gas tipsPct ethBalance.toNat weth
      ⟨token, profit, profitEth, full, minChange⟩ (if weth then 0 else full) := by
  rw [BitVec.lt_def, toNat_nineTenths hbalance, hwords.full_eq] at hcap
  refine ⟨rfl, hwords.profitEth_eq, hwords.minChange_eq, ?_, ?_⟩
  · rw [if_neg hcap]
    exact hwords.full_eq
  · cases weth <;> rfl

end Cap

/-- What a single swap pays: it is refused, or its tips are exact and within its profit. -/
lemma backrunTips_cases (prices : TokenPrices) (gasCost : Option U256) {ethBalance : U256}
    {tipsPct : ℕ} (hprofit : swap.arbProfit.toNat < 2 ^ 120) (hbalance : ethBalance.toNat < 2 ^ 120)
    (hpct : tipsPct ≤ 10000) :
    (∃ message, backrunTips prices swap tipsPct gasCost ethBalance = .error (.error message)) ∨
      ∃ tips value price, backrunTips prices swap tipsPct gasCost ethBalance = .ok ([tips], value) ∧
        swap.getFirstToken = some tips.tokenIn ∧ prices.getEthPrice tips.tokenIn = some price ∧
        (gasCost.getD 0).toNat ≤ swap.arbProfit.toNat * 10 ^ 18 / price.toNat ∧
        ExactTips swap.arbProfit.toNat price.toNat (gasCost.getD 0).toNat tipsPct ethBalance.toNat
          (prices.isWeth tips.tokenIn) tips value := by
  unfold backrunTips TokenPrices.calcEthValue TokenPrices.calcTokenValueFromEth
  by_cases hzero : swap.arbProfit = 0
  · exact Or.inl ⟨_, if_pos hzero⟩
  rw [if_neg hzero]
  cases htoken : swap.getFirstToken with
  | none => exact Or.inl ⟨_, rfl⟩
  | some token =>
    simp only [okOr, bind, Except.bind]
    cases hprice : prices.getEthPrice token with
    | none => exact Or.inl ⟨_, rfl⟩
    | some price =>
      simp only [Option.map_some, Failure.ofOption]
      split
      · exact Or.inl ⟨_, rfl⟩
      · split
        · exact Or.inl ⟨_, rfl⟩
        · rename_i hgas
          have hgas := BitVec.not_lt.mp hgas
          have hwords := tipWords hprofit hpct hgas
          have hpays : (gasCost.getD 0).toNat ≤ swap.arbProfit.toNat * 10 ^ 18 / price.toNat := by
            rw [← hwords.profitEth_eq]
            exact BitVec.le_def.mp hgas
          right
          split
          · rename_i hcap
            obtain ⟨hweth, hcap⟩ := Bool.and_eq_true_iff.mp hcap
            exact ⟨_, _, price, rfl, rfl, hprice, hpays, exactTips_capped hwords hbalance
              (by simpa using hweth) (of_decide_eq_true hcap)⟩
          · rename_i hcap
            refine ⟨_, _, price, rfl, rfl, hprice, hpays,
              exactTips_uncapped hwords hbalance fun h => hcap ?_⟩
            rw [h.1, decide_eq_true h.2]
            rfl

lemma exists_tipsPct {tipsPct : Option ℕ} (h : ∀ pct, tipsPct = some pct → 50 ≤ pct ∧ pct ≤ 10000)
    (profit : U256) (draw : ℕ) : ∃ advanced pct, tipsPctAdvanced profit = some advanced ∧
      randomizeTipsPct (tipsPct.getD advanced) draw = some pct ∧
      pct = tipsPct.getD advanced - draw % 50 ∧ pct ≤ 10000 := by
  obtain ⟨advanced, hadvanced, hlow, hhigh⟩ := exists_tipsPctAdvanced profit
  have hbounds : 50 ≤ tipsPct.getD advanced ∧ tipsPct.getD advanced ≤ 10000 := by
    cases tipsPct with
    | none => exact ⟨hlow.trans' (by decide), hhigh.trans (by decide)⟩
    | some pct => exact h pct rfl
  exact ⟨advanced, _, hadvanced, randomizeTipsPct_of_le hbounds.1 draw, rfl, by omega⟩

/-- **Tips of a single swap.** -/
theorem backrun_tips_within_profit (prices : TokenPrices) (order : IterationOrder) (swap : Swap)
    (tipsPct : Option ℕ) (gasCost : Option U256) (ethBalance : U256) (draw : ℕ)
    (hswap : swap.IsBackrun) (hprofit : swap.arbProfit.toNat < 2 ^ 120)
    (hbalance : ethBalance.toNat < 2 ^ 120)
    (hpct : ∀ pct, tipsPct = some pct → 50 ≤ pct ∧ pct ≤ 10000) :
    tipsAndValueForSwapType prices order swap tipsPct gasCost ethBalance draw ≠ .error .panic ∧
      ∀ tipsVec value, tipsAndValueForSwapType prices order swap tipsPct gasCost ethBalance draw =
          .ok (tipsVec, value) →
        ∃ tips price pct, tipsVec = [tips] ∧ swap.getFirstToken = some tips.tokenIn ∧
          prices.getEthPrice tips.tokenIn = some price ∧ pct ≤ 10000 ∧
          ExactTips swap.arbProfit.toNat price.toNat (gasCost.getD 0).toNat pct ethBalance.toNat
            (prices.isWeth tips.tokenIn) tips value ∧
          tips.tips.toNat + (gasCost.getD 0).toNat ≤ tips.profitEth.toNat ∧
          tips.minChange.toNat ≤ tips.profit.toNat ∧
          (prices.isWeth tips.tokenIn = false → 10 * value.toNat ≤ 9 * ethBalance.toNat) := by
  obtain ⟨advanced, pct, hadvanced, hrandom, -, hle⟩ :=
    exists_tipsPct hpct (swap.arbProfitEth prices) draw
  have hresult : (∃ message, tipsAndValueForSwapType prices order swap tipsPct gasCost ethBalance
      draw = .error (.error message)) ∨ tipsAndValueForSwapType prices order swap tipsPct gasCost
      ethBalance draw = backrunTips prices swap pct gasCost ethBalance := by
    simp only [tipsAndValueForSwapType, hadvanced, hrandom, Failure.ofOption, bind, Except.bind]
    split
    · exact Or.inl ⟨_, rfl⟩
    · cases swap with
      | backrunSwapLine line => exact Or.inr rfl
      | backrunSwapSteps step₀ step₁ => exact Or.inr rfl
      | _ => exact hswap.elim
  have hcases := backrunTips_cases prices gasCost hprofit hbalance hle
  rcases hresult with ⟨message, herror⟩ | hresult
  · rw [herror]
    exact ⟨by simp, fun tipsVec value h => absurd h (by simp)⟩
  · rw [hresult]
    rcases hcases with ⟨message, herror⟩ | ⟨tips, value, price, hok, htoken, hprice, hgas, hexact⟩
    · rw [herror]
      exact ⟨by simp, fun tipsVec value h => absurd h (by simp)⟩
    · rw [hok]
      refine ⟨by simp, fun tipsVec value' h => ?_⟩
      cases Except.ok.inj h
      exact ⟨tips, price, pct, rfl, htoken, hprice, hle, hexact, hexact.within hle hgas⟩

/-- One ether buys one ether of every token, and none has the flag. -/
def flatPrices : TokenPrices where
  weth := none
  ethPrice _ := some oneEther
  ethPrice_ne_zero _ _ h := by
    cases Option.some.inj h
    decide

/-- The order in which the entries come. -/
def plainOrder : IterationOrder := ⟨id, fun _ => List.Perm.refl _⟩

def roundTrip (token other : Address) (amountIn amountOut : U256) : Swap :=
  .backrunSwapLine
    { path := ⟨[Token.new token, Token.new other, Token.new token], [], false, []⟩
      amountIn := .set amountIn
      amountOut := .set amountOut
      calculationResults := []
      swapTo := none
      gasUsed := none }

theorem round_trip_tips_within_profit :
    tipsAndValueForSwapType flatPrices plainOrder (roundTrip 1 2 1000 5000) (some 9000)
      (some 100) 1000000 7 ≠ .error .panic :=
  (backrun_tips_within_profit flatPrices plainOrder (roundTrip 1 2 1000 5000) (some 9000)
    (some 100) 1000000 7 trivial (by decide) (by decide)
    (fun _ h => Option.some.inj h ▸ ⟨by decide, by decide⟩)).1

end Single

end Tips

end Kabu
