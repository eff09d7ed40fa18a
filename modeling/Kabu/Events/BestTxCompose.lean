import Kabu.Framework.Records
import Kabu.Market.Swap

/-!
# The best answers so far

A searcher finds many swaps for one change of the market, and only those go on that are good
compared with the best so far.  There are four ways to be good: by the profit, by the tips, and by
either of them for a unit of gas.  For each the best request is remembered, and a request passes if
it beats the one that is remembered, or if it has more than a certain share of it.

The four are looked at one after another, and only as long as the request has not passed: `judge` is
one look, and `BestTxSwapCompose.check` is all of them.
-/

namespace Kabu

open Records

/-- The part of a request that is compared. -/
structure SwapComposeData where
  swap : Swap
  tips : Option U256
  gas : UInt64

namespace SwapComposeData

variable (prices : TokenPrices) (request : SwapComposeData)

def arbProfitEth : U256 := request.swap.arbProfitEth prices

def tipsOrDefault : U256 := request.tips.getD 0

/-- The source's `U256::from` of the gas. -/
def gasWord : U256 := BitVec.ofNat 256 request.gas.toNat

def tipsGasRatio : U256 :=
  if request.gas = 0 then 0 else request.tipsOrDefault / request.gasWord

def profitEthGasRatio : U256 :=
  if request.gas = 0 then 0 else request.arbProfitEth prices / request.gasWord

def crossPools (othersPools : List PoolId) : Bool :=
  request.swap.getPoolIdVec.any fun id => othersPools.contains id

end SwapComposeData

structure BestTxSwapCompose where
  validityPct : Option U256
  bestProfitSwap : Option SwapComposeData
  bestProfitGasRatioSwap : Option SwapComposeData
  bestTipsSwap : Option SwapComposeData
  bestTipsGasRatioSwap : Option SwapComposeData

namespace BestTxSwapCompose

def newWithPct (validityPct : U256) : BestTxSwapCompose :=
  ⟨some validityPct, none, none, none, none⟩

/-- One look at a request: the record after it, and whether the request passes. -/
def judge (quantity : SwapComposeData → U256) (validityPct : Option U256)
    (best : Option SwapComposeData) (request : SwapComposeData) : Option SwapComposeData × Bool :=
  match best with
  | none => (some request, true)
  | some bestSwap =>
      if quantity bestSwap < quantity request then (some request, true)
      else match validityPct with
        | some pct => (some bestSwap, decide (quantity bestSwap * pct / 10000 < quantity request))
        | none => (some bestSwap, false)

variable (prices : TokenPrices)

def check (self : BestTxSwapCompose) (request : SwapComposeData) : BestTxSwapCompose × Bool :=
  let profit := judge (SwapComposeData.arbProfitEth prices) self.validityPct self.bestProfitSwap
    request
  let tips :=
    if !profit.2 && request.tips.isSome then
      judge SwapComposeData.tipsOrDefault self.validityPct self.bestTipsSwap request
    else (self.bestTipsSwap, profit.2)
  if !tips.2 && request.gas != 0 then
    let tipsGas := judge SwapComposeData.tipsGasRatio self.validityPct self.bestTipsGasRatioSwap
      request
    -- looked at even if the request has passed with its tips
    let profitGas := judge (SwapComposeData.profitEthGasRatio prices) self.validityPct
      self.bestProfitGasRatioSwap request
    (⟨self.validityPct, profit.1, profitGas.1, tips.1, tipsGas.1⟩, tipsGas.2 || profitGas.2)
  else (⟨self.validityPct, profit.1, self.bestProfitGasRatioSwap, tips.1,
    self.bestTipsGasRatioSwap⟩, tips.2)

/-! ## The four quantities -/

inductive Metric
  | profit | tips | tipsGas | profitGas
  deriving DecidableEq, Repr

namespace Metric

def quantity : Metric → SwapComposeData → U256
  | .profit => SwapComposeData.arbProfitEth prices
  | .tips => SwapComposeData.tipsOrDefault
  | .tipsGas => SwapComposeData.tipsGasRatio
  | .profitGas => SwapComposeData.profitEthGasRatio prices

/-- The request has the quantity. -/
def Defined : Metric → SwapComposeData → Prop
  | .profit, _ => True
  | .tips, request => request.tips.isSome
  | .tipsGas, request => request.gas ≠ 0
  | .profitGas, request => request.gas ≠ 0

/-- The quantities that are looked at before this one, and may keep the source from it. -/
def before : Metric → List Metric
  | .profit => []
  | .tips => [.profit]
  | .tipsGas => [.profit, .tips]
  | .profitGas => [.profit, .tips]

end Metric

def record (self : BestTxSwapCompose) : Metric → Option SwapComposeData
  | .profit => self.bestProfitSwap
  | .tips => self.bestTipsSwap
  | .tipsGas => self.bestTipsGasRatioSwap
  | .profitGas => self.bestProfitGasRatioSwap

def Metric.amount (metric : Metric) (request : SwapComposeData) : ℕ :=
  (metric.quantity prices request).toNat

/-- The request beats the record, or has more than the share of it. -/
def Passes (metric : Metric) (self : BestTxSwapCompose) (request : SwapComposeData) : Prop :=
  ∀ b, self.record metric = some b →
    metric.quantity prices b < metric.quantity prices request ∨
      ∃ pct, self.validityPct = some pct ∧
        metric.quantity prices b * pct / 10000 < metric.quantity prices request

/-- The request has not passed before this quantity is looked at. -/
def Reaches (metric : Metric) (self : BestTxSwapCompose) (request : SwapComposeData) : Prop :=
  ∀ earlier ∈ metric.before, earlier.Defined request → ¬ Passes prices earlier self request

section Check

variable {prices} {self : BestTxSwapCompose} {request : SwapComposeData}

lemma judge_fst (quantity : SwapComposeData → U256) (validityPct : Option U256)
    (best : Option SwapComposeData) (request : SwapComposeData) :
    (judge quantity validityPct best request).1 =
      improve (fun r => (quantity r).toNat) best request := by
  unfold judge improve
  cases best with
  | none => rfl
  | some b =>
      by_cases h : quantity b < quantity request
      · simp only [if_pos h, if_pos (BitVec.lt_def.mp h)]
      · simp only [if_neg h, if_neg fun hlt => h (BitVec.lt_def.mpr hlt)]
        cases validityPct <;> rfl

lemma judge_snd (metric : Metric) (self : BestTxSwapCompose) (request : SwapComposeData) :
    (judge (metric.quantity prices) self.validityPct (self.record metric) request).2 = true ↔
      Passes prices metric self request := by
  unfold judge Passes
  cases self.record metric with
  | none => simp
  | some b =>
      by_cases h : metric.quantity prices b < metric.quantity prices request
      · simp [h]
      · cases self.validityPct with
        | none => simp [h]
        | some pct => simp [h]

/-- One look at the request by one of the quantities. -/
def look (prices : TokenPrices) (self : BestTxSwapCompose) (request : SwapComposeData)
    (metric : Metric) : Option SwapComposeData × Bool :=
  judge (metric.quantity prices) self.validityPct (self.record metric) request

lemma look_fst (metric : Metric) : (look prices self request metric).1 =
    improve (metric.amount prices) (self.record metric) request :=
  judge_fst _ _ _ _

lemma look_snd (metric : Metric) : (look prices self request metric).2 = true ↔
    Passes prices metric self request :=
  judge_snd metric self request

/-- The source looks at the request by this quantity. -/
def looked (prices : TokenPrices) (self : BestTxSwapCompose) (request : SwapComposeData) :
    Metric → Bool
  | .profit => true
  | .tips => !(look prices self request .profit).2 && request.tips.isSome
  | .tipsGas | .profitGas => !(look prices self request .profit).2 &&
      !(request.tips.isSome && (look prices self request .tips).2) && request.gas != 0

lemma looked_eq_true_iff (metric : Metric) : looked prices self request metric = true ↔
    metric.Defined request ∧ Reaches prices metric self request := by
  have hgas : (!(look prices self request .profit).2 &&
      !(request.tips.isSome && (look prices self request .tips).2) && request.gas != 0) = true ↔
      request.gas ≠ 0 ∧ ∀ earlier ∈ [Metric.profit, .tips], earlier.Defined request →
        ¬ (look prices self request earlier).2 = true := by
    rw [List.forall_mem_cons, List.forall_mem_singleton]
    cases htips : request.tips <;> simp [Metric.Defined, htips, and_comm]
  unfold Reaches
  simp only [← look_snd]
  cases metric with
  | profit => simp [looked, Metric.before, Metric.Defined]
  | tips => simp [looked, Metric.before, Metric.Defined, and_comm]
  | tipsGas => exact hgas
  | profitGas => exact hgas

lemma check_eq : check prices self request =
    let look := look prices self request
    let looked := looked prices self request
    (⟨self.validityPct, (look .profit).1,
      if looked .profitGas then (look .profitGas).1 else self.bestProfitGasRatioSwap,
      if looked .tips then (look .tips).1 else self.bestTipsSwap,
      if looked .tipsGas then (look .tipsGas).1 else self.bestTipsGasRatioSwap⟩,
      (look .profit).2 || (looked .tips && (look .tips).2) ||
        (looked .tipsGas && ((look .tipsGas).2 || (look .profitGas).2))) := by
  show (let look := look prices self request
    let tips := if !(look .profit).2 && request.tips.isSome then look .tips
      else (self.bestTipsSwap, (look .profit).2)
    if !tips.2 && request.gas != 0 then
      ((⟨self.validityPct, (look .profit).1, (look .profitGas).1, tips.1, (look .tipsGas).1⟩ :
        BestTxSwapCompose), (look .tipsGas).2 || (look .profitGas).2)
    else (⟨self.validityPct, (look .profit).1, self.bestProfitGasRatioSwap, tips.1,
      self.bestTipsGasRatioSwap⟩, tips.2)) = _
  simp only [looked]
  rcases Bool.eq_false_or_eq_true (look prices self request .profit).2 with hprofit | hprofit
  · simp [hprofit]
  rcases Bool.eq_false_or_eq_true request.tips.isSome with hsome | hsome
  · rcases Bool.eq_false_or_eq_true (look prices self request .tips).2 with htips | htips
    · simp [hprofit, hsome, htips]
    · by_cases hgas : request.gas = 0 <;> simp [hprofit, hsome, htips, hgas]
  · by_cases hgas : request.gas = 0 <;> simp [hprofit, hsome, hgas]

lemma validityPct_check : (check prices self request).1.validityPct = self.validityPct := by
  rw [check_eq]

/-- **Records.**  A record is improved if the source looks at it. -/
lemma record_check (metric : Metric) : (check prices self request).1.record metric =
    if looked prices self request metric then
      improve (metric.amount prices) (self.record metric) request
    else self.record metric := by
  rw [← look_fst, check_eq]
  cases metric <;> rfl

/-- **Answers.**  A request passes if it passes by one of the quantities that it has, since one that
is not looked at comes after one by which the request has passed. -/
lemma check_snd_iff : (check prices self request).2 = true ↔
    ∃ metric : Metric, metric.Defined request ∧ Passes prices metric self request := by
  have hlooked : (check prices self request).2 = true ↔
      ∃ metric, looked prices self request metric = true ∧
        (look prices self request metric).2 = true := by
    rw [check_eq]
    simp only [Bool.or_eq_true, Bool.and_eq_true]
    constructor
    · rintro ((h | h) | ⟨hgas, h | h⟩)
      · exact ⟨.profit, rfl, h⟩
      · exact ⟨.tips, h⟩
      · exact ⟨.tipsGas, hgas, h⟩
      · exact ⟨.profitGas, hgas, h⟩
    · rintro ⟨metric, hmetric, h⟩
      cases metric with
      | profit => exact Or.inl (Or.inl h)
      | tips => exact Or.inl (Or.inr ⟨hmetric, h⟩)
      | tipsGas => exact Or.inr ⟨hmetric, Or.inl h⟩
      | profitGas => exact Or.inr ⟨hmetric, Or.inr h⟩
  rw [hlooked]
  constructor
  · rintro ⟨metric, hmetric, h⟩
    exact ⟨metric, ((looked_eq_true_iff metric).mp hmetric).1, (look_snd metric).mp h⟩
  · rintro ⟨metric, hdefined, hpasses⟩
    have hpass : ∀ metric : Metric, metric.Defined request → Reaches prices metric self request →
        Passes prices metric self request → ∃ metric, looked prices self request metric = true ∧
          (look prices self request metric).2 = true := fun metric hdefined hreaches hpasses =>
      ⟨metric, (looked_eq_true_iff metric).mpr ⟨hdefined, hreaches⟩, (look_snd metric).mpr hpasses⟩
    by_cases hprofit : Passes prices .profit self request
    · exact hpass .profit trivial (by simp [Reaches, Metric.before]) hprofit
    by_cases htips : Metric.tips.Defined request ∧ Passes prices .tips self request
    · exact hpass .tips htips.1 (by simp [Reaches, Metric.before, hprofit]) htips.2
    · refine hpass metric hdefined (fun earlier hearlier hdefined' => ?_) hpasses
      cases earlier with
      | profit => exact hprofit
      | tips => exact fun h => htips ⟨hdefined', h⟩
      | _ => cases metric <;> simp [Metric.before] at hearlier

end Check

end BestTxSwapCompose

end Kabu
