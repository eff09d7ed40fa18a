import Kabu.Framework.Rounds
import Kabu.Framework.SlopeTable
import Kabu.Market.Swap

/-!
# Tips

To have a swap included, a share of what it earns is paid as a tip.  The share is given, or it falls
with the profit along two slopes, and in both cases a random number of up to 49 parts in ten
thousand is taken off it.  From the profit in ETH the cost of the gas is taken first.  What the swap
has to bring back at least is the gas and the tip, in its own token.

A tip is paid out of the balance in ETH, except for a swap in the wrapped native token, and it is
cut to nine tenths of the balance if that does not reach.

For several swaps at once the gas is divided evenly, the tips are collected token by token, and the
sum is then put on one entry.  The entries are visited in the order of a hash map, which is a
parameter here (`IterationOrder`).
-/

namespace Kabu

structure Tips where
  tokenIn : Token
  profit : U256
  profitEth : U256
  tips : U256
  minChange : U256

/-- The order in which the entries of a hash map are visited. -/
structure IterationOrder where
  visit : List Tips → List Tips
  perm : ∀ entries, (visit entries).Perm entries

namespace Tips

/-- The source's `ok_or_eyre`. -/
def okOr {α : Type} (message : Report) : Option α → Except (Failure Report) α
  | some a => .ok a
  | none => .error (.error message)

/-! ## The share -/

def startPct : U256 := 9900

def slopes : List (U256 × U256) :=
  [(10000000000000000000, 7000), (50000000000000000000, 5000)]

/-- `none` is the panic on a number of more than 32 bits. -/
def toU32 (x : U256) : Option ℕ := if x.toNat < 2 ^ 32 then some x.toNat else none

/-- The loop over the slopes, from the point and with the share at which the last one ended. -/
def tipsPctFrom (profit : U256) : List (U256 × U256) → U256 → U256 → Option ℕ
  | [], _, pct => toU32 pct
  | (x, y) :: slopes, point, pct =>
      if profit < x then toU32 (pct - (pct - y) * (profit - point) / (x - point))
      else tipsPctFrom profit slopes x y

def tipsPctAdvanced (profit : U256) : Option ℕ := tipsPctFrom profit slopes 0 startPct

/-- `none` is the panic on a share that is less than what is taken off. -/
def randomizeTipsPct (tipsPct draw : ℕ) : Option ℕ :=
  if draw % 50 ≤ tipsPct then some (tipsPct - draw % 50) else none

/-! ## Single swaps -/

/-- The profit is less than the gas, if there is a cost of gas. -/
def lessThanGas (profitEth : U256) (gasCost : Option U256) : Bool :=
  gasCost.any fun gas => decide (profitEth < gas)

def nineTenths (ethBalance : U256) : U256 := ethBalance * 9000 / 10000

def backrunTips (prices : TokenPrices) (swap : Swap) (tipsPct : ℕ) (gasCost : Option U256)
    (ethBalance : U256) : Except (Failure Report) (List Tips × U256) := do
  let profit := swap.arbProfit
  if profit = 0 then .error (.error "NO_PROFIT")
  else
    let tokenIn ← okOr "NO_FIRST_TOKEN" swap.getFirstToken
    let profitEth ← okOr "CALC_ETH_VALUE_FAILED" (prices.calcEthValue tokenIn profit)
    if lessThanGas profitEth gasCost then .error (.error "NO_PROFIT_EXCEEDING_GAS")
    else if profitEth < gasCost.getD 0 then .error (.error "SUBTRACTION_OVERFLOWN")
    else
      let tips := (profitEth - gasCost.getD 0) * BitVec.ofNat 256 tipsPct / 10000
      let minChange ← Failure.ofOption
        (prices.calcTokenValueFromEth tokenIn (gasCost.getD 0 + tips))
      if !prices.isWeth tokenIn && decide (nineTenths ethBalance < tips) then
        return ([⟨tokenIn, profit, profitEth, nineTenths ethBalance, minChange⟩],
          nineTenths ethBalance)
      else
        return ([⟨tokenIn, profit, profitEth, tips, minChange⟩],
          if prices.isWeth tokenIn then 0 else tips)

/-! ## Several swaps -/

def recordTips (prices : TokenPrices) (tipsPct : ℕ) (gasPerRecord : U256) (swap : Swap) :
    Except (Failure Report) Tips := do
  let tokenIn ← okOr "NO_FIRST_TOKEN" swap.getFirstToken
  let profit := swap.arbProfit
  if profit = 0 then .error (.error "NO_PROFIT")
  else
    let profitEth ← okOr "CALC_ETH_VALUE_FAILED" (prices.calcEthValue tokenIn profit)
    if profitEth < gasPerRecord then .error (.error "SUBTRACTION_OVERFLOWN")
    else
      let tips := (profitEth - gasPerRecord) * BitVec.ofNat 256 tipsPct / 10000
      let minChange ← Failure.ofOption
        (prices.calcTokenValueFromEth tokenIn (tips + gasPerRecord))
      return ⟨tokenIn, profit, profitEth, tips, minChange⟩

/-- An entry with what is added to it. -/
def add (entry record : Tips) : Tips where
  tokenIn := entry.tokenIn
  profit := entry.profit + record.profit
  profitEth := entry.profitEth + record.profitEth
  tips := entry.tips + record.tips
  minChange := entry.minChange + record.minChange

/-- The entry of the record's token, which is made if there is none. -/
def collect (entries : AssocMap Address Tips) (record : Tips) : AssocMap Address Tips :=
  entries.upsert record.tokenIn.address ⟨record.tokenIn, 0, 0, 0, 0⟩ fun entry => entry.add record

/-- The loop over the swaps. -/
def collectFrom (prices : TokenPrices) (tipsPct : ℕ) (gasPerRecord : U256)
    (entries : AssocMap Address Tips) (swaps : List Swap) :
    Except (Failure Report) (AssocMap Address Tips) :=
  swaps.foldlM (fun entries swap => do
    return collect entries (← recordTips prices tipsPct gasPerRecord swap)) entries

def sumOf (p : Tips → Bool) (f : Tips → U256) (entries : List Tips) : U256 :=
  ((entries.filter p).map f).foldl (· + ·) 0

/-- The loop over the entries if one of them is in the wrapped native token, with what has to be
paid so far. -/
def wethTips (prices : TokenPrices) (due profitEth ethBalance : U256) :
    List Tips → U256 → Except (Failure Report) (List Tips × U256)
  | [], value => .ok ([], value)
  | entry :: entries, value =>
      if prices.isWeth entry.tokenIn then
        let value := if profitEth < due then due - profitEth else value
        if ethBalance < value then
          if due < value then .error (.error "SUBTRACTION_OVERFLOWN")
          else do
            let rest ← wethTips prices due profitEth ethBalance entries (nineTenths ethBalance)
            return ({ entry with tips := due - value + nineTenths ethBalance } :: rest.1, rest.2)
        else do
          let rest ← wethTips prices due profitEth ethBalance entries value
          return ({ entry with tips := due } :: rest.1, rest.2)
      else do
        let rest ← wethTips prices due profitEth ethBalance entries value
        return ({ entry with tips := 0 } :: rest.1, rest.2)

/-- The loop if none is: the first entry takes it all. -/
def plainTips (value : U256) : List Tips → List Tips
  | [] => []
  | entry :: entries =>
      { entry with tips := value } :: entries.map fun entry => { entry with tips := 0 }

/-- What is paid, out of the entries. -/
def spreadTips (prices : TokenPrices) (ethBalance : U256) (entries : List Tips) :
    Except (Failure Report) (List Tips × U256) :=
  if entries.any fun entry => prices.isWeth entry.tokenIn then
    let totalTipsEth := sumOf (fun entry => prices.isWeth entry.tokenIn) Tips.tips entries
    let totalTipsNonEth := sumOf (fun entry => !prices.isWeth entry.tokenIn) Tips.tips entries
    let totalProfitEth := sumOf (fun entry => prices.isWeth entry.tokenIn) Tips.profitEth entries
    wethTips prices (totalTipsEth + totalTipsNonEth) totalProfitEth ethBalance entries 0
  else
    let totalTips := sumOf (fun _ => true) Tips.tips entries
    let value := if ethBalance ≤ totalTips then nineTenths ethBalance else totalTips
    .ok (plainTips value entries, value)

def multipleTips (prices : TokenPrices) (order : IterationOrder) (swaps : List Swap) (tipsPct : ℕ)
    (gasCost : Option U256) (ethBalance : U256) : Except (Failure Report) (List Tips × U256) := do
  if lessThanGas ((Swap.multiple swaps).arbProfitEth prices) gasCost then
    .error (.error "NO_PROFIT_EXCEEDING_GAS")
  else if swaps.length = 0 then .error .panic
  else
    let gasPerRecord := gasCost.getD 0 / BitVec.ofNat 256 swaps.length
    let entries ← collectFrom prices tipsPct gasPerRecord ∅ swaps
    let paid ← spreadTips prices ethBalance (order.visit entries.values)
    return (paid.1, paid.2 + 100)

/-! ## All swaps -/

/-- The tips, and what has to be sent along.  The draw is the random number. -/
def tipsAndValueForSwapType (prices : TokenPrices) (order : IterationOrder) (swap : Swap)
    (tipsPct : Option ℕ) (gasCost : Option U256) (ethBalance : U256) (draw : ℕ) :
    Except (Failure Report) (List Tips × U256) := do
  let totalProfitEth := swap.arbProfitEth prices
  let advanced ← Failure.ofOption (tipsPctAdvanced totalProfitEth)
  let tipsPct ← Failure.ofOption (randomizeTipsPct (tipsPct.getD advanced) draw)
  if lessThanGas totalProfitEth gasCost then .error (.error "NOT_ENOUGH_PROFIT")
  else match swap with
    | .backrunSwapLine line =>
        backrunTips prices (.backrunSwapLine line) tipsPct gasCost ethBalance
    | .backrunSwapSteps step₀ step₁ =>
        backrunTips prices (.backrunSwapSteps step₀ step₁) tipsPct gasCost ethBalance
    | .multiple swaps => multipleTips prices order swaps tipsPct gasCost ethBalance
    | _ => .error (.error "NOT_IMPLEMENTED")

/-! ## Words as numbers -/

section Words

lemma toNat_mul_div {a b : U256} (c : U256) (h : a.toNat * b.toNat < 2 ^ 256) :
    (a * b / c).toNat = a.toNat * b.toNat / c.toNat := by
  rw [BitVec.toNat_udiv, BitVec.toNat_mul_of_lt h]

lemma toNat_oneEther : oneEther.toNat = 10 ^ 18 := rfl

lemma toNat_nineTenths {ethBalance : U256} (h : ethBalance.toNat < 2 ^ 120) :
    (nineTenths ethBalance).toNat = ethBalance.toNat * 9000 / 10000 :=
  toNat_mul_div _ (show ethBalance.toNat * 9000 < 2 ^ 256 by omega)

lemma toNat_share {x : U256} {tipsPct : ℕ} (hx : x.toNat < 2 ^ 180) (hpct : tipsPct ≤ 10000) :
    (x * BitVec.ofNat 256 tipsPct / 10000).toNat = x.toNat * tipsPct / 10000 := by
  have hword : (BitVec.ofNat 256 tipsPct).toNat = tipsPct := by
    rw [BitVec.toNat_ofNat, Nat.mod_eq_of_lt (by omega)]
  have hmul : x.toNat * tipsPct ≤ x.toNat * 10000 := Nat.mul_le_mul_left _ hpct
  rw [toNat_mul_div _ (by rw [hword]; omega), hword]
  rfl

lemma share_le {x tipsPct : ℕ} (hpct : tipsPct ≤ 10000) : x * tipsPct / 10000 ≤ x := by
  have hmul : x * tipsPct ≤ x * 10000 := Nat.mul_le_mul_left _ hpct
  omega

/-- The two conversions, one after the other, do not gain. -/
lemma convert_back_le {profit price ethValue : ℕ} (h : ethValue ≤ profit * 10 ^ 18 / price) :
    ethValue * price ≤ profit * 10 ^ 18 ∧ ethValue * price / 10 ^ 18 ≤ profit := by
  have hmul : ethValue * price ≤ profit * 10 ^ 18 :=
    (Nat.mul_le_mul_right price h).trans (Nat.div_mul_le_self _ _)
  exact ⟨hmul, Nat.div_le_of_le_mul (by rwa [Nat.mul_comm (10 ^ 18)])⟩

end Words

section Share

open SlopeTable

variable {profit point x pct y : U256} {slopes : List (U256 × U256)}

/-- The slopes as numbers. -/
def slopeTable (slopes : List (U256 × U256)) : List (ℕ × ℕ) :=
  slopes.map fun slope => (slope.1.toNat, slope.2.toNat)

lemma slope_mul_lt (hpct : pct.toNat < 2 ^ 32) (hx : x.toNat < 2 ^ 224)
    (hprofit : profit.toNat < x.toNat) :
    (pct.toNat - y.toNat) * (profit.toNat - point.toNat) < 2 ^ 256 :=
  calc (pct.toNat - y.toNat) * (profit.toNat - point.toNat)
      ≤ pct.toNat * x.toNat :=
        Nat.mul_le_mul (Nat.sub_le _ _) ((Nat.sub_le _ _).trans hprofit.le)
    _ < 2 ^ 32 * 2 ^ 224 := Nat.mul_lt_mul_of_lt_of_lt hpct hx
    _ = 2 ^ 256 := by rw [← pow_add]

lemma toNat_slope (hpct : pct.toNat < 2 ^ 32) (hx : x.toNat < 2 ^ 224) (hy : y ≤ pct)
    (hpoint : point ≤ profit) (hprofit : profit < x) :
    ((pct - y) * (profit - point) / (x - point)).toNat =
        (pct.toNat - y.toNat) * (profit.toNat - point.toNat) / (x.toNat - point.toNat) ∧
      (pct - (pct - y) * (profit - point) / (x - point)).toNat = pct.toNat -
        (pct.toNat - y.toNat) * (profit.toNat - point.toNat) / (x.toNat - point.toNat) := by
  have hfall : (pct - y).toNat = pct.toNat - y.toNat := BitVec.toNat_sub_of_le hy
  have hpart : (profit - point).toNat = profit.toNat - point.toNat :=
    BitVec.toNat_sub_of_le hpoint
  have hwhole : (x - point).toNat = x.toNat - point.toNat :=
    BitVec.toNat_sub_of_le (BitVec.le_def.mpr
      ((BitVec.le_def.mp hpoint).trans (BitVec.lt_def.mp hprofit).le))
  have hmul : (pct - y).toNat * (profit - point).toNat < 2 ^ 256 := by
    rw [hfall, hpart]
    exact slope_mul_lt hpct hx (BitVec.lt_def.mp hprofit)
  have hdown : ((pct - y) * (profit - point) / (x - point)).toNat =
      (pct.toNat - y.toNat) * (profit.toNat - point.toNat) / (x.toNat - point.toNat) := by
    rw [toNat_mul_div _ hmul, hfall, hpart, hwhole]
  have hle : (pct.toNat - y.toNat) * (profit.toNat - point.toNat) / (x.toNat - point.toNat) ≤
      pct.toNat - y.toNat := fall_le _ _ _ (BitVec.lt_def.mp hprofit).le
  refine ⟨hdown, ?_⟩
  rw [BitVec.toNat_sub_of_le (BitVec.le_def.mpr (by rw [hdown]; omega)), hdown]

lemma toU32_of_lt {x : U256} (h : x.toNat < 2 ^ 32) : toU32 x = some x.toNat := if_pos h

/-- **The loop computes the value of the table.** -/
lemma tipsPctFrom_eq (hfalls : Falls (slopeTable slopes) point.toNat pct.toNat)
    (hpoints : ∀ slope ∈ slopes, slope.1.toNat < 2 ^ 224) (hpct : pct.toNat < 2 ^ 32)
    (hpoint : point ≤ profit) :
    tipsPctFrom profit slopes point pct =
      some (valueAt profit.toNat (slopeTable slopes) point.toNat pct.toNat) := by
  induction slopes generalizing point pct with
  | nil => exact toU32_of_lt hpct
  | cons slope slopes ih =>
      obtain ⟨x, y⟩ := slope
      obtain ⟨hx, hy, hrest⟩ := hfalls
      obtain ⟨hxlt, hpoints'⟩ := List.forall_mem_cons.mp hpoints
      rw [tipsPctFrom, slopeTable, List.map_cons, valueAt]
      by_cases hlt : profit < x
      · obtain ⟨-, hvalue⟩ := toNat_slope hpct hxlt (BitVec.le_def.mpr hy) hpoint hlt
        rw [if_pos hlt, if_pos (BitVec.lt_def.mp hlt), ← hvalue]
        refine toU32_of_lt ?_
        rw [hvalue]
        exact (Nat.sub_le _ _).trans_lt hpct
      · rw [if_neg hlt, if_neg (fun h => hlt (BitVec.lt_def.mpr h))]
        exact ih hrest hpoints' (hy.trans_lt hpct) (BitVec.not_lt.mp hlt)

/-- The share as a number. -/
def tipsPctAt (profit : U256) : ℕ :=
  valueAt profit.toNat (slopeTable Tips.slopes) (0 : U256).toNat startPct.toNat

lemma slopes_falls : Falls (slopeTable Tips.slopes) (0 : U256).toNat startPct.toNat :=
  ⟨by decide, by decide, by decide, by decide, trivial⟩

lemma slopes_lt : ∀ slope ∈ Tips.slopes, slope.1.toNat < 2 ^ 224 :=
  List.forall_mem_cons.mpr ⟨by decide, List.forall_mem_singleton.mpr (by decide)⟩

lemma tipsPctAdvanced_eq (profit : U256) : tipsPctAdvanced profit = some (tipsPctAt profit) :=
  tipsPctFrom_eq slopes_falls slopes_lt (by decide) (BitVec.le_def.mpr (Nat.zero_le _))

lemma tipsPctAt_bounds (profit : U256) : 5000 ≤ tipsPctAt profit ∧ tipsPctAt profit ≤ 9900 :=
  ⟨lastValue_le_valueAt slopes_falls, valueAt_le slopes_falls⟩

lemma exists_tipsPctAdvanced (profit : U256) :
    ∃ pct, tipsPctAdvanced profit = some pct ∧ 5000 ≤ pct ∧ pct ≤ 9900 :=
  ⟨_, tipsPctAdvanced_eq profit, tipsPctAt_bounds profit⟩

/-- A share of at least 50 is left with something, and of no more than it was. -/
lemma randomizeTipsPct_of_le {tipsPct : ℕ} (h : 50 ≤ tipsPct) (draw : ℕ) :
    randomizeTipsPct tipsPct draw = some (tipsPct - draw % 50) :=
  if_pos (by omega)

end Share

end Tips

end Kabu
