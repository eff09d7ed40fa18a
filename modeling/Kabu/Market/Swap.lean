import Kabu.Market.SwapStep

/-!
# Swaps and what they earn

A swap is a line, two steps, or several swaps that are to be made together.  Its profit is in its
first token, and its profit in ETH is that times the price of the token.

The price of a token is how much of it one ether buys.  Prices are set while the node runs, and the
source keeps them in the tokens; here they are a parameter, `TokenPrices`.  A price of zero cannot
be divided by, so that no token has it is part of the structure.

The source also reads a flag of the token that stands for the wrapped native token.  None of its
constructors sets the flag, so `Token.weth` is false.  To have the code behind the flag modelled all
the same, `TokenPrices` has the address of the token with the flag, or none.
-/

namespace Kabu

structure TokenPrices where
  /-- The token with the flag of the wrapped native token. -/
  weth : Option Address
  ethPrice : Token → Option U256
  ethPrice_ne_zero : ∀ token price, ethPrice token = some price → price ≠ 0

def oneEther : U256 := 1000000000000000000

namespace TokenPrices

variable (prices : TokenPrices)

def isWeth (token : Token) : Bool := decide (prices.weth = some token.address)

def getEthPrice (token : Token) : Option U256 :=
  if prices.isWeth token then some oneEther else prices.ethPrice token

def calcEthValue (token : Token) (value : U256) : Option U256 :=
  (prices.getEthPrice token).map fun price => value * oneEther / price

def calcTokenValueFromEth (token : Token) (ethValue : U256) : Option U256 :=
  (prices.getEthPrice token).map fun price => ethValue * price / oneEther

end TokenPrices

/-! ## Lines and steps -/

def SwapLine.absProfit (line : SwapLine) : U256 :=
  match line.tokens.head?, line.tokens.getLast? with
  | some tokenIn, some tokenOut =>
      if tokenIn.address ≠ tokenOut.address then 0
      else match line.amountIn, line.amountOut with
        | .set amountIn, .set amountOut => if amountIn < amountOut then amountOut - amountIn else 0
        | _, _ => 0
  | _, _ => 0

def SwapLine.absProfitEth (prices : TokenPrices) (line : SwapLine) : U256 :=
  match line.getFirstToken with
  | some token => (prices.calcEthValue token line.absProfit).getD 0
  | none => 0

namespace SwapStep

/-- The loop over the lines, with the token found so far. -/
def firstTokenFrom : List SwapLine → Option Token → Option Token
  | [], found => found
  | line :: lines, found =>
      match line.getFirstToken, found with
      | none, _ => none
      | some token, none => firstTokenFrom lines (some token)
      | some token, some first =>
          if first.address ≠ token.address then none else firstTokenFrom lines (some first)

def getFirstToken (step : SwapStep) : Option Token := firstTokenFrom step.swapLineVec none

def arbProfit (step₀ step₁ : SwapStep) : U256 :=
  let inAmount := unwrapOr (BitVec.allOnes 256) step₀.getInAmount
  let outAmount := unwrapOr 0 step₁.getOutAmount
  if outAmount ≤ inAmount then 0 else outAmount - inAmount

def arbProfitEth (prices : TokenPrices) (step₀ step₁ : SwapStep) : U256 :=
  match step₀.getFirstToken with
  | some token => (prices.calcEthValue token (arbProfit step₀ step₁)).getD 0
  | none => 0

end SwapStep

/-! ## Swaps -/

inductive Swap
  | none
  | exchangeSwapLine (line : SwapLine)
  | backrunSwapSteps (step₀ step₁ : SwapStep)
  | backrunSwapLine (line : SwapLine)
  | multiple (swaps : List Swap)

namespace Swap

mutual

def arbProfit : Swap → U256
  | .backrunSwapLine line => line.absProfit
  | .backrunSwapSteps step₀ step₁ => SwapStep.arbProfit step₀ step₁
  | .multiple swaps => arbProfits swaps
  | .none => 0
  | .exchangeSwapLine _ => 0

def arbProfits : List Swap → U256
  | [] => 0
  | swap :: swaps => arbProfit swap + arbProfits swaps

end

mutual

def arbProfitEth (prices : TokenPrices) : Swap → U256
  | .exchangeSwapLine _ => 0
  | .backrunSwapLine line => line.absProfitEth prices
  | .backrunSwapSteps step₀ step₁ => SwapStep.arbProfitEth prices step₀ step₁
  | .multiple swaps => arbProfitsEth prices swaps
  | .none => 0

def arbProfitsEth (prices : TokenPrices) : List Swap → U256
  | [] => 0
  | swap :: swaps => arbProfitEth prices swap + arbProfitsEth prices swaps

end

mutual

def preEstimateGas : Swap → UInt64
  | .exchangeSwapLine line => line.gasUsed.getD 0
  | .backrunSwapLine line => line.gasUsed.getD 0
  | .backrunSwapSteps step₀ step₁ =>
      (step₀.swapLineVec.map fun line => line.gasUsed.getD 0).sum +
        (step₁.swapLineVec.map fun line => line.gasUsed.getD 0).sum
  | .multiple swaps => preEstimateGases swaps
  | .none => 0

def preEstimateGases : List Swap → UInt64
  | [] => 0
  | swap :: swaps => preEstimateGas swap + preEstimateGases swaps

end

def getFirstToken : Swap → Option Token
  | .exchangeSwapLine line => line.getFirstToken
  | .backrunSwapLine line => line.getFirstToken
  | .backrunSwapSteps step₀ _ => step₀.getFirstToken
  | .multiple _ => Option.none
  | .none => Option.none

/-! ### The pools of a swap -/

mutual

def getPoolIdVec : Swap → List PoolId
  | .exchangeSwapLine line => line.pools.map Pool.getPoolId
  | .backrunSwapLine line => line.pools.map Pool.getPoolId
  | .backrunSwapSteps step₀ step₁ =>
      (step₀.swapLineVec ++ step₁.swapLineVec).flatMap fun line => line.pools.map Pool.getPoolId
  | .multiple swaps => getPoolIdVecs swaps
  | .none => []

def getPoolIdVecs : List Swap → List PoolId
  | [] => []
  | swap :: swaps => getPoolIdVec swap ++ getPoolIdVecs swaps

end

/-- A line is somewhere in a swap. -/
inductive HasLine : Swap → SwapLine → Prop
  | exchange (line : SwapLine) : HasLine (.exchangeSwapLine line) line
  | backrun (line : SwapLine) : HasLine (.backrunSwapLine line) line
  | first {step₀ step₁ : SwapStep} {line : SwapLine} (h : line ∈ step₀.swapLineVec) :
      HasLine (.backrunSwapSteps step₀ step₁) line
  | second {step₀ step₁ : SwapStep} {line : SwapLine} (h : line ∈ step₁.swapLineVec) :
      HasLine (.backrunSwapSteps step₀ step₁) line
  | nested {swaps : List Swap} {swap : Swap} {line : SwapLine} (h : swap ∈ swaps)
      (hline : HasLine swap line) : HasLine (.multiple swaps) line

/-- A pool is in one of the lines of a swap. -/
def UsesPool (swap : Swap) (id : PoolId) : Prop :=
  ∃ line, swap.HasLine line ∧ ∃ pool ∈ line.pools, pool.getPoolId = id

mutual

/-- **The pools that are collected are those of the lines, however deep these are.** -/
lemma mem_getPoolIdVec {id : PoolId} :
    ∀ swap : Swap, id ∈ swap.getPoolIdVec ↔ swap.UsesPool id
  | .none => by
      refine ⟨fun h => absurd h List.not_mem_nil, ?_⟩
      rintro ⟨line, ⟨⟩, -⟩
  | .exchangeSwapLine line => by
      rw [getPoolIdVec, List.mem_map]
      refine ⟨fun h => ⟨line, .exchange line, h⟩, ?_⟩
      rintro ⟨_, ⟨⟩, h⟩
      exact h
  | .backrunSwapLine line => by
      rw [getPoolIdVec, List.mem_map]
      refine ⟨fun h => ⟨line, .backrun line, h⟩, ?_⟩
      rintro ⟨_, ⟨⟩, h⟩
      exact h
  | .backrunSwapSteps step₀ step₁ => by
      simp only [getPoolIdVec, List.mem_flatMap, List.mem_append, List.mem_map]
      constructor
      · rintro ⟨line, h | h, hpool⟩
        · exact ⟨line, .first h, hpool⟩
        · exact ⟨line, .second h, hpool⟩
      · rintro ⟨line, h | h, hpool⟩
        · exact ⟨line, Or.inl ‹_›, hpool⟩
        · exact ⟨line, Or.inr ‹_›, hpool⟩
  | .multiple swaps => by
      rw [getPoolIdVec, mem_getPoolIdVecs swaps]
      constructor
      · rintro ⟨swap, hmem, line, hline, hpool⟩
        exact ⟨line, .nested hmem hline, hpool⟩
      · rintro ⟨line, hline, hpool⟩
        cases hline with
        | nested hmem hline => exact ⟨_, hmem, line, hline, hpool⟩

lemma mem_getPoolIdVecs {id : PoolId} :
    ∀ swaps : List Swap, id ∈ getPoolIdVecs swaps ↔ ∃ swap ∈ swaps, swap.UsesPool id
  | [] => by simp [getPoolIdVecs]
  | swap :: swaps => by
      rw [getPoolIdVecs, List.mem_append, mem_getPoolIdVec swap, mem_getPoolIdVecs swaps]
      simp

end

/-! ### Single swaps -/

/-- A single swap that is made after another transaction. -/
def IsBackrun : Swap → Prop
  | .backrunSwapLine _ => True
  | .backrunSwapSteps _ _ => True
  | _ => False

lemma arbProfitEth_of_isBackrun (prices : TokenPrices) {swap : Swap} (h : swap.IsBackrun) :
    swap.arbProfitEth prices =
      (swap.getFirstToken.bind fun token => prices.calcEthValue token swap.arbProfit).getD 0 := by
  cases swap with
  | backrunSwapLine line =>
      rw [arbProfitEth, arbProfit, getFirstToken, SwapLine.absProfitEth]
      cases line.getFirstToken <;> rfl
  | backrunSwapSteps step₀ step₁ =>
      rw [arbProfitEth, arbProfit, getFirstToken, SwapStep.arbProfitEth]
      cases step₀.getFirstToken <;> rfl
  | _ => exact h.elim

end Swap

end Kabu
