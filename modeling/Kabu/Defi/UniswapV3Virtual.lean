import Kabu.Framework.WhileLoop
import Kabu.Defi.SwapMath
import Kabu.Defi.TickBitmap
import Kabu.Defi.UniswapV3DbReader

/-!
# Swaps in a UniswapV3 pool, simulated

A swap is simulated in rounds.  A round looks for the next tick in the bitmap, takes one step
towards its price, or towards the limit if this is nearer, and if it arrives at the tick it changes
the liquidity as the tick says and goes on from there.  The rounds are over when nothing remains of
the amount, or at the limit.

There are two functions, one for an amount that comes in and one for an amount that goes out.  Their
loops differ only in what a step does to the amounts, which is `Specified`.  A remaining amount is
counted down to zero, from above for an input and from below for an output.

The loops need not end, and the functions here take the number of rounds they may make.
-/

namespace Kabu

open SqrtPriceMath SwapMath TickBitmap TickMath

structure UniswapV3Pool where
  address : Address
  token0 : Address
  token1 : Address
  fee : UInt32
  deriving DecidableEq, Repr

namespace UniswapV3Pool

def getPriceStep (fee : UInt32) : UInt32 :=
  if fee = 10000 then 200
  else if fee = 3000 then 60
  else if fee = 500 then 10
  else if fee = 100 then 1
  else 0

def tickSpacing (pool : UniswapV3Pool) : UInt32 := getPriceStep pool.fee

/-- The word of the bitmap that is taken for that of a tick, as 16 bits. -/
def getTickBitmapIndex (tick spacing : ℤ) : ℤ :=
  let tickBitmapIndex := tick.tdiv spacing
  if tickBitmapIndex < 0 then Int.bmod ((tickBitmapIndex + 1).tdiv 256 - 1) 65536
  else Int.bmod (tickBitmapIndex / 256) 65536

/-- The words of the bitmap for which the state is loaded. -/
def prefetchedWords (tick spacing : ℤ) : List ℤ :=
  [-4, -3, -2, -1, 0, 1, 2, 3].map fun i => Int.bmod (getTickBitmapIndex tick spacing + i) 65536

def getAddress (pool : UniswapV3Pool) : PoolId := .address pool.address

end UniswapV3Pool

/-- The source's `?` on a result of the price arithmetic. -/
def Failure.report {α : Type} : MathResult α → Except (Failure Report) α
  | .ok a => .ok a
  | .error (.error e) => .error (.error e.message)
  | .error .panic => .error .panic

namespace UniswapV3PoolVirtual

structure CurrentState where
  amountSpecifiedRemaining : I256
  amountCalculated : I256
  sqrtPriceX96 : U256
  tick : ℤ
  liquidity : U128
  deriving DecidableEq, Repr

/-- Where a step goes.  The rest of the source's record are the amounts of a `ComputedStep`. -/
structure StepComputations where
  tickNext : ℤ
  initialized : Bool
  sqrtPriceNextX96 : U256
  deriving DecidableEq, Repr

/-- Where a swap is, without the amounts. -/
structure Position where
  sqrtPriceX96 : U256
  tick : ℤ
  liquidity : U128
  deriving DecidableEq, Repr

def CurrentState.position (s : CurrentState) : Position := ⟨s.sqrtPriceX96, s.tick, s.liquidity⟩

/-! ## Amounts -/

/-- Which of the amounts is given. -/
inductive Specified
  | input
  | output
  deriving DecidableEq, Repr

namespace Specified

def initial : Specified → U256 → I256
  | .input, amount => amount
  | .output, amount => -amount

def remaining : Specified → I256 → ComputedStep → I256
  | .input, r, step => r - (step.amountIn + step.feeAmount)
  | .output, r, step => r + step.amountOut

def calculated : Specified → I256 → ComputedStep → I256
  | .input, x, step => x - step.amountOut
  | .output, x, step => x + (step.amountIn + step.feeAmount)

def result : Specified → I256 → U256
  | .input, x => -x
  | .output, x => x

end Specified

/-! ## One round -/

/-- What does not change in the rounds: the reads, the pool and the direction. -/
structure Setting where
  ticksLiquidityNet : ℤ → Except Report I128
  tickBitmap : ℤ → Except Report U256
  tickSpacing : ℤ
  fee : UInt32
  zeroForOne : Bool

namespace Setting

variable (v : Setting)

def sqrtPriceLimitX96 : U256 := if v.zeroForOne then minSqrtRatio + 1 else maxSqrtRatio - 1

def nextStep (tick : ℤ) : Except (Failure Report) StepComputations := do
  let (tickNext, initialized) ← Failure.report
    (nextInitializedTickWithinOneWord v.tickBitmap tick v.tickSpacing v.zeroForOne)
  let tickNext := max minTick (min maxTick tickNext)
  let sqrtPriceNextX96 ← Failure.report (getSqrtRatioAtTick tickNext)
  .ok ⟨tickNext, initialized, sqrtPriceNextX96⟩

def swapTargetSqrtRatio (step : StepComputations) : U256 :=
  if v.zeroForOne then
    if step.sqrtPriceNextX96 < v.sqrtPriceLimitX96 then v.sqrtPriceLimitX96
    else step.sqrtPriceNextX96
  else if v.sqrtPriceLimitX96 < step.sqrtPriceNextX96 then v.sqrtPriceLimitX96
  else step.sqrtPriceNextX96

/-- The liquidity beyond an initialized tick.  A change that cannot be read is none. -/
def crossTick (liquidity : U128) (tickNext : ℤ) : Except (Failure Report) U128 :=
  let liquidityNet := unwrapOr 0 (v.ticksLiquidityNet tickNext)
  let liquidityNet := if v.zeroForOne then -liquidityNet else liquidityNet
  if liquidityNet.toInt < 0 then
    if liquidity < -liquidityNet then .error (.error "LIQUIDITY_UNDERFLOW")
    else .ok (liquidity - -liquidityNet)
  else .ok (liquidity + liquidityNet)

def liquidityBeyond (liquidity : U128) (step : StepComputations) : Except (Failure Report) U128 :=
  if step.initialized then v.crossTick liquidity step.tickNext else .ok liquidity

def moveTo (p : Position) (step : StepComputations) (sqrtPriceX96 : U256) :
    Except (Failure Report) Position :=
  if sqrtPriceX96 = step.sqrtPriceNextX96 then do
    let liquidity ← v.liquidityBeyond p.liquidity step
    .ok ⟨sqrtPriceX96, if v.zeroForOne then step.tickNext - 1 else step.tickNext, liquidity⟩
  else if sqrtPriceX96 ≠ p.sqrtPriceX96 then do
    let tick ← Failure.report (getTickAtSqrtRatio sqrtPriceX96)
    .ok ⟨sqrtPriceX96, tick, p.liquidity⟩
  else .ok ⟨sqrtPriceX96, p.tick, p.liquidity⟩

def round (specified : Specified) (s : CurrentState) : Except (Failure Report) CurrentState := do
  let step ← v.nextStep s.tick
  let computed ← Failure.report (computeSwapStep s.sqrtPriceX96 (v.swapTargetSqrtRatio step)
    s.liquidity s.amountSpecifiedRemaining v.fee)
  let p ← v.moveTo s.position step computed.sqrtRatioNext
  .ok ⟨specified.remaining s.amountSpecifiedRemaining computed,
    specified.calculated s.amountCalculated computed, p.sqrtPriceX96, p.tick, p.liquidity⟩

def goesOn (s : CurrentState) : Bool :=
  decide (s.amountSpecifiedRemaining ≠ 0) && decide (s.sqrtPriceX96 ≠ v.sqrtPriceLimitX96)

end Setting

/-! ## The simulations -/

def readPosition (db : DatabaseRef) (poolAddress : Address) : Except Report Position := do
  let slot0 ← UniswapV3DbReader.slot0 db poolAddress
  let liquidity ← UniswapV3DbReader.liquidity db poolAddress
  .ok ⟨slot0.sqrtPriceX96.setWidth 256, slot0.tick, liquidity⟩

def Position.start (p : Position) (specified : Specified) (amount : U256) : CurrentState :=
  ⟨specified.initial amount, 0, p.sqrtPriceX96, p.tick, p.liquidity⟩

def finish (specified : Specified) (s : CurrentState) : Except (Failure Report) U256 :=
  if s.amountSpecifiedRemaining = 0 then .ok (specified.result s.amountCalculated)
  else .error (.error "NOT_ENOUGH_LIQUIDITY")

variable [Keccak]

/-- The setting of a swap.  The pool has the first of its tokens as token 0. -/
def setting (db : DatabaseRef) (poolAddress : Address) (pool : UniswapV3Pool) (tokenIn : Address) :
    Setting where
  ticksLiquidityNet := UniswapV3DbReader.ticksLiquidityNet db poolAddress
  tickBitmap := UniswapV3DbReader.tickBitmap db poolAddress
  tickSpacing := pool.tickSpacing.toNat
  fee := pool.fee
  zeroForOne := decide (tokenIn = pool.token0)

def simulateSwap (specified : Specified) (rounds : ℕ) (db : DatabaseRef) (pool : UniswapV3Pool)
    (tokenIn : Address) (amount : U256) : Option (Except (Failure Report) U256) :=
  if amount = 0 then some (.ok 0)
  else
    match pool.getAddress with
    | .b256 _ => some (.error (.error "B256 pool ID variant not supported"))
    | .address poolAddress =>
        match readPosition db poolAddress with
        | .error e => some (.error (.error e))
        | .ok p =>
            let v := setting db poolAddress pool tokenIn
            (WhileLoop.run v.goesOn (v.round specified) rounds (p.start specified amount)).map
              fun last => last.bind (finish specified)

def simulateSwapInAmountProvider : ℕ → DatabaseRef → UniswapV3Pool → Address → U256 →
    Option (Except (Failure Report) U256) :=
  simulateSwap .input

def simulateSwapOutAmountProvided : ℕ → DatabaseRef → UniswapV3Pool → Address → U256 →
    Option (Except (Failure Report) U256) :=
  simulateSwap .output

end UniswapV3PoolVirtual

end Kabu
