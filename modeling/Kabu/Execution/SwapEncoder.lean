import Kabu.Execution.PoolEncoders
import Kabu.Market.SwapStep

/-!
# Two steps as calls

`encodeSwapSteps` makes the calls that carry out two swap steps of an arbitrage.  If the pools of
the first step can be flash swapped, it is taken as loan: the second step is encoded as plain swaps,
and the lines of the first are put around it one by one, each as flash swaps inside one another.  If
only the pools of the second step can be flash swapped, it is the other way round, and if neither,
the loan comes from the Balancer vault.

A line of the first step is encoded from its last pool to its first and a line of the second from
its first pool to its last, so that the pool that is called first is the outermost one.
-/

namespace Kabu

namespace SwapStep

def canFlashSwap (pools : PoolEncoding) (step : SwapStep) : Bool :=
  step.swapLineVec.all fun line => line.pools.all pools.canFlashSwap

def firstToken (step : SwapStep) : Option Token :=
  step.swapLineVec.head?.bind SwapLine.getFirstToken

def getFirstPool (step : SwapStep) : Option Pool :=
  match step.swapLineVec with
  | [line] => line.pools.head?
  | _ => none

end SwapStep

/-! ## Lines -/

structure SwapLineEncoder where
  multicallerAddress : Address
  pools : PoolEncoding

namespace SwapLineEncoder

variable (encoder : SwapLineEncoder)

/-- The loop over the pools of a line and its tokens, both from the back.  The calls so far are the
payload of the next call, and the next call is added behind them. -/
def flashInLoop (amountIn : SwapAmountType) :
    List Pool → List Token → SwapCalls → SwapCalls → Option Pool →
      Except (Failure Report) SwapCalls
  | [], _, flashSwapOpcodes, _, _ => .ok flashSwapOpcodes
  | flashPool :: pools, tokenTo :: tokenFrom :: tokens, flashSwapOpcodes, insideOpcodes, prevPool =>
      (ProtocolSwapOpcodesEncoderV2.encodeFlashSwapInAmountProvided encoder.pools tokenFrom.address
        tokenTo.address (if pools.isEmpty then amountIn else .relativeStack 0) flashPool prevPool
        (.opcodes insideOpcodes) encoder.multicallerAddress).bind fun added =>
          flashInLoop amountIn pools (tokenFrom :: tokens) (flashSwapOpcodes ++ added)
            (flashSwapOpcodes ++ added) (some flashPool)
  | _ :: _, _, _, _, _ => .error .panic

def encodeFlashSwapLineInAmount (line : SwapLine) (insideSwapOpcodes : SwapCalls)
    (fundsTo : Option Pool) : Except (Failure Report) SwapCalls :=
  encoder.flashInLoop line.amountIn line.pools.reverse line.tokens.reverse [] insideSwapOpcodes
    fundsTo

/-- The loop over the pools of a line and its tokens from the front.  Only the last call is kept. -/
def flashOutLoop (amountOut : SwapAmountType) :
    List Pool → List Token → SwapCalls → SwapCalls → Except (Failure Report) SwapCalls
  | [], _, flashSwapOpcodes, _ => .ok flashSwapOpcodes
  | flashPool :: pools, tokenFrom :: tokenTo :: tokens, _, insideOpcodes =>
      (ProtocolSwapOpcodesEncoderV2.encodeFlashSwapOutAmountProvided encoder.pools tokenFrom.address
        tokenTo.address (if pools.isEmpty then amountOut else .relativeStack 0) flashPool
        pools.head? (.opcodes insideOpcodes)
        encoder.multicallerAddress).bind fun flashSwapOpcodes =>
          flashOutLoop amountOut pools (tokenTo :: tokens) flashSwapOpcodes flashSwapOpcodes
  | _ :: _, _, _, _ => .error .panic

def encodeFlashSwapLineOutAmount (line : SwapLine) (insideSwapOpcodes : SwapCalls) :
    Except (Failure Report) SwapCalls :=
  encoder.flashOutLoop line.amountOut line.pools line.tokens [] insideSwapOpcodes

/-- Each swap sends the tokens to the next pool, and the last one to where the funds go. -/
def swapLoop (fundsTo : Option Pool) :
    List Pool → List Token → SwapAmountType → SwapCalls → Except (Failure Report) SwapCalls
  | [], _, _, swapOpcodes => .ok swapOpcodes
  | curPool :: pools, tokenFrom :: tokenTo :: tokens, amountIn, swapOpcodes =>
      (ProtocolSwapOpcodesEncoderV2.encodeSwapInAmountProvided encoder.pools tokenFrom.address
        tokenTo.address amountIn curPool (if pools.isEmpty then fundsTo else pools.head?) .empty
        encoder.multicallerAddress).bind fun added =>
          swapLoop fundsTo pools (tokenTo :: tokens) (.relativeStack 0) (swapOpcodes ++ added)
  | _ :: _, _, _, _ => .error .panic

def encodeSwapLineInAmount (line : SwapLine) (fundsTo : Option Pool) :
    Except (Failure Report) SwapCalls :=
  encoder.swapLoop fundsTo line.pools line.tokens line.amountIn []

end SwapLineEncoder

/-! ## Steps -/

structure SwapStepEncoder where
  multicallerAddress : Address
  swapLineEncoder : SwapLineEncoder

namespace SwapStepEncoder

def balancerVaultAddress : Address := 0xBA12222222228d8Ba445958a75a0704d566BF2C8

variable (encoder : SwapStepEncoder)

/-- A line of several, as a call of the multicaller to itself. -/
def packLine (swapOpcodes : SwapCalls) (line : SwapLine) : Except (Failure Report) SwapCalls :=
  (encoder.swapLineEncoder.encodeSwapLineInAmount line none).map fun opcodes =>
    swapOpcodes ++ [.newCall encoder.multicallerAddress (.doCalls (.opcodes opcodes))]

/-- A step as plain swaps.  The calls of a single line are not packed. -/
def encodeSwapLines (lines : List SwapLine) (fundsTo : Option Pool) :
    Except (Failure Report) SwapCalls :=
  match lines with
  | [line] => encoder.swapLineEncoder.encodeSwapLineInAmount line fundsTo
  | lines => lines.foldlM encoder.packLine []

/-- The last line spends all that is there. -/
def spendBalance : List SwapLine → Except (Failure Report) (List SwapLine)
  | [] => .error .panic
  | lines@(_ :: _) => .ok (lines.modify (lines.length - 1) fun line =>
      { line with amountIn := .balance encoder.multicallerAddress })

/-- The lines of the second step, with the balance for an amount if there are several lines. -/
def linesInAmount (flashStep swapStep : SwapStep) : Except (Failure Report) (List SwapLine) :=
  if 1 < flashStep.len ∨ 1 < swapStep.len then encoder.spendBalance swapStep.swapLineVec
  else .ok swapStep.swapLineVec

/-- The calls that the flash swaps of the first step are put around. -/
def insideInAmount (flashStep swapStep : SwapStep) : Except (Failure Report) SwapCalls := do
  let lines ← encoder.linesInAmount flashStep swapStep
  encoder.encodeSwapLines lines none

def encodeInAmount (flashStep swapStep : SwapStep) : Except (Failure Report) SwapCalls := do
  let swapOpcodes ← encoder.insideInAmount flashStep swapStep
  flashStep.swapLineVec.reverse.foldlM (fun swapOpcodes line =>
    encoder.swapLineEncoder.encodeFlashSwapLineInAmount line swapOpcodes swapStep.getFirstPool)
    swapOpcodes

/-- The calls that the flash swaps of the second step are put around. -/
def insideOutAmount (swapStep flashStep : SwapStep) : Except (Failure Report) SwapCalls :=
  encoder.encodeSwapLines swapStep.swapLineVec flashStep.getFirstPool

def encodeOutAmount (swapStep flashStep : SwapStep) : Except (Failure Report) SwapCalls := do
  let swapOpcodes ← encoder.insideOutAmount swapStep flashStep
  flashStep.swapLineVec.reverse.foldlM (fun swapOpcodes line =>
    encoder.swapLineEncoder.encodeFlashSwapLineOutAmount line swapOpcodes) swapOpcodes

/-- The steps after the first spend what the ones before have left. -/
def encodeLaterStep (swapOpcodes : SwapCalls) (step : SwapStep) :
    Except (Failure Report) SwapCalls := do
  let lines ← encoder.spendBalance step.swapLineVec
  let opcodes ← encoder.encodeSwapLines lines none
  return swapOpcodes ++ opcodes

def encodeBalancerFlashLoan : List SwapStep → Except (Failure Report) SwapCalls
  | [] => .error .panic
  | firstSwap :: steps => do
      let token ← Failure.ofOption firstSwap.firstToken
      let inAmount ← Failure.ofOption firstSwap.getInAmount.toOption
      let firstOpcodes ← encoder.encodeSwapLines firstSwap.swapLineVec none
      let swapOpcodes ← steps.foldlM encoder.encodeLaterStep firstOpcodes
      return [.newCall balancerVaultAddress (.balancerFlashLoan encoder.multicallerAddress
        token.address inAmount (.opcodes swapOpcodes))]

def encodeSwapSteps (sp₀ sp₁ : SwapStep) : Except (Failure Report) SwapCalls :=
  if sp₀.canFlashSwap encoder.swapLineEncoder.pools then encoder.encodeInAmount sp₀ sp₁
  else if sp₁.canFlashSwap encoder.swapLineEncoder.pools then encoder.encodeOutAmount sp₀ sp₁
  else encoder.encodeBalancerFlashLoan [sp₀, sp₁]

end SwapStepEncoder

end Kabu
