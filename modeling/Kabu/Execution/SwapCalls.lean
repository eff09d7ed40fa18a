import Kabu.Execution.Opcodes
import Kabu.Market.SwapLine

/-!
# Calls that carry calls

To swap, the multicaller calls pools.  A pool may call back before it is paid, and the multicaller
then runs the calls that it has been given as the payload of the swap; it can also be made to call
itself with a list of calls.  In both cases the inner calls are packed into the data of the outer
one.

Here the data of a call is what is encoded, not yet the bytes: `AbiCall` is the call of a contract's
function with its arguments, and a `MulticallerOpcodesPayload` of calls is still a list of calls.
Packing such a list only fails for types of calls that are not made here.
-/

namespace Kabu

/-- The calls of contracts that the encoders make, with a type for arguments of bytes. -/
inductive AbiCall (P : Type)
  | transfer (recipient : Address) (amount : U256)
  | approve (spender : Address) (amount : U256)
  | balanceOf (account : Address)
  | wethWithdraw (amount : U256)
  | wethDeposit
  | uni2GetInAmount (from0 : Bool) (pool : Address) (amount : U256) (fee : Option U256)
  | uni2GetOutAmount (from0 : Bool) (pool : Address) (amount : U256) (fee : Option U256)
  | calculation (script : Bytes)
  | uniswapV2Swap (amount0Out amount1Out : U256) (recipient : Address) (data : P)
  | uniswapV3Swap (recipient : Address) (zeroForOne : Bool) (amountSpecified : U256)
      (sqrtPriceLimitX96 : BitVec 160) (data : P)
  | maverickSwap (recipient : Address) (amount : U256) (tokenAIn exactOutput : Bool)
      (sqrtPriceLimit : U256) (data : P)
  /-- What the pool's own encoder makes of the swap. -/
  | poolSwap (tokenFrom tokenTo : Address) (amount : U256) (recipient : Address) (data : P)
  | doCalls (data : P)
  | balancerFlashLoan (recipient token : Address) (amount : U256) (userData : P)

/-- A `MulticallerCall` with any type of data. -/
structure DataCall (D : Type) where
  callType : CallType
  callData : D
  callTo : Address
  value : Option U256
  callStack : Option CallStack
  returnStack : Option CallStack

inductive MulticallerOpcodesPayload
  | empty
  | opcodes (calls : List (DataCall (AbiCall MulticallerOpcodesPayload)))
  | bytes (bytes : Bytes)
  | address (address : Address)

abbrev SwapCall := DataCall (AbiCall MulticallerOpcodesPayload)

abbrev SwapCalls := List SwapCall

def MulticallerOpcodesPayload.isEmpty : MulticallerOpcodesPayload → Bool
  | .empty => true
  | .bytes b => b.isEmpty
  | .address _ => false
  | .opcodes calls => calls.isEmpty

/-- More calls before and after those of a payload of calls. -/
def MulticallerOpcodesPayload.around (before after : SwapCalls) :
    MulticallerOpcodesPayload → MulticallerOpcodesPayload
  | .opcodes inside => .opcodes (before ++ inside ++ after)
  | payload => payload

namespace DataCall

variable {D : Type}

def new (callType : CallType) (callTo : Address) (callData : D) (value : Option U256) :
    DataCall D :=
  ⟨callType, callData, callTo, value, none, none⟩

def newCall (callTo : Address) (callData : D) : DataCall D := new .call callTo callData none

def newCallWithValue (callTo : Address) (callData : D) (value : U256) : DataCall D :=
  new .call callTo callData (some value)

def newInternalCall (callData : D) : DataCall D := new .internalCall 0 callData none

def newCalculationCall (callData : D) : DataCall D := new .calculationCall 0 callData none

def newStaticCall (callTo : Address) (callData : D) : DataCall D :=
  new .staticCall callTo callData none

def setCallStack (call : DataCall D) (isRelative : Bool) (stackOffset dataOffset : BitVec 32)
    (dataLen : BitVec 64) : DataCall D :=
  { call with callStack := some ⟨isRelative, stackOffset, dataOffset, dataLen⟩ }

def setReturnStack (call : DataCall D) (isRelative : Bool) (stackOffset dataOffset : BitVec 32)
    (dataLen : BitVec 64) : DataCall D :=
  { call with returnStack := some ⟨isRelative, stackOffset, dataOffset, dataLen⟩ }

end DataCall

/-! ## Amounts on the stack -/

namespace OpcodesHelpers

/-- Where an amount is not a number, it comes from the stack. -/
def fromStack (amount : SwapAmountType) (call : SwapCall) (offset : BitVec 32) (len : BitVec 64) :
    SwapCall :=
  match amount with
  | .set _ => call
  | .balance _ => call.setCallStack true 0 offset len
  | .relativeStack stackOffset => call.setCallStack true stackOffset.toBitVec offset len
  | .notSet => call.setCallStack true 0 offset len
  | .stack0 => call.setCallStack false 0 offset len

/-- A balance is put on the stack first. -/
def balanceCalls (amount : SwapAmountType) (balanceOfToken : Address) : SwapCalls :=
  match amount with
  | .balance owner =>
      [(DataCall.newStaticCall balanceOfToken (.balanceOf owner)).setReturnStack true 0 0x0 0x20]
  | _ => []

def buildMultipleStack (amount : SwapAmountType) (calls : List (SwapCall × BitVec 32 × BitVec 64))
    (balanceOfToken : Address) : SwapCalls :=
  balanceCalls amount balanceOfToken ++
    calls.map fun call => fromStack amount call.1 call.2.1 call.2.2

def buildCallStack (amount : SwapAmountType) (call : SwapCall) (offset : BitVec 32)
    (len : BitVec 64) (balanceOfToken : Address) : SwapCalls :=
  buildMultipleStack amount [(call, offset, len)] balanceOfToken

end OpcodesHelpers

/-! ## Pools -/

/-- What has to happen before a pool swaps. -/
inductive PreswapRequirement
  | unknown
  | transfer (address : Address)
  | allowance
  | callback
  | base
  deriving DecidableEq, Repr

def PreswapRequirement.address : PreswapRequirement → Option Address
  | .transfer a => some a
  | _ => none

/-- The encoder of a single pool.  What it answers is `AbiCall.poolSwap`, unless it fails. -/
structure PoolAbiEncoder where
  encodeSwapInAmountProvided : Address → Address → U256 → Address → Except Report Unit
  encodeSwapOutAmountProvided : Address → Address → U256 → Address → Except Report Unit

/-- How the pools answer the encoders. -/
structure PoolEncoding where
  getFee : Pool → U256
  canFlashSwap : Pool → Bool
  isNative : Pool → Bool
  preswapRequirement : Pool → PreswapRequirement
  getAbiEncoder : Pool → Option PoolAbiEncoder

/-- Where a swap is to send the tokens, if a pool wants them before it swaps. -/
def PoolEncoding.swapTo (pools : PoolEncoding) (pool : Option Pool) (multicaller : Address) :
    Address :=
  (pool.bind fun pool => (pools.preswapRequirement pool).address).getD multicaller

def PoolId.expectAddress (message : Report) : PoolId → Except (Failure Report) Address
  | .address a => .ok a
  | .b256 _ => .error (.error message)

/-! ## The functions of contracts -/

namespace AbiEncoderHelper

variable {P : Type}

def getZeroForOne (tokenFrom tokenTo : Address) : Bool := decide (tokenFrom < tokenTo)

/-- A fee that is no fee or the usual one is not passed on.  It has to fit in 32 bits. -/
def feeArgument (fee : U256) : Except (Failure Report) (Option U256) :=
  if fee = 0 then .ok none
  else if fee.toNat < 2 ^ 32 then .ok (if fee = 9970 then none else some fee)
  else .error .panic

def encodeMulticallerUni2GetInAmount (tokenFrom tokenTo pool : Address) (amount fee : U256) :
    Except (Failure Report) (AbiCall P) :=
  (feeArgument fee).map fun fee =>
    .uni2GetInAmount (getZeroForOne tokenTo tokenFrom) pool amount fee

def encodeMulticallerUni2GetOutAmount (tokenFrom tokenTo pool : Address) (amount fee : U256) :
    Except (Failure Report) (AbiCall P) :=
  (feeArgument fee).map fun fee =>
    .uni2GetOutAmount (getZeroForOne tokenFrom tokenTo) pool amount fee

end AbiEncoderHelper

/-! ## Swaps by class -/

namespace ProtocolABIEncoderV2

open AbiEncoderHelper

variable {P : Type}

def lowerLimit : BitVec 160 := 4295128740

def upperLimit : BitVec 160 := 1461446703485210103287273052203988822378723970341

def getPriceLimit (tokenFrom tokenTo : Address) : BitVec 160 :=
  if tokenFrom < tokenTo then lowerLimit else upperLimit

/-- The pool's own encoder, if it knows the swap. -/
def encodeByPool (encode : Option (Address → Address → U256 → Address → Except Report Unit))
    (tokenFrom tokenTo : Address) (amount : U256) (recipient : Address) (payload : P) :
    Except Report (AbiCall P) :=
  match encode with
  | none => .error "NO_POOL_ENCODER"
  | some encode =>
      (encode tokenFrom tokenTo amount recipient).map fun _ =>
        .poolSwap tokenFrom tokenTo amount recipient payload

def encodeSwapInAmountProvided (pools : PoolEncoding) (pool : Pool) (tokenFrom tokenTo : Address)
    (amount : U256) (recipient : Address) (payload : P) : Except Report (AbiCall P) :=
  match pool.getClass with
  | .uniswapV2 => .error "NOT_SUPPORTED"
  | .uniswapV3 | .pancakeV3 =>
      .ok (.uniswapV3Swap recipient (getZeroForOne tokenFrom tokenTo) amount
        (getPriceLimit tokenFrom tokenTo) payload)
  | .maverick =>
      .ok (.maverickSwap recipient amount (getZeroForOne tokenFrom tokenTo) false 0 payload)
  | .curve =>
      encodeByPool ((pools.getAbiEncoder pool).map PoolAbiEncoder.encodeSwapInAmountProvided)
        tokenFrom tokenTo amount recipient payload
  | _ => .error "CLASS_NOT_SUPPORTED"

def encodeSwapOutAmountProvided (pools : PoolEncoding) (pool : Pool) (tokenFrom tokenTo : Address)
    (amount : U256) (recipient : Address) (payload : P) : Except Report (AbiCall P) :=
  match pool.getClass with
  | .uniswapV2 =>
      .ok (if getZeroForOne tokenFrom tokenTo then .uniswapV2Swap 0 amount recipient payload
        else .uniswapV2Swap amount 0 recipient payload)
  | .uniswapV3 | .pancakeV3 =>
      .ok (.uniswapV3Swap recipient (getZeroForOne tokenFrom tokenTo) (0 - amount)
        (getPriceLimit tokenFrom tokenTo) payload)
  | .maverick =>
      .ok (.maverickSwap recipient amount (getZeroForOne tokenFrom tokenTo) true
        ((getPriceLimit tokenFrom tokenTo).setWidth 256) payload)
  | .curve =>
      encodeByPool ((pools.getAbiEncoder pool).map PoolAbiEncoder.encodeSwapOutAmountProvided)
        tokenFrom tokenTo amount recipient payload
  | _ => .error "CLASS_NOT_SUPPORTED"

def swapInAmountOffset (pool : Pool) : Option (BitVec 32) :=
  match pool.getClass with
  | .uniswapV3 | .pancakeV3 | .curve => some 0x44
  | .maverick => some 0x24
  | _ => none

def swapOutAmountOffset (pool : Pool) (tokenFrom tokenTo : Address) : Option (BitVec 32) :=
  match pool.getClass with
  | .uniswapV2 => if getZeroForOne tokenFrom tokenTo then some 0x24 else some 0x04
  | .uniswapV3 | .pancakeV3 => some 0x44
  | .maverick => some 0x24
  | _ => none

def swapInAmountReturnOffset (pool : Pool) (tokenFrom tokenTo : Address) : Option (BitVec 32) :=
  match pool.getClass with
  | .uniswapV3 | .pancakeV3 => if getZeroForOne tokenFrom tokenTo then some 0x20 else some 0x0
  | .maverick => some 0x20
  | _ => none

def swapInAmountReturnScript (pool : Pool) : Option Bytes :=
  match pool.getClass with
  | .uniswapV3 | .pancakeV3 => some [0x8, 0x2A, 0x00]
  | _ => none

end ProtocolABIEncoderV2

end Kabu
