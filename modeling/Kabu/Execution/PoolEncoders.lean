import Kabu.Execution.SwapCalls

/-!
# Swaps as calls

For every class of pools there is an encoder that makes the calls of one swap.  A plain swap pays
the pool, or has it paid by the swap before it.  A flash swap takes the tokens first: the payload of
the swap call is what the multicaller does with them, and the encoder adds to it the calls that pay
the pool back.

An encoder adds its calls at the end of a list of calls; here it answers the calls that it adds.
Pools of the classes without an encoder cannot be swapped, and Curve pools cannot be flash swapped.
-/

namespace Kabu

open AbiEncoderHelper OpcodesHelpers

/-- An amount that is not a number comes from the first entry of the stack. -/
def amountFromStack (amount : SwapAmountType) (isRelative : Bool) (offset : Option (BitVec 32))
    (swapOpcode : SwapCall) : Except (Failure Report) SwapCall :=
  if amount.isSet then .ok swapOpcode
  else (Failure.ofOption offset).map fun offset => swapOpcode.setCallStack isRelative 0 offset 0x20

section Encoders

variable (pools : PoolEncoding) (tokenFrom tokenTo : Address)

/-! ## Uniswap V2 -/

namespace UniswapV2SwapOpcodesEncoder

def b256Unsupported : Report := "B256 pool ID not supported for UniswapV2"

/-- The amount that comes out is calculated by the multicaller and handed over on the stack. -/
def encodeSwapInAmountProvided (amountIn : SwapAmountType) (curPool : Pool)
    (nextPool : Option Pool) (multicaller : Address) : Except (Failure Report) SwapCalls := do
  let poolAddress ← curPool.getAddress.expectAddress b256Unsupported
  let getOutAmount ← encodeMulticallerUni2GetOutAmount tokenFrom tokenTo poolAddress
    amountIn.unwrapOrDefault (pools.getFee curPool)
  let swap ← Failure.lift (ProtocolABIEncoderV2.encodeSwapOutAmountProvided pools curPool tokenFrom
    tokenTo 1 (pools.swapTo nextPool multicaller) (.bytes []))
  let offset ← Failure.ofOption (ProtocolABIEncoderV2.swapOutAmountOffset curPool tokenFrom tokenTo)
  return buildCallStack amountIn (.newInternalCall getOutAmount) 0x24 0x20 tokenFrom ++
    [(DataCall.newCall poolAddress swap).setCallStack true 0 offset 0x20]

/-- An amount that is not a number is on the stack. -/
def fromStack0 (amount : SwapAmountType) (call : SwapCall) : SwapCall :=
  if amount.isSet then call else call.setCallStack false 0 0x24 0x20

/-- Pay the pool back, if the amount is known.  Otherwise the tokens should be there already. -/
def payBack (amountIn : SwapAmountType) (flashPoolAddress : Address) : SwapCalls :=
  match amountIn with
  | .set amount => [.newCall tokenFrom (.transfer flashPoolAddress amount)]
  | _ => []

/-- Forward the tokens to a pool that wants them before it swaps. -/
def forward (prevPool : Option Pool) : SwapCalls :=
  match prevPool.bind fun pool => (pools.preswapRequirement pool).address with
  | some swapTo => [(DataCall.newCall tokenTo (.transfer swapTo 0)).setCallStack false 0 0x24 0x20]
  | none => []

def encodeFlashSwapInAmountProvided (amountIn : SwapAmountType) (flashPool : Pool)
    (prevPool : Option Pool) (payload : MulticallerOpcodesPayload) (multicaller : Address) :
    Except (Failure Report) SwapCalls := do
  let flashPoolAddress ← flashPool.getAddress.expectAddress b256Unsupported
  let payload := payload.around (forward pools tokenTo prevPool)
    (payBack tokenFrom amountIn flashPoolAddress)
  let getOutAmount ← encodeMulticallerUni2GetOutAmount tokenFrom tokenTo flashPoolAddress
    amountIn.unwrapOrDefault (pools.getFee flashPool)
  let swap ← Failure.lift (ProtocolABIEncoderV2.encodeSwapOutAmountProvided pools flashPool
    tokenFrom tokenTo 0 multicaller payload)
  let offset ← Failure.ofOption
    (ProtocolABIEncoderV2.swapOutAmountOffset flashPool tokenFrom tokenTo)
  return [fromStack0 amountIn (.newInternalCall getOutAmount),
    (DataCall.newCall flashPoolAddress swap).setCallStack true 0 offset 0x20]

/-- Forward the tokens to the next pool, as the swap cannot send them there. -/
def retransfer (swapTo multicaller : Address) : SwapCalls :=
  if swapTo ≠ multicaller then
    [(DataCall.newCall tokenTo (.transfer swapTo 0)).setCallStack false 0 0x24 0x20]
  else []

/-- What has to be paid back is calculated before the inner calls. -/
def flashOutPayload (amountOut : SwapAmountType) (flashPool : Pool)
    (flashPoolAddress swapTo multicaller : Address) :
    MulticallerOpcodesPayload → Except (Failure Report) MulticallerOpcodesPayload
  | .opcodes inside =>
      (encodeMulticallerUni2GetInAmount tokenFrom tokenTo flashPoolAddress
        amountOut.unwrapOrDefault (pools.getFee flashPool)).map fun getInAmount =>
          .opcodes ([fromStack0 amountOut (.newInternalCall getInAmount)] ++ inside ++
            retransfer tokenTo swapTo multicaller)
  | payload => .ok payload

def encodeFlashSwapOutAmountProvided (amountOut : SwapAmountType) (flashPool : Pool)
    (nextPool : Option Pool) (payload : MulticallerOpcodesPayload) (multicaller : Address) :
    Except (Failure Report) SwapCalls := do
  let flashPoolAddress ← flashPool.getAddress.expectAddress b256Unsupported
  let swapTo := pools.swapTo nextPool multicaller
  let payload ← flashOutPayload pools tokenFrom tokenTo amountOut flashPool flashPoolAddress swapTo
    multicaller payload
  let swap ← Failure.lift (ProtocolABIEncoderV2.encodeSwapOutAmountProvided pools flashPool
    tokenFrom tokenTo amountOut.unwrapOrDefault multicaller payload)
  let swapOpcode ← amountFromStack amountOut true
    (ProtocolABIEncoderV2.swapOutAmountOffset flashPool tokenFrom tokenTo)
    (.newCall flashPoolAddress swap)
  return [swapOpcode]

end UniswapV2SwapOpcodesEncoder

/-! ## Uniswap V3, Pancake V3 and Maverick -/

namespace UniswapV3SwapOpcodesEncoder

def b256Unsupported : Report := "Pool ID is B256, expected Address"

/-- The pool calls back to be paid, and the payload names the token. -/
def encodeSwapInAmountProvided (amountIn : SwapAmountType) (curPool : Pool)
    (nextPool : Option Pool) (payload : MulticallerOpcodesPayload) (multicaller : Address) :
    Except (Failure Report) SwapCalls := do
  let payload := if payload.isEmpty then .bytes (Wire.toBe 20 tokenFrom.toNat) else payload
  let poolAddress ← curPool.getAddress.expectAddress b256Unsupported
  let swap ← Failure.lift (ProtocolABIEncoderV2.encodeSwapInAmountProvided pools curPool tokenFrom
    tokenTo amountIn.unwrapOrDefault (pools.swapTo nextPool multicaller) payload)
  let returnOffset ← Failure.ofOption
    (ProtocolABIEncoderV2.swapInAmountReturnOffset curPool tokenFrom tokenTo)
  let swapOpcode := (DataCall.newCall poolAddress swap).setReturnStack true 0 returnOffset 0x20
  let offset ← Failure.lift
    ((ProtocolABIEncoderV2.swapInAmountOffset curPool).elim (.error "NO_OFFSET") .ok)
  let script := if nextPool.isSome then ProtocolABIEncoderV2.swapInAmountReturnScript curPool
    else none
  return buildCallStack amountIn swapOpcode offset 0x20 tokenFrom ++
    script.toList.map fun script => .newCalculationCall (.calculation script)

/-- Pay the pool back. -/
def payBack (amountIn : SwapAmountType) (flashPoolAddress : Address) : SwapCall :=
  let transferOpcode : SwapCall :=
    .newCall tokenFrom (.transfer flashPoolAddress amountIn.unwrapOrDefault)
  if amountIn.isSet then transferOpcode else transferOpcode.setCallStack false 1 0x24 0x20

def encodeFlashSwapInAmountProvided (amountIn : SwapAmountType) (flashPool : Pool)
    (prevPool : Option Pool) (payload : MulticallerOpcodesPayload) (multicaller : Address) :
    Except (Failure Report) SwapCalls := do
  let poolAddress ← flashPool.getAddress.expectAddress b256Unsupported
  let payload := payload.around [] [payBack tokenFrom amountIn poolAddress]
  let swap ← Failure.lift (ProtocolABIEncoderV2.encodeSwapInAmountProvided pools flashPool
    tokenFrom tokenTo amountIn.unwrapOrDefault (pools.swapTo prevPool multicaller) payload)
  let swapOpcode ← amountFromStack amountIn false
    (ProtocolABIEncoderV2.swapInAmountOffset flashPool) (.newCall poolAddress swap)
  return [swapOpcode]

/-- An amount from the stack has its sign changed first. -/
def negateAmount (amountOut : SwapAmountType) : SwapCalls :=
  if amountOut.isSet then [] else [.newCalculationCall (.calculation [0x2, 0x2A, 0x00])]

def encodeFlashSwapOutAmountProvided (amountOut : SwapAmountType) (flashPool : Pool)
    (nextPool : Option Pool) (payload : MulticallerOpcodesPayload) (multicaller : Address) :
    Except (Failure Report) SwapCalls := do
  let poolAddress ← flashPool.getAddress.expectAddress b256Unsupported
  let payload := payload.around []
    [(DataCall.newCall tokenFrom (.transfer poolAddress 0)).setCallStack false 1 0x24 0x20]
  let swap ← Failure.lift (ProtocolABIEncoderV2.encodeSwapOutAmountProvided pools flashPool
    tokenFrom tokenTo amountOut.unwrapOrDefault (pools.swapTo nextPool multicaller) payload)
  let swapOpcode ← amountFromStack amountOut true
    (ProtocolABIEncoderV2.swapOutAmountOffset flashPool tokenFrom tokenTo)
    (.newCall poolAddress swap)
  return negateAmount amountOut ++ [swapOpcode]

end UniswapV3SwapOpcodesEncoder

/-! ## Curve -/

namespace CurveSwapOpcodesEncoder

def weth : Address := 0xc02aaa39b223fe8d0a0e5c4f27ead9083c756cc2

/-- These pools do not return the amount. -/
def needBalance (address : Address) : Bool :=
  address ∈ ([0xD51a44d3FaE010294C616388b506AcdA1bfAAE46,
    0xbEbc44782C7dB0a1A60Cb6fe97d0b483032FF1C7,
    0xA5407eAE9Ba41422680e2e00537571bcC53efBfD] : List Address)

/-- The pool is allowed to take the tokens, or they are made ether. -/
def prepare (inNative : Bool) (poolAddress : Address) (amount : U256) :
    SwapCall × BitVec 32 × BitVec 64 :=
  if inNative then (.newCall tokenFrom (.wethWithdraw amount), 0x4, 0x20)
  else (.newCall tokenFrom (.approve poolAddress amount), 0x24, 0x20)

def swapCall (inNative : Bool) (poolAddress : Address) (amount : U256)
    (swap : AbiCall MulticallerOpcodesPayload) : SwapCall :=
  let swapOpcode : SwapCall :=
    if inNative then .newCallWithValue poolAddress swap amount else .newCall poolAddress swap
  if needBalance poolAddress then swapOpcode else swapOpcode.setReturnStack true 0 0x0 0x20

/-- Ether is made a token again, and before another swap the amount is put on the stack and the
tokens are sent to the pool, where this is needed. -/
def followUp (outNative : Bool) (poolAddress : Address) (nextPool : Option Pool)
    (multicaller : Address) : SwapCalls :=
  (if outNative then
    [(DataCall.newCallWithValue tokenTo .wethDeposit 0).setCallStack true 0 0x0 0x0] else []) ++
  (if nextPool.isSome && needBalance poolAddress then
    [(DataCall.newStaticCall tokenTo (.balanceOf multicaller)).setReturnStack true 0 0x0 0x20]
    else []) ++
  (nextPool.bind fun pool => (pools.preswapRequirement pool).address).toList.map fun address =>
    (DataCall.newCall tokenTo (.transfer address 0)).setCallStack true 0 0x24 0x20

def encodeSwapInAmountProvided (amountIn : SwapAmountType) (curPool : Pool)
    (nextPool : Option Pool) (payload : MulticallerOpcodesPayload) (multicaller : Address) :
    Except (Failure Report) SwapCalls := do
  let poolAddress ← curPool.getAddress.expectAddress
    "B256 pool ID variant is not supported for Curve pools"
  let inNative := pools.isNative curPool && decide (tokenFrom = weth)
  let outNative := pools.isNative curPool && decide (tokenTo = weth)
  let amount := amountIn.unwrapOrDefault
  let swap ← Failure.lift (ProtocolABIEncoderV2.encodeSwapInAmountProvided pools curPool tokenFrom
    tokenTo amount multicaller payload)
  let offset ← Failure.ofOption (ProtocolABIEncoderV2.swapInAmountOffset curPool)
  return buildMultipleStack amountIn [prepare tokenFrom inNative poolAddress amount,
      (swapCall inNative poolAddress amount swap, offset, 0x20)] tokenFrom ++
    followUp pools tokenTo outNative poolAddress nextPool multicaller

end CurveSwapOpcodesEncoder

/-! ## By class -/

namespace ProtocolSwapOpcodesEncoderV2

def notFound : Failure Report := .error "OPCODES_ENCODER_NOT_FOUND"

def encodeSwapInAmountProvided (amountIn : SwapAmountType) (curPool : Pool)
    (nextPool : Option Pool) (payload : MulticallerOpcodesPayload) (multicaller : Address) :
    Except (Failure Report) SwapCalls :=
  match curPool.getClass with
  | .uniswapV2 =>
      UniswapV2SwapOpcodesEncoder.encodeSwapInAmountProvided pools tokenFrom tokenTo amountIn
        curPool nextPool multicaller
  | .maverick | .uniswapV3 | .pancakeV3 =>
      UniswapV3SwapOpcodesEncoder.encodeSwapInAmountProvided pools tokenFrom tokenTo amountIn
        curPool nextPool payload multicaller
  | .curve =>
      CurveSwapOpcodesEncoder.encodeSwapInAmountProvided pools tokenFrom tokenTo amountIn curPool
        nextPool payload multicaller
  | _ => .error notFound

def encodeFlashSwapInAmountProvided (amountIn : SwapAmountType) (flashPool : Pool)
    (prevPool : Option Pool) (payload : MulticallerOpcodesPayload) (multicaller : Address) :
    Except (Failure Report) SwapCalls :=
  match flashPool.getClass with
  | .uniswapV2 =>
      UniswapV2SwapOpcodesEncoder.encodeFlashSwapInAmountProvided pools tokenFrom tokenTo amountIn
        flashPool prevPool payload multicaller
  | .maverick | .uniswapV3 | .pancakeV3 =>
      UniswapV3SwapOpcodesEncoder.encodeFlashSwapInAmountProvided pools tokenFrom tokenTo amountIn
        flashPool prevPool payload multicaller
  | .curve => .error (.error "NOT_IMPLEMENTED")
  | _ => .error notFound

def encodeFlashSwapOutAmountProvided (amountOut : SwapAmountType) (flashPool : Pool)
    (nextPool : Option Pool) (payload : MulticallerOpcodesPayload) (multicaller : Address) :
    Except (Failure Report) SwapCalls :=
  match flashPool.getClass with
  | .uniswapV2 =>
      UniswapV2SwapOpcodesEncoder.encodeFlashSwapOutAmountProvided pools tokenFrom tokenTo amountOut
        flashPool nextPool payload multicaller
  | .maverick | .uniswapV3 | .pancakeV3 =>
      UniswapV3SwapOpcodesEncoder.encodeFlashSwapOutAmountProvided pools tokenFrom tokenTo amountOut
        flashPool nextPool payload multicaller
  | .curve => .error (.error "NOT_IMPLEMENTED")
  | _ => .error notFound

end ProtocolSwapOpcodesEncoderV2

end Encoders

end Kabu
