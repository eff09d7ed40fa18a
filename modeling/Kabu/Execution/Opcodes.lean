import Kabu.Entities.BlockHistory
import Kabu.Framework.Wire

/-!
# Calls of the multicaller

The multicaller contract runs a list of calls.  A call can take part of its data from a stack, and
put part of what it returns on it.  `OpcodesEncoderV2` packs a list of calls into the bytes that the
contract reads: for each call twelve bytes of header, the target unless the call is one of the
contract's own functions or a calculation, and the data.

The header has two layouts.  A call that sends a value has the value in it, and any other has a
selector for its type and the two stack positions.
-/

namespace Kabu

inductive CallType
  | unknown
  | call
  | delegateCall
  | staticCall
  | internalCall
  | calculationCall
  | customCall
  deriving DecidableEq, Repr

/-- A place in the data of a call, and the entry of the stack that goes there. -/
structure CallStack where
  isRelative : Bool
  stackOffset : BitVec 32
  dataOffset : BitVec 32
  dataLen : BitVec 64
  deriving DecidableEq, Repr

structure MulticallerCall where
  callType : CallType
  callData : Bytes
  callTo : Address
  value : Option U256
  callStack : Option CallStack
  returnStack : Option CallStack
  deriving DecidableEq

abbrev MulticallerCalls := List MulticallerCall

/-- The calls that have no target of their own. -/
def CallType.isLocal : CallType → Bool
  | .internalCall | .calculationCall => true
  | _ => false

namespace MulticallerCall

def new (callType : CallType) (callTo : Address) (callData : Bytes) (value : Option U256) :
    MulticallerCall :=
  ⟨callType, callData, callTo, value, none, none⟩

def newCall (callTo : Address) (callData : Bytes) : MulticallerCall :=
  new .call callTo callData none

def newCallWithValue (callTo : Address) (callData : Bytes) (value : U256) : MulticallerCall :=
  new .call callTo callData (some value)

def newInternalCall (callData : Bytes) : MulticallerCall := new .internalCall 0 callData none

def newCalculationCall (callData : Bytes) : MulticallerCall := new .calculationCall 0 callData none

def newStaticCall (callTo : Address) (callData : Bytes) : MulticallerCall :=
  new .staticCall callTo callData none

def setCallStack (call : MulticallerCall) (isRelative : Bool) (stackOffset dataOffset : BitVec 32)
    (dataLen : BitVec 64) : MulticallerCall :=
  { call with callStack := some ⟨isRelative, stackOffset, dataOffset, dataLen⟩ }

def setReturnStack (call : MulticallerCall) (isRelative : Bool) (stackOffset dataOffset : BitVec 32)
    (dataLen : BitVec 64) : MulticallerCall :=
  { call with returnStack := some ⟨isRelative, stackOffset, dataOffset, dataLen⟩ }

end MulticallerCall

namespace OpcodesEncoderV2

def valueCallSelector : U256 := 0x7FFA
def calculationCallSelector : U256 := 0x7FFB
def zeroValueCallSelector : U256 := 0x7FFC
def internalCallSelector : U256 := 0x7FFD
def staticCallSelector : U256 := 0x7FFE
def delegateCallSelector : U256 := 0x7FFF

def encodeDataOffset (isRelative : Bool) (stackOffset dataOffset : BitVec 32)
    (dataLen : BitVec 64) : BitVec 32 :=
  (if isRelative then 0x800000 else 0x0 : BitVec 32) ||| (stackOffset &&& 0x7) <<< 20 |||
    (dataLen.setWidth 32 &&& 0xFF) <<< 12 ||| (dataOffset &&& 0xFFF)

/-- Offsets into the data count from the start of the packed call. -/
def encodeCallStack (opcode : MulticallerCall) : BitVec 32 :=
  match opcode.callStack with
  | some callStack =>
      if opcode.callType.isLocal then
        encodeDataOffset callStack.isRelative callStack.stackOffset (callStack.dataOffset + 0xC)
          callStack.dataLen
      else
        encodeDataOffset callStack.isRelative callStack.stackOffset (callStack.dataOffset + 0x20)
          callStack.dataLen
  | none => 0xFFFFFF

def encodeReturnStack (opcode : MulticallerCall) : BitVec 32 :=
  match opcode.returnStack with
  | some returnStack =>
      encodeDataOffset returnStack.isRelative returnStack.stackOffset returnStack.dataOffset
        returnStack.dataLen
  | none => 0xFFFFFF

def selectorCall (opcode : MulticallerCall) : Option U256 :=
  match opcode.callType with
  | .call => if opcode.value.isNone then some zeroValueCallSelector else some valueCallSelector
  | .delegateCall => some delegateCallSelector
  | .internalCall => some internalCallSelector
  | .staticCall => some staticCallSelector
  | .calculationCall => some calculationCallSelector
  | .unknown | .customCall => none

/-- The word whose low twelve bytes are the header. -/
def selectorWord (selectorCall : U256) (opcode : MulticallerCall) : U256 :=
  let dataLen : U256 := BitVec.ofNat 256 opcode.callData.length
  if selectorCall = valueCallSelector ∧ opcode.value.getD 0 ≠ 0 then
    opcode.value.getD 0 <<< 0x10 ||| 1 <<< (96 - 1) ||| dataLen
  else
    selectorCall <<< 80 ||| dataLen ||| (encodeCallStack opcode).setWidth 256 <<< 16 |||
      (encodeReturnStack opcode).setWidth 256 <<< 40

def packWith (selectorCall : U256) (opcode : MulticallerCall) : Bytes :=
  (Wire.toBe 32 (selectorWord selectorCall opcode).toNat).drop 20 ++
    (if opcode.callType.isLocal then [] else Wire.toBe 20 opcode.callTo.toNat) ++ opcode.callData

def packOpcode (opcode : MulticallerCall) : Except Report Bytes :=
  match selectorCall opcode with
  | none => .error "WRONG_OPCODE"
  | some selector => .ok (packWith selector opcode)

def packDoCallsData (opcodes : MulticallerCalls) : Except Report Bytes :=
  opcodes.foldlM (fun callData opcode => (packOpcode opcode).map (callData ++ ·)) []

end OpcodesEncoderV2

end Kabu
