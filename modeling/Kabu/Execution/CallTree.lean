import Kabu.Execution.PoolEncoders
import Kabu.Framework.Nesting
import Kabu.Framework.Rounds

/-!
# The tree of calls

Calls are packed into the payload of a swap, and into calls of the multicaller to itself, so the
calls of an arbitrage form a tree.  `swapsOf` are the pools that are swapped in it, from the outside
to the inside.

To a nesting (`Nesting.Nested`) a flash swap is a wrapper with the name of its pool, and a transfer
or a calculation is plain (`DataCall.kind`).  What the encoders of the classes do is then said in a
few words.  A plain swap adds one swap among plain calls (`OneSwap`), and a flash swap adds one
wrapper around the calls it is given, with plain calls beside it on both levels
(`nested_of_encodeFlashSwapInAmountProvided`, `nested_of_encodeFlashSwapOutAmountProvided`).
-/

namespace Kabu

open Nesting Rounds

/-! ## The tree of calls -/

mutual

def MulticallerOpcodesPayload.swaps : MulticallerOpcodesPayload → List PoolId
  | .opcodes calls => swapsOf calls
  | _ => []

/-- The pools that are swapped by a call with this data and in its payload. -/
def AbiCall.swaps (callTo : Address) : AbiCall MulticallerOpcodesPayload → List PoolId
  | .uniswapV2Swap _ _ _ data => .address callTo :: data.swaps
  | .uniswapV3Swap _ _ _ _ data => .address callTo :: data.swaps
  | .maverickSwap _ _ _ _ _ data => .address callTo :: data.swaps
  | .poolSwap _ _ _ _ data => .address callTo :: data.swaps
  | .doCalls data => data.swaps
  | .balancerFlashLoan _ _ _ userData => userData.swaps
  | _ => []

def DataCall.swaps : DataCall (AbiCall MulticallerOpcodesPayload) → List PoolId
  | ⟨_, callData, callTo, _, _, _⟩ => AbiCall.swaps callTo callData

/-- The pools that are swapped in the whole tree. -/
def swapsOf : List (DataCall (AbiCall MulticallerOpcodesPayload)) → List PoolId
  | [] => []
  | call :: calls => call.swaps ++ swapsOf calls

end

/-- The payload of a swap. -/
def AbiCall.swapPayload {P : Type} : AbiCall P → Option P
  | .uniswapV2Swap _ _ _ data | .uniswapV3Swap _ _ _ _ data | .maverickSwap _ _ _ _ _ data
  | .poolSwap _ _ _ _ data => some data
  | _ => none

/-- Calls that are no swaps, but carry other calls. -/
def AbiCall.isCarrier {P : Type} : AbiCall P → Bool
  | .doCalls _ | .balancerFlashLoan .. => true
  | _ => false

/-- A flash swap is a wrapper with the name of its pool. -/
def DataCall.kind (call : SwapCall) : Kind SwapCall PoolId :=
  match call.callData.swapPayload with
  | some (.opcodes inside) => .wrapper (.address call.callTo) inside
  | some _ => .other
  | none => if call.callData.isCarrier then .other else .plain

/-! ## Plain calls and swaps -/

section Kinds

variable {call : SwapCall} {calls calls' inside : SwapCalls} {pool : PoolId}

lemma swapsOf_append : swapsOf (calls ++ calls') = swapsOf calls ++ swapsOf calls' := by
  induction calls with
  | nil => rfl
  | cons call calls ih => rw [List.cons_append, swapsOf, swapsOf, ih, List.append_assoc]

lemma swaps_of_swapPayload {payload : MulticallerOpcodesPayload}
    (h : call.callData.swapPayload = some payload) :
    call.swaps = .address call.callTo :: payload.swaps := by
  obtain ⟨_, data, callTo, _, _, _⟩ := call
  cases data <;> cases h <;> rfl

lemma swaps_of_wrapper (h : call.kind = .wrapper pool inside) :
    call.swaps = pool :: swapsOf inside := by
  unfold DataCall.kind at h
  split at h
  · rename_i payload hpayload
    cases h
    exact swaps_of_swapPayload hpayload
  · cases h
  · split at h <;> cases h

lemma swaps_of_plain (h : call.kind = .plain) : call.swaps = [] := by
  unfold DataCall.kind at h
  split at h
  · cases h
  · cases h
  · rename_i hnone
    split at h
    · cases h
    · rename_i hcarrier
      obtain ⟨_, data, _, _, _, _⟩ := call
      cases data with
      | doCalls | balancerFlashLoan => exact absurd rfl hcarrier
      | uniswapV2Swap | uniswapV3Swap | maverickSwap | poolSwap => cases hnone
      | _ => rfl

lemma swapsOf_of_plain (h : Plain DataCall.kind calls) : swapsOf calls = [] := by
  induction calls with
  | nil => rfl
  | cons call calls ih =>
      obtain ⟨hcall, hcalls⟩ := List.forall_mem_cons.mp h
      rw [swapsOf, swaps_of_plain hcall, ih hcalls]
      rfl

lemma swapsOf_of_nested {pools : List PoolId} (h : Nested DataCall.kind inside pools calls) :
    swapsOf calls = pools ++ swapsOf inside := by
  induction pools generalizing calls with
  | nil =>
      obtain ⟨before, after, rfl, hbefore, hafter⟩ := h
      rw [swapsOf_append, swapsOf_append, swapsOf_of_plain hbefore, swapsOf_of_plain hafter,
        List.append_nil]
  | cons pool pools ih =>
      obtain ⟨before, call, after, payload, rfl, hbefore, hafter, hkind, hpayload⟩ := h
      rw [swapsOf_append, swapsOf, swapsOf_of_plain hbefore, swapsOf_of_plain hafter,
        swaps_of_wrapper hkind, ih hpayload, List.append_nil]
      rfl

lemma kind_of_swapPayload (h : call.callData.swapPayload = some (.opcodes inside)) :
    call.kind = .wrapper (.address call.callTo) inside := by
  unfold DataCall.kind
  rw [h]

/-- One call of the list is a plain swap, and the others do not matter. -/
def OneSwap (pool : PoolId) (calls : SwapCalls) : Prop :=
  ∃ before call after, calls = before ++ call :: after ∧ Plain DataCall.kind before ∧
    Plain DataCall.kind after ∧ call.kind = .other ∧ call.swaps = [pool]

lemma OneSwap.swapsOf_eq (h : OneSwap pool calls) : swapsOf calls = [pool] := by
  obtain ⟨before, call, after, rfl, hbefore, hafter, -, hswaps⟩ := h
  rw [swapsOf_append, swapsOf, swapsOf_of_plain hbefore, swapsOf_of_plain hafter, hswaps]
  rfl

lemma OneSwap.length_nodes (h : OneSwap pool calls) : (nodes DataCall.kind calls).length = 1 := by
  obtain ⟨before, call, after, rfl, hbefore, hafter, hkind, -⟩ := h
  rw [nodes_append, hbefore.nodes_eq, nodes_cons_of_ne (by rw [hkind]; simp), hafter.nodes_eq]
  rfl

lemma oneSwap_of_swapPayload (call : SwapCall) {payload : MulticallerOpcodesPayload}
    {before after : SwapCalls} (hbefore : Plain DataCall.kind before)
    (hafter : Plain DataCall.kind after) (h : call.callData.swapPayload = some payload)
    (hcalls : ∀ inside, payload ≠ .opcodes inside) :
    OneSwap (.address call.callTo) (before ++ call :: after) := by
  refine ⟨before, call, after, rfl, hbefore, hafter, ?_, ?_⟩
  · unfold DataCall.kind
    rw [h]
    cases payload with
    | opcodes inside => exact absurd rfl (hcalls inside)
    | _ => rfl
  · rw [swaps_of_swapPayload h]
    cases payload with
    | opcodes inside => exact absurd rfl (hcalls inside)
    | _ => rfl

end Kinds

/-! ## The encoders of the classes -/

variable {address : Address}

lemma getAddress_of_expectAddress {id : PoolId} {message : Report}
    (h : id.expectAddress message = .ok address) : id = .address address := by
  cases id with
  | address a => rw [Except.ok.inj h]
  | b256 id => simp [PoolId.expectAddress] at h

namespace ProtocolABIEncoderV2

variable {P : Type} {pools : PoolEncoding} {pool : Pool} {tokenFrom tokenTo recipient : Address}
  {amount : U256} {payload : P} {data : AbiCall P}

lemma swapPayload_of_encodeByPool
    {encode : Option (Address → Address → U256 → Address → Except Report Unit)}
    (h : encodeByPool encode tokenFrom tokenTo amount recipient payload = .ok data) :
    data.swapPayload = some payload := by
  cases encode with
  | none => cases h
  | some encode =>
      unfold encodeByPool at h
      dsimp only at h
      cases hencode : encode tokenFrom tokenTo amount recipient with
      | error e =>
          rw [hencode] at h
          cases h
      | ok _ =>
          rw [hencode] at h
          cases h
          rfl

lemma swapPayload_of_encodeSwapIn
    (h : encodeSwapInAmountProvided pools pool tokenFrom tokenTo amount recipient payload =
      .ok data) : data.swapPayload = some payload := by
  unfold encodeSwapInAmountProvided at h
  split at h
  · cases h
  · cases h
    rfl
  · cases h
    rfl
  · cases h
    rfl
  · exact swapPayload_of_encodeByPool h
  · cases h

lemma swapPayload_of_encodeSwapOut
    (h : encodeSwapOutAmountProvided pools pool tokenFrom tokenTo amount recipient payload =
      .ok data) : data.swapPayload = some payload := by
  unfold encodeSwapOutAmountProvided at h
  split at h
  · cases h
    split <;> rfl
  · cases h
    rfl
  · cases h
    rfl
  · cases h
    rfl
  · exact swapPayload_of_encodeByPool h
  · cases h

end ProtocolABIEncoderV2

section Stack

open OpcodesHelpers

variable {amount : SwapAmountType} {call : SwapCall} {offset : BitVec 32} {len : BitVec 64}
  {token : Address}

lemma callData_fromStack : (fromStack amount call offset len).callData = call.callData := by
  cases amount <;> rfl

lemma callTo_fromStack : (fromStack amount call offset len).callTo = call.callTo := by
  cases amount <;> rfl

lemma kind_fromStack : (fromStack amount call offset len).kind = call.kind := by
  cases amount <;> rfl

lemma plain_balanceCalls (amount : SwapAmountType) (token : Address) :
    Plain DataCall.kind (balanceCalls amount token) := by
  cases amount with
  | balance owner => exact plain_singleton rfl
  | _ => exact plain_nil

lemma plain_buildCallStack (h : call.kind = .plain) :
    Plain DataCall.kind (buildCallStack amount call offset len token) :=
  (plain_balanceCalls amount token).append (plain_singleton (kind_fromStack.trans h))

/-- A swap with an amount from the stack, after calls that prepare it. -/
lemma oneSwap_of_buildMultipleStack (call : SwapCall)
    {before : List (SwapCall × BitVec 32 × BitVec 64)} {after : SwapCalls}
    {payload : MulticallerOpcodesPayload} (haddress : call.callTo = address)
    (hbefore : ∀ c ∈ before, c.1.kind = .plain) (hafter : Plain DataCall.kind after)
    (h : call.callData.swapPayload = some payload) (hcalls : ∀ inside, payload ≠ .opcodes inside) :
    OneSwap (.address address)
      (buildMultipleStack amount (before ++ [(call, offset, len)]) token ++ after) := by
  have hprepare : Plain DataCall.kind
      (before.map fun call => fromStack amount call.1 call.2.1 call.2.2) :=
    List.forall_mem_map.mpr fun c hc => kind_fromStack.trans (hbefore c hc)
  have hpayload : (fromStack amount call offset len).callData.swapPayload = some payload := by
    rw [callData_fromStack, h]
  have hswap := oneSwap_of_swapPayload (fromStack amount call offset len)
    ((plain_balanceCalls amount token).append hprepare) hafter hpayload hcalls
  rw [callTo_fromStack, haddress] at hswap
  rw [buildMultipleStack, List.map_append, List.map_singleton, ← List.append_assoc,
    List.append_assoc _ [_] after]
  exact hswap

end Stack

section Encoders

open AbiEncoderHelper

variable {pools : PoolEncoding} {tokenFrom tokenTo multicaller : Address} {amount : SwapAmountType}
  {pool : Pool} {other : Option Pool} {inside added : SwapCalls}
  {data : AbiCall MulticallerOpcodesPayload}

lemma kind_getOutAmount {x fee : U256}
    (h : encodeMulticallerUni2GetOutAmount tokenFrom tokenTo address x fee = .ok data) :
    (DataCall.newInternalCall data).kind = .plain := by
  obtain ⟨fee, -, rfl⟩ := exceptMap_eq_ok h
  rfl

lemma kind_getInAmount {x fee : U256}
    (h : encodeMulticallerUni2GetInAmount tokenFrom tokenTo address x fee = .ok data) :
    (DataCall.newInternalCall data).kind = .plain := by
  obtain ⟨fee, -, rfl⟩ := exceptMap_eq_ok h
  rfl

/-- A swap with calls for its payload, the given ones among them and plain ones beside them. -/
lemma nested_of_swapPayload (call : SwapCall) {before before' after' : SwapCalls}
    (h : call.callData.swapPayload = some (.opcodes (before' ++ inside ++ after')))
    (hbefore : Plain DataCall.kind before) (hbefore' : Plain DataCall.kind before')
    (hafter' : Plain DataCall.kind after') :
    Nested DataCall.kind inside [.address call.callTo] (before ++ [call]) :=
  ⟨before, call, [], _, rfl, hbefore, plain_nil, kind_of_swapPayload h,
    ⟨before', after', rfl, hbefore', hafter'⟩⟩

lemma nested_of_amountFromStack {isRelative : Bool} {offset : Option (BitVec 32)} {call : SwapCall}
    {before before' after' : SwapCalls}
    (hcall : amountFromStack amount isRelative offset (.newCall address data) = .ok call)
    (h : data.swapPayload = some (.opcodes (before' ++ inside ++ after')))
    (hbefore : Plain DataCall.kind before) (hbefore' : Plain DataCall.kind before')
    (hafter' : Plain DataCall.kind after') :
    Nested DataCall.kind inside [.address address] (before ++ [call]) := by
  unfold amountFromStack at hcall
  split at hcall
  · cases Except.ok.inj hcall
    exact nested_of_swapPayload (DataCall.newCall address data) h hbefore hbefore' hafter'
  · obtain ⟨offset, -, rfl⟩ := exceptMap_eq_ok hcall
    exact nested_of_swapPayload
      ((DataCall.newCall address data).setCallStack isRelative 0 offset 0x20) h
      hbefore hbefore' hafter'

namespace UniswapV2SwapOpcodesEncoder

lemma oneSwap (h : encodeSwapInAmountProvided pools tokenFrom tokenTo amount pool other
    multicaller = .ok added) : OneSwap pool.getAddress added := by
  obtain ⟨address, haddress, h⟩ := bind_ok h
  obtain ⟨getOutAmount, hgetOutAmount, h⟩ := bind_ok h
  obtain ⟨swap, hswap, h⟩ := bind_ok h
  obtain ⟨offset, -, h⟩ := bind_ok h
  cases Except.ok.inj h
  rw [getAddress_of_expectAddress haddress]
  exact oneSwap_of_swapPayload ((DataCall.newCall address swap).setCallStack true 0 offset 0x20)
    (plain_buildCallStack (kind_getOutAmount hgetOutAmount)) plain_nil
    (ProtocolABIEncoderV2.swapPayload_of_encodeSwapOut (Failure.lift_ok hswap)) (by simp)

lemma kind_fromStack0 {call : SwapCall} : (fromStack0 amount call).kind = call.kind := by
  unfold fromStack0
  split <;> rfl

lemma plain_payBack (address : Address) :
    Plain DataCall.kind (payBack tokenFrom amount address) := by
  cases amount with
  | set x => exact plain_singleton rfl
  | _ => exact plain_nil

lemma plain_forward : Plain DataCall.kind (forward pools tokenTo other) := by
  unfold forward
  split
  · exact plain_singleton rfl
  · exact plain_nil

lemma plain_retransfer (swapTo : Address) :
    Plain DataCall.kind (retransfer tokenTo swapTo multicaller) := by
  unfold retransfer
  split
  · exact plain_singleton rfl
  · exact plain_nil

lemma nestedIn (h : encodeFlashSwapInAmountProvided pools tokenFrom tokenTo amount pool other
    (.opcodes inside) multicaller = .ok added) :
    Nested DataCall.kind inside [pool.getAddress] added := by
  obtain ⟨address, haddress, h⟩ := bind_ok h
  obtain ⟨getOutAmount, hgetOutAmount, h⟩ := bind_ok h
  obtain ⟨swap, hswap, h⟩ := bind_ok h
  obtain ⟨offset, -, h⟩ := bind_ok h
  cases Except.ok.inj h
  rw [getAddress_of_expectAddress haddress]
  exact nested_of_swapPayload ((DataCall.newCall address swap).setCallStack true 0 offset 0x20)
    (ProtocolABIEncoderV2.swapPayload_of_encodeSwapOut (Failure.lift_ok hswap))
    (plain_singleton (kind_fromStack0.trans (kind_getOutAmount hgetOutAmount))) plain_forward
    (plain_payBack address)

lemma nestedOut (h : encodeFlashSwapOutAmountProvided pools tokenFrom tokenTo amount pool other
    (.opcodes inside) multicaller = .ok added) :
    Nested DataCall.kind inside [pool.getAddress] added := by
  obtain ⟨address, haddress, h⟩ := bind_ok h
  obtain ⟨payload, hpayload, h⟩ := bind_ok h
  obtain ⟨getInAmount, hgetInAmount, rfl⟩ := exceptMap_eq_ok hpayload
  obtain ⟨swap, hswap, h⟩ := bind_ok h
  obtain ⟨swapOpcode, hswapOpcode, h⟩ := bind_ok h
  cases Except.ok.inj h
  rw [getAddress_of_expectAddress haddress]
  exact nested_of_amountFromStack hswapOpcode
    (ProtocolABIEncoderV2.swapPayload_of_encodeSwapOut (Failure.lift_ok hswap)) plain_nil
    (plain_singleton (kind_fromStack0.trans (kind_getInAmount hgetInAmount))) (plain_retransfer _)

end UniswapV2SwapOpcodesEncoder

namespace UniswapV3SwapOpcodesEncoder

lemma oneSwap (h : encodeSwapInAmountProvided pools tokenFrom tokenTo amount pool other .empty
    multicaller = .ok added) : OneSwap pool.getAddress added := by
  obtain ⟨address, haddress, h⟩ := bind_ok h
  obtain ⟨swap, hswap, h⟩ := bind_ok h
  obtain ⟨returnOffset, -, h⟩ := bind_ok h
  obtain ⟨offset, -, h⟩ := bind_ok h
  cases Except.ok.inj h
  rw [getAddress_of_expectAddress haddress]
  have hpayload : swap.swapPayload = some (.bytes (Wire.toBe 20 tokenFrom.toNat)) :=
    ProtocolABIEncoderV2.swapPayload_of_encodeSwapIn (Failure.lift_ok hswap)
  exact oneSwap_of_buildMultipleStack
    ((DataCall.newCall address swap).setReturnStack true 0 returnOffset 0x20) rfl
    (List.forall_mem_nil _) (List.forall_mem_map.mpr fun _ _ => rfl) hpayload (by simp)

lemma kind_payBack (address : Address) : (payBack tokenFrom amount address).kind = .plain := by
  unfold payBack
  dsimp only
  split <;> rfl

lemma nestedIn (h : encodeFlashSwapInAmountProvided pools tokenFrom tokenTo amount pool other
    (.opcodes inside) multicaller = .ok added) :
    Nested DataCall.kind inside [pool.getAddress] added := by
  obtain ⟨address, haddress, h⟩ := bind_ok h
  obtain ⟨swap, hswap, h⟩ := bind_ok h
  obtain ⟨swapOpcode, hswapOpcode, h⟩ := bind_ok h
  cases Except.ok.inj h
  rw [getAddress_of_expectAddress haddress]
  exact nested_of_amountFromStack hswapOpcode
    (ProtocolABIEncoderV2.swapPayload_of_encodeSwapIn (Failure.lift_ok hswap)) plain_nil plain_nil
    (plain_singleton (kind_payBack address))

lemma plain_negateAmount : Plain DataCall.kind (negateAmount amount) := by
  unfold negateAmount
  split
  · exact plain_nil
  · exact plain_singleton rfl

lemma nestedOut (h : encodeFlashSwapOutAmountProvided pools tokenFrom tokenTo amount pool other
    (.opcodes inside) multicaller = .ok added) :
    Nested DataCall.kind inside [pool.getAddress] added := by
  obtain ⟨address, haddress, h⟩ := bind_ok h
  obtain ⟨swap, hswap, h⟩ := bind_ok h
  obtain ⟨swapOpcode, hswapOpcode, h⟩ := bind_ok h
  cases Except.ok.inj h
  rw [getAddress_of_expectAddress haddress]
  exact nested_of_amountFromStack hswapOpcode
    (ProtocolABIEncoderV2.swapPayload_of_encodeSwapOut (Failure.lift_ok hswap)) plain_negateAmount
    plain_nil (plain_singleton rfl)

end UniswapV3SwapOpcodesEncoder

namespace CurveSwapOpcodesEncoder

lemma kind_prepare {inNative : Bool} {x : U256} :
    (prepare tokenFrom inNative address x).1.kind = .plain := by
  unfold prepare
  split <;> rfl

lemma callTo_swapCall {inNative : Bool} {x : U256} {swap : AbiCall MulticallerOpcodesPayload} :
    (swapCall inNative address x swap).callTo = address := by
  unfold swapCall
  dsimp only
  split <;> split <;> rfl

lemma callData_swapCall {inNative : Bool} {x : U256} {swap : AbiCall MulticallerOpcodesPayload} :
    (swapCall inNative address x swap).callData = swap := by
  unfold swapCall
  dsimp only
  split <;> split <;> rfl

lemma plain_followUp {outNative : Bool} :
    Plain DataCall.kind (followUp pools tokenTo outNative address other multicaller) := by
  unfold followUp
  refine Plain.append (Plain.append ?_ ?_) (List.forall_mem_map.mpr fun _ _ => rfl)
  · split
    · exact plain_singleton rfl
    · exact plain_nil
  · split
    · exact plain_singleton rfl
    · exact plain_nil

lemma oneSwap (h : encodeSwapInAmountProvided pools tokenFrom tokenTo amount pool other .empty
    multicaller = .ok added) : OneSwap pool.getAddress added := by
  obtain ⟨address, haddress, h⟩ := bind_ok h
  obtain ⟨swap, hswap, h⟩ := bind_ok h
  obtain ⟨offset, -, h⟩ := bind_ok h
  cases Except.ok.inj h
  rw [getAddress_of_expectAddress haddress]
  have hpayload := ProtocolABIEncoderV2.swapPayload_of_encodeSwapIn (Failure.lift_ok hswap)
  generalize (pools.isNative pool && decide (tokenFrom = weth)) = inNative
  have hprepare : ∀ c ∈ [prepare tokenFrom inNative address amount.unwrapOrDefault],
      c.1.kind = .plain := by
    intro c hc
    rw [List.mem_singleton.mp hc]
    exact kind_prepare
  have hcall : (swapCall inNative address amount.unwrapOrDefault swap).callData.swapPayload =
      some .empty := by
    rw [callData_swapCall, hpayload]
  exact oneSwap_of_buildMultipleStack (swapCall inNative address amount.unwrapOrDefault swap)
    callTo_swapCall hprepare plain_followUp hcall (by simp)

end CurveSwapOpcodesEncoder

namespace ProtocolSwapOpcodesEncoderV2

lemma oneSwap_of_encodeSwapInAmountProvided
    (h : encodeSwapInAmountProvided pools tokenFrom tokenTo amount pool other .empty multicaller =
      .ok added) : OneSwap pool.getAddress added := by
  unfold encodeSwapInAmountProvided at h
  split at h
  · exact UniswapV2SwapOpcodesEncoder.oneSwap h
  · exact UniswapV3SwapOpcodesEncoder.oneSwap h
  · exact UniswapV3SwapOpcodesEncoder.oneSwap h
  · exact UniswapV3SwapOpcodesEncoder.oneSwap h
  · exact CurveSwapOpcodesEncoder.oneSwap h
  · cases h

/-- **Flash swaps wrap.**  What is added is a swap around the given calls. -/
lemma nested_of_encodeFlashSwapInAmountProvided
    (h : encodeFlashSwapInAmountProvided pools tokenFrom tokenTo amount pool other (.opcodes inside)
      multicaller = .ok added) : Nested DataCall.kind inside [pool.getAddress] added := by
  unfold encodeFlashSwapInAmountProvided at h
  split at h
  · exact UniswapV2SwapOpcodesEncoder.nestedIn h
  · exact UniswapV3SwapOpcodesEncoder.nestedIn h
  · exact UniswapV3SwapOpcodesEncoder.nestedIn h
  · exact UniswapV3SwapOpcodesEncoder.nestedIn h
  · cases h
  · cases h

lemma nested_of_encodeFlashSwapOutAmountProvided
    (h : encodeFlashSwapOutAmountProvided pools tokenFrom tokenTo amount pool other
      (.opcodes inside) multicaller = .ok added) :
    Nested DataCall.kind inside [pool.getAddress] added := by
  unfold encodeFlashSwapOutAmountProvided at h
  split at h
  · exact UniswapV2SwapOpcodesEncoder.nestedOut h
  · exact UniswapV3SwapOpcodesEncoder.nestedOut h
  · exact UniswapV3SwapOpcodesEncoder.nestedOut h
  · exact UniswapV3SwapOpcodesEncoder.nestedOut h
  · cases h
  · cases h

end ProtocolSwapOpcodesEncoderV2

end Encoders

end Kabu
