import Kabu.Execution.Opcodes

/-!
# What the packed calls say

The contract reads the bytes of a list of calls from the front.  `decode` is that reading: twelve
bytes of header, twenty of target unless the call is local, and as many bytes of data as the header
says, until nothing is left.

The fields of a header are narrow: sixteen bits for the length of the data, twenty-four for each
stack position, seventy-nine for a value.  What does not fit is cut off or runs into the field
beside it, and a call that sends a value has no room for its stack positions at all.  `Fits` says
that nothing of that happens, and a list of calls is read back exactly if all of its calls fit
(`decode_packDoCallsData_iff`).
-/

namespace Kabu

open OpcodesEncoderV2

/-! ## Reading -/

/-- Offsets into the data of a call count from the start of its header. -/
def CallType.headerLen (callType : CallType) : ℕ := if callType.isLocal then 12 else 32

def readBytes (n : ℕ) (bytes : Bytes) : Option (Bytes × Bytes) :=
  if n ≤ bytes.length then some (bytes.take n, bytes.drop n) else none

/-- A stack position, where all ones stand for none. -/
def decodeStack (base : ℕ) (word : ℕ) : Option (Option CallStack) :=
  if word = 0xFFFFFF then some none
  else if word % 2 ^ 12 < base then none
  else some (some
    { isRelative := decide (word / 2 ^ 23 % 2 = 1)
      stackOffset := BitVec.ofNat 32 (word / 2 ^ 20 % 2 ^ 3)
      dataOffset := BitVec.ofNat 32 (word % 2 ^ 12 - base)
      dataLen := BitVec.ofNat 64 (word / 2 ^ 12 % 2 ^ 8) })

def decodeSelector (selector : ℕ) : Option CallType :=
  if selector = 0x7FFA ∨ selector = 0x7FFC then some .call
  else if selector = 0x7FFB then some .calculationCall
  else if selector = 0x7FFD then some .internalCall
  else if selector = 0x7FFE then some .staticCall
  else if selector = 0x7FFF then some .delegateCall
  else none

/-- The call that the header describes, without its target and data. -/
def decodeHeader (header : ℕ) : Option MulticallerCall :=
  if header / 2 ^ 95 % 2 = 1 then
    some (.newCallWithValue 0 [] (BitVec.ofNat 256 (header / 2 ^ 16 % 2 ^ 79)))
  else
    (decodeSelector (header / 2 ^ 80 % 2 ^ 16)).bind fun callType =>
      (decodeStack callType.headerLen (header / 2 ^ 16 % 2 ^ 24)).bind fun callStack =>
        (decodeStack 0 (header / 2 ^ 40 % 2 ^ 24)).map fun returnStack =>
          { MulticallerCall.new callType 0 [] none with callStack, returnStack }

/-- Read one call, and what is behind it. -/
def decodeCall (bytes : Bytes) : Option (MulticallerCall × Bytes) :=
  (readBytes 12 bytes).bind fun header =>
    (decodeHeader (Wire.fromBe header.1)).bind fun call =>
      (readBytes (if call.callType.isLocal then 0 else 20) header.2).bind fun target =>
        (readBytes (Wire.fromBe header.1 % 2 ^ 16) target.2).map fun data =>
          ({ call with callTo := BitVec.ofNat 160 (Wire.fromBe target.1), callData := data.1 },
            data.2)

def decode (bytes : Bytes) : Option MulticallerCalls :=
  Wire.decodeAll decodeCall bytes.length bytes

/-! ## What fits -/

def CallStack.Fits (base : ℕ) (stack : CallStack) : Prop :=
  stack.stackOffset.toNat < 2 ^ 3 ∧ stack.dataLen.toNat < 2 ^ 8 ∧
    stack.dataOffset.toNat + base < 2 ^ 12 ∧
    ¬ (stack.isRelative = true ∧ stack.stackOffset.toNat = 7 ∧ stack.dataLen.toNat = 255 ∧
      stack.dataOffset.toNat + base = 4095)

namespace MulticallerCall

/-- A value of zero counts as none. -/
def normalize (call : MulticallerCall) : MulticallerCall :=
  { call with value := if call.value.getD 0 = 0 then none else call.value }

/-- The type is one of those that are packed. -/
def Packable (call : MulticallerCall) : Prop :=
  call.callType ≠ .unknown ∧ call.callType ≠ .customCall

/-- The data is short enough, a local call has no target, and the value and the stack positions fit
in the header. -/
structure Fits (call : MulticallerCall) : Prop where
  packable : call.Packable
  data : call.callData.length < 2 ^ 16
  target : call.callType.isLocal = true → call.callTo = 0
  positions : call.value.getD 0 = 0 →
    (∀ stack ∈ call.callStack, stack.Fits call.callType.headerLen) ∧
      ∀ stack ∈ call.returnStack, stack.Fits 0
  value : call.value.getD 0 ≠ 0 → call.callType = .call ∧ (call.value.getD 0).toNat < 2 ^ 79 ∧
    call.callStack = none ∧ call.returnStack = none

end MulticallerCall

/-! ## Words -/

lemma toNat_shiftLeft_of_lt {w : ℕ} (x : BitVec w) (k : ℕ) (h : x.toNat * 2 ^ k < 2 ^ w) :
    (x <<< k).toNat = 2 ^ k * x.toNat := by
  rw [BitVec.toNat_shiftLeft, Nat.shiftLeft_eq, Nat.mod_eq_of_lt h, Nat.mul_comm]

lemma toNat_encodeDataOffset (isRelative : Bool) (stackOffset dataOffset : BitVec 32)
    (dataLen : BitVec 64) :
    (encodeDataOffset isRelative stackOffset dataOffset dataLen).toNat =
      2 ^ 23 * (if isRelative then 1 else 0) + (2 ^ 20 * (stackOffset.toNat % 2 ^ 3) +
        (2 ^ 12 * (dataLen.toNat % 2 ^ 8) + dataOffset.toNat % 2 ^ 12)) := by
  have hflag : (if isRelative then 0x800000 else 0x0 : BitVec 32).toNat =
      2 ^ 23 * if isRelative then 1 else 0 := by
    cases isRelative <;> rfl
  have hmask : ∀ (x : BitVec 32) (k : ℕ), k ≤ 12 → (x &&& BitVec.ofNat 32 (2 ^ k - 1)).toNat =
      x.toNat % 2 ^ k := by
    intro x k hk
    have hpow : 2 ^ k ≤ 2 ^ 12 := Nat.pow_le_pow_right (by decide) hk
    rw [BitVec.toNat_and, BitVec.toNat_ofNat, Nat.mod_eq_of_lt (by omega),
      Nat.and_two_pow_sub_one_eq_mod]
  have hoffset : (stackOffset &&& 0x7).toNat = stackOffset.toNat % 2 ^ 3 := hmask _ 3 (by decide)
  have hdata : (dataOffset &&& 0xFFF).toNat = dataOffset.toNat % 2 ^ 12 := hmask _ 12 (by decide)
  have hlen : (dataLen.setWidth 32 &&& 0xFF).toNat = dataLen.toNat % 2 ^ 8 := by
    rw [show (dataLen.setWidth 32 &&& 0xFF).toNat = (dataLen.setWidth 32).toNat % 2 ^ 8 from
      hmask _ 8 (by decide), BitVec.toNat_setWidth]
    omega
  unfold encodeDataOffset
  rw [BitVec.toNat_or, BitVec.toNat_or, BitVec.toNat_or, toNat_shiftLeft_of_lt _ 20 (by omega),
    toNat_shiftLeft_of_lt _ 12 (by omega), hflag, hoffset, hdata, hlen,
    Nat.two_pow_add_eq_or_of_lt (by omega), Nat.two_pow_add_eq_or_of_lt (by omega),
    Nat.two_pow_add_eq_or_of_lt (by omega)]
  ac_rfl

lemma decodeStack_encodeDataOffset_iff {base : ℕ} (hbase : base ≤ 32) (stack : CallStack) :
    decodeStack base (encodeDataOffset stack.isRelative stack.stackOffset
        (stack.dataOffset + BitVec.ofNat 32 base) stack.dataLen).toNat = some (some stack) ↔
      stack.Fits base := by
  obtain ⟨isRelative, stackOffset, dataOffset, dataLen⟩ := stack
  rw [toNat_encodeDataOffset]
  have hadd : (dataOffset + BitVec.ofNat 32 base).toNat % 2 ^ 12 =
      (dataOffset.toNat + base) % 2 ^ 12 := by
    rw [BitVec.toNat_add, BitVec.toNat_ofNat]
    omega
  rw [hadd]
  have hoff := dataOffset.isLt
  have hstack := stackOffset.isLt
  have hlen := dataLen.isLt
  unfold CallStack.Fits decodeStack
  dsimp only
  generalize hword : 2 ^ 23 * (if isRelative = true then 1 else 0) +
    (2 ^ 20 * (stackOffset.toNat % 2 ^ 3) + (2 ^ 12 * (dataLen.toNat % 2 ^ 8) +
      (dataOffset.toNat + base) % 2 ^ 12)) = word
  have hfields : word % 2 ^ 12 = (dataOffset.toNat + base) % 2 ^ 12 ∧
      word / 2 ^ 12 % 2 ^ 8 = dataLen.toNat % 2 ^ 8 ∧
      word / 2 ^ 20 % 2 ^ 3 = stackOffset.toNat % 2 ^ 3 ∧
      word / 2 ^ 23 % 2 = (if isRelative = true then 1 else 0) ∧ word < 2 ^ 24 := by
    cases isRelative
    all_goals
      simp only [Bool.false_eq_true, if_false, if_true] at hword ⊢
      omega
  obtain ⟨hdata, hdataLen, hoffset, hflag, hlt⟩ := hfields
  have hflag' : decide (word / 2 ^ 23 % 2 = 1) = isRelative := by
    rw [hflag]
    cases isRelative <;> rfl
  rw [hflag', hdata, hdataLen, hoffset]
  constructor
  · intro hread
    split at hread
    · simp at hread
    · rename_i hnone
      split at hread
      · simp at hread
      · rename_i hbelow
        have hstackEq := Option.some.inj (Option.some.inj hread)
        rw [CallStack.mk.injEq] at hstackEq
        obtain ⟨-, hso, hdo, hdl⟩ := hstackEq
        have hso' := congrArg BitVec.toNat hso
        have hdo' := congrArg BitVec.toNat hdo
        have hdl' := congrArg BitVec.toNat hdl
        rw [BitVec.toNat_ofNat] at hso' hdo' hdl'
        refine ⟨by omega, by omega, by omega, ?_⟩
        rintro ⟨hrel, hseven, hfull, hlast⟩
        rw [hrel] at hword
        simp only [if_true] at hword
        omega
  · rintro ⟨hso, hdl, hdo, hnot⟩
    have hall : word ≠ 0xFFFFFF := by
      intro heq
      refine hnot ⟨?_, by omega, by omega, by omega⟩
      rw [← hflag', heq]
      rfl
    rw [if_neg hall, if_neg (by omega)]
    have hso' : BitVec.ofNat 32 (stackOffset.toNat % 2 ^ 3) = stackOffset := by
      rw [Nat.mod_eq_of_lt hso, BitVec.ofNat_toNat, BitVec.setWidth_eq]
    have hdl' : BitVec.ofNat 64 (dataLen.toNat % 2 ^ 8) = dataLen := by
      rw [Nat.mod_eq_of_lt hdl, BitVec.ofNat_toNat, BitVec.setWidth_eq]
    have hdo' : BitVec.ofNat 32 ((dataOffset.toNat + base) % 2 ^ 12 - base) = dataOffset := by
      rw [Nat.mod_eq_of_lt hdo, Nat.add_sub_cancel, BitVec.ofNat_toNat, BitVec.setWidth_eq]
    rw [hso', hdl', hdo']

/-! ## Headers -/

lemma encodeDataOffset_lt (isRelative : Bool) (stackOffset dataOffset : BitVec 32)
    (dataLen : BitVec 64) :
    (encodeDataOffset isRelative stackOffset dataOffset dataLen).toNat < 2 ^ 24 := by
  rw [toNat_encodeDataOffset]
  split <;> omega

lemma encodeCallStack_lt (call : MulticallerCall) : (encodeCallStack call).toNat < 2 ^ 24 := by
  unfold encodeCallStack
  split
  · split
    · exact encodeDataOffset_lt _ _ _ _
    · exact encodeDataOffset_lt _ _ _ _
  · decide

lemma encodeReturnStack_lt (call : MulticallerCall) : (encodeReturnStack call).toNat < 2 ^ 24 := by
  unfold encodeReturnStack
  split
  · exact encodeDataOffset_lt _ _ _ _
  · decide

lemma decodeStack_encodeCallStack_iff (call : MulticallerCall) :
    decodeStack call.callType.headerLen (encodeCallStack call).toNat = some call.callStack ↔
      ∀ stack ∈ call.callStack, stack.Fits call.callType.headerLen := by
  unfold encodeCallStack CallType.headerLen
  cases hstack : call.callStack with
  | none => simp [decodeStack]
  | some stack =>
      simp only [Option.mem_def, Option.some.injEq, forall_eq']
      cases call.callType.isLocal with
      | true => exact decodeStack_encodeDataOffset_iff (by decide) stack
      | false => exact decodeStack_encodeDataOffset_iff (by decide) stack

lemma decodeStack_encodeReturnStack_iff (call : MulticallerCall) :
    decodeStack 0 (encodeReturnStack call).toNat = some call.returnStack ↔
      ∀ stack ∈ call.returnStack, stack.Fits 0 := by
  unfold encodeReturnStack
  cases hstack : call.returnStack with
  | none => simp [decodeStack]
  | some stack =>
      simp only [Option.mem_def, Option.some.injEq, forall_eq']
      have h := decodeStack_encodeDataOffset_iff (Nat.zero_le 32) stack
      rwa [show stack.dataOffset + BitVec.ofNat 32 0 = stack.dataOffset from
        BitVec.add_zero _] at h

lemma toNat_valueWord {value : U256} {len : ℕ} (hlen : len < 2 ^ 16) :
    (value <<< 0x10 ||| (1 : U256) <<< (96 - 1) ||| BitVec.ofNat 256 len).toNat % 2 ^ 96 =
      2 ^ 95 + (2 ^ 16 * (value.toNat % 2 ^ 79) + len) := by
  have hone : ((1 : U256) <<< (96 - 1)).toNat = 2 ^ 95 := by decide
  have hlen' : (BitVec.ofNat 256 len).toNat = len := by
    rw [BitVec.toNat_ofNat, Nat.mod_eq_of_lt (by omega)]
  have hvalue : (value <<< 0x10).toNat % 2 ^ 96 = 2 ^ 16 * (value.toNat % 2 ^ 80) := by
    rw [BitVec.toNat_shiftLeft, Nat.shiftLeft_eq]
    omega
  rw [BitVec.toNat_or, BitVec.toNat_or, hone, hlen', Nat.or_mod_two_pow, Nat.or_mod_two_pow, hvalue,
    Nat.mod_eq_of_lt (show len < 2 ^ 96 by omega), Nat.mod_eq_of_lt (show 2 ^ 95 < 2 ^ 96 by decide)]
  -- the value may reach into the bit that marks the layout, where it makes no difference
  have hsplit : 2 ^ 16 * (value.toNat % 2 ^ 80) =
      2 ^ 95 * (value.toNat / 2 ^ 79 % 2) ||| 2 ^ 16 * (value.toNat % 2 ^ 79) := by
    rw [← Nat.two_pow_add_eq_or_of_lt (by omega)]
    omega
  have hmark : 2 ^ 95 * (value.toNat / 2 ^ 79 % 2) ||| 2 ^ 95 = 2 ^ 95 := by
    rcases Nat.mod_two_eq_zero_or_one (value.toNat / 2 ^ 79) with h | h <;> rw [h] <;> decide
  have hsum : 2 ^ 95 + (2 ^ 16 * (value.toNat % 2 ^ 79) + len) =
      2 ^ 95 ||| (2 ^ 16 * (value.toNat % 2 ^ 79) ||| len) := by
    have hmarked := Nat.two_pow_add_eq_or_of_lt
      (show 2 ^ 16 * (value.toNat % 2 ^ 79) + len < 2 ^ 95 by omega) 1
    rw [Nat.mul_one] at hmarked
    rw [hmarked, Nat.two_pow_add_eq_or_of_lt hlen]
  rw [hsplit, hsum]
  calc 2 ^ 95 * (value.toNat / 2 ^ 79 % 2) ||| 2 ^ 16 * (value.toNat % 2 ^ 79) ||| 2 ^ 95 ||| len
      = (2 ^ 95 * (value.toNat / 2 ^ 79 % 2) ||| 2 ^ 95) |||
          (2 ^ 16 * (value.toNat % 2 ^ 79) ||| len) := by ac_rfl
    _ = 2 ^ 95 ||| (2 ^ 16 * (value.toNat % 2 ^ 79) ||| len) := by rw [hmark]

variable {selector : U256} {call : MulticallerCall}

lemma toNat_selectorWord {len : ℕ} {callStack returnStack : BitVec 32}
    (hselector : selector.toNat < 2 ^ 16) (hlen : len < 2 ^ 16) (hcall : callStack.toNat < 2 ^ 24)
    (hreturn : returnStack.toNat < 2 ^ 24) :
    (selector <<< 80 ||| BitVec.ofNat 256 len ||| callStack.setWidth 256 <<< 16 |||
        returnStack.setWidth 256 <<< 40).toNat =
      2 ^ 80 * selector.toNat + (2 ^ 40 * returnStack.toNat + (2 ^ 16 * callStack.toNat + len)) := by
  have hwidth : ∀ x : BitVec 32, (x.setWidth 256).toNat = x.toNat := fun x => by
    rw [BitVec.toNat_setWidth, Nat.mod_eq_of_lt (by omega)]
  have hlen' : (BitVec.ofNat 256 len).toNat = len := by
    rw [BitVec.toNat_ofNat, Nat.mod_eq_of_lt (by omega)]
  rw [BitVec.toNat_or, BitVec.toNat_or, BitVec.toNat_or, toNat_shiftLeft_of_lt _ _ (by omega),
    toNat_shiftLeft_of_lt _ 16 (by rw [hwidth]; omega),
    toNat_shiftLeft_of_lt _ 40 (by rw [hwidth]; omega), hwidth, hwidth, hlen',
    Nat.two_pow_add_eq_or_of_lt (by omega), Nat.two_pow_add_eq_or_of_lt (by omega),
    Nat.two_pow_add_eq_or_of_lt (by omega)]
  ac_rfl

/-! ## One call -/

lemma readBytes_append {bytes : Bytes} {n : ℕ} (h : bytes.length = n) (rest : Bytes) :
    readBytes n (bytes ++ rest) = some (bytes, rest) := by
  unfold readBytes
  rw [if_pos (by rw [List.length_append]; omega), List.take_left' h, List.drop_left' h]

lemma length_of_readBytes {n : ℕ} {bytes : Bytes} {read : Bytes × Bytes}
    (h : readBytes n bytes = some read) : read.1.length = n := by
  unfold readBytes at h
  split at h
  · obtain rfl := Option.some.inj h
    rw [List.length_take]
    omega
  · simp at h

lemma length_callData_of_decodeCall {bytes rest : Bytes}
    (h : decodeCall bytes = some (call, rest)) : call.callData.length < 2 ^ 16 := by
  obtain ⟨header, -, hheader⟩ := Option.bind_eq_some_iff.mp h
  obtain ⟨described, -, hdescribed⟩ := Option.bind_eq_some_iff.mp hheader
  obtain ⟨target, -, htarget⟩ := Option.bind_eq_some_iff.mp hdescribed
  obtain ⟨data, hdata, heq⟩ := Option.map_eq_some_iff.mp htarget
  obtain ⟨rfl, -⟩ := Prod.mk.inj heq
  show data.1.length < 2 ^ 16
  rw [length_of_readBytes hdata]
  exact Nat.mod_lt _ (by decide)

/-- The number that the header of a packed call stands for. -/
def headerOf (selector : U256) (call : MulticallerCall) : ℕ :=
  (selectorWord selector call).toNat % 2 ^ 96

/-- Reading a packed call is reading its header, and then its target and data if the header says
where they are. -/
lemma decodeCall_packWith
    (htype : ∀ described, decodeHeader (headerOf selector call) = some described →
      described.callType.isLocal = call.callType.isLocal)
    (hdata : headerOf selector call % 2 ^ 16 = call.callData.length) (rest : Bytes) :
    decodeCall (packWith selector call ++ rest) =
      (decodeHeader (headerOf selector call)).map fun described =>
        ({ described with
          callTo := if call.callType.isLocal then 0 else call.callTo
          callData := call.callData }, rest) := by
  have hbytes : Wire.fromBe ((Wire.toBe 32 (selectorWord selector call).toNat).drop 20) =
      headerOf selector call := by
    rw [Wire.drop_toBe, Wire.fromBe_toBe]
    rfl
  have hlength : ((Wire.toBe 32 (selectorWord selector call).toNat).drop 20).length = 12 := by
    rw [List.length_drop, Wire.length_toBe]
  unfold decodeCall packWith
  rw [List.append_assoc, List.append_assoc, readBytes_append hlength, Option.bind_some, hbytes]
  cases hheader : decodeHeader (headerOf selector call) with
  | none => rfl
  | some described =>
      rw [Option.bind_some, Option.map_some, htype described hheader, hdata]
      cases call.callType.isLocal with
      | true =>
          simp only [if_true]
          rw [readBytes_append (show ([] : Bytes).length = 0 from rfl), Option.bind_some,
            readBytes_append rfl]
          rfl
      | false =>
          simp only [Bool.false_eq_true, if_false]
          have htarget : BitVec.ofNat 160 (call.callTo.toNat % 256 ^ 20) = call.callTo := by
            rw [show 256 ^ 20 = 2 ^ 160 by decide, Nat.mod_eq_of_lt call.callTo.isLt,
              BitVec.ofNat_toNat, BitVec.setWidth_eq]
          rw [readBytes_append (Wire.length_toBe 20 _), Option.bind_some, readBytes_append rfl,
            Option.map_some, Wire.fromBe_toBe, htarget]

/-- The selectors leave the bit that marks the other layout free, and name the type. -/
lemma selectorCall_spec (h : selectorCall call = some selector) :
    selector.toNat < 2 ^ 15 ∧ decodeSelector selector.toNat = some call.callType := by
  unfold selectorCall at h
  cases htype : call.callType with
  | unknown => simp [htype] at h
  | customCall => simp [htype] at h
  | call =>
      simp only [htype] at h
      split at h
      · obtain rfl := Option.some.inj h
        decide
      · obtain rfl := Option.some.inj h
        decide
  | delegateCall | internalCall | staticCall | calculationCall =>
      simp only [htype] at h
      obtain rfl := Option.some.inj h
      decide

section Layouts

variable (hdata : call.callData.length < 2 ^ 16)

include hdata

/-- A call that sends a value comes back without its stack positions, and with the low bits of its
value. -/
lemma decodeCall_of_value (htype : call.callType = .call) (hvalue : call.value.getD 0 ≠ 0)
    (rest : Bytes) :
    decodeCall (packWith valueCallSelector call ++ rest) =
      some (⟨.call, call.callData, call.callTo,
        some (BitVec.ofNat 256 ((call.value.getD 0).toNat % 2 ^ 79)), none, none⟩, rest) := by
  have hheader : headerOf valueCallSelector call =
      2 ^ 95 + (2 ^ 16 * ((call.value.getD 0).toNat % 2 ^ 79) + call.callData.length) := by
    unfold headerOf selectorWord
    rw [if_pos ⟨rfl, hvalue⟩]
    exact toNat_valueWord hdata
  have hdescribed : decodeHeader (headerOf valueCallSelector call) =
      some (.newCallWithValue 0 [] (BitVec.ofNat 256 ((call.value.getD 0).toNat % 2 ^ 79))) := by
    unfold decodeHeader
    rw [hheader, if_pos (by omega)]
    congr 3
    omega
  have hlocal : ∀ described, decodeHeader (headerOf valueCallSelector call) = some described →
      described.callType.isLocal = call.callType.isLocal := by
    intro described h
    obtain rfl := Option.some.inj (hdescribed.symm.trans h)
    rw [htype]
    rfl
  rw [decodeCall_packWith hlocal (by rw [hheader]; omega), hdescribed, htype]
  rfl

/-- Any other call of a type that is packed comes back with the stack positions as they are read,
and without a value. -/
lemma decodeCall_of_selector (hselector : selectorCall call = some selector)
    (hvalue : ¬ (selector = valueCallSelector ∧ call.value.getD 0 ≠ 0)) (rest : Bytes) :
    decodeCall (packWith selector call ++ rest) =
      (decodeStack call.callType.headerLen (encodeCallStack call).toNat).bind fun callStack =>
        (decodeStack 0 (encodeReturnStack call).toNat).map fun returnStack =>
          (⟨call.callType, call.callData, if call.callType.isLocal then 0 else call.callTo, none,
            callStack, returnStack⟩, rest) := by
  obtain ⟨hlt, htype⟩ := selectorCall_spec hselector
  have hcall := encodeCallStack_lt call
  have hreturn := encodeReturnStack_lt call
  have hheader : headerOf selector call = 2 ^ 80 * selector.toNat +
      (2 ^ 40 * (encodeReturnStack call).toNat + (2 ^ 16 * (encodeCallStack call).toNat +
        call.callData.length)) := by
    unfold headerOf selectorWord
    rw [if_neg hvalue, toNat_selectorWord (by omega) hdata hcall hreturn]
    omega
  have hdescribed : decodeHeader (headerOf selector call) =
      (decodeStack call.callType.headerLen (encodeCallStack call).toNat).bind fun callStack =>
        (decodeStack 0 (encodeReturnStack call).toNat).map fun returnStack =>
          { MulticallerCall.new call.callType 0 [] none with callStack, returnStack } := by
    unfold decodeHeader
    rw [hheader, if_neg (by omega)]
    have hselector' : (2 ^ 80 * selector.toNat + (2 ^ 40 * (encodeReturnStack call).toNat +
        (2 ^ 16 * (encodeCallStack call).toNat + call.callData.length))) / 2 ^ 80 % 2 ^ 16 =
        selector.toNat := by omega
    have hcall' : (2 ^ 80 * selector.toNat + (2 ^ 40 * (encodeReturnStack call).toNat +
        (2 ^ 16 * (encodeCallStack call).toNat + call.callData.length))) / 2 ^ 16 % 2 ^ 24 =
        (encodeCallStack call).toNat := by omega
    have hreturn' : (2 ^ 80 * selector.toNat + (2 ^ 40 * (encodeReturnStack call).toNat +
        (2 ^ 16 * (encodeCallStack call).toNat + call.callData.length))) / 2 ^ 40 % 2 ^ 24 =
        (encodeReturnStack call).toNat := by omega
    rw [hselector', hcall', hreturn', htype, Option.bind_some]
  have hlocal : ∀ described, decodeHeader (headerOf selector call) = some described →
      described.callType.isLocal = call.callType.isLocal := by
    intro described h
    rw [hdescribed] at h
    obtain ⟨callStack, -, h⟩ := Option.bind_eq_some_iff.mp h
    obtain ⟨returnStack, -, rfl⟩ := Option.map_eq_some_iff.mp h
    rfl
  rw [decodeCall_packWith hlocal (by rw [hheader]; omega), hdescribed]
  cases decodeStack call.callType.headerLen (encodeCallStack call).toNat with
  | none => rfl
  | some callStack =>
      rw [Option.bind_some, Option.bind_some, Option.map_map]
      rfl

end Layouts

/-- The bytes of a call, where a type that is not packed has the selector zero. -/
def packBytes (call : MulticallerCall) : Bytes := packWith ((selectorCall call).getD 0) call

lemma exists_selectorCall (h : call.Packable) :
    ∃ selector, selectorCall call = some selector := by
  obtain ⟨hunknown, hcustom⟩ := h
  unfold selectorCall
  cases htype : call.callType with
  | unknown => exact absurd htype hunknown
  | customCall => exact absurd htype hcustom
  | call =>
      by_cases hvalue : call.value.isNone = true
      · exact ⟨_, if_pos hvalue⟩
      · exact ⟨_, if_neg hvalue⟩
  | delegateCall | internalCall | staticCall | calculationCall => exact ⟨_, rfl⟩

lemma callType_of_valueCallSelector
    (h : selectorCall call = some valueCallSelector) : call.callType = .call := by
  have htype := (selectorCall_spec h).2
  exact (Option.some.inj htype).symm

lemma selectorCall_of_value (htype : call.callType = .call)
    (hvalue : call.value.getD 0 ≠ 0) : selectorCall call = some valueCallSelector := by
  unfold selectorCall
  rw [htype]
  refine if_neg fun hnone => hvalue ?_
  rw [Option.isNone_iff_eq_none.mp hnone]
  rfl

lemma normalize_of_value (h : call.value.getD 0 ≠ 0) :
    call.normalize = ⟨call.callType, call.callData, call.callTo, some (call.value.getD 0),
      call.callStack, call.returnStack⟩ := by
  obtain ⟨callType, callData, callTo, value, callStack, returnStack⟩ := call
  cases value with
  | none => exact absurd rfl h
  | some value =>
      unfold MulticallerCall.normalize
      rw [if_neg h]
      rfl

/-- **One call.**  A call of a type that is packed is read back, with what follows it, exactly if
it fits. -/
lemma reads_packBytes : Wire.Reads MulticallerCall.Packable packBytes decodeCall
    MulticallerCall.normalize MulticallerCall.Fits := by
  intro call hpackable rest rest'
  obtain ⟨selector, hselector⟩ := exists_selectorCall hpackable
  have hbytes : packBytes call = packWith selector call := by
    unfold packBytes
    rw [hselector]
    rfl
  rw [hbytes]
  -- in either case the data has to be short enough
  by_cases hdata : call.callData.length < 2 ^ 16
  swap
  · constructor
    · intro hread
      exact absurd (length_callData_of_decodeCall hread) hdata
    · rintro ⟨hfits, -⟩
      exact absurd hfits.data hdata
  by_cases hvalue : selector = valueCallSelector ∧ call.value.getD 0 ≠ 0
  · obtain ⟨rfl, hnonzero⟩ := hvalue
    have htype := callType_of_valueCallSelector hselector
    rw [decodeCall_of_value hdata htype hnonzero, Option.some.injEq, Prod.mk.injEq,
      normalize_of_value hnonzero, MulticallerCall.mk.injEq, Option.some.injEq]
    constructor
    · rintro ⟨⟨-, -, -, hkept, hcall, hreturn⟩, hrest⟩
      have hlt : (call.value.getD 0).toNat < 2 ^ 79 := by
        have hnat := congrArg BitVec.toNat hkept
        rw [BitVec.toNat_ofNat] at hnat
        omega
      refine ⟨⟨hpackable, hdata, fun hlocal => ?_, fun hzero => absurd hzero hnonzero,
        fun _ => ⟨htype, hlt, hcall.symm, hreturn.symm⟩⟩, hrest.symm⟩
      rw [htype] at hlocal
      exact absurd hlocal Bool.false_ne_true
    · rintro ⟨hfits, rfl⟩
      obtain ⟨-, hlt, hcall, hreturn⟩ := hfits.value hnonzero
      refine ⟨⟨htype.symm, rfl, rfl, ?_, hcall.symm, hreturn.symm⟩, rfl⟩
      rw [Nat.mod_eq_of_lt hlt, BitVec.ofNat_toNat, BitVec.setWidth_eq]
  · rw [decodeCall_of_selector hdata hselector hvalue]
    constructor
    · intro hread
      obtain ⟨callStack, hcall, hread⟩ := Option.bind_eq_some_iff.mp hread
      obtain ⟨returnStack, hreturn, heq⟩ := Option.map_eq_some_iff.mp hread
      obtain ⟨hsame, hrest⟩ := Prod.mk.inj heq
      obtain ⟨-, -, htarget, hnone, rfl, rfl⟩ := MulticallerCall.mk.inj hsame
      have hzero : call.value.getD 0 = 0 := not_not.mp fun hnonzero => by
        rw [if_neg hnonzero] at hnone
        rw [← hnone] at hnonzero
        exact hnonzero rfl
      refine ⟨⟨hpackable, hdata, fun hlocal => ?_, fun _ =>
        ⟨(decodeStack_encodeCallStack_iff call).mp hcall,
          (decodeStack_encodeReturnStack_iff call).mp hreturn⟩,
        fun hnonzero => absurd hzero hnonzero⟩, hrest.symm⟩
      rw [if_pos hlocal] at htarget
      exact htarget.symm
    · rintro ⟨hfits, rfl⟩
      have hzero : call.value.getD 0 = 0 := not_not.mp fun hnonzero => hvalue
        ⟨Option.some.inj (hselector.symm.trans
          (selectorCall_of_value (hfits.value hnonzero).1 hnonzero)), hnonzero⟩
      obtain ⟨hcall, hreturn⟩ := hfits.positions hzero
      rw [(decodeStack_encodeCallStack_iff call).mpr hcall, Option.bind_some,
        (decodeStack_encodeReturnStack_iff call).mpr hreturn, Option.map_some,
        MulticallerCall.normalize, if_pos hzero]
      have htarget : (if call.callType.isLocal then 0 else call.callTo) = call.callTo := by
        split
        · rename_i hlocal
          exact (hfits.target hlocal).symm
        · rfl
      rw [htarget]

/-! ## Lists of calls -/

lemma packOpcode_of_packable (h : call.Packable) :
    packOpcode call = .ok (packBytes call) := by
  obtain ⟨selector, hselector⟩ := exists_selectorCall h
  unfold packOpcode packBytes
  rw [hselector]
  rfl

lemma packOpcode_of_not_packable (h : ¬ call.Packable) :
    packOpcode call = .error "WRONG_OPCODE" := by
  have hnone : selectorCall call = none := by
    cases hselector : selectorCall call with
    | none => rfl
    | some selector =>
        refine absurd ⟨fun htype => ?_, fun htype => ?_⟩ h
        all_goals
          unfold selectorCall at hselector
          rw [htype] at hselector
          simp at hselector
  unfold packOpcode
  rw [hnone]

variable {calls : MulticallerCalls}

lemma foldlM_packOpcode (h : ∀ call ∈ calls, call.Packable) (callData : Bytes) :
    calls.foldlM (fun callData opcode => (packOpcode opcode).map (callData ++ ·)) callData =
      .ok (callData ++ calls.flatMap packBytes) := by
  induction calls generalizing callData with
  | nil => rw [List.flatMap_nil, List.append_nil]; rfl
  | cons call calls ih =>
      obtain ⟨hcall, hcalls⟩ := List.forall_mem_cons.mp h
      rw [List.foldlM_cons, packOpcode_of_packable hcall, List.flatMap_cons, ← List.append_assoc]
      exact ih hcalls (callData ++ packBytes call)

lemma packDoCallsData_of_packable (h : ∀ call ∈ calls, call.Packable) :
    packDoCallsData calls = .ok (calls.flatMap packBytes) :=
  foldlM_packOpcode h []

lemma packDoCallsData_of_not_packable (h : ∃ call ∈ calls, ¬ call.Packable) (bytes : Bytes) :
    packDoCallsData calls ≠ .ok bytes := by
  have hloop : ∀ callData : Bytes,
      calls.foldlM (fun callData opcode => (packOpcode opcode).map (callData ++ ·)) callData ≠
        .ok bytes := by
    induction calls with
    | nil => simp at h
    | cons call calls ih =>
        intro callData
        rw [List.foldlM_cons]
        by_cases hcall : call.Packable
        · have hcalls : ∃ call ∈ calls, ¬ call.Packable := by
            obtain ⟨other, hmem, hother⟩ := h
            rcases List.mem_cons.mp hmem with rfl | hmem
            · exact absurd hcall hother
            · exact ⟨other, hmem, hother⟩
          rw [packOpcode_of_packable hcall]
          exact ih hcalls (callData ++ packBytes call)
        · rw [packOpcode_of_not_packable hcall]
          exact nofun
  exact hloop []

lemma packBytes_ne_nil (call : MulticallerCall) : packBytes call ≠ [] := by
  intro hnil
  have hlength := congrArg List.length hnil
  unfold packBytes packWith at hlength
  rw [List.length_append, List.length_append, List.length_drop, Wire.length_toBe,
    List.length_nil] at hlength
  omega

/-- **When packed calls are read back.**  For every list of calls, if it can be packed at all, the
bytes are read back as the list, an absent value and a value of zero being the same, exactly if
some call is of a type that is not packed or all of them fit. -/
theorem decode_packDoCallsData_iff (calls : MulticallerCalls) :
    (∀ bytes, packDoCallsData calls = .ok bytes →
        decode bytes = some (calls.map MulticallerCall.normalize)) ↔
      (∃ call ∈ calls, ¬ call.Packable) ∨ ∀ call ∈ calls, call.Fits := by
  by_cases hpackable : ∀ call ∈ calls, call.Packable
  · have hnone : ¬ ∃ call ∈ calls, ¬ call.Packable := by
      rintro ⟨call, hmem, hcall⟩
      exact hcall (hpackable call hmem)
    have hall := Wire.decodeAll_flatMap_iff reads_packBytes packBytes_ne_nil hpackable
      (Wire.length_le_length_flatMap packBytes_ne_nil calls)
    rw [packDoCallsData_of_packable hpackable, or_iff_right hnone, ← hall]
    constructor
    · exact fun h => h _ rfl
    · rintro h bytes hbytes
      rw [← Except.ok.inj hbytes]
      exact h
  · have hsome : ∃ call ∈ calls, ¬ call.Packable := by
      push Not at hpackable
      exact hpackable
    exact ⟨fun _ => Or.inl hsome, fun _ bytes hbytes =>
      absurd hbytes (packDoCallsData_of_not_packable hsome bytes)⟩

/-! ### A call that sends a value -/

section ValueCall

/-- The call that a pool of the native coin is swapped with: it sends the amount, and puts what it
gets on the stack. -/
def nativeSwap : MulticallerCall :=
  (MulticallerCall.newCallWithValue 0xAA [1, 2, 3, 4] 5).setReturnStack true 0 0 0x20

/-- **The stack position is lost.**  The call is packed into the same bytes as the one without the
position, so that nothing that reads the bytes can tell them apart. -/
theorem value_call_loses_stack :
    packDoCallsData [nativeSwap] =
        packDoCallsData [MulticallerCall.newCallWithValue 0xAA [1, 2, 3, 4] 5] ∧
      (packDoCallsData [nativeSwap]).isOk = true ∧
      [nativeSwap].map MulticallerCall.normalize ≠
        [MulticallerCall.newCallWithValue 0xAA [1, 2, 3, 4] 5].map MulticallerCall.normalize ∧
      ¬ ∃ decoder : Bytes → Option MulticallerCalls, ∀ calls bytes,
        packDoCallsData calls = .ok bytes →
          decoder bytes = some (calls.map MulticallerCall.normalize) := by
  have hsame : packDoCallsData [nativeSwap] =
      packDoCallsData [MulticallerCall.newCallWithValue 0xAA [1, 2, 3, 4] 5] := by
    decide +kernel
  have hne : [nativeSwap].map MulticallerCall.normalize ≠
      [MulticallerCall.newCallWithValue 0xAA [1, 2, 3, 4] 5].map MulticallerCall.normalize := by
    decide +kernel
  refine ⟨hsame, by decide +kernel, hne, ?_⟩
  rintro ⟨decoder, hdecoder⟩
  have hpackable : ∀ call ∈ [nativeSwap], call.Packable := by
    intro call hcall
    rw [List.mem_singleton.mp hcall]
    exact ⟨nofun, nofun⟩
  have hbytes := packDoCallsData_of_packable hpackable
  have hread := hdecoder _ _ hbytes
  rw [hdecoder _ _ (hsame.symm.trans hbytes), Option.some.injEq] at hread
  exact hne hread.symm

end ValueCall

end Kabu
