import Kabu.Framework.AssocMap

/-!
# Accounts, contract code and state diffs

The values the in-memory database stores and the two shapes in which changes reach it.

`FastDbAccount` is one cached account: its `AccountInfo`, the storage slots that are known, and
an `AccountState` that decides what a slot missing from the cache reads as.  `Account` is the
execution engine's own record of an account after a transaction, and `GethAccountState` one
account's part of a block trace diff, in which every field may be absent.

Words are fixed width, as in the source: an address is 160 bits, a hash and a storage value
256.  A hash used as a slot number is reinterpreted, so `B256` and `U256` are one type.  Block
numbers and nonces are naturals; the source never brings either near `2 ^ 64`.

The hash of contract code is the one primitive that is not defined here: `Keccak` is a
parameter of the model, and every result holds whatever function it is.
-/

namespace Kabu

abbrev Address := BitVec 160
abbrev B256 := BitVec 256
abbrev U256 := BitVec 256
abbrev BlockHash := B256
abbrev Bytes := List UInt8

/-- The hash function contract code is identified by. -/
class Keccak where
  keccak256 : Bytes → B256

export Keccak (keccak256)

/-- A hash function to evaluate the model with, on inputs whose hashes do not matter. -/
@[reducible] def constKeccak : Keccak := ⟨fun _ => 1⟩

def keccakEmpty : B256 :=
  0xc5d2460186f7233c927e7db2dcc703c0e500b653ca82273b7bfad8045d85a470#256

/-! ## Contract code -/

/-- Contract code, as its original bytes. -/
structure Bytecode where
  bytes : Bytes
  deriving DecidableEq, Repr

namespace Bytecode

instance : Inhabited Bytecode := ⟨⟨[]⟩⟩

def newRaw (code : Bytes) : Bytecode := ⟨code⟩

def isEmpty (code : Bytecode) : Bool := code.bytes.isEmpty

/-- The code hash; empty code has the constant `keccakEmpty`. -/
def hashSlow [Keccak] (code : Bytecode) : B256 :=
  if code.isEmpty then keccakEmpty else keccak256 code.bytes

end Bytecode

/-! ## Account records -/

structure AccountInfo where
  balance : U256
  nonce : ℕ
  codeHash : B256
  code : Option Bytecode
  deriving DecidableEq, Repr

/-- The default account is empty, with the empty code attached. -/
instance : Inhabited AccountInfo := ⟨⟨0, 0, keccakEmpty, some default⟩⟩

/-- How much the cache knows about an account. -/
inductive AccountState
  /-- The account is known not to exist. -/
  | notExisting
  /-- A transaction touched it. -/
  | touched
  /-- Its storage was cleared: a slot that is not cached is zero. -/
  | storageCleared
  /-- It was loaded and nothing has happened to it. -/
  | none
  deriving DecidableEq, Repr

instance : Inhabited AccountState := ⟨.none⟩

def AccountState.isStorageCleared : AccountState → Bool
  | .storageCleared => true
  | _ => false

/-- The states in which a slot missing from the cache is zero and the layers below the cache
are not asked. -/
def AccountState.hidesStorage : AccountState → Bool
  | .storageCleared | .notExisting => true
  | .touched | .none => false

@[simp] lemma AccountState.isStorageCleared_iff (st : AccountState) :
    st.isStorageCleared = true ↔ st = .storageCleared := by
  cases st <;> simp [isStorageCleared]

/-- One account of the cache. -/
structure FastDbAccount where
  info : AccountInfo
  accountState : AccountState
  storage : AssocMap U256 U256

namespace FastDbAccount

instance : Inhabited FastDbAccount := ⟨⟨default, default, ∅⟩⟩

def newNotExisting : FastDbAccount :=
  { (default : FastDbAccount) with accountState := .notExisting }

def ofInfo (info : AccountInfo) : FastDbAccount := ⟨info, .none, ∅⟩

/-- The source's conversion from an optional info: no info means a non-existing account. -/
def ofOptionInfo : Option AccountInfo → FastDbAccount
  | some info => ofInfo info
  | none => newNotExisting

/-- The info the account is read as: none while it does not exist. -/
def info? (acc : FastDbAccount) : Option AccountInfo :=
  match acc.accountState with
  | .notExisting => none
  | _ => some acc.info

@[simp] lemma info?_ofOptionInfo (info : Option AccountInfo) :
    (ofOptionInfo info).info? = info := by
  cases info <;> rfl

lemma info?_of_ne {acc : FastDbAccount} (h : acc.accountState ≠ .notExisting) :
    acc.info? = some acc.info := by
  unfold info?
  split
  · exact absurd ‹_› h
  · rfl

lemma info?_of_eq {acc : FastDbAccount} (h : acc.accountState = .notExisting) :
    acc.info? = none := by
  unfold info?
  rw [h]

end FastDbAccount

/-! ## The two shapes of a change -/

/-- One storage slot of an executed account. -/
structure EvmStorageSlot where
  originalValue : U256
  presentValue : U256
  deriving DecidableEq, Repr

def EvmStorageSlot.newChanged (originalValue presentValue : U256) : EvmStorageSlot :=
  ⟨originalValue, presentValue⟩

/-- The status flags of an executed account that the commit looks at. -/
structure AccountStatus where
  created : Bool
  selfDestructed : Bool
  touched : Bool
  deriving DecidableEq, Repr

/-- The status of an account that was touched and nothing else. -/
def AccountStatus.onlyTouched : AccountStatus := ⟨false, false, true⟩

/-- An account as the execution engine hands it to a commit. -/
structure Account where
  info : AccountInfo
  storage : AssocMap U256 EvmStorageSlot
  status : AccountStatus

namespace Account

def isTouched (account : Account) : Bool := account.status.touched
def isSelfdestructed (account : Account) : Bool := account.status.selfDestructed
def isCreated (account : Account) : Bool := account.status.created

end Account

/-- One account's part of a trace diff. -/
structure GethAccountState where
  balance : Option U256
  code : Option Bytes
  nonce : Option ℕ
  storage : AssocMap B256 B256

instance : Inhabited GethAccountState := ⟨⟨none, none, none, ∅⟩⟩

/-- A trace diff of one transaction or one block. -/
abbrev GethStateUpdate := AssocMap Address GethAccountState

/-- A list of diffs, in the order they happened. -/
abbrev GethStateUpdateVec := List GethStateUpdate

/-- A log record, as the database carries it along. -/
structure Log where
  address : Address
  topics : List B256
  data : Bytes
  deriving DecidableEq, Repr

end Kabu
