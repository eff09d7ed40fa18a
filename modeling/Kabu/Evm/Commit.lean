import Kabu.Evm.KabuDB

/-!
# What a commit does to one account

`KabuDB.commit` is a loop over a change set whose body rewrites one account of the writable
layer and, on the side, the map of contracts.  Everything a read of an account depends on is
the account itself and the two layers below, so a commit is described, address by address, by
a function on optional accounts: `committed`, and `KabuDB.commit_lookup` says that the loop
computes it.
-/

namespace Kabu

open KabuDBHelper

/-! ## The code hash an account is stored with -/

/-- The hash field of an account with this code, after a code registered under the empty hash
has been given its own. -/
def filledHash [Keccak] (code : Option Bytecode) (hash : B256) : B256 :=
  match code with
  | some code => if code.isEmpty then hash
      else if hash = keccakEmpty then code.hashSlow else hash
  | none => hash

/-- The code hash an account with this code is stored with. -/
def contractHash [Keccak] (code : Option Bytecode) (hash : B256) : B256 :=
  KabuDB.emptyIfZero (filledHash code hash)

/-- The info an account is stored with. -/
def contractInfo [Keccak] (info : AccountInfo) : AccountInfo :=
  { info with codeHash := contractHash info.code info.codeHash }

section ContractHash

lemma emptyIfZero_of_ne {hash : B256} (h : hash ≠ 0) : KabuDB.emptyIfZero hash = hash := if_neg h

lemma emptyIfZero_ne_zero (hash : B256) : KabuDB.emptyIfZero hash ≠ 0 := by
  unfold KabuDB.emptyIfZero
  split
  · decide
  · assumption

variable [Keccak]

lemma filledHash_of_ne (code : Option Bytecode) {hash : B256} (h : hash ≠ keccakEmpty) :
    filledHash code hash = hash := by
  cases code with
  | none => rfl
  | some code => simp [filledHash, h]

lemma contractHash_of_ne (code : Option Bytecode) {hash : B256} (hz : hash ≠ 0)
    (hk : hash ≠ keccakEmpty) : contractHash code hash = hash := by
  rw [contractHash, filledHash_of_ne code hk, emptyIfZero_of_ne hz]

lemma contractHash_zero (code : Option Bytecode) : contractHash code 0 = keccakEmpty := by
  rw [contractHash, filledHash_of_ne code (by decide)]
  rfl

/-- The hash stored for an account whose hash field says empty is final. -/
lemma contractHash_keccakEmpty (code : Option Bytecode) :
    contractHash code (contractHash code keccakEmpty) = contractHash code keccakEmpty := by
  by_cases hk : contractHash code keccakEmpty = keccakEmpty
  · rw [hk, hk]
  · exact contractHash_of_ne code (emptyIfZero_ne_zero _) hk

/-- Storing an account twice settles its code hash: a zero hash becomes the empty one, and the
empty one becomes that of the code. -/
lemma contractHash_settles (code : Option Bytecode) (hash : B256) :
    contractHash code (contractHash code (contractHash code hash)) =
      contractHash code (contractHash code hash) := by
  by_cases hz : hash = 0
  · rw [hz, contractHash_zero, contractHash_keccakEmpty]
  · by_cases hk : hash = keccakEmpty
    · rw [hk, contractHash_keccakEmpty, contractHash_keccakEmpty]
    · simp only [contractHash_of_ne code hz hk]

/-- A hash that comes from the code itself is settled at once. -/
lemma contractHash_hashSlow (code : Bytecode) :
    contractHash (some code) (contractHash (some code) code.hashSlow) =
      contractHash (some code) code.hashSlow := by
  by_cases hz : code.hashSlow = 0
  · -- the hash is stored as the empty one, and the next store finds zero again
    have hne : code.isEmpty = false := by
      by_contra hcode
      rw [Bytecode.hashSlow, if_pos (by simpa using hcode)] at hz
      exact absurd hz (by decide)
    rw [hz, contractHash_zero, contractHash, filledHash]
    simp only [hne, Bool.false_eq_true, if_false, if_true, hz]
    rfl
  · by_cases hk : code.hashSlow = keccakEmpty
    · rw [hk, contractHash_keccakEmpty]
    · rw [contractHash_of_ne _ hz hk, contractHash_of_ne _ hz hk]

end ContractHash

namespace KabuDB

variable [Keccak] (db : KabuDB)

lemma insertContract_snd (info : AccountInfo) : (db.insertContract info).2 = contractInfo info := by
  obtain ⟨balance, nonce, codeHash, code⟩ := info
  cases code with
  | none => rfl
  | some code =>
      simp only [insertContract, contractInfo, contractHash, filledHash]
      split_ifs <;> rfl

lemma insertContract_fst (info : AccountInfo) :
    (db.insertContract info).1 = { db with contracts := match info.code with
      | some code => if code.isEmpty then db.contracts
          else db.contracts.orInsert (filledHash info.code info.codeHash) code
      | none => db.contracts } := by
  obtain ⟨accounts, contracts, logs, blockHashes, ro, ext⟩ := db
  obtain ⟨balance, nonce, codeHash, code⟩ := info
  cases code with
  | none => rfl
  | some code =>
      simp only [insertContract, filledHash]
      split_ifs <;> rfl

@[simp] lemma insertContract_accounts (info : AccountInfo) :
    (db.insertContract info).1.accounts = db.accounts := by
  rw [insertContract_fst]

@[simp] lemma insertContract_readOnlyDb (info : AccountInfo) :
    (db.insertContract info).1.readOnlyDb = db.readOnlyDb := by
  rw [insertContract_fst]

@[simp] lemma insertContract_extDb (info : AccountInfo) :
    (db.insertContract info).1.extDb = db.extDb := by
  rw [insertContract_fst]

@[simp] lemma insertContract_blockHashes (info : AccountInfo) :
    (db.insertContract info).1.blockHashes = db.blockHashes := by
  rw [insertContract_fst]

end KabuDB

/-! ## One account through a commit -/

/-- The state a touched account that still exists is stored with. -/
def committedState (account : Account) (old : AccountState) : AccountState :=
  if account.isCreated then .storageCleared
  else if old.isStorageCleared then .storageCleared
  else .touched

/-- The account of the writable layer after a commit that holds `account` at its address. -/
def committed [Keccak] (account : Account) (old : Option FastDbAccount) : Option FastDbAccount :=
  if !account.isTouched then old
  else if account.isSelfdestructed then some FastDbAccount.newNotExisting
  else some
    { info := contractInfo account.info
      accountState := committedState account (old.getD default).accountState
      storage := (if account.isCreated then ∅ else (old.getD default).storage).extendMap
        account.storage EvmStorageSlot.presentValue }

/-! ### The cases of a commit -/

section OneAddress

variable [Keccak] {account : Account} {old : Option FastDbAccount}
  {ro ext : Option DatabaseRef} {a : Address}

lemma committed_of_not_touched (h : account.isTouched = false) :
    committed account old = old := by
  simp [committed, h]

lemma committed_of_selfdestructed (ht : account.isTouched = true)
    (hs : account.isSelfdestructed = true) :
    committed account old = some FastDbAccount.newNotExisting := by
  simp [committed, ht, hs]

lemma committed_of_live (ht : account.isTouched = true) (hs : account.isSelfdestructed = false) :
    committed account old = some
      { info := contractInfo account.info
        accountState := committedState account (old.getD default).accountState
        storage := (if account.isCreated then ∅ else (old.getD default).storage).extendMap
          account.storage EvmStorageSlot.presentValue } := by
  simp [committed, ht, hs]

lemma readStorage_created (ht : account.isTouched = true)
    (hs : account.isSelfdestructed = false) (hc : account.isCreated = true) (s : U256) :
    readStorage (committed account old) ro ext a s =
      .ok (((account.storage.lookup s).map (·.presentValue)).getD 0) := by
  rw [committed_of_live ht hs]
  simp only [readStorage, AssocMap.lookup_extendMap, hc, if_true, committedState,
    AssocMap.lookup_empty_eq]
  cases account.storage.lookup s <;> rfl

/-- What a slot of a touched account reads as when the change set does not have it.  The cached
value stays; without one, a cleared account reads zero and any other asks the layers below. -/
def keptSlot (old : Option FastDbAccount) (ro ext : Option DatabaseRef) (a : Address) (s : U256) :
    Except KabuDBError U256 :=
  match (old.getD default).storage.lookup s with
  | some value => .ok value
  | none =>
      if (old.getD default).accountState.isStorageCleared then .ok 0
      else getOrFetchStorage ro ext a s

lemma readStorage_touched (ht : account.isTouched = true)
    (hs : account.isSelfdestructed = false) (hc : account.isCreated = false) (s : U256) :
    readStorage (committed account old) ro ext a s = match account.storage.lookup s with
      | some slot => .ok slot.presentValue
      | none => keptSlot old ro ext a s := by
  rw [committed_of_live ht hs]
  simp only [readStorage, AssocMap.lookup_extendMap, hc, Bool.false_eq_true, if_false,
    committedState, keptSlot]
  cases account.storage.lookup s with
  | some slot => rfl
  | none =>
      cases (old.getD default).storage.lookup s with
      | some value => rfl
      | none => cases (old.getD default).accountState <;> rfl

omit [Keccak] in
/-- What a touched account keeps is what it had, except for an account that does not exist: it
hides the layers below before the touch, and not after. -/
lemma keptSlot_eq_iff (s : U256) :
    keptSlot old ro ext a s = readStorage old ro ext a s ↔
      (∀ acc, old = some acc → acc.accountState = .notExisting → acc.storage.lookup s = none →
        getOrFetchStorage ro ext a s = .ok 0) := by
  cases old with
  | none => simp [keptSlot, readStorage, default, AccountState.isStorageCleared]
  | some acc =>
      obtain ⟨info, state, storage⟩ := acc
      simp only [keptSlot, Option.getD_some, readStorage, Option.some.injEq, forall_eq']
      cases storage.lookup s with
      | some value => simp
      | none => cases state <;> simp [AccountState.hidesStorage, AccountState.isStorageCleared]

end OneAddress

namespace KabuDB

variable [Keccak] (db : KabuDB)

lemma commitAccount_lookup_same (a : Address) (account : Account) :
    (db.commitAccount a account).accounts.lookup a = committed account (db.accounts.lookup a) := by
  unfold commitAccount committed
  by_cases ht : (!account.isTouched) = true
  · rw [if_pos ht, if_pos ht]
  · rw [if_neg ht, if_neg ht]
    by_cases hs : account.isSelfdestructed = true
    · rw [if_pos hs, if_pos hs, AssocMap.lookup_upsert, if_pos rfl]
      rfl
    · rw [if_neg hs, if_neg hs]
      simp only [AssocMap.lookup_upsert, if_true, insertContract_accounts, insertContract_snd]
      rfl

lemma commitAccount_lookup_other (a : Address) (account : Account) (b : Address) (hb : b ≠ a) :
    (db.commitAccount a account).accounts.lookup b = db.accounts.lookup b := by
  unfold commitAccount
  split
  · rfl
  · split
    · simp only [AssocMap.lookup_upsert, if_neg hb]
    · simp only [AssocMap.lookup_upsert, if_neg hb, insertContract_accounts]

lemma commitAccount_readOnlyDb (a : Address) (account : Account) :
    (db.commitAccount a account).readOnlyDb = db.readOnlyDb := by
  unfold commitAccount
  split
  · rfl
  · split
    · rfl
    · exact db.insertContract_readOnlyDb account.info

lemma commitAccount_extDb (a : Address) (account : Account) :
    (db.commitAccount a account).extDb = db.extDb := by
  unfold commitAccount
  split
  · rfl
  · split
    · rfl
    · exact db.insertContract_extDb account.info

variable (changes : AssocMap Address Account)

/-- **A commit, address by address.** -/
lemma commit_lookup (a : Address) :
    (db.commit changes).accounts.lookup a =
      AssocMap.applyAt committed (changes.lookup a) (db.accounts.lookup a) :=
  AssocMap.foldl_obs commitAccount (fun db a => db.accounts.lookup a) (fun _ => committed)
    commitAccount_lookup_same commitAccount_lookup_other changes db a

@[simp] lemma commit_readOnlyDb : (db.commit changes).readOnlyDb = db.readOnlyDb :=
  AssocMap.foldl_preserves commitAccount readOnlyDb commitAccount_readOnlyDb changes db

@[simp] lemma commit_extDb : (db.commit changes).extDb = db.extDb :=
  AssocMap.foldl_preserves commitAccount extDb commitAccount_extDb changes db

@[simp] lemma commit_readOnlyRef : (db.commit changes).readOnlyRef = db.readOnlyRef := by
  rw [readOnlyRef, commit_readOnlyDb, readOnlyRef]

lemma basicRef_commit {a : Address} (ha : a ≠ 0) :
    (db.commit changes).basicRef a = .ok (readBasic
      (AssocMap.applyAt committed (changes.lookup a) (db.accounts.lookup a))
      db.readOnlyRef db.extDb a) := by
  rw [basicRef_eq _ ha, commit_lookup, commit_readOnlyRef, commit_extDb]

lemma storageRef_commit (a : Address) (s : U256) :
    (db.commit changes).storageRef a s = readStorage
      (AssocMap.applyAt committed (changes.lookup a) (db.accounts.lookup a))
      db.readOnlyRef db.extDb a s := by
  rw [storageRef_eq, commit_lookup, commit_readOnlyRef, commit_extDb]

end KabuDB

end Kabu
