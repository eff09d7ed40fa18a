import Kabu.Evm.Commit

/-!
# What the merge leaves to read

`KabuDB.mergeAll` writes the maps of the writable layer over those of the read-only layer and
puts an empty database, with the old external layer, on top of the result.  This module says
what each of the four reads of the merged database returns, in terms of the database before the
merge: `basicRef_maintain`, `storageRef_maintain`, `codeByHashRef_maintain` and
`blockHashRef_maintain`.

Two things show in all of them.  The read-only layer is `roBase`, which is the default database
where there was none, and a default database answers every storage and block hash read itself,
from the empty external layer it comes with.  And an account of the writable layer leaves its
info and its slots, but not its state.
-/

namespace Kabu

open KabuDBHelper

namespace KabuDB

variable [Keccak]

def roBase (db : KabuDB) : KabuDB := db.readOnlyDb.getD default

/-- The account a merge writes over the one the read-only layer has. -/
def mergedAccount (account : FastDbAccount) (old : Option FastDbAccount) : Option FastDbAccount :=
  some { (old.getD default) with
    info := contractInfo account.info
    storage := (old.getD default).storage.extend account.storage }

/-- The code an account registers under a hash. -/
def codeUnder (hash : B256) (account : FastDbAccount) : Option Bytecode :=
  match account.info.code with
  | some code =>
      if code.isEmpty then none
      else if hash = filledHash account.info.code account.info.codeHash then some code else none
  | none => none

/-- The code the accounts of the writable layer register under a hash: the first one, in the
order the merge visits them. -/
def registeredCode (db : KabuDB) (hash : B256) : Option Bytecode :=
  db.accounts.values.findSome? (codeUnder hash)

/-- The read-only layer the merge starts its loop over the accounts from. -/
def mergeStart (db : KabuDB) : KabuDB :=
  { db.roBase with
    blockHashes := db.roBase.blockHashes.extend db.blockHashes
    contracts := db.roBase.contracts.extend db.contracts
    logs := db.logs }

/-- The read-only layer after the merge. -/
def mergedRo (db : KabuDB) : KabuDB := db.accounts.foldl mergeAccount db.mergeStart

variable (db : KabuDB)

lemma maintain_readOnlyRef : db.maintain.readOnlyRef = some db.mergedRo.toRef := rfl

lemma maintain_extDb : db.maintain.extDb = db.extDb := rfl

/-! ## The merged read-only layer -/

lemma mergeAccount_lookup_same (ro : KabuDB) (a : Address) (account : FastDbAccount) :
    (ro.mergeAccount a account).accounts.lookup a = mergedAccount account (ro.accounts.lookup a) := by
  unfold mergeAccount mergedAccount
  simp only [AssocMap.lookup_upsert, if_true, insertContract_accounts, insertContract_snd]

lemma mergeAccount_lookup_other (ro : KabuDB) (a : Address) (account : FastDbAccount)
    (b : Address) (hb : b ≠ a) :
    (ro.mergeAccount a account).accounts.lookup b = ro.accounts.lookup b := by
  unfold mergeAccount
  simp only [AssocMap.lookup_upsert, if_neg hb, insertContract_accounts]

lemma mergedRo_lookup (a : Address) :
    db.mergedRo.accounts.lookup a =
      AssocMap.applyAt mergedAccount (db.accounts.lookup a) (db.roBase.accounts.lookup a) :=
  AssocMap.foldl_obs mergeAccount (fun ro a => ro.accounts.lookup a) (fun _ => mergedAccount)
    mergeAccount_lookup_same mergeAccount_lookup_other db.accounts db.mergeStart a

lemma insertContract_contracts (ro : KabuDB) (account : FastDbAccount) (hash : B256) :
    (ro.insertContract account.info).1.contracts.lookup hash =
      (ro.contracts.lookup hash).or (codeUnder hash account) := by
  rw [insertContract_fst, codeUnder]
  cases hcode : account.info.code with
  | none => exact (Option.or_none).symm
  | some code =>
      by_cases hempty : code.isEmpty = true
      · simp only [if_pos hempty, Option.or_none]
      · simp only [if_neg hempty, AssocMap.lookup_orInsert]
        by_cases hh : hash = filledHash (some code) account.info.codeHash
        · rw [if_pos hh, if_pos hh, hh]
          cases ro.contracts.lookup (filledHash (some code) account.info.codeHash) <;> rfl
        · rw [if_neg hh, if_neg hh, Option.or_none]

/-- The merged contracts: those of the writable layer, then those of the read-only one, then
the code that comes with the accounts. -/
lemma mergedRo_contracts (hash : B256) :
    db.mergedRo.contracts.lookup hash =
      ((db.contracts.lookup hash).or (db.roBase.contracts.lookup hash)).or
        (db.registeredCode hash) := by
  have h := AssocMap.foldl_first mergeAccount (fun ro => ro.contracts.lookup hash)
    (codeUnder hash) (fun ro _ account => insertContract_contracts ro account hash)
    db.accounts db.mergeStart
  refine h.trans ?_
  show ((db.roBase.contracts.extend db.contracts).lookup hash).or _ = _
  rw [AssocMap.lookup_extend]
  rfl

lemma mergedRo_blockHashes (n : ℕ) :
    db.mergedRo.blockHashes.lookup n =
      (db.blockHashes.lookup n).or (db.roBase.blockHashes.lookup n) := by
  have h := AssocMap.foldl_preserves mergeAccount (fun ro => ro.blockHashes)
    (fun ro _ account => insertContract_blockHashes ro account.info) db.accounts db.mergeStart
  have h' : db.mergedRo.blockHashes = db.roBase.blockHashes.extend db.blockHashes := h
  rw [h', AssocMap.lookup_extend]

lemma mergedRo_readOnlyRef : db.mergedRo.readOnlyRef = db.roBase.readOnlyRef := by
  have h := AssocMap.foldl_preserves mergeAccount (fun ro => ro.readOnlyDb)
    (fun ro _ account => insertContract_readOnlyDb ro account.info) db.accounts db.mergeStart
  have h' : db.mergedRo.readOnlyDb = db.roBase.readOnlyDb := h
  rw [readOnlyRef, h', readOnlyRef]

lemma mergedRo_extDb : db.mergedRo.extDb = db.roBase.extDb :=
  AssocMap.foldl_preserves mergeAccount (fun ro => ro.extDb)
    (fun ro _ account => insertContract_extDb ro account.info) db.accounts db.mergeStart

lemma isRwRoAccount_maintain (a : Address) : db.maintain.isRwRoAccount a = db.isRwRoAccount a := by
  have hmerged : db.maintain.isRwRoAccount a = (db.mergedRo.accounts.lookup a).isSome := rfl
  rw [hmerged, mergedRo_lookup, roBase, isRwRoAccount]
  cases db.accounts.lookup a with
  | some account => rfl
  | none => cases db.readOnlyDb <;> rfl

/-! ## The four reads of the merged database -/

/-- The slot the writable layer has cached. -/
def cachedSlot (db : KabuDB) (a : Address) (s : U256) : Option U256 :=
  (db.accounts.lookup a).bind (·.storage.lookup s)

/-- Below the merge, an account of the writable layer adds its slots and hides nothing. -/
lemma mergedRo_storageRef (a : Address) (s : U256) :
    db.mergedRo.storageRef a s = match db.cachedSlot a s with
      | some value => .ok value
      | none => db.roBase.storageRef a s := by
  rw [storageRef_eq, storageRef_eq, mergedRo_lookup, mergedRo_readOnlyRef, mergedRo_extDb,
    cachedSlot]
  cases db.accounts.lookup a with
  | none => rfl
  | some account =>
      simp only [AssocMap.applyAt_some, mergedAccount, readStorage, AssocMap.lookup_extend,
        Option.bind_some]
      cases account.storage.lookup s with
      | some value => rfl
      | none => cases db.roBase.accounts.lookup a <;> rfl

lemma storageRef_maintain (a : Address) (s : U256) :
    db.maintain.storageRef a s = match db.cachedSlot a s with
      | some value => .ok value
      | none => getOrFetchStorage (some db.roBase.toRef) db.extDb a s := by
  have h : db.maintain.storageRef a s =
      orElseOf (db.mergedRo.storageRef a s) (fetchStorage db.extDb a s) := by
    rw [storageRef_eq]
    rfl
  rw [h, mergedRo_storageRef]
  cases db.cachedSlot a s <;> rfl

lemma blockHashRef_maintain (n : ℕ) :
    db.maintain.blockHashRef n = match db.blockHashes.lookup n with
      | some hash => .ok hash
      | none => getOrFetchBlockHash (some db.roBase.toRef) db.extDb n := by
  have h : db.maintain.blockHashRef n =
      orElseOf (db.mergedRo.blockHashRef n) (fetchBlockHashRef db.extDb n) := by
    rw [blockHashRef_eq]
    rfl
  have hbase : getOrFetchBlockHash (some db.roBase.toRef) db.extDb n =
      orElseOf (db.roBase.blockHashRef n) (fetchBlockHashRef db.extDb n) := rfl
  rw [h, hbase, blockHashRef_eq, blockHashRef_eq, mergedRo_blockHashes, mergedRo_readOnlyRef,
    mergedRo_extDb]
  cases db.blockHashes.lookup n <;> rfl

lemma codeByHashRef_maintain_empty {h : B256} (hh : h = keccakEmpty ∨ h = 0) :
    db.maintain.codeByHashRef h = .ok default := by
  rw [codeByHashRef_eq]
  rcases hh with rfl | rfl <;> rfl

omit [Keccak] in
lemma lookup_contracts_new {h : B256} (hk : h ≠ keccakEmpty) (hz : h ≠ 0) :
    KabuDB.new.contracts.lookup h = none := by
  rw [KabuDB.new, AssocMap.lookup_insert_eq, if_neg hz, AssocMap.lookup_insert_eq, if_neg hk]
  rfl

lemma codeByHashRef_maintain {h : B256} (hk : h ≠ keccakEmpty) (hz : h ≠ 0) :
    db.maintain.codeByHashRef h =
      match ((db.contracts.lookup h).or (db.roBase.contracts.lookup h)).or
        (db.registeredCode h) with
      | some code => .ok code
      | none => getCodeByHash db.roBase.readOnlyRef h := by
  have hnone : db.maintain.contracts.lookup h = none := lookup_contracts_new hk hz
  have hro : db.maintain.codeByHashRef h = db.mergedRo.codeByHashRef h := by
    rw [codeByHashRef_eq, hnone]
    rfl
  have hread := db.mergedRo.codeByHashRef_eq h
  rw [mergedRo_contracts, mergedRo_readOnlyRef] at hread
  exact hro.trans hread

/-- The info of an account after the merge.  One of the writable layer is found again unless
the read-only layer says that the account does not exist. -/
lemma basicRef_maintain {a : Address} (ha : a ≠ 0) :
    db.maintain.basicRef a = .ok (match db.accounts.lookup a with
      | some account =>
          if ((db.roBase.accounts.lookup a).getD default).accountState = .notExisting then
            unwrapOr none (fetchBasic db.extDb a)
          else some (contractInfo account.info)
      | none => unwrapOr none (getOrFetchBasic (some db.roBase.toRef) db.extDb a)) := by
  have hro : db.mergedRo.toRef.basicRef a = _ := db.mergedRo.basicRef_eq ha
  have hbase : db.roBase.toRef.basicRef a = _ := db.roBase.basicRef_eq ha
  rw [basicRef_eq _ ha, maintain_readOnlyRef, maintain_extDb]
  show Except.ok (unwrapOr none (getOrFetchBasic (some db.mergedRo.toRef) db.extDb a)) = _
  rw [getOrFetchBasic, getOrFetchBasic, hro, hbase, mergedRo_lookup, mergedRo_readOnlyRef,
    mergedRo_extDb]
  cases db.accounts.lookup a with
  | none => rfl
  | some account =>
      simp only [AssocMap.applyAt_some, mergedAccount, readBasic, FastDbAccount.info?]
      cases ((db.roBase.accounts.lookup a).getD default).accountState <;> rfl

end KabuDB

end Kabu
