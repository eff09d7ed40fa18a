import Kabu.Evm.Account

/-!
# The layered in-memory database

A `KabuDB` has up to three layers.  Its own maps are the writable layer.  Below it may stand a
read-only database, itself a `KabuDB` and therefore layered again, and an external database,
which is anything that answers the four reads of `DatabaseRef`.

A read asks the layers in turn, and the rules for moving on differ from read to read:

* account info: a missing account, a missing answer and an error all move on, and a failure of
  the last layer is reported as a missing account;
* storage: the read-only layer's answer is final unless it is an error, and an error of the
  external layer is turned into zero;
* code: the external layer is never asked;
* block hashes: the read-only layer's answer is final unless it is an error, and an error of
  the external layer is passed on.

`layerRef` is these rules for one layer over the answers of the layers below, and `KabuDB.toRef`
ties the knot over the read-only chain.
-/

namespace Kabu

inductive KabuDBError
  | nonimportant
  | transportError
  | noDB
  | databaseError (msg : String)
  deriving DecidableEq, Repr

/-- A database that can be read without being changed. -/
structure DatabaseRef where
  basicRef : Address → Except KabuDBError (Option AccountInfo)
  codeByHashRef : B256 → Except KabuDBError Bytecode
  storageRef : Address → U256 → Except KabuDBError U256
  blockHashRef : ℕ → Except KabuDBError B256

/-- An answer with every failure replaced by a default. -/
def unwrapOr {ε α : Type*} (d : α) : Except ε α → α
  | .ok a => a
  | .error _ => d

@[simp] lemma unwrapOr_ok {ε α : Type*} (d a : α) : unwrapOr d (.ok a : Except ε α) = a := rfl

@[simp] lemma unwrapOr_error {ε α : Type*} (d : α) (e : ε) :
    unwrapOr d (.error e : Except ε α) = d := rfl

/-- An answer, or the second one when the first is a failure. -/
def orElseOf {ε α : Type*} : Except ε α → Except ε α → Except ε α
  | .ok a, _ => .ok a
  | .error _, r => r

@[simp] lemma orElseOf_ok {ε α : Type*} (a : α) (r : Except ε α) : orElseOf (.ok a) r = .ok a :=
  rfl

@[simp] lemma orElseOf_error {ε α : Type*} (e : ε) (r : Except ε α) :
    orElseOf (.error e) r = r := rfl

/-! ## Asking the layers below -/

namespace KabuDBHelper

def getCodeByHash (readOnlyDb : Option DatabaseRef) (codeHash : B256) :
    Except KabuDBError Bytecode :=
  match readOnlyDb with
  | some db => db.codeByHashRef codeHash
  | none => .error .noDB

/-- The external layer's answer, with its errors turned into zero. -/
def fetchStorage (extDb : Option DatabaseRef) (address : Address) (slot : U256) :
    Except KabuDBError U256 :=
  match extDb with
  | some db => .ok (unwrapOr 0 (db.storageRef address slot))
  | none => .error .noDB

def getOrFetchStorage (readOnlyDb extDb : Option DatabaseRef) (address : Address) (slot : U256) :
    Except KabuDBError U256 :=
  match readOnlyDb with
  | some db => orElseOf (db.storageRef address slot) (fetchStorage extDb address slot)
  | none => fetchStorage extDb address slot

def fetchBasic (extDb : Option DatabaseRef) (address : Address) :
    Except KabuDBError (Option AccountInfo) :=
  match extDb with
  | some db => db.basicRef address
  | none => .error .noDB

/-- The read-only layer's info alone; anything but an info is an error. -/
def getBasic (readOnlyDb : Option DatabaseRef) (address : Address) :
    Except String (Option AccountInfo) :=
  match readOnlyDb with
  | some db =>
      match db.basicRef address with
      | .ok (some info) => .ok (some info)
      | _ => .error "NO_ACCOUNT"
  | none => .error "NO_ACCOUNT"

def getOrFetchBasic (readOnlyDb extDb : Option DatabaseRef) (address : Address) :
    Except KabuDBError (Option AccountInfo) :=
  match readOnlyDb with
  | some db =>
      match db.basicRef address with
      | .ok (some info) => .ok (some info)
      | _ => fetchBasic extDb address
  | none => fetchBasic extDb address

def fetchBlockHashRef (extDb : Option DatabaseRef) (number : ℕ) :
    Except KabuDBError B256 :=
  match extDb with
  | some db => db.blockHashRef number
  | none => .error .noDB

def getOrFetchBlockHash (readOnlyDb extDb : Option DatabaseRef) (number : ℕ) :
    Except KabuDBError B256 :=
  match readOnlyDb with
  | some db => orElseOf (db.blockHashRef number) (fetchBlockHashRef extDb number)
  | none => fetchBlockHashRef extDb number

end KabuDBHelper

open KabuDBHelper

/-! ## One layer over the layers below -/

/-- What an account of the writable layer, or its absence, reads as at a non-zero address. -/
def readBasic (acc : Option FastDbAccount) (readOnlyDb extDb : Option DatabaseRef)
    (address : Address) : Option AccountInfo :=
  match acc with
  | some acc => acc.info?
  | none => unwrapOr none (getOrFetchBasic readOnlyDb extDb address)

/-- What a slot reads as, given the account the writable layer has at its address. -/
def readStorage (acc : Option FastDbAccount) (readOnlyDb extDb : Option DatabaseRef)
    (address : Address) (slot : U256) : Except KabuDBError U256 :=
  match acc with
  | some acc =>
      match acc.storage.lookup slot with
      | some value => .ok value
      | none =>
          if acc.accountState.hidesStorage then .ok 0
          else getOrFetchStorage readOnlyDb extDb address slot
  | none => getOrFetchStorage readOnlyDb extDb address slot

/-- The four reads of a layer, given those of the layers below it.  The zero address always
reads as the default account. -/
def layerRef (accounts : AssocMap Address FastDbAccount) (contracts : AssocMap B256 Bytecode)
    (blockHashes : AssocMap ℕ B256) (readOnlyDb extDb : Option DatabaseRef) :
    DatabaseRef where
  basicRef address :=
    if address = 0 then .ok (some default)
    else .ok (readBasic (accounts.lookup address) readOnlyDb extDb address)
  codeByHashRef codeHash :=
    match contracts.lookup codeHash with
    | some code => .ok code
    | none => getCodeByHash readOnlyDb codeHash
  storageRef address slot :=
    readStorage (accounts.lookup address) readOnlyDb extDb address slot
  blockHashRef number :=
    match blockHashes.lookup number with
    | some hash => .ok hash
    | none => getOrFetchBlockHash readOnlyDb extDb number

/-! ## The database -/

structure KabuDB where
  accounts : AssocMap Address FastDbAccount
  contracts : AssocMap B256 Bytecode
  logs : List Log
  blockHashes : AssocMap ℕ B256
  readOnlyDb : Option KabuDB
  extDb : Option DatabaseRef

/-- The database that knows nothing: every account is missing, every slot zero, and a block's
hash is the hash of its decimal number. -/
def emptyDbRef [Keccak] : DatabaseRef where
  basicRef _ := .ok none
  codeByHashRef _ := .ok default
  storageRef _ _ := .ok 0
  blockHashRef number := .ok (keccak256 ((Nat.toDigits 10 number).map fun c => c.toNat.toUInt8))

namespace KabuDB

def new : KabuDB where
  accounts := ∅
  contracts := ((∅ : AssocMap B256 Bytecode).insert keccakEmpty default).insert 0 default
  logs := []
  blockHashes := ∅
  readOnlyDb := none
  extDb := none

def withExtDb (db : KabuDB) (extDb : DatabaseRef) : KabuDB := { db with extDb := some extDb }

def withRoDb (db : KabuDB) (readOnlyDb : Option KabuDB) : KabuDB :=
  { db with readOnlyDb := readOnlyDb }

/-- The default database has the empty database as its external layer. -/
instance [Keccak] : Inhabited KabuDB := ⟨new.withExtDb emptyDbRef⟩

/-- The database as its four reads. -/
def toRef : KabuDB → DatabaseRef
  | ⟨accounts, contracts, _, blockHashes, none, extDb⟩ =>
      layerRef accounts contracts blockHashes none extDb
  | ⟨accounts, contracts, _, blockHashes, some ro, extDb⟩ =>
      layerRef accounts contracts blockHashes (some ro.toRef) extDb

/-- The read-only layer as its four reads. -/
def readOnlyRef (db : KabuDB) : Option DatabaseRef := db.readOnlyDb.map toRef

lemma toRef_eq (db : KabuDB) :
    db.toRef = layerRef db.accounts db.contracts db.blockHashes db.readOnlyRef db.extDb := by
  obtain ⟨accounts, contracts, logs, blockHashes, ro, extDb⟩ := db
  cases ro <;> rfl

def basicRef (db : KabuDB) (address : Address) : Except KabuDBError (Option AccountInfo) :=
  db.toRef.basicRef address

def codeByHashRef (db : KabuDB) (codeHash : B256) : Except KabuDBError Bytecode :=
  db.toRef.codeByHashRef codeHash

def storageRef (db : KabuDB) (address : Address) (slot : U256) : Except KabuDBError U256 :=
  db.toRef.storageRef address slot

def blockHashRef (db : KabuDB) (number : ℕ) : Except KabuDBError B256 :=
  db.toRef.blockHashRef number

lemma basicRef_zero (db : KabuDB) : db.basicRef 0 = .ok (some default) := by
  rw [basicRef, toRef_eq]
  rfl

lemma basicRef_eq (db : KabuDB) {a : Address} (ha : a ≠ 0) :
    db.basicRef a = .ok (readBasic (db.accounts.lookup a) db.readOnlyRef db.extDb a) := by
  rw [basicRef, toRef_eq]
  exact if_neg ha

lemma storageRef_eq (db : KabuDB) (a : Address) (s : U256) :
    db.storageRef a s = readStorage (db.accounts.lookup a) db.readOnlyRef db.extDb a s := by
  rw [storageRef, toRef_eq]
  rfl

lemma codeByHashRef_eq (db : KabuDB) (h : B256) :
    db.codeByHashRef h = match db.contracts.lookup h with
      | some code => .ok code
      | none => getCodeByHash db.readOnlyRef h := by
  rw [codeByHashRef, toRef_eq]
  rfl

lemma blockHashRef_eq (db : KabuDB) (n : ℕ) :
    db.blockHashRef n = match db.blockHashes.lookup n with
      | some hash => .ok hash
      | none => getOrFetchBlockHash db.readOnlyRef db.extDb n := by
  rw [blockHashRef, toRef_eq]
  rfl

end KabuDB

/-- Two databases answer all four reads alike. -/
structure SameReads (d d' : KabuDB) : Prop where
  basic : ∀ a, d.basicRef a = d'.basicRef a
  storage : ∀ a s, d.storageRef a s = d'.storageRef a s
  code : ∀ h, d.codeByHashRef h = d'.codeByHashRef h
  blockHash : ∀ n, d.blockHashRef n = d'.blockHashRef n

namespace SameReads

lemma refl (d : KabuDB) : SameReads d d := ⟨fun _ => rfl, fun _ _ => rfl, fun _ => rfl, fun _ => rfl⟩

lemma symm {d d' : KabuDB} (h : SameReads d d') : SameReads d' d :=
  ⟨fun a => (h.basic a).symm, fun a s => (h.storage a s).symm, fun c => (h.code c).symm,
    fun n => (h.blockHash n).symm⟩

lemma trans {d d' d'' : KabuDB} (h : SameReads d d') (h' : SameReads d' d'') : SameReads d d'' :=
  ⟨fun a => (h.basic a).trans (h'.basic a), fun a s => (h.storage a s).trans (h'.storage a s),
    fun c => (h.code c).trans (h'.code c), fun n => (h.blockHash n).trans (h'.blockHash n)⟩

lemma toRef_eq {d d' : KabuDB} (h : SameReads d d') : d.toRef = d'.toRef := by
  have hbasic : d.toRef.basicRef = d'.toRef.basicRef := funext h.basic
  have hstorage : d.toRef.storageRef = d'.toRef.storageRef :=
    funext fun a => funext fun s => h.storage a s
  have hcode : d.toRef.codeByHashRef = d'.toRef.codeByHashRef := funext h.code
  have hhash : d.toRef.blockHashRef = d'.toRef.blockHashRef := funext h.blockHash
  calc d.toRef = ⟨d.toRef.basicRef, d.toRef.codeByHashRef, d.toRef.storageRef,
        d.toRef.blockHashRef⟩ := rfl
    _ = d'.toRef := by rw [hbasic, hcode, hstorage, hhash]

end SameReads

namespace KabuDB

/-! ### What the cache holds -/

def isRwRoAccount (db : KabuDB) (address : Address) : Bool :=
  (db.accounts.lookup address).isSome ||
    match db.readOnlyDb with
    | some ro => (ro.accounts.lookup address).isSome
    | none => false

def isRwRoSlot (db : KabuDB) (address : Address) (slot : U256) : Bool :=
  let isRwSlot := match db.accounts.lookup address with
    | some account => (account.storage.lookup slot).isSome
    | none => false
  if isRwSlot then true
  else match db.readOnlyDb with
    | some ro =>
        match ro.accounts.lookup address with
        | some account => (account.storage.lookup slot).isSome
        | none => false
    | none => false

/-! ### Loading and writing single accounts -/

/-- Bring the account into the writable layer, from the read-only or the external layer, and
return it.  The source hands out a reference to it, which its callers write through. -/
def loadRoRwExtAccount (db : KabuDB) (address : Address) : KabuDB × FastDbAccount :=
  match db.accounts.lookup address with
  | some acc => (db, acc)
  | none =>
      let acc := FastDbAccount.ofOptionInfo
        (unwrapOr none (getOrFetchBasic db.readOnlyRef db.extDb address))
      ({ db with accounts := db.accounts.insert address acc }, acc)

/-- Bring the account into the writable layer, from the read-only layer alone. -/
def loadRoRwAccount (db : KabuDB) (address : Address) : KabuDB × FastDbAccount :=
  match db.accounts.lookup address with
  | some acc => (db, acc)
  | none =>
      let acc := FastDbAccount.ofOptionInfo (unwrapOr none (getBasic db.readOnlyRef address))
      ({ db with accounts := db.accounts.insert address acc }, acc)

def setAccount (db : KabuDB) (address : Address) (acc : FastDbAccount) : KabuDB :=
  { db with accounts := db.accounts.insert address acc }

def insertAccountStorage (db : KabuDB) (address : Address) (slot value : U256) : KabuDB :=
  let loaded := db.loadRoRwExtAccount address
  loaded.1.setAccount address
    { loaded.2 with storage := loaded.2.storage.insert slot value }

/-- A zero code hash stands for the empty code. -/
def emptyIfZero (hash : B256) : B256 := if hash = 0 then keccakEmpty else hash

/-- Register the account's code under its hash, and return the account with the hash filled
in: a non-empty code whose hash field says empty gets its own hash, and a zero hash field is
the empty one. -/
def insertContract [Keccak] (db : KabuDB) (account : AccountInfo) : KabuDB × AccountInfo :=
  match account.code with
  | some code =>
      if code.isEmpty then (db, { account with codeHash := emptyIfZero account.codeHash })
      else
        let codeHash := if account.codeHash = keccakEmpty then code.hashSlow else account.codeHash
        ({ db with contracts := db.contracts.orInsert codeHash code },
          { account with codeHash := emptyIfZero codeHash })
  | none => (db, { account with codeHash := emptyIfZero account.codeHash })

/-! ### Committing executed accounts -/

/-- The body of the loop over a change set.  A selfdestructed account keeps nothing.  A created
one starts from empty storage.  Any other keeps its cached slots and, if its storage was
cleared before, stays cleared. -/
def commitAccount [Keccak] (db : KabuDB) (address : Address) (account : Account) : KabuDB :=
  if !account.isTouched then db
  else if account.isSelfdestructed then
    { db with accounts := db.accounts.upsert address default fun _ =>
        { info := default, accountState := .notExisting, storage := ∅ } }
  else
    let inserted := db.insertContract account.info
    { inserted.1 with accounts := inserted.1.accounts.upsert address default fun dbAccount =>
        { info := inserted.2
          accountState := if account.isCreated then .storageCleared
            else if dbAccount.accountState.isStorageCleared then .storageCleared
            else .touched
          storage := (if account.isCreated then ∅ else dbAccount.storage).extendMap
            account.storage EvmStorageSlot.presentValue } }

def commit [Keccak] (db : KabuDB) (changes : AssocMap Address Account) : KabuDB :=
  changes.foldl commitAccount db

/-! ### Folding the writable layer into the read-only one -/

/-- The body of the merge's loop over the accounts: the info replaces the read-only one, the
slots are written over the read-only ones, and the account state stays the read-only one. -/
def mergeAccount [Keccak] (readOnlyDb : KabuDB) (address : Address) (account : FastDbAccount) :
    KabuDB :=
  let inserted := readOnlyDb.insertContract account.info
  { inserted.1 with accounts := inserted.1.accounts.upsert address default fun entry =>
      { entry with info := inserted.2, storage := entry.storage.extend account.storage } }

/-- Fold the writable layer into the read-only one.  Where there is no read-only layer, the
default database is taken for it, whose own external layer is the empty database. -/
def mergeAll [Keccak] (db : KabuDB) : KabuDB :=
  let readOnlyDb := db.readOnlyDb.getD default
  let readOnlyDb := { readOnlyDb with
    blockHashes := readOnlyDb.blockHashes.extend db.blockHashes
    contracts := readOnlyDb.contracts.extend db.contracts
    logs := db.logs }
  let readOnlyDb := db.accounts.foldl mergeAccount readOnlyDb
  { (default : KabuDB) with readOnlyDb := some readOnlyDb, extDb := db.extDb }

def maintain [Keccak] (db : KabuDB) : KabuDB := db.mergeAll

/-! ### Reads that cache their answer -/

def basic (db : KabuDB) (address : Address) : Except KabuDBError (Option AccountInfo) × KabuDB :=
  match db.accounts.lookup address with
  | some acc => (.ok acc.info?, db)
  | none =>
      let acc := FastDbAccount.ofOptionInfo
        (unwrapOr none (getOrFetchBasic db.readOnlyRef db.extDb address))
      (.ok acc.info?, { db with accounts := db.accounts.insert address acc })

def codeByHash (db : KabuDB) (codeHash : B256) : Except KabuDBError Bytecode × KabuDB :=
  match db.contracts.lookup codeHash with
  | some code => (.ok code, db)
  | none =>
      match getCodeByHash db.readOnlyRef codeHash with
      | .ok code => (.ok code, { db with contracts := db.contracts.insert codeHash code })
      | .error e => (.error e, db)

def storage (db : KabuDB) (address : Address) (slot : U256) : Except KabuDBError U256 × KabuDB :=
  match db.accounts.lookup address with
  | some acc =>
      match acc.storage.lookup slot with
      | some value => (.ok value, db)
      | none =>
          if acc.accountState.hidesStorage then (.ok 0, db)
          else
            match getOrFetchStorage db.readOnlyRef db.extDb address slot with
            | .ok value =>
                (.ok value, db.setAccount address
                  { acc with storage := acc.storage.insert slot value })
            | .error e => (.error e, db)
  | none =>
      match getOrFetchBasic db.readOnlyRef db.extDb address with
      | .error e => (.error e, db)
      | .ok (some info) =>
          match getOrFetchStorage db.readOnlyRef db.extDb address slot with
          | .ok value =>
              let acc := FastDbAccount.ofOptionInfo (some info)
              (.ok value, db.setAccount address
                { acc with storage := acc.storage.insert slot value })
          | .error e => (.error e, db)
      | .ok none => (.ok 0, db.setAccount address (FastDbAccount.ofOptionInfo none))

def blockHash (db : KabuDB) (number : ℕ) : Except KabuDBError B256 × KabuDB :=
  match db.blockHashes.lookup number with
  | some hash => (.ok hash, db)
  | none =>
      match getOrFetchBlockHash db.readOnlyRef db.extDb number with
      | .ok hash => (.ok hash, { db with blockHashes := db.blockHashes.insert number hash })
      | .error e => (.error e, db)

end KabuDB

end Kabu
