import Kabu.Evm.DatabaseHelpers

/-!
# The database's own ways to apply trace diffs

Besides committing a change set, the database has two functions that write diffs into its accounts
directly.

`applyGethUpdate` writes the slots, loading the account from all layers below, and then the fields
that are given.  `applyGethStateUpdate` loads the account from the read-only layer alone, builds a
new info for it and then writes the slots; with `insert` off, it changes only some accounts and
slots.

`replaceAccountStorage` puts other slots in place of an account's storage, after which the account
has none of the slots of the layers below.
-/

namespace Kabu

open DatabaseHelpers

namespace KabuDB

/-- Replace the storage of an account, without overriding its info. -/
def replaceAccountStorage (db : KabuDB) (address : Address) (storage : AssocMap U256 U256) :
    KabuDB :=
  let loaded := db.loadRoRwExtAccount address
  loaded.1.setAccount address
    { loaded.2 with accountState := .storageCleared, storage := storage }

variable [Keccak]

/-- Insert the info of an account, without overriding its storage. -/
def insertAccountInfo (db : KabuDB) (address : Address) (info : AccountInfo) : KabuDB :=
  let inserted := db.insertContract info
  { inserted.1 with accounts := inserted.1.accounts.upsert address default fun account =>
      { account with info := inserted.2 } }

/-! ### Fields that are given are written -/

/-- The body of the loop over a diff. -/
def applyGethAccount (db : KabuDB) (addr : Address) (accState : GethAccountState) : KabuDB :=
  let db := accState.storage.foldl (fun db k v => db.insertAccountStorage addr k v) db
  let loaded := db.loadRoRwExtAccount addr
  loaded.1.setAccount addr
    { loaded.2 with info := updateInfo loaded.2.info accState, accountState := .touched }

def applyGethUpdate (db : KabuDB) (update : GethStateUpdate) : KabuDB :=
  update.foldl applyGethAccount db

def applyGethUpdateVec (db : KabuDB) (update : GethStateUpdateVec) : KabuDB :=
  update.foldl applyGethUpdate db

/-! ### The info is built anew -/

/-- The info that is inserted for an account.  A code of less than two bytes counts as none. -/
def btreeInfo (info : AccountInfo) (accountUpdatedState : GethAccountState) : AccountInfo :=
  let code := match accountUpdatedState.code with
    | some c => if c.length < 2 then info.code else some (Bytecode.newRaw c)
    | none => info.code
  { balance := accountUpdatedState.balance.getD 0
    nonce := accountUpdatedState.nonce.getD 0
    codeHash := if code.isSome then keccakEmpty else 0
    code := code }

def applyAccountInfoBtree (db : KabuDB) (address : Address)
    (accountUpdatedState : GethAccountState) (insert onlyNew : Bool) : KabuDB :=
  let loaded := db.loadRoRwAccount address
  let account := loaded.2
  let db :=
    if insert ||
        (decide (account.accountState = .notExisting ∨ account.accountState = .none) && onlyNew) ||
        (!onlyNew &&
          decide (account.accountState = .touched ∨ account.accountState = .storageCleared)) then
      loaded.1.insertAccountInfo address (btreeInfo account.info accountUpdatedState)
    else loaded.1
  let loaded := db.loadRoRwAccount address
  loaded.1.setAccount address { loaded.2 with accountState := .touched }

def applyAccountStorage (db : KabuDB) (address : Address) (accState : GethAccountState)
    (insert onlyNew : Bool) : KabuDB :=
  if insert then
    let loaded := db.loadRoRwAccount address
    loaded.1.setAccount address
      { loaded.2 with storage := loaded.2.storage.extend accState.storage }
  else if db.isRwRoAccount address then
    let slotsToInsert := accState.storage.retain fun slot _ =>
      db.isRwRoSlot address slot || onlyNew
    let loaded := db.loadRoRwAccount address
    loaded.1.setAccount address
      { loaded.2 with storage := loaded.2.storage.extend slotsToInsert }
  else db

def applyGethStateUpdate (db : KabuDB) (updateVec : GethStateUpdateVec) (insert onlyNew : Bool) :
    KabuDB :=
  updateVec.foldl (fun db updateRecord =>
    updateRecord.foldl (fun db address accState =>
      (db.applyAccountInfoBtree address accState insert onlyNew).applyAccountStorage address
        accState insert onlyNew) db) db

end KabuDB

end Kabu
