import Kabu.Evm.KabuDB

/-!
# Applying trace diffs

A trace diff names, per account, the fields that changed.  `traceUpdateToCommitUpdate` turns one
into a change set by filling the missing fields from what the database reads, and the two
functions below it commit the result: `applyGethStateUpdate` one diff, and
`applyGethStateUpdateVec` a list of diffs through a single change set.

The source is generic in the database, and so is this: `DatabaseCommit` is a database that can
be read and takes change sets.
-/

namespace Kabu

/-- A database that can be read and that takes change sets. -/
class DatabaseCommit (DB : Type*) where
  toRef : DB → DatabaseRef
  commit : DB → AssocMap Address Account → DB

instance [Keccak] : DatabaseCommit KabuDB where
  toRef := KabuDB.toRef
  commit := KabuDB.commit

namespace DatabaseHelpers

variable [Keccak]

/-- The info of an account with the fields of its diff written over it. -/
def updateInfo (info : AccountInfo) (state : GethAccountState) : AccountInfo :=
  let info := match state.code with
    | some code =>
        let code := Bytecode.newRaw code
        { info with codeHash := code.hashSlow, code := some code }
    | none => info
  let info := match state.nonce with
    | some nonce => { info with nonce := nonce }
    | none => info
  match state.balance with
  | some balance => { info with balance := balance }
  | none => info

lemma balance_updateInfo (info : AccountInfo) (state : GethAccountState) :
    (updateInfo info state).balance = state.balance.getD info.balance := by
  obtain ⟨balance, code, nonce, storage⟩ := state
  cases balance <;> cases code <;> cases nonce <;> rfl

lemma nonce_updateInfo (info : AccountInfo) (state : GethAccountState) :
    (updateInfo info state).nonce = state.nonce.getD info.nonce := by
  obtain ⟨balance, code, nonce, storage⟩ := state
  cases balance <;> cases code <;> cases nonce <;> rfl

lemma code_updateInfo (info : AccountInfo) (state : GethAccountState) :
    (updateInfo info state).code = (state.code.map (some ∘ Bytecode.newRaw)).getD info.code := by
  obtain ⟨balance, code, nonce, storage⟩ := state
  cases balance <;> cases code <;> cases nonce <;> rfl

lemma codeHash_updateInfo (info : AccountInfo) (state : GethAccountState) :
    (updateInfo info state).codeHash =
      (state.code.map fun code => (Bytecode.newRaw code).hashSlow).getD info.codeHash := by
  obtain ⟨balance, code, nonce, storage⟩ := state
  cases balance <;> cases code <;> cases nonce <;> rfl

/-- The record an account's diff is committed as, given the info it is based on. -/
def commitRecord (info : AccountInfo) (state : GethAccountState) : Account where
  info := updateInfo info state
  storage := (∅ : AssocMap U256 EvmStorageSlot).extendMap state.storage
    (EvmStorageSlot.newChanged 0)
  status := AccountStatus.onlyTouched

/-- The info a diff is based on: a missing account and a failed read both count as the default
account. -/
def baseInfo (db : DatabaseRef) (address : Address) : AccountInfo :=
  unwrapOr default ((db.basicRef address).map (·.getD default))

/-- The zero address is skipped. -/
def traceUpdateToCommitUpdate (db : DatabaseRef) (update : GethStateUpdate) :
    AssocMap Address Account :=
  update.foldl (fun result address state =>
    if address = 0 then result
    else result.insert address (commitRecord (baseInfo db address) state)) ∅

variable {DB : Type*} [DatabaseCommit DB]

def applyGethStateUpdate (db : DB) (update : GethStateUpdate) : DB :=
  DatabaseCommit.commit db (traceUpdateToCommitUpdate (DatabaseCommit.toRef db) update)

/-- Every record is built against the database as it is before the first diff, and a record
replaces the one an earlier diff left for the same account. -/
def applyGethStateUpdateVec (db : DB) (updateVec : GethStateUpdateVec) : DB :=
  DatabaseCommit.commit db (updateVec.foldl (fun updateMap update =>
    updateMap.extend (traceUpdateToCommitUpdate (DatabaseCommit.toRef db) update)) ∅)

lemma lookup_traceUpdateToCommitUpdate (db : DatabaseRef) (update : GethStateUpdate)
    {a : Address} (ha : a ≠ 0) :
    (traceUpdateToCommitUpdate db update).lookup a =
      (update.lookup a).map (commitRecord (baseInfo db a)) := by
  have h := AssocMap.foldl_obs
    (fun (result : AssocMap Address Account) address state =>
      if address = 0 then result
      else result.insert address (commitRecord (baseInfo db address) state))
    (fun result a => result.lookup a)
    (fun a state old => if a = 0 then old else some (commitRecord (baseInfo db a) state))
    (fun result k state => by
      by_cases hk : k = 0
      · simp only [if_pos hk]
      · simp only [if_neg hk, AssocMap.lookup_insert_eq, if_true])
    (fun result k state k' hk' => by
      by_cases hk : k = 0
      · simp only [if_pos hk]
      · simp only [if_neg hk, AssocMap.lookup_insert_eq, if_neg hk'])
    update ∅ a
  rw [traceUpdateToCommitUpdate, h]
  cases update.lookup a with
  | none => rfl
  | some state => exact if_neg ha

lemma lookup_traceUpdateToCommitUpdate_zero (db : DatabaseRef) (update : GethStateUpdate) :
    (traceUpdateToCommitUpdate db update).lookup 0 = none := by
  unfold traceUpdateToCommitUpdate
  refine AssocMap.foldl_preserves _ (fun result : AssocMap Address Account => result.lookup 0)
    (fun result k state => ?_) update ∅
  by_cases hk : k = 0
  · simp only [if_pos hk]
  · simp only [if_neg hk, AssocMap.lookup_insert_eq, if_neg (Ne.symm hk)]

end DatabaseHelpers

end Kabu
