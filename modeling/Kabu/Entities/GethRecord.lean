import Kabu.Entities.AccountUpdate
import Kabu.Evm.GethUpdate

/-!
# What the database's own appliers do to one account

As for the update of a block, a diff treats the accounts one by one, and what it does to an account
depends on the account's record and on the layers below.  `gethRecord` and `stateRecord` are the
record after one part of a diff, for the two ways to apply it, and `hasRecord_applyGethUpdateVec`
and `hasRecord_applyGethStateUpdate` say that a list of diffs makes of the record what its parts
make of it one after another.
-/

namespace Kabu

open KabuDBHelper LastWrite DatabaseHelpers

namespace KabuDB

variable [Keccak] (db : KabuDB) (a : Address)

/-- The record after a part of a diff whose fields are written. -/
def gethRecord (record : Option FastDbAccount) (state : GethAccountState) : FastDbAccount :=
  let account := record.getD (db.extLoaded a)
  { info := updateInfo account.info state
    accountState := .touched
    storage := account.storage.extend state.storage }

/-- The record after a part of a diff for which the info is built anew. -/
def stateRecord (record : Option FastDbAccount) (state : GethAccountState) : FastDbAccount :=
  let account := record.getD (db.roLoaded a)
  { info := contractInfo (btreeInfo account.info state)
    accountState := .touched
    storage := account.storage.extend state.storage }

/-- The record after a list of diffs, when `f` is what one part does to it. -/
def recordAfter (f : Option FastDbAccount → GethAccountState → FastDbAccount)
    (diffs : GethStateUpdateVec) : Option FastDbAccount :=
  diffs.foldl (fun record diff =>
    AssocMap.applyAt (fun state record => some (f record state)) (diff.lookup a) record)
    (db.accounts.lookup a)

variable {db a} {record : Option FastDbAccount} {db' : KabuDB} {b : Address}

namespace HasRecord

omit [Keccak] in
lemma self (db : KabuDB) (a : Address) : HasRecord db a (db.accounts.lookup a) db :=
  ⟨rfl, rfl, rfl⟩

section

variable (h : HasRecord db a record db')

include h

omit [Keccak] in
lemma insertSlots (storage : AssocMap U256 U256) :
    ∃ next, HasRecord db a next
        (storage.foldl (fun db k v => db.insertAccountStorage a k v) db') ∧
      next.getD (db.extLoaded a) = { record.getD (db.extLoaded a) with
        storage := (record.getD (db.extLoaded a)).storage.extend storage } := by
  refine AssocMap.foldl_rel
    (R := fun db'' (slots : AssocMap U256 U256) => ∃ next, HasRecord db a next db'' ∧
      next.getD (db.extLoaded a) = { record.getD (db.extLoaded a) with storage := slots })
    (fun db k v => db.insertAccountStorage a k v)
    (fun (slots : AssocMap U256 U256) k v => slots.insert k (id v)) ?_ storage ⟨record, h, rfl⟩
  rintro db'' slots k v ⟨next, hnext, hslots⟩
  refine ⟨_, hnext.insertAccountStorage k v, ?_⟩
  rw [Option.getD_some, hslots]
  rfl

lemma applyGethAccount (state : GethAccountState) :
    HasRecord db a (some (db.gethRecord a record state)) (db'.applyGethAccount a state) := by
  obtain ⟨next, hnext, hslots⟩ := h.insertSlots state.storage
  obtain ⟨-, -, -, hloaded⟩ := hnext.below (b := a) 0
  unfold KabuDB.applyGethAccount
  dsimp only
  refine ⟨?_, (loadRoRwExtAccount_readOnlyDb _ a).trans hnext.ro,
    (loadRoRwExtAccount_extDb _ a).trans hnext.ext⟩
  rw [setAccount_lookup, if_pos rfl, loadRoRwExtAccount_snd, hnext.account, hloaded, hslots]
  rfl

lemma applyGethAccount_ne (hab : a ≠ b) (state : GethAccountState) :
    HasRecord db a record (db'.applyGethAccount b state) := by
  have hslots : HasRecord db a record
      (state.storage.foldl (fun db k v => db.insertAccountStorage b k v) db') :=
    AssocMap.foldl_invariant (P := HasRecord db a record) _
      (fun _ k v h => h.insertAccountStorage_ne hab k v) _ h
  unfold KabuDB.applyGethAccount
  dsimp only
  refine ⟨?_, (loadRoRwExtAccount_readOnlyDb _ b).trans hslots.ro,
    (loadRoRwExtAccount_extDb _ b).trans hslots.ext⟩
  rw [setAccount_lookup, if_neg hab, loadRoRwExtAccount_lookup_ne _ hab, hslots.account]

lemma applyGethUpdate (diff : GethStateUpdate) :
    HasRecord db a (AssocMap.applyAt (fun state record => some (db.gethRecord a record state))
      (diff.lookup a) record) (db'.applyGethUpdate diff) :=
  AssocMap.foldl_at KabuDB.applyGethAccount a _ (P := HasRecord db a)
    (fun _ state _ h => h.applyGethAccount state)
    (fun _ _ state _ hab h => h.applyGethAccount_ne hab.symm state) diff h

end

omit [Keccak] in
lemma setLoaded (h : HasRecord db a record db') (change : FastDbAccount → FastDbAccount) :
    HasRecord db a (some (change (record.getD (db.roLoaded a))))
      ((db'.loadRoRwAccount a).1.setAccount a (change (db'.loadRoRwAccount a).2)) := by
  obtain ⟨-, -, hloaded, -⟩ := h.below (b := a) 0
  refine ⟨?_, (loadRoRwAccount_readOnlyDb db' a).trans h.ro,
    (loadRoRwAccount_extDb db' a).trans h.ext⟩
  rw [setAccount_lookup, if_pos rfl, loadRoRwAccount_snd, h.account, hloaded]

omit [Keccak] in
lemma setLoaded_ne (h : HasRecord db a record db') (hab : a ≠ b)
    (change : FastDbAccount → FastDbAccount) : HasRecord db a record
      ((db'.loadRoRwAccount b).1.setAccount b (change (db'.loadRoRwAccount b).2)) := by
  refine ⟨?_, (loadRoRwAccount_readOnlyDb db' b).trans h.ro,
    (loadRoRwAccount_extDb db' b).trans h.ext⟩
  rw [setAccount_lookup, if_neg hab, loadRoRwAccount_lookup_ne db' hab, h.account]

omit [Keccak] in
lemma loadRoRwAccount (h : HasRecord db a record db') :
    HasRecord db a (some (record.getD (db.roLoaded a))) (db'.loadRoRwAccount a).1 := by
  obtain ⟨-, -, hloaded, -⟩ := h.below (b := a) 0
  refine ⟨?_, (loadRoRwAccount_readOnlyDb db' a).trans h.ro,
    (loadRoRwAccount_extDb db' a).trans h.ext⟩
  rw [← hloaded, ← h.account]
  unfold KabuDB.loadRoRwAccount
  cases hlookup : db'.accounts.lookup a with
  | none => exact AList.lookup_insert _
  | some account => exact hlookup

variable (h : HasRecord db a record db')

include h

omit [Keccak] in
lemma loadRoRwAccount_ne (hab : a ≠ b) : HasRecord db a record (db'.loadRoRwAccount b).1 :=
  ⟨(loadRoRwAccount_lookup_ne db' hab).trans h.account,
    (loadRoRwAccount_readOnlyDb db' b).trans h.ro, (loadRoRwAccount_extDb db' b).trans h.ext⟩

lemma insertAccountInfo (info : AccountInfo) :
    HasRecord db a (some { record.getD default with info := contractInfo info })
      (db'.insertAccountInfo a info) := by
  unfold KabuDB.insertAccountInfo
  refine ⟨?_, (insertContract_readOnlyDb db' info).trans h.ro,
    (insertContract_extDb db' info).trans h.ext⟩
  dsimp only
  rw [AssocMap.lookup_upsert, if_pos rfl, insertContract_accounts, insertContract_snd, h.account]

lemma insertAccountInfo_ne (hab : a ≠ b) (info : AccountInfo) :
    HasRecord db a record (db'.insertAccountInfo b info) := by
  unfold KabuDB.insertAccountInfo
  refine ⟨?_, (insertContract_readOnlyDb db' info).trans h.ro,
    (insertContract_extDb db' info).trans h.ext⟩
  dsimp only
  rw [AssocMap.lookup_upsert, if_neg hab, insertContract_accounts, h.account]

/-- With `insert`, an account always gets a new info. -/
lemma applyAccountInfoBtree (state : GethAccountState) (onlyNew : Bool) : HasRecord db a
      (some { record.getD (db.roLoaded a) with
        info := contractInfo (btreeInfo (record.getD (db.roLoaded a)).info state)
        accountState := .touched })
      (db'.applyAccountInfoBtree a state true onlyNew) := by
  have hloaded : (db'.loadRoRwAccount a).2 = record.getD (db.roLoaded a) := by
    rw [loadRoRwAccount_snd, h.account, (h.below (b := a) 0).2.2.1]
  have hinfo := h.loadRoRwAccount.insertAccountInfo
    (btreeInfo (db'.loadRoRwAccount a).2.info state)
  have htouched := hinfo.setLoaded fun account => { account with accountState := .touched }
  rw [hloaded] at htouched
  have heq : db'.applyAccountInfoBtree a state true onlyNew =
      (((db'.loadRoRwAccount a).1.insertAccountInfo a
        (btreeInfo (db'.loadRoRwAccount a).2.info state)).loadRoRwAccount a).1.setAccount a
        { (((db'.loadRoRwAccount a).1.insertAccountInfo a
          (btreeInfo (db'.loadRoRwAccount a).2.info state)).loadRoRwAccount a).2 with
            accountState := .touched } := rfl
  rw [heq, hloaded]
  exact htouched

lemma applyStateAccount (state : GethAccountState) (onlyNew : Bool) :
    HasRecord db a (some (db.stateRecord a record state))
      ((db'.applyAccountInfoBtree a state true onlyNew).applyAccountStorage a state true
        onlyNew) :=
  (h.applyAccountInfoBtree state onlyNew).setLoaded fun account =>
    { account with storage := account.storage.extend state.storage }

lemma applyStateAccount_ne (hab : a ≠ b) (state : GethAccountState) (onlyNew : Bool) :
    HasRecord db a record
      ((db'.applyAccountInfoBtree b state true onlyNew).applyAccountStorage b state true
        onlyNew) := by
  have hinfo := (h.loadRoRwAccount_ne hab).insertAccountInfo_ne hab
    (btreeInfo (db'.loadRoRwAccount b).2.info state)
  have htouched := hinfo.setLoaded_ne hab fun account => { account with accountState := .touched }
  exact htouched.setLoaded_ne hab fun account =>
    { account with storage := account.storage.extend state.storage }

end HasRecord

/-- **Diff by diff.**  The record after a list of diffs is what the parts for the account make of
it. -/
lemma hasRecord_applyGethUpdateVec (db : KabuDB) (a : Address) (diffs : GethStateUpdateVec) :
    HasRecord db a (db.recordAfter a (db.gethRecord a) diffs) (db.applyGethUpdateVec diffs) := by
  induction diffs using List.reverseRecOn with
  | nil => exact HasRecord.self db a
  | append_singleton diffs diff ih =>
      rw [applyGethUpdateVec, recordAfter, List.foldl_append, List.foldl_append]
      exact ih.applyGethUpdate diff

lemma hasRecord_applyGethStateUpdate (db : KabuDB) (a : Address) (diffs : GethStateUpdateVec)
    (onlyNew : Bool) :
    HasRecord db a (db.recordAfter a (db.stateRecord a) diffs)
      (db.applyGethStateUpdate diffs true onlyNew) := by
  induction diffs using List.reverseRecOn with
  | nil => exact HasRecord.self db a
  | append_singleton diffs diff ih =>
      rw [applyGethStateUpdate, recordAfter, List.foldl_append, List.foldl_append]
      exact AssocMap.foldl_at _ a _ (P := HasRecord db a)
        (fun _ state _ h => h.applyStateAccount state onlyNew)
        (fun _ _ state _ hab h => h.applyStateAccount_ne hab.symm state onlyNew) diff ih

/-! ## The fields of the record after a list of diffs -/

section Fields

omit [Keccak]

variable (db) (f : Option FastDbAccount → GethAccountState → FastDbAccount)
  {diffs : GethStateUpdateVec}

lemma recordAfter_concat (diffs : GethStateUpdateVec) (diff : GethStateUpdate) :
    db.recordAfter a f (diffs ++ [diff]) = AssocMap.applyAt (fun state record =>
      some (f record state)) (diff.lookup a) (db.recordAfter a f diffs) := by
  unfold recordAfter
  rw [List.foldl_append]
  rfl

lemma recordAfter_of_none
    (h : lastWrite (fun diff => diff.lookup a) diffs = none) :
    db.recordAfter a f diffs = db.accounts.lookup a := by
  induction diffs using List.reverseRecOn with
  | nil => rfl
  | append_singleton diffs diff ih =>
      rw [lastWrite_append_singleton, Option.or_eq_none_iff] at h
      rw [recordAfter_concat, h.1, AssocMap.applyAt_none, ih h.2]

lemma recordAfter_of_some {state : GethAccountState}
    (h : lastWrite (fun diff => diff.lookup a) diffs = some state) :
    ∃ record, db.recordAfter a f diffs = some (f record state) := by
  induction diffs using List.reverseRecOn with
  | nil => simp at h
  | append_singleton diffs diff ih =>
      rw [lastWrite_append_singleton] at h
      rw [recordAfter_concat]
      cases hdiff : diff.lookup a with
      | none =>
          rw [hdiff, Option.none_or] at h
          exact ih h
      | some state' =>
          rw [hdiff, Option.some_or] at h
          exact ⟨_, by rw [AssocMap.applyAt_some, Option.some.inj h]⟩

variable {f} in
/-- A cell of the record that each part either writes or keeps. -/
lemma recordAfter_cell {B : Type*} (a : Address) (loaded : FastDbAccount)
    (cell : FastDbAccount → Option B) (write : GethAccountState → Option B)
    (hcell : ∀ record state,
      cell (f record state) = (write state).or (cell (record.getD loaded)))
    (diffs : GethStateUpdateVec) :
    cell ((db.recordAfter a f diffs).getD loaded) =
      (lastWrite (fun diff => (diff.lookup a).bind write) diffs).or
        (cell ((db.accounts.lookup a).getD loaded)) := by
  refine foldl_or _ (fun record : Option FastDbAccount => cell (record.getD loaded)) _
    (fun record diff => ?_) (db.accounts.lookup a) diffs
  cases diff.lookup a with
  | none => rfl
  | some state => exact hcell record state

end Fields

end KabuDB

end Kabu
