import Kabu.Evm.Commit
import Kabu.Evm.DatabaseHelpers
import Kabu.Framework.LastWrite

/-!
# What trace diffs do to one account

A diff touches an account and neither creates nor destroys it, so what it does at an address is
a function of the account cached there and of the diff's part for that address:
`tracedAccount`.  A list of diffs, applied one by one, does at each address what the parts for
that address do, one after another (`foldl_applyGethStateUpdate_lookup`); applied through a
single change set, it does what the *last* part for that address does alone
(`applyGethStateUpdateVec_lookup`).

The second half computes what a run of diffs leaves in each field: the last value written, or
the one from before.  The code hash is the one field that is not simply overwritten, because
storing an account fills it in; `contractHash_settles` is what makes its value independent of
the length of the run.
-/

namespace Kabu

open KabuDBHelper KabuDB DatabaseHelpers LastWrite

variable [Keccak]

/-- The parts of a list of diffs for one address, in order. -/
def diffsOf (updates : GethStateUpdateVec) (a : Address) : List GethAccountState :=
  updates.filterMap (·.lookup a)

/-- The cached account after one diff. -/
def tracedAccount (ro ext : Option DatabaseRef) (a : Address) (old : Option FastDbAccount)
    (state : GethAccountState) : Option FastDbAccount :=
  committed (commitRecord ((readBasic old ro ext a).getD default) state) old

/-! ## Whole diffs, address by address -/

omit [Keccak] in
lemma baseInfo_toRef (db : KabuDB) {a : Address} (ha : a ≠ 0) :
    baseInfo db.toRef a =
      (readBasic (db.accounts.lookup a) db.readOnlyRef db.extDb a).getD default := by
  have h : db.toRef.basicRef a = _ := db.basicRef_eq ha
  rw [baseInfo, h]
  rfl

lemma applyGethStateUpdate_lookup (db : KabuDB) (update : GethStateUpdate) {a : Address}
    (ha : a ≠ 0) :
    (applyGethStateUpdate db update).accounts.lookup a =
      AssocMap.applyAt (fun state old => tracedAccount db.readOnlyRef db.extDb a old state)
        (update.lookup a) (db.accounts.lookup a) := by
  have h := db.commit_lookup (traceUpdateToCommitUpdate db.toRef update) a
  rw [lookup_traceUpdateToCommitUpdate _ _ ha, baseInfo_toRef db ha] at h
  refine h.trans ?_
  cases update.lookup a <;> rfl

lemma applyGethStateUpdate_lookup_zero (db : KabuDB) (update : GethStateUpdate) :
    (applyGethStateUpdate db update).accounts.lookup 0 = db.accounts.lookup 0 := by
  have h := db.commit_lookup (traceUpdateToCommitUpdate db.toRef update) 0
  rwa [lookup_traceUpdateToCommitUpdate_zero, AssocMap.applyAt_none] at h

@[simp] lemma applyGethStateUpdate_readOnlyRef (db : KabuDB) (update : GethStateUpdate) :
    (applyGethStateUpdate db update).readOnlyRef = db.readOnlyRef :=
  db.commit_readOnlyRef _

@[simp] lemma applyGethStateUpdate_extDb (db : KabuDB) (update : GethStateUpdate) :
    (applyGethStateUpdate db update).extDb = db.extDb :=
  db.commit_extDb _

lemma foldl_applyGethStateUpdate_layers (updates : GethStateUpdateVec) (db : KabuDB) :
    (updates.foldl applyGethStateUpdate db).readOnlyRef = db.readOnlyRef ∧
      (updates.foldl applyGethStateUpdate db).extDb = db.extDb := by
  induction updates generalizing db with
  | nil => exact ⟨rfl, rfl⟩
  | cons update updates ih =>
      obtain ⟨hro, hext⟩ := ih (applyGethStateUpdate db update)
      rw [applyGethStateUpdate_readOnlyRef] at hro
      rw [applyGethStateUpdate_extDb] at hext
      exact ⟨hro, hext⟩

/-- **Diffs one by one**: each part for the address acts on the account in turn. -/
lemma foldl_applyGethStateUpdate_lookup (updates : GethStateUpdateVec) (db : KabuDB)
    {a : Address} (ha : a ≠ 0) :
    (updates.foldl applyGethStateUpdate db).accounts.lookup a =
      (diffsOf updates a).foldl (tracedAccount db.readOnlyRef db.extDb a)
        (db.accounts.lookup a) := by
  induction updates generalizing db with
  | nil => rfl
  | cons update updates ih =>
      have hstep := applyGethStateUpdate_lookup db update ha
      rw [List.foldl_cons, ih (applyGethStateUpdate db update), applyGethStateUpdate_readOnlyRef,
        applyGethStateUpdate_extDb, hstep, diffsOf, diffsOf, List.filterMap_cons]
      cases update.lookup a <;> rfl

lemma foldl_applyGethStateUpdate_lookup_zero (updates : GethStateUpdateVec) (db : KabuDB) :
    (updates.foldl applyGethStateUpdate db).accounts.lookup 0 = db.accounts.lookup 0 := by
  induction updates generalizing db with
  | nil => rfl
  | cons update updates ih =>
      rw [List.foldl_cons, ih, applyGethStateUpdate_lookup_zero]

lemma applyGethStateUpdateVec_record (updates : GethStateUpdateVec) (db : KabuDB) {a : Address}
    {record : GethStateUpdate → Option Account}
    (hrecord : ∀ update, (traceUpdateToCommitUpdate db.toRef update).lookup a = record update) :
    (applyGethStateUpdateVec db updates).accounts.lookup a =
      AssocMap.applyAt committed (lastWrite record updates) (db.accounts.lookup a) := by
  have hmap := foldl_or
    (fun (updateMap : AssocMap Address Account) update =>
      updateMap.extend (traceUpdateToCommitUpdate db.toRef update))
    (fun updateMap => updateMap.lookup a) record
    (fun updateMap update => by rw [AssocMap.lookup_extend, hrecord]) ∅ updates
  rw [AssocMap.lookup_empty_eq, Option.or_none] at hmap
  exact hmap ▸ db.commit_lookup _ a

/-- **Diffs through one change set**: the last part for the address acts alone. -/
lemma applyGethStateUpdateVec_lookup (updates : GethStateUpdateVec) (db : KabuDB) {a : Address}
    (ha : a ≠ 0) :
    (applyGethStateUpdateVec db updates).accounts.lookup a =
      AssocMap.applyAt (fun state old => tracedAccount db.readOnlyRef db.extDb a old state)
        (diffsOf updates a).getLast? (db.accounts.lookup a) := by
  rw [applyGethStateUpdateVec_record updates db fun update =>
    lookup_traceUpdateToCommitUpdate _ update ha, lastWrite_map, baseInfo_toRef db ha]
  show AssocMap.applyAt committed ((diffsOf updates a).getLast?.map _) _ = _
  cases (diffsOf updates a).getLast? <;> rfl

lemma applyGethStateUpdateVec_lookup_zero (updates : GethStateUpdateVec) (db : KabuDB) :
    (applyGethStateUpdateVec db updates).accounts.lookup 0 = db.accounts.lookup 0 := by
  rw [applyGethStateUpdateVec_record updates db fun update =>
    lookup_traceUpdateToCommitUpdate_zero _ update, lastWrite_none, AssocMap.applyAt_none]

/-! ## The fields a run of diffs leaves -/

section Fields

variable (ro ext : Option DatabaseRef) (a : Address)

/-- The info the next diff for this address is based on. -/
def tracedInfo (old : Option FastDbAccount) : AccountInfo :=
  (readBasic old ro ext a).getD default

variable (old : Option FastDbAccount)

lemma tracedAccount_eq (state : GethAccountState) :
    tracedAccount ro ext a old state = some
      { info := contractInfo (updateInfo (tracedInfo ro ext a old) state)
        accountState := if (old.getD default).accountState.isStorageCleared then .storageCleared
          else .touched
        storage := (old.getD default).storage.extendMap
          (commitRecord (tracedInfo ro ext a old) state).storage EvmStorageSlot.presentValue } :=
  committed_of_live rfl rfl

lemma readBasic_tracedAccount (state : GethAccountState) :
    readBasic (tracedAccount ro ext a old state) ro ext a =
      some (contractInfo (updateInfo (tracedInfo ro ext a old) state)) := by
  rw [tracedAccount_eq]
  refine FastDbAccount.info?_of_ne ?_
  show (if _ then _ else _) ≠ _
  split <;> simp

lemma tracedInfo_tracedAccount (state : GethAccountState) :
    tracedInfo ro ext a (tracedAccount ro ext a old state) =
      contractInfo (updateInfo (tracedInfo ro ext a old) state) := by
  rw [tracedInfo, readBasic_tracedAccount, Option.getD_some]

lemma lookup_commitRecord_storage (info : AccountInfo) (state : GethAccountState) (s : U256) :
    ((commitRecord info state).storage.lookup s).map EvmStorageSlot.presentValue =
      state.storage.lookup s := by
  simp only [commitRecord, AssocMap.lookup_extendMap, AssocMap.lookup_empty_eq, Option.or_none,
    Option.map_map]
  exact Option.map_id'

lemma readStorage_tracedAccount (state : GethAccountState) (s : U256) :
    readStorage (tracedAccount ro ext a old state) ro ext a s =
      ((state.storage.lookup s).map .ok).getD (keptSlot old ro ext a s) := by
  have h : readStorage (committed (commitRecord (tracedInfo ro ext a old) state) old) ro ext a s =
      _ := readStorage_touched rfl rfl rfl s
  rw [← lookup_commitRecord_storage (tracedInfo ro ext a old) state s]
  refine h.trans ?_
  cases (commitRecord (tracedInfo ro ext a old) state).storage.lookup s <;> rfl

/-- A diff leaves the account with storage of its own, so it keeps what it reads as. -/
lemma keptSlot_tracedAccount (state : GethAccountState) (s : U256) :
    keptSlot (tracedAccount ro ext a old state) ro ext a s =
      ((state.storage.lookup s).map .ok).getD (keptSlot old ro ext a s) := by
  rw [← readStorage_tracedAccount]
  refine (keptSlot_eq_iff s).mpr ?_
  intro acc hacc hstate
  rw [tracedAccount_eq, Option.some.injEq] at hacc
  rw [← hacc] at hstate
  exact absurd hstate (by show (if _ then _ else _) ≠ _; split <;> simp)

lemma keptSlot_foldl (l : List GethAccountState) (s : U256) :
    keptSlot (l.foldl (tracedAccount ro ext a) old) ro ext a s =
      ((lastWrite (·.storage.lookup s) l).map .ok).getD (keptSlot old ro ext a s) := by
  rw [← lastWrite_map]
  exact foldl_getD (tracedAccount ro ext a) (fun old => keptSlot old ro ext a s) _
    (fun old state => keptSlot_tracedAccount ro ext a old state s) old l

/-- A field of the info is the one that the last diff with one gives. -/
lemma tracedInfo_foldl {B : Type*} (get : AccountInfo → B) {field : GethAccountState → Option B}
    (hget : ∀ info state, get (contractInfo (updateInfo info state)) =
      (field state).getD (get info)) (l : List GethAccountState) :
    get (tracedInfo ro ext a (l.foldl (tracedAccount ro ext a) old)) =
      (lastWrite field l).getD (get (tracedInfo ro ext a old)) :=
  foldl_getD (tracedAccount ro ext a) (fun old => get (tracedInfo ro ext a old)) _
    (fun old state => by rw [tracedInfo_tracedAccount, hget]) old l

lemma code_foldl (l : List GethAccountState) :
    (tracedInfo ro ext a (l.foldl (tracedAccount ro ext a) old)).code =
      ((lastWrite (·.code) l).map (some ∘ Bytecode.newRaw)).getD
        (tracedInfo ro ext a old).code := by
  rw [← lastWrite_map]
  exact tracedInfo_foldl ro ext a old _ code_updateInfo l

/-- The code hash the info is stored with the next time. -/
def nextHash (info : AccountInfo) : B256 := contractHash info.code info.codeHash

lemma nextHash_step (info : AccountInfo) (state : GethAccountState) :
    nextHash (contractInfo (updateInfo info state)) = match state.code with
      | some code => contractHash (some (Bytecode.newRaw code)) (Bytecode.newRaw code).hashSlow
      | none => contractHash info.code (nextHash info) := by
  show contractHash (updateInfo info state).code
    (contractHash (updateInfo info state).code (updateInfo info state).codeHash) = _
  rw [code_updateInfo, codeHash_updateInfo]
  cases state.code with
  | none => rfl
  | some code => exact contractHash_hashSlow (Bytecode.newRaw code)

/-- **The code hash after a run of diffs.**  It is that of the last code written, and without
one that of an account stored twice, however long the run is. -/
lemma nextHash_foldl {l : List GethAccountState} (hl : l ≠ []) :
    nextHash (tracedInfo ro ext a (l.foldl (tracedAccount ro ext a) old)) =
      match lastWrite (·.code) l with
      | some code => contractHash (some (Bytecode.newRaw code)) (Bytecode.newRaw code).hashSlow
      | none => contractHash (tracedInfo ro ext a old).code (nextHash (tracedInfo ro ext a old)) := by
  induction l using List.reverseRecOn with
  | nil => exact absurd rfl hl
  | append_singleton l state ih =>
      rw [List.foldl_append, List.foldl_cons, List.foldl_nil, tracedInfo_tracedAccount,
        nextHash_step, lastWrite_append_singleton]
      cases state.code with
      | some code => rfl
      | none =>
          simp only [Option.none_or]
          have hcode := code_foldl ro ext a old l
          by_cases hnil : l = []
          · subst hnil
            rfl
          · rw [ih hnil]
            cases hw : lastWrite (·.code) l with
            | some code =>
                rw [hw] at hcode
                rw [hcode]
                exact contractHash_hashSlow (Bytecode.newRaw code)
            | none =>
                rw [hw] at hcode
                rw [hcode]
                exact contractHash_settles _ _

end Fields

end Kabu
