import Mathlib.Logic.Function.Iterate
import Kabu.Evm.Merge

/-!
# Whether the merge can be seen

`KabuDB.maintain` is meant to be invisible: it moves the writable layer down and every read
should answer as before.  It is, except where the layers disagree with what the merge assumes of
them, and `MergeInvisible` lists these places:

* without a read-only layer, the merge takes the default database for one.  That database answers
  from its own empty external layer, so the real external layer is never asked again for a slot
  or for a block hash;
* the state of an account is dropped.  A slot that a cleared or missing account hid is read from
  below, and an account that did not exist is read as existing;
* conversely, an account the read-only layer knows not to exist stays so, whatever the writable
  layer said;
* an account's code hash is filled in, and its code becomes available under it, when the account
  is merged and not when it is cached;
* the fresh layer on top answers for the two empty hashes.

`maintain_reads_iff` says that the list is complete and that no part of it can be left out.
-/

namespace Kabu

open KabuDBHelper KabuDB

namespace KabuDB

/-- The writable layer hides the slots of this account that it does not have. -/
def hidesSlots (db : KabuDB) (a : Address) : Bool :=
  match db.accounts.lookup a with
  | some account => account.accountState.hidesStorage
  | none => false

/-- The read-only layer knows that this account does not exist. -/
def roNotExisting (db : KabuDB) (a : Address) : Bool :=
  match db.readOnlyDb with
  | some ro =>
      match ro.accounts.lookup a with
      | some account => account.accountState = .notExisting
      | none => false
  | none => false

end KabuDB

section Merge

variable [Keccak]

/-- The places at which a merge could be seen all agree. -/
structure MergeInvisible (db : KabuDB) : Prop where
  /-- Without a read-only layer, the external layer's block hashes are the empty database's. -/
  extBlockHash : db.readOnlyDb = none → ∀ n, db.blockHashes.lookup n = none →
    fetchBlockHashRef db.extDb n = emptyDbRef.blockHashRef n
  /-- Without a read-only layer, the external layer's slots are zero where it is asked. -/
  extStorage : db.readOnlyDb = none → ∀ a s, db.cachedSlot a s = none → db.hidesSlots a = false →
    fetchStorage db.extDb a s = .ok 0
  /-- Over a read-only layer, what a hidden slot hides is zero. -/
  hiddenStorage : db.readOnlyDb ≠ none → ∀ a s, db.cachedSlot a s = none → db.hidesSlots a = true →
    getOrFetchStorage db.readOnlyRef db.extDb a s = .ok 0
  /-- Where the read-only layer knows the account not to exist, the external layer has the
  answer. -/
  missingInfo : ∀ a account, a ≠ 0 → db.accounts.lookup a = some account → db.roNotExisting a = true →
    unwrapOr none (fetchBasic db.extDb a) = account.info?
  /-- Any other account exists, with its hash filled in. -/
  mergedInfo : ∀ a account, a ≠ 0 → db.accounts.lookup a = some account → db.roNotExisting a = false →
    account.accountState ≠ .notExisting ∧ contractInfo account.info = account.info
  /-- The two empty hashes have the empty code. -/
  emptyCode : ∀ h, h = keccakEmpty ∨ h = 0 → db.codeByHashRef h = .ok default
  /-- Code that the merge registers was there to read. -/
  newCode : ∀ h code, h ≠ keccakEmpty → h ≠ 0 → db.contracts.lookup h = none →
    (∀ ro, db.readOnlyDb = some ro → ro.contracts.lookup h = none) →
    db.registeredCode h = some code → db.codeByHashRef h = .ok code

/-! ## Reads below the writable layer, with and without a read-only layer -/

lemma roBase_of_some {db ro : KabuDB} (h : db.readOnlyDb = some ro) : db.roBase = ro := by
  rw [roBase, h, Option.getD_some]

lemma roBase_of_none {db : KabuDB} (h : db.readOnlyDb = none) : db.roBase = default := by
  rw [roBase, h, Option.getD_none]

lemma readOnlyRef_of_some {db ro : KabuDB} (h : db.readOnlyDb = some ro) :
    db.readOnlyRef = some db.roBase.toRef := by
  rw [readOnlyRef, h, roBase_of_some h]
  rfl

omit [Keccak] in
lemma readOnlyRef_of_none {db : KabuDB} (h : db.readOnlyDb = none) : db.readOnlyRef = none := by
  rw [readOnlyRef, h]
  rfl

variable (db : KabuDB)

lemma roNotExisting_iff (a : Address) :
    db.roNotExisting a = true ↔
      ((db.roBase.accounts.lookup a).getD default).accountState = .notExisting := by
  have hdefault : (default : FastDbAccount).accountState ≠ .notExisting := by decide
  unfold roNotExisting
  cases hro : db.readOnlyDb with
  | none =>
      rw [roBase_of_none hro]
      exact iff_of_false (by simp) hdefault
  | some ro =>
      rw [roBase_of_some hro]
      cases hacc : ro.accounts.lookup a with
      | none => exact iff_of_false (by simp [hacc]) hdefault
      | some account => simp [hacc]

/-! ## Each read before and after -/

omit [Keccak] in
lemma storageRef_cachedSlot (a : Address) (s : U256) :
    db.storageRef a s = match db.cachedSlot a s with
      | some value => .ok value
      | none => if db.hidesSlots a then .ok 0 else getOrFetchStorage db.readOnlyRef db.extDb a s := by
  rw [storageRef_eq, cachedSlot, hidesSlots]
  cases db.accounts.lookup a with
  | none => rfl
  | some account => cases account.storage.lookup s <;> rfl

lemma maintain_storage_iff :
    (∀ a s, db.maintain.storageRef a s = db.storageRef a s) ↔
      (db.readOnlyDb = none → ∀ a s, db.cachedSlot a s = none → db.hidesSlots a = false →
        fetchStorage db.extDb a s = .ok 0) ∧
      (db.readOnlyDb ≠ none → ∀ a s, db.cachedSlot a s = none → db.hidesSlots a = true →
        getOrFetchStorage db.readOnlyRef db.extDb a s = .ok 0) := by
  have hone : ∀ a s, db.maintain.storageRef a s = db.storageRef a s ↔
      (db.cachedSlot a s = none → getOrFetchStorage (some db.roBase.toRef) db.extDb a s =
        if db.hidesSlots a then .ok 0 else getOrFetchStorage db.readOnlyRef db.extDb a s) := by
    intro a s
    rw [storageRef_maintain, storageRef_cachedSlot]
    cases db.cachedSlot a s <;> simp
  simp only [hone]
  cases hro : db.readOnlyDb with
  | none =>
      -- the default database under the merge answers every slot with zero
      have hzero : ∀ a s, getOrFetchStorage (some db.roBase.toRef) db.extDb a s = .ok 0 := by
        intro a s
        rw [roBase_of_none hro]
        rfl
      simp only [hzero, readOnlyRef_of_none hro, true_implies, ne_eq, not_true_eq_false,
        false_implies, and_true]
      refine forall_congr' fun a => forall_congr' fun s => imp_congr_right fun _ => ?_
      cases db.hidesSlots a
      · exact eq_comm.trans (by simp [getOrFetchStorage])
      · simp
  | some ro =>
      simp only [readOnlyRef_of_some hro, reduceCtorEq, false_implies, ne_eq, not_false_eq_true,
        true_implies, true_and]
      refine forall_congr' fun a => forall_congr' fun s => imp_congr_right fun _ => ?_
      cases db.hidesSlots a <;> simp

lemma maintain_blockHash_iff :
    (∀ n, db.maintain.blockHashRef n = db.blockHashRef n) ↔
      (db.readOnlyDb = none → ∀ n, db.blockHashes.lookup n = none →
        fetchBlockHashRef db.extDb n = emptyDbRef.blockHashRef n) := by
  have hone : ∀ n, db.maintain.blockHashRef n = db.blockHashRef n ↔
      (db.blockHashes.lookup n = none → getOrFetchBlockHash (some db.roBase.toRef) db.extDb n =
        getOrFetchBlockHash db.readOnlyRef db.extDb n) := by
    intro n
    rw [blockHashRef_maintain, blockHashRef_eq]
    cases db.blockHashes.lookup n <;> simp
  simp only [hone]
  cases hro : db.readOnlyDb with
  | none =>
      have hempty : ∀ n, getOrFetchBlockHash (some db.roBase.toRef) db.extDb n =
          emptyDbRef.blockHashRef n := by
        intro n
        rw [roBase_of_none hro]
        rfl
      simp only [hempty, readOnlyRef_of_none hro, true_implies]
      refine forall_congr' fun n => imp_congr_right fun _ => ?_
      exact eq_comm
  | some ro => simp [readOnlyRef_of_some hro]

lemma maintain_basic_iff :
    (∀ a, db.maintain.basicRef a = db.basicRef a) ↔
      (∀ a account, a ≠ 0 → db.accounts.lookup a = some account → db.roNotExisting a = true →
        unwrapOr none (fetchBasic db.extDb a) = account.info?) ∧
      (∀ a account, a ≠ 0 → db.accounts.lookup a = some account → db.roNotExisting a = false →
        account.accountState ≠ .notExisting ∧ contractInfo account.info = account.info) := by
  have hbelow : ∀ a, a ≠ 0 → unwrapOr none (getOrFetchBasic (some db.roBase.toRef) db.extDb a) =
      unwrapOr none (getOrFetchBasic db.readOnlyRef db.extDb a) := by
    intro a ha
    cases hro : db.readOnlyDb with
    | some ro => rw [readOnlyRef_of_some hro]
    | none =>
        -- the default database has no account, so the external layer is asked either way
        have hnone : (default : KabuDB).toRef.basicRef a = .ok none :=
          ((default : KabuDB).basicRef_eq ha).trans rfl
        rw [readOnlyRef_of_none hro, roBase_of_none hro, getOrFetchBasic, hnone]
        rfl
  have hone : ∀ a, db.maintain.basicRef a = db.basicRef a ↔
      (∀ account, a ≠ 0 → db.accounts.lookup a = some account →
        (if db.roNotExisting a then unwrapOr none (fetchBasic db.extDb a)
          else some (contractInfo account.info)) = account.info?) := by
    intro a
    by_cases ha : a = 0
    · rw [ha, basicRef_zero, basicRef_zero]
      exact iff_of_true rfl fun _ h => absurd rfl h
    · rw [basicRef_maintain db ha, basicRef_eq db ha]
      cases db.accounts.lookup a with
      | none => simp [readBasic, hbelow a ha]
      | some account =>
          simp only [readBasic, roNotExisting_iff, Except.ok.injEq, Option.some.injEq, ne_eq, ha,
            not_false_eq_true, true_implies, forall_eq']
  simp only [hone]
  constructor
  · intro h
    refine ⟨fun a account ha hacc hne => ?_, fun a account ha hacc hne => ?_⟩
    · have h' := h a account ha hacc
      rwa [if_pos hne] at h'
    · have h' := h a account ha hacc
      rw [hne, if_neg (by simp)] at h'
      by_cases hstate : account.accountState = .notExisting
      · rw [FastDbAccount.info?_of_eq hstate] at h'
        simp at h'
      · rw [FastDbAccount.info?_of_ne hstate, Option.some.injEq] at h'
        exact ⟨hstate, h'⟩
  · rintro ⟨hmissing, hmerged⟩ a account ha hacc
    cases hne : db.roNotExisting a with
    | true => exact hmissing a account ha hacc hne
    | false =>
        obtain ⟨hstate, hinfo⟩ := hmerged a account ha hacc hne
        rw [if_neg (by simp), hinfo, FastDbAccount.info?_of_ne hstate]

lemma roBase_contracts_eq_none_iff {h : B256} (hk : h ≠ keccakEmpty) (hz : h ≠ 0) :
    db.roBase.contracts.lookup h = none ↔
      ∀ ro, db.readOnlyDb = some ro → ro.contracts.lookup h = none := by
  cases hro : db.readOnlyDb with
  | some ro => simp [roBase_of_some hro]
  | none =>
      refine iff_of_true ?_ (by simp)
      rw [roBase_of_none hro]
      exact lookup_contracts_new hk hz

lemma getCodeByHash_roBase {h : B256} (hk : h ≠ keccakEmpty) (hz : h ≠ 0) :
    getCodeByHash db.readOnlyRef h = match db.roBase.contracts.lookup h with
      | some code => .ok code
      | none => getCodeByHash db.roBase.readOnlyRef h := by
  cases hro : db.readOnlyDb with
  | some ro =>
      rw [readOnlyRef_of_some hro]
      exact db.roBase.codeByHashRef_eq h
  | none =>
      rw [(roBase_contracts_eq_none_iff db hk hz).mpr (by simp [hro]), readOnlyRef_of_none hro,
        roBase_of_none hro]
      rfl

lemma maintain_code_iff :
    (∀ h, db.maintain.codeByHashRef h = db.codeByHashRef h) ↔
      (∀ h, h = keccakEmpty ∨ h = 0 → db.codeByHashRef h = .ok default) ∧
      (∀ h code, h ≠ keccakEmpty → h ≠ 0 → db.contracts.lookup h = none →
        (∀ ro, db.readOnlyDb = some ro → ro.contracts.lookup h = none) →
        db.registeredCode h = some code → db.codeByHashRef h = .ok code) := by
  have hother : ∀ h, h ≠ keccakEmpty → h ≠ 0 →
      (db.maintain.codeByHashRef h = db.codeByHashRef h ↔
        (db.contracts.lookup h = none → db.roBase.contracts.lookup h = none →
          ∀ code, db.registeredCode h = some code → db.codeByHashRef h = .ok code)) := by
    intro h hk hz
    rw [codeByHashRef_maintain db hk hz, codeByHashRef_eq, getCodeByHash_roBase db hk hz]
    cases db.contracts.lookup h with
    | some code => simp
    | none =>
        cases db.roBase.contracts.lookup h with
        | some code => simp
        | none =>
            cases db.registeredCode h with
            | none => simp
            | some code => simp [eq_comm]
  constructor
  · intro hall
    refine ⟨fun h hh => ?_, fun h code hk hz hrw hro hreg => ?_⟩
    · rw [← hall h, codeByHashRef_maintain_empty db hh]
    · exact (hother h hk hz).mp (hall h) hrw
        ((roBase_contracts_eq_none_iff db hk hz).mpr hro) code hreg
  · rintro ⟨hempty, hnew⟩ h
    by_cases hh : h = keccakEmpty ∨ h = 0
    · rw [codeByHashRef_maintain_empty db hh, hempty h hh]
    · obtain ⟨hk, hz⟩ := not_or.mp hh
      refine (hother h hk hz).mpr fun hrw hro code hreg => ?_
      exact hnew h code hk hz hrw ((roBase_contracts_eq_none_iff db hk hz).mp hro) hreg

/-- **The merge is invisible exactly when nothing it changes can be read.** -/
theorem maintain_reads_iff (db : KabuDB) : SameReads db.maintain db ↔ MergeInvisible db := by
  constructor
  · rintro ⟨hbasic, hstorage, hcode, hhash⟩
    obtain ⟨hmissing, hmerged⟩ := (maintain_basic_iff db).mp hbasic
    obtain ⟨hext, hhidden⟩ := (maintain_storage_iff db).mp hstorage
    obtain ⟨hempty, hnew⟩ := (maintain_code_iff db).mp hcode
    exact ⟨(maintain_blockHash_iff db).mp hhash, hext, hhidden, hmissing, hmerged, hempty, hnew⟩
  · rintro ⟨hhash, hext, hhidden, hmissing, hmerged, hempty, hnew⟩
    exact
      { basic := (maintain_basic_iff db).mpr ⟨hmissing, hmerged⟩
        storage := (maintain_storage_iff db).mpr ⟨hext, hhidden⟩
        code := (maintain_code_iff db).mpr ⟨hempty, hnew⟩
        blockHash := (maintain_blockHash_iff db).mpr hhash }

/-- The merge is invisible for a database over a read-only layer whose own accounts are plain:
loaded, without code, and not known to the read-only layer as missing. -/
lemma sameReads_maintain_of_plain (hro : db.readOnlyDb ≠ none)
    (haccounts : ∀ a account, db.accounts.lookup a = some account → account.accountState = .none ∧
      account.info = default ∧ db.roNotExisting a = false)
    (hempty : ∀ h, h = keccakEmpty ∨ h = 0 → db.codeByHashRef h = .ok default) :
    SameReads db.maintain db := by
  have hhides : ∀ a, db.hidesSlots a = false := by
    intro a
    unfold hidesSlots
    split
    · rename_i account hlookup
      rw [(haccounts a account hlookup).1]
      rfl
    · rfl
  have hregistered : ∀ h, db.registeredCode h = none := by
    intro h
    refine List.findSome?_eq_none_iff.mpr fun account hmem => ?_
    obtain ⟨a, hlookup⟩ := (AssocMap.mem_values _ _).mp hmem
    rw [codeUnder, (haccounts a account hlookup).2.1]
    rfl
  refine ⟨(maintain_basic_iff db).mpr ⟨fun a account _ hl hmissing => ?_, fun a account _ hl _ => ?_⟩,
    (maintain_storage_iff db).mpr ⟨fun hnone => absurd hnone hro, fun _ a s _ hhidden => ?_⟩,
    (maintain_code_iff db).mpr ⟨hempty, fun h code _ _ _ _ hcode => ?_⟩,
    (maintain_blockHash_iff db).mpr fun hnone => absurd hnone hro⟩
  · rw [(haccounts a account hl).2.2] at hmissing
    simp at hmissing
  · obtain ⟨hstate, hinfo, -⟩ := haccounts a account hl
    rw [hstate, hinfo]
    exact ⟨by simp, rfl⟩
  · rw [hhides a] at hhidden
    simp at hhidden
  · rw [hregistered h] at hcode
    simp at hcode

/-- **Merging settles at once.**  Whatever the first merge changed, merging again, however often,
changes no read. -/
theorem maintain_settles (n : ℕ) : SameReads (maintain^[n] db.maintain) db.maintain := by
  -- a merged database has a read-only layer and no account of its own
  have hagain : ∀ db : KabuDB, SameReads db.maintain.maintain db.maintain := fun db =>
    sameReads_maintain_of_plain db.maintain (by simp [maintain, mergeAll])
      (fun _ _ hlookup => nomatch hlookup) fun _ => codeByHashRef_maintain_empty db
  induction n generalizing db with
  | zero => exact .refl _
  | succ n ih => exact (ih db.maintain).trans (hagain db)

end Merge

/-! ### A slot the external layer no longer serves -/

def sevenDbRef : DatabaseRef where
  basicRef _ := .ok none
  codeByHashRef _ := .ok default
  storageRef _ _ := .ok 7
  blockHashRef _ := .ok 0

/-- A fresh database over an external one, as the node starts with. -/
def freshDb : KabuDB := KabuDB.new.withExtDb sevenDbRef

/-- Merging a fresh database cuts it off from its external layer. -/
theorem freshDb_maintain_loses_extDb :
    letI := constKeccak
    freshDb.storageRef 1 0 = .ok 7 ∧ freshDb.maintain.storageRef 1 0 = .ok 0 ∧
      ¬ SameReads freshDb.maintain freshDb := by
  let _ := constKeccak
  have hbefore : freshDb.storageRef 1 0 = .ok 7 := rfl
  have hafter : freshDb.maintain.storageRef 1 0 = .ok 0 := rfl
  refine ⟨hbefore, hafter, ?_⟩
  intro h
  have hslot := h.storage 1 0
  rw [hbefore, hafter] at hslot
  simp at hslot

end Kabu
