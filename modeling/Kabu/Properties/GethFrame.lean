import Kabu.Entities.GethRecord

/-!
# What the database's own applier leaves alone

A diff should change the slots it writes and the fields it gives, and nothing else
(`AppliesDiff`).  A missing account has the fields of the default one here, as it has for whoever
executes a transaction.

The applier marks every account of the diff as touched.  For an account whose storage was cleared,
or that was destroyed, the mark was what kept its slots from being read from the layers below, so
the old slots come back.  A diff is applied as it should be exactly if there is nothing to come back
(`applyGethUpdate_frame_iff`).  The zero address, whose info never changes, is a case of its own,
and so is an account that does not exist but still has an info, which no commit leaves.
-/

namespace Kabu

open KabuDBHelper DatabaseHelpers

/-- The fields are those that the diff gives, and otherwise those from before. -/
structure InfoGiven [Keccak] (before : AccountInfo) (state : GethAccountState)
    (after : AccountInfo) : Prop where
  balance : after.balance = state.balance.getD before.balance
  nonce : after.nonce = state.nonce.getD before.nonce
  code : after.code = (state.code.map Bytecode.newRaw).or before.code
  codeHash : after.codeHash =
    (state.code.map fun code => (Bytecode.newRaw code).hashSlow).getD before.codeHash

namespace KabuDB

/-- The reads are those that the diff gives, and otherwise those from before. -/
structure AppliesDiff [Keccak] (db db' : KabuDB) (diff : GethStateUpdate) : Prop where
  other : ∀ a, diff.lookup a = none → db'.basicRef a = db.basicRef a
  info : ∀ a state, diff.lookup a = some state → ∃ info, db'.basicRef a = .ok (some info) ∧
    InfoGiven (baseInfo db.toRef a) state info
  slot : ∀ a s, db'.storageRef a s =
    ((slotWrite a s diff).map Except.ok).getD (db.storageRef a s)
  code : ∀ h, db'.codeByHashRef h = db.codeByHashRef h
  blockHash : ∀ n, db'.blockHashRef n = db.blockHashRef n

/-- Nothing that the account hides is uncovered when it is marked as touched. -/
structure NothingHidden (db : KabuDB) (a : Address) (state : GethAccountState)
    (account : FastDbAccount) : Prop where
  /-- The layers below have zero in the slots that are neither cached nor written. -/
  slots : account.accountState.hidesStorage = true → ∀ s, account.storage.lookup s = none →
    state.storage.lookup s = none → getOrFetchStorage db.readOnlyRef db.extDb a s = .ok 0
  /-- An account that does not exist has nothing in the fields that are not given. -/
  info : a ≠ 0 → account.accountState = .notExisting →
    (state.balance = none → account.info.balance = 0) ∧
      (state.nonce = none → account.info.nonce = 0) ∧
      (state.code = none → account.info.code = some default ∧ account.info.codeHash = keccakEmpty)

/-- The zero address is given nothing but what it has. -/
def GivesNothing (state : GethAccountState) : Prop :=
  (∀ balance, state.balance = some balance → balance = 0) ∧
    (∀ nonce, state.nonce = some nonce → nonce = 0) ∧ ∀ code, state.code = some code → code = []

end KabuDB

section Fields

variable [Keccak]

lemma infoGiven_updateInfo (info : AccountInfo) (state : GethAccountState) :
    InfoGiven info state (updateInfo info state) := by
  obtain ⟨balance, code, nonce, storage⟩ := state
  cases balance <;> cases code <;> cases nonce <;> exact ⟨rfl, rfl, rfl, rfl⟩

lemma infoGiven_default_iff (state : GethAccountState) :
    InfoGiven default state default ↔ KabuDB.GivesNothing state := by
  obtain ⟨balance, code, nonce, storage⟩ := state
  have hcode : ∀ bytes : Bytes, Bytecode.newRaw bytes = default ↔ bytes = [] := fun bytes =>
    Bytecode.mk.injEq bytes [] ▸ Iff.rfl
  constructor
  · rintro ⟨hbalance, hnonce, hbytes, -⟩
    refine ⟨?_, ?_, ?_⟩
    · rintro _ rfl
      exact hbalance.symm
    · rintro _ rfl
      exact hnonce.symm
    · rintro bytes rfl
      exact (hcode bytes).mp (Option.some.inj hbytes).symm
  · rintro ⟨hbalance, hnonce, hbytes⟩
    dsimp only at hbalance hnonce hbytes
    refine ⟨?_, ?_, ?_, ?_⟩
    · cases balance with
      | none => rfl
      | some balance => exact (hbalance balance rfl).symm
    · cases nonce with
      | none => rfl
      | some nonce => exact (hnonce nonce rfl).symm
    · cases code with
      | none => rfl
      | some bytes => rw [hbytes bytes rfl]; rfl
    · cases code with
      | none => rfl
      | some bytes => rw [hbytes bytes rfl]; rfl

/-- Writing over one info or another makes no difference if they have the same in the fields that
are not given. -/
lemma infoGiven_updateInfo_iff (before info : AccountInfo) (state : GethAccountState) :
    InfoGiven before state (updateInfo info state) ↔
      (state.balance = none → info.balance = before.balance) ∧
        (state.nonce = none → info.nonce = before.nonce) ∧
        (state.code = none → info.code = before.code ∧ info.codeHash = before.codeHash) := by
  obtain ⟨hbalance, hnonce, hcode, hhash⟩ := infoGiven_updateInfo info state
  constructor
  · rintro ⟨hbalance', hnonce', hcode', hhash'⟩
    refine ⟨fun hnone => ?_, fun hnone => ?_, fun hnone => ⟨?_, ?_⟩⟩
    · simpa [hnone] using hbalance.symm.trans hbalance'
    · simpa [hnone] using hnonce.symm.trans hnonce'
    · simpa [hnone] using hcode.symm.trans hcode'
    · simpa [hnone] using hhash.symm.trans hhash'
  · rintro ⟨hbalance', hnonce', hcode'⟩
    refine ⟨hbalance.trans ?_, hnonce.trans ?_, hcode.trans ?_, hhash.trans ?_⟩
    · cases h : state.balance with
      | none => exact hbalance' h
      | some balance => rfl
    · cases h : state.nonce with
      | none => exact hnonce' h
      | some nonce => rfl
    · cases h : state.code with
      | none => exact (hcode' h).1
      | some code => rfl
    · cases h : state.code with
      | none => exact (hcode' h).2
      | some code => rfl

end Fields

namespace KabuDB

variable [Keccak] {db : KabuDB} {a : Address}

/-- The info that a part of a diff is written over is the one that is read, unless the account does
not exist. -/
lemma infoGiven_gethRecord_iff (ha : a ≠ 0) (state : GethAccountState) :
    InfoGiven (baseInfo db.toRef a) state (db.gethRecord a (db.accounts.lookup a) state).info ↔
      ∀ account, db.accounts.lookup a = some account → account.accountState = .notExisting →
        (state.balance = none → account.info.balance = 0) ∧
          (state.nonce = none → account.info.nonce = 0) ∧
          (state.code = none →
            account.info.code = some default ∧ account.info.codeHash = keccakEmpty) := by
  rw [baseInfo_toRef db ha, gethRecord, infoGiven_updateInfo_iff]
  cases hlookup : db.accounts.lookup a with
  | none =>
      have hinfo : (db.extLoaded a).info =
          (readBasic none db.readOnlyRef db.extDb a).getD default := by
        unfold extLoaded readBasic
        cases unwrapOr none (getOrFetchBasic db.readOnlyRef db.extDb a) <;> rfl
      rw [Option.getD_none, hinfo]
      simp
  | some account =>
      rw [Option.getD_some, readBasic]
      by_cases hstate : account.accountState = .notExisting
      · rw [FastDbAccount.info?_of_eq hstate]
        simp only [Option.some.injEq, forall_eq', hstate, forall_const]
        exact Iff.rfl
      · rw [FastDbAccount.info?_of_ne hstate]
        simp [hstate]

lemma readStorage_gethRecord_iff (state : GethAccountState) (s : U256) :
    readStorage (some (db.gethRecord a (db.accounts.lookup a) state)) db.readOnlyRef db.extDb a s =
        ((state.storage.lookup s).map Except.ok).getD (db.storageRef a s) ↔
      ∀ account, db.accounts.lookup a = some account → account.accountState.hidesStorage = true →
        account.storage.lookup s = none → state.storage.lookup s = none →
          getOrFetchStorage db.readOnlyRef db.extDb a s = .ok 0 := by
  rw [KabuDB.storageRef_eq]
  simp only [readStorage, gethRecord, AssocMap.lookup_extend]
  cases state.storage.lookup s with
  | some v => simp
  | none =>
      cases hlookup : db.accounts.lookup a with
      | none => simp [storage_extLoaded, AccountState.hidesStorage]
      | some account =>
          cases hslot : account.storage.lookup s with
          | some v => simp [hslot]
          | none =>
              cases hstate : account.accountState <;>
                simp [hslot, hstate, AccountState.hidesStorage]

/-- The database differs in its accounts alone. -/
structure SameBut (db db' : KabuDB) : Prop where
  contracts : db'.contracts = db.contracts
  blockHashes : db'.blockHashes = db.blockHashes
  readOnlyDb : db'.readOnlyDb = db.readOnlyDb
  extDb : db'.extDb = db.extDb

omit [Keccak] in
lemma SameBut.trans {db' db'' : KabuDB} (h : SameBut db db') (h' : SameBut db' db'') :
    SameBut db db'' :=
  ⟨h'.contracts.trans h.contracts, h'.blockHashes.trans h.blockHashes,
    h'.readOnlyDb.trans h.readOnlyDb, h'.extDb.trans h.extDb⟩

omit [Keccak] in
lemma sameBut_setLoaded (db : KabuDB) (a : Address) (account : FastDbAccount) :
    SameBut db ((db.loadRoRwExtAccount a).1.setAccount a account) := by
  unfold loadRoRwExtAccount
  split <;> exact ⟨rfl, rfl, rfl, rfl⟩

lemma sameBut_applyGethUpdate (db : KabuDB) (diff : GethStateUpdate) :
    SameBut db (db.applyGethUpdate diff) := by
  refine AssocMap.foldl_invariant applyGethAccount (P := SameBut db) (fun db' b state h => ?_) diff
    ⟨rfl, rfl, rfl, rfl⟩
  have hslots : SameBut db
      (state.storage.foldl (fun db k v => db.insertAccountStorage b k v) db') :=
    AssocMap.foldl_invariant (P := SameBut db) _
      (fun db'' k v h => h.trans (sameBut_setLoaded db'' b _)) _ h
  exact hslots.trans (sameBut_setLoaded _ b _)

end KabuDB

open KabuDB

section Applied

variable [Keccak] (db : KabuDB) (diff : GethStateUpdate)

lemma hasRecord_applyGethUpdate (a : Address) :
    HasRecord db a (AssocMap.applyAt (fun state record => some (db.gethRecord a record state))
      (diff.lookup a) (db.accounts.lookup a)) (db.applyGethUpdate diff) :=
  (HasRecord.self db a).applyGethUpdate diff

lemma basicRef_applyGethUpdate_of_none {a : Address} (hnone : diff.lookup a = none) :
    (db.applyGethUpdate diff).basicRef a = db.basicRef a := by
  by_cases ha : a = 0
  · rw [ha, basicRef_zero, basicRef_zero]
  · rw [(hasRecord_applyGethUpdate db diff a).basicRef_eq ha, hnone, AssocMap.applyAt_none,
      KabuDB.basicRef_eq db ha]

/-- The info that is read for an account of the diff is the given one, but for the zero address,
which reads as absent. -/
lemma infoGiven_applyGethUpdate_iff {a : Address} {state : GethAccountState}
    (hstate : diff.lookup a = some state) :
    (∃ info, (db.applyGethUpdate diff).basicRef a = .ok (some info) ∧
      InfoGiven (baseInfo db.toRef a) state info) ↔
      (a = 0 → GivesNothing state) ∧ (a ≠ 0 → InfoGiven (baseInfo db.toRef a) state
        (db.gethRecord a (db.accounts.lookup a) state).info) := by
  by_cases ha : a = 0
  · subst ha
    have hbase : baseInfo db.toRef 0 = default := by
      rw [baseInfo, show db.toRef.basicRef 0 = _ from db.basicRef_zero]
      rfl
    rw [basicRef_zero, hbase, ← infoGiven_default_iff]
    simp
  · rw [(hasRecord_applyGethUpdate db diff a).basicRef_eq ha, hstate, AssocMap.applyAt_some,
      readBasic, FastDbAccount.info?_of_ne (by simp [gethRecord])]
    constructor
    · rintro ⟨info, heq, hgiven⟩
      cases heq
      exact ⟨fun hzero => absurd hzero ha, fun _ => hgiven⟩
    · rintro ⟨-, hgiven⟩
      exact ⟨_, rfl, hgiven ha⟩

/-- A slot has what was written to it, or what it had, unless the account hid what the layers below
have there. -/
lemma storageRef_applyGethUpdate_iff (a : Address) (s : U256) :
    (db.applyGethUpdate diff).storageRef a s =
      ((slotWrite a s diff).map Except.ok).getD (db.storageRef a s) ↔
        ∀ state, diff.lookup a = some state → ∀ account, db.accounts.lookup a = some account →
          account.accountState.hidesStorage = true → account.storage.lookup s = none →
            state.storage.lookup s = none →
              getOrFetchStorage db.readOnlyRef db.extDb a s = .ok 0 := by
  rw [(hasRecord_applyGethUpdate db diff a).storageRef_eq, slotWrite]
  cases hstate : diff.lookup a with
  | none =>
      refine iff_of_true ?_ (by simp)
      rw [AssocMap.applyAt_none, ← KabuDB.storageRef_eq]
      rfl
  | some state =>
      rw [AssocMap.applyAt_some, Option.bind_some, readStorage_gethRecord_iff]
      simp

end Applied

/-- **When a diff leaves the rest alone.**  For every database and every diff, the slots and fields
that the diff gives read as given after it was applied, and every other read is as before, exactly
if the zero address is given nothing it does not have, and no account of the diff hides anything:
where its storage was cleared, or it does not exist, the layers below have zero in every slot that
is neither cached nor written, and an account that does not exist has no fields of its own. -/
theorem applyGethUpdate_frame_iff [Keccak] (db : KabuDB) (diff : GethStateUpdate) :
    AppliesDiff db (db.applyGethUpdate diff) diff ↔
      ∀ a state, diff.lookup a = some state → (a = 0 → GivesNothing state) ∧
        ∀ account, db.accounts.lookup a = some account → NothingHidden db a state account := by
  have hslot := storageRef_applyGethUpdate_iff db diff
  constructor
  · rintro ⟨-, hinfos, hslots, -, -⟩ a state hstate
    obtain ⟨hzero, hgiven⟩ :=
      (infoGiven_applyGethUpdate_iff db diff hstate).mp (hinfos a state hstate)
    refine ⟨hzero, fun account haccount => ⟨fun hhides s hslotless hnot => ?_, fun ha => ?_⟩⟩
    · exact (hslot a s).mp (hslots a s) state hstate account haccount hhides hslotless hnot
    · exact (infoGiven_gethRecord_iff ha state).mp (hgiven ha) account haccount
  · intro h
    have hsame := sameBut_applyGethUpdate db diff
    refine ⟨fun a => basicRef_applyGethUpdate_of_none db diff, fun a state hstate =>
      (infoGiven_applyGethUpdate_iff db diff hstate).mpr ?_, fun a s => (hslot a s).mpr ?_,
      fun hash => ?_, fun number => ?_⟩
    · obtain ⟨hzero, hhidden⟩ := h a state hstate
      exact ⟨hzero, fun ha => (infoGiven_gethRecord_iff ha state).mpr fun account haccount =>
        (hhidden account haccount).info ha⟩
    · exact fun state hstate account haccount hhides =>
        ((h a state hstate).2 account haccount).slots hhides s
    · rw [codeByHashRef_eq, codeByHashRef_eq, hsame.contracts, readOnlyRef, hsame.readOnlyDb,
        ← readOnlyRef]
    · rw [blockHashRef_eq, blockHashRef_eq, hsame.blockHashes, readOnlyRef, hsame.readOnlyDb,
        ← readOnlyRef, hsame.extDb]

/-! ### A cleared storage that comes back -/

/-- An external database with something in a slot. -/
def filledExt : DatabaseRef where
  basicRef _ := .ok (some default)
  codeByHashRef _ := .error .noDB
  storageRef _ _ := .ok 5
  blockHashRef _ := .error .noDB

/-- The storage of the account is replaced by an empty one. -/
def clearedDb : KabuDB := (KabuDB.new.withExtDb filledExt).replaceAccountStorage 1 ∅

def balanceDiff : GethStateUpdate := AList.singleton 1 ⟨some 9, none, none, ∅⟩

/-- **A slot comes back.**  The slot reads zero after the storage was cleared, and has its old value
again after a diff that does not mention it. -/
theorem cleared_slot_returns :
    letI := constKeccak
    clearedDb.storageRef 1 7 = .ok 0 ∧ slotWrite 1 7 balanceDiff = none ∧
      (clearedDb.applyGethUpdate balanceDiff).storageRef 1 7 = .ok 5 ∧
      ¬ AppliesDiff clearedDb (clearedDb.applyGethUpdate balanceDiff) balanceDiff := by
  have hbefore : clearedDb.storageRef 1 7 = .ok 0 := by decide +kernel
  have hafter : (@applyGethUpdate constKeccak clearedDb balanceDiff).storageRef 1 7 = .ok 5 := by
    decide +kernel
  have hunwritten : slotWrite 1 7 balanceDiff = none := by decide +kernel
  refine ⟨hbefore, hunwritten, hafter, fun h => ?_⟩
  have hslot := @AppliesDiff.slot constKeccak _ _ _ h 1 7
  rw [hafter, hunwritten, Option.map_none, Option.getD_none, hbefore] at hslot
  exact absurd hslot (by decide)

end Kabu
