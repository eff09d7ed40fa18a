import Kabu.Entities.AccountUpdate

/-!
# What the update of a block leaves alone

The update of a block is meant to change the tracked part of the state and nothing else: a slot that
is tracked, or whose account is forced, gets the last value written to it, an account that is
tracked the last balance and the last nonce given to it, and everything else reads as before
(`ChangesTracked`).

What stands in the way is the record.  The first write to an account that the writable layer does
not have loads a record from the layers below, and where they do not find the account (the
read-only layer alone is asked on behalf of a balance, and an external layer that fails counts as
one that finds nothing) the record is one of an account that does not exist.  Such a record answers
zero for every slot it does not have, whatever the layers below say, and no balance that is put into
it is ever read.  The zero address is a case of its own, since its info cannot be changed at all.

`applyUpdate_frame_iff` says exactly when this is not seen (`UpdateFits`), and `other_slot_lost` is
an update of one slot after which another reads zero.
-/

namespace Kabu

open KabuDBHelper LastWrite

namespace KabuDB

/-- The info that is read. -/
def infoOf (db : KabuDB) (a : Address) : Option AccountInfo := unwrapOr none (db.basicRef a)

/-- A slot that the update of a block may write. -/
def Writable (config : MarketStateConfig) (db : KabuDB) (a : Address) (s : U256) : Prop :=
  config.isForceInsert a = true ∨ db.isRwRoSlot a s = true

instance (config : MarketStateConfig) (db : KabuDB) (a : Address) (s : U256) :
    Decidable (Writable config db a s) :=
  inferInstanceAs (Decidable (_ ∨ _))

/-- The diffs have changed the tracked part of the state, and nothing else. -/
structure ChangesTracked (config : MarketStateConfig) (db db' : KabuDB)
    (stateUpdate : GethStateUpdateVec) : Prop where
  slot : ∀ a s, Writable config db a s → db'.storageRef a s =
    ((lastWrite (slotWrite a s) stateUpdate).map Except.ok).getD (db.storageRef a s)
  other : ∀ a s, ¬ Writable config db a s → db'.storageRef a s = db.storageRef a s
  balance : ∀ a, db.isRwRoAccount a = true → (db'.infoOf a).map (·.balance) =
    (lastWrite (balanceWrite a) stateUpdate).or ((db.infoOf a).map (·.balance))
  nonce : ∀ a, db.isRwRoAccount a = true → (db'.infoOf a).map (·.nonce) =
    (lastWrite (nonceWrite a) stateUpdate).or ((db.infoOf a).map (·.nonce))

/-- The state of the record that the account has when the diffs have been applied: the one it has
already, or the one that the first change loads. -/
inductive RecordedAs (config : MarketStateConfig) (db : KabuDB) (stateUpdate : GethStateUpdateVec)
    (a : Address) : AccountState → Prop
  | cached {account : FastDbAccount} : db.accounts.lookup a = some account →
      RecordedAs config db stateUpdate a account.accountState
  | loaded {before after : List GethStateUpdate} {diff : GethStateUpdate} :
      db.accounts.lookup a = none → stateUpdate = before ++ diff :: after →
      (∀ d ∈ before, ¬ Changes config db a d) → Changes config db a diff →
      RecordedAs config db stateUpdate a (db.firstRecord a diff).1

/-- No record of an account that does not exist is in the way of the diffs. -/
structure UpdateFits (config : MarketStateConfig) (db : KabuDB)
    (stateUpdate : GethStateUpdateVec) : Prop where
  /-- The zero address is given nothing but what it has. -/
  zero : db.isRwRoAccount 0 = true → (lastWrite (balanceWrite 0) stateUpdate).getD 0 = 0 ∧
    (lastWrite (nonceWrite 0) stateUpdate).getD 0 = 0
  /-- A tracked account that is recorded as missing is given no balance and no nonce. -/
  infos : ∀ a, a ≠ 0 → db.isRwRoAccount a = true →
    RecordedAs config db stateUpdate a .notExisting → ∀ diff ∈ stateUpdate, ¬ GivesInfo a diff
  /-- An account that becomes recorded as missing has zero in the slots that are not written. -/
  slots : ∀ a, db.accounts.lookup a = none → RecordedAs config db stateUpdate a .notExisting →
    ∀ s, ¬ (Writable config db a s ∧ ∃ diff ∈ stateUpdate, (slotWrite a s diff).isSome = true) →
      db.storageRef a s = .ok 0

section Records

variable {config : MarketStateConfig} {db : KabuDB} {a : Address} {s : U256}
  {stateUpdate : GethStateUpdateVec} {state : AccountState}

lemma recordedAs_iff : RecordedAs config db stateUpdate a state ↔
    ∃ info, recordHead (stateUpdate.foldl (db.accountStep config a) (db.accounts.lookup a)) =
      some (state, info) := by
  constructor
  · intro h
    cases h with
    | cached hrecord =>
        rw [hrecord]
        exact ⟨_, recordHead_foldl rfl stateUpdate⟩
    | loaded hnone hsplit hbefore hdiff =>
        rw [hnone, hsplit]
        exact ⟨_, recordHead_foldl_of_changes hnone hbefore hdiff _⟩
  · rintro ⟨info, hhead⟩
    cases hrecord : db.accounts.lookup a with
    | some account =>
        rw [hrecord, recordHead_foldl (show recordHead (some account) =
          some (account.accountState, account.info) from rfl)] at hhead
        obtain ⟨rfl, -⟩ := Prod.mk.inj (Option.some.inj hhead)
        exact .cached hrecord
    | none =>
        rw [hrecord] at hhead
        rcases changes_cases config db a stateUpdate with
          hall | ⟨before, diff, after, rfl, hbefore, hdiff⟩
        · rw [foldl_accountStep_of_not_changes hrecord hall] at hhead
          simp [recordHead] at hhead
        · rw [recordHead_foldl_of_changes hrecord hbefore hdiff after] at hhead
          obtain ⟨rfl, -⟩ := Prod.mk.inj (Option.some.inj hhead)
          exact .loaded hrecord rfl hbefore hdiff

/-- The record that the first change loads is the account as it is read, or a missing one. -/
lemma firstRecord_cases (diff : GethStateUpdate) : (db.firstRecord a diff).1 = .notExisting ∨
    (db.firstRecord a diff).1 = .none ∧
      readBasic none db.readOnlyRef db.extDb a = some (db.firstRecord a diff).2 := by
  unfold firstRecord
  split
  · unfold roLoaded getBasic
    cases hro : db.readOnlyRef with
    | none => exact Or.inl rfl
    | some ro =>
        cases hinfo : ro.basicRef a with
        | error e => simp [hinfo, FastDbAccount.ofOptionInfo, FastDbAccount.newNotExisting]
        | ok info =>
            cases info with
            | none => simp [hinfo, FastDbAccount.ofOptionInfo, FastDbAccount.newNotExisting]
            | some info =>
                simp [hinfo, FastDbAccount.ofOptionInfo, FastDbAccount.ofInfo, readBasic,
                  getOrFetchBasic]
  · unfold extLoaded readBasic
    cases unwrapOr none (getOrFetchBasic db.readOnlyRef db.extDb a) with
    | none => exact Or.inl rfl
    | some info => exact Or.inr ⟨rfl, rfl⟩

/-- If it is a slot that makes the record, it is missing only if the account is read so. -/
lemma readBasic_of_firstRecord {diff : GethStateUpdate} (hgives : ¬ GivesInfo a diff)
    (hmissing : (db.firstRecord a diff).1 = .notExisting) :
    readBasic none db.readOnlyRef db.extDb a = none := by
  have hslot : ¬ (db.isRwRoAccount a &&
      ((balanceWrite a diff).isSome || (nonceWrite a diff).isSome)) = true := by
    intro hboth
    rw [Bool.and_eq_true, Bool.or_eq_true] at hboth
    exact hgives hboth.2
  rw [firstRecord, if_neg hslot, extLoaded] at hmissing
  unfold readBasic
  cases hinfo : unwrapOr none (getOrFetchBasic db.readOnlyRef db.extDb a) with
  | none => rfl
  | some info =>
      rw [hinfo] at hmissing
      simp [FastDbAccount.ofOptionInfo, FastDbAccount.ofInfo] at hmissing

/-! ## Slots -/

lemma writable_iff : Writable config db a s ↔ (config.isForceInsert a ||
    (recordSlot s (db.accounts.lookup a)).isSome || (db.roSlot a s).isSome) = true := by
  unfold Writable
  rw [isRwRoSlot_eq, Bool.or_assoc, Bool.or_eq_true (config.isForceInsert a)]
  rfl

lemma readStorage_of_written (hwritable : Writable config db a s) {v : U256}
    (hlast : lastWrite (slotWrite a s) stateUpdate = some v) (ro ext : Option DatabaseRef) :
    readStorage (stateUpdate.foldl (db.accountStep config a) (db.accounts.lookup a)) ro ext a s =
      .ok v := by
  refine readStorage_of_slot ?_ ro ext
  rw [recordSlot_foldl, if_pos (writable_iff.mp hwritable), hlast, Option.some_or]

lemma recordSlot_of_not_written
    (h : ¬ (Writable config db a s ∧ (lastWrite (slotWrite a s) stateUpdate).isSome = true)) :
    recordSlot s (stateUpdate.foldl (db.accountStep config a) (db.accounts.lookup a)) =
      recordSlot s (db.accounts.lookup a) := by
  rw [recordSlot_foldl]
  split
  · rename_i hwritable
    have hlast : lastWrite (slotWrite a s) stateUpdate = none := by
      simpa using fun hsome => h ⟨writable_iff.mpr hwritable, hsome⟩
    rw [hlast, Option.none_or]
  · rfl

/-- A record that comes over a slot hides it if it is one of a missing account. -/
lemma readStorage_eq_iff_of_none (hnone : db.accounts.lookup a = none)
    (hslot : recordSlot s (stateUpdate.foldl (db.accountStep config a) none) = none) :
    readStorage (stateUpdate.foldl (db.accountStep config a) none) db.readOnlyRef db.extDb a s =
        readStorage none db.readOnlyRef db.extDb a s ↔
      (RecordedAs config db stateUpdate a .notExisting →
        readStorage none db.readOnlyRef db.extDb a s = .ok 0) := by
  rw [recordedAs_iff, hnone]
  rcases changes_cases config db a stateUpdate with
    hall | ⟨before, diff, after, rfl, hbefore, hdiff⟩
  · rw [foldl_accountStep_of_not_changes hnone hall]
    simp [recordHead]
  · have hhead := recordHead_foldl_of_changes hnone hbefore hdiff after
    rw [readStorage_of_head hhead hslot, hhead]
    rcases db.firstRecord_cases (a := a) diff with hmissing | ⟨hfound, -⟩
    · rw [hmissing]
      exact ⟨fun h _ => h.symm, fun h => (h ⟨_, rfl⟩).symm⟩
    · rw [hfound]
      exact iff_of_true rfl (by simp)

/-- **Other slots.**  A slot that is not written reads as before, unless a record that hides it has
come over it. -/
lemma readStorage_eq_iff_of_not_written
    (h : ¬ (Writable config db a s ∧ (lastWrite (slotWrite a s) stateUpdate).isSome = true)) :
    readStorage (stateUpdate.foldl (db.accountStep config a) (db.accounts.lookup a))
        db.readOnlyRef db.extDb a s =
        readStorage (db.accounts.lookup a) db.readOnlyRef db.extDb a s ↔
      (db.accounts.lookup a = none → RecordedAs config db stateUpdate a .notExisting →
        readStorage (db.accounts.lookup a) db.readOnlyRef db.extDb a s = .ok 0) := by
  have hslot := recordSlot_of_not_written h
  cases hrecord : db.accounts.lookup a with
  | some account =>
      rw [hrecord] at hslot
      exact iff_of_true (readStorage_foldl_some hslot _ _) (by simp)
  | none =>
      rw [hrecord] at hslot
      rw [readStorage_eq_iff_of_none hrecord hslot]
      simp

/-! ## Balances and nonces -/

lemma not_givesInfo_iff : (∀ diff ∈ stateUpdate, ¬ GivesInfo a diff) ↔
    lastWrite (balanceWrite a) stateUpdate = none ∧ lastWrite (nonceWrite a) stateUpdate = none := by
  rw [lastWrite_eq_none_iff, lastWrite_eq_none_iff, ← forall₂_and]
  refine forall₂_congr fun diff _ => ?_
  unfold GivesInfo
  simp

/-- The info after is the info before, with the last balance and the last nonce. -/
def InfoAsGiven (a : Address) (stateUpdate : GethStateUpdateVec) (before after : Option AccountInfo) :
    Prop :=
  after.map (·.balance) = (lastWrite (balanceWrite a) stateUpdate).or (before.map (·.balance)) ∧
    after.map (·.nonce) = (lastWrite (nonceWrite a) stateUpdate).or (before.map (·.nonce))

lemma infoAsGiven_given (info : AccountInfo) : InfoAsGiven a stateUpdate (some info)
    (some (info.given (lastWrite (balanceWrite a) stateUpdate)
      (lastWrite (nonceWrite a) stateUpdate))) := by
  unfold InfoAsGiven AccountInfo.given
  cases lastWrite (balanceWrite a) stateUpdate <;> cases lastWrite (nonceWrite a) stateUpdate <;>
    exact ⟨rfl, rfl⟩

lemma infoAsGiven_none_iff {before : Option AccountInfo}
    (hbefore : (∀ diff ∈ stateUpdate, ¬ GivesInfo a diff) → before = none) :
    InfoAsGiven a stateUpdate before none ↔ ∀ diff ∈ stateUpdate, ¬ GivesInfo a diff := by
  constructor
  · rintro ⟨hbalance, hnonce⟩
    exact not_givesInfo_iff.mpr ⟨(Option.or_eq_none_iff.mp hbalance.symm).1,
      (Option.or_eq_none_iff.mp hnonce.symm).1⟩
  · intro hgives
    obtain ⟨hbalance, hnonce⟩ := not_givesInfo_iff.mp hgives
    rw [hbefore hgives, InfoAsGiven, hbalance, hnonce]
    exact ⟨rfl, rfl⟩

/-- **Tracked accounts.**  A tracked account has the last balance and the last nonce, unless its
record says that it is missing. -/
lemma infoAsGiven_iff (htracked : db.isRwRoAccount a = true) :
    InfoAsGiven a stateUpdate (readBasic (db.accounts.lookup a) db.readOnlyRef db.extDb a)
        (readBasic (stateUpdate.foldl (db.accountStep config a) (db.accounts.lookup a))
          db.readOnlyRef db.extDb a) ↔
      (RecordedAs config db stateUpdate a .notExisting →
        ∀ diff ∈ stateUpdate, ¬ GivesInfo a diff) := by
  rw [recordedAs_iff]
  cases hrecord : db.accounts.lookup a with
  | some account =>
      have hhead : recordHead (some account) = some (account.accountState, account.info) := rfl
      have hafter : recordHead (stateUpdate.foldl (db.accountStep config a) (some account)) = _ :=
        recordHead_foldl hhead stateUpdate
      rw [readBasic_of_head hafter, readBasic_of_head hhead, hafter]
      by_cases hmissing : account.accountState = .notExisting
      · rw [if_pos hmissing, if_pos hmissing, infoAsGiven_none_iff fun _ => rfl]
        exact ⟨fun h _ => h, fun h => h ⟨_, by rw [hmissing]⟩⟩
      · rw [if_neg hmissing, if_neg hmissing]
        exact iff_of_true (infoAsGiven_given _) (by simp [hmissing])
  | none =>
      rcases changes_cases config db a stateUpdate with
        hall | ⟨before, diff, after, rfl, hbefore, hdiff⟩
      · have hgives : ∀ diff ∈ stateUpdate, ¬ GivesInfo a diff := fun diff hdiff hgives =>
          hall diff hdiff (Or.inl ⟨htracked, hgives⟩)
        obtain ⟨hbalance, hnonce⟩ := not_givesInfo_iff.mp hgives
        rw [foldl_accountStep_of_not_changes hrecord hall]
        refine iff_of_true ?_ fun _ => hgives
        unfold InfoAsGiven
        rw [hbalance, hnonce, Option.none_or, Option.none_or]
        exact ⟨rfl, rfl⟩
      · have hafter := recordHead_foldl_of_tracked hrecord htracked hbefore hdiff after
        rw [readBasic_of_head hafter, hafter]
        rcases db.firstRecord_cases (a := a) diff with hmissing | ⟨hfound, hinfo⟩
        · rw [if_pos hmissing, infoAsGiven_none_iff fun hgives =>
            readBasic_of_firstRecord (hgives diff (by simp)) hmissing]
          exact ⟨fun h _ => h, fun h => h ⟨_, by rw [hmissing]⟩⟩
        · rw [hfound, if_neg (by simp), hinfo]
          exact iff_of_true (infoAsGiven_given _) (by simp)

end Records

lemma hasRecord_applyUpdate_getD {Block : Type*} (db : KabuDB) (config : MarketStateConfig)
    (entry : BlockHistoryEntry Block) (a : Address) :
    HasRecord db a ((entry.stateUpdate.getD []).foldl (db.accountStep config a)
      (db.accounts.lookup a)) (db.applyUpdate entry config) := by
  cases hentry : entry.stateUpdate with
  | none =>
      rw [applyUpdate, hentry]
      exact ⟨rfl, rfl, rfl⟩
  | some stateUpdate => exact hasRecord_applyUpdate hentry db config a

lemma infoOf_zero (db : KabuDB) : db.infoOf 0 = some default := by
  rw [infoOf, basicRef_zero]
  rfl

lemma infoAsGiven_zero_iff (stateUpdate : GethStateUpdateVec) :
    InfoAsGiven 0 stateUpdate (some default) (some default) ↔
      (lastWrite (balanceWrite 0) stateUpdate).getD 0 = 0 ∧
        (lastWrite (nonceWrite 0) stateUpdate).getD 0 = 0 := by
  have hor : ∀ {B : Type} (x : Option B) (b : B), some b = x.or (some b) ↔ x.getD b = b := by
    intro B x b
    cases x <;> simp [eq_comm]
  unfold InfoAsGiven
  rw [Option.map_some, Option.map_some, hor, hor]
  rfl

/-- **The frame.**  The update of a block changes the tracked part of the state and nothing else,
exactly when no record of a missing account is in its way. -/
theorem applyUpdate_frame_iff {Block : Type*} (db : KabuDB) (config : MarketStateConfig)
    (entry : BlockHistoryEntry Block) :
    ChangesTracked config db (db.applyUpdate entry config) (entry.stateUpdate.getD []) ↔
      UpdateFits config db (entry.stateUpdate.getD []) := by
  have hrecord := db.hasRecord_applyUpdate_getD config entry
  generalize entry.stateUpdate.getD [] = stateUpdate at hrecord ⊢
  generalize db.applyUpdate entry config = db' at hrecord ⊢
  have hslot : ∀ a s, ¬ (Writable config db a s ∧
      ∃ diff ∈ stateUpdate, (slotWrite a s diff).isSome = true) →
      (db'.storageRef a s = db.storageRef a s ↔ (db.accounts.lookup a = none →
        RecordedAs config db stateUpdate a .notExisting → db.storageRef a s = .ok 0)) := by
    intro a s h
    rw [← lastWrite_isSome_iff] at h
    rw [(hrecord a).storageRef_eq, KabuDB.storageRef_eq]
    exact readStorage_eq_iff_of_not_written h
  have hinfo : ∀ a, a ≠ 0 → db.isRwRoAccount a = true →
      (InfoAsGiven a stateUpdate (db.infoOf a) (db'.infoOf a) ↔
        (RecordedAs config db stateUpdate a .notExisting →
          ∀ diff ∈ stateUpdate, ¬ GivesInfo a diff)) := by
    intro a ha htracked
    rw [infoOf, infoOf, (hrecord a).basicRef_eq ha, KabuDB.basicRef_eq _ ha]
    exact infoAsGiven_iff htracked
  constructor
  · rintro ⟨hwritable, hother, hbalance, hnonce⟩
    refine ⟨fun hzero => ?_, fun a ha htracked => ?_, fun a hnone hmissing s hs => ?_⟩
    · have hgiven : InfoAsGiven 0 stateUpdate (db.infoOf 0) (db'.infoOf 0) :=
        ⟨hbalance 0 hzero, hnonce 0 hzero⟩
      rw [infoOf_zero, infoOf_zero] at hgiven
      exact (infoAsGiven_zero_iff stateUpdate).mp hgiven
    · exact (hinfo a ha htracked).mp ⟨hbalance a htracked, hnonce a htracked⟩
    · refine (hslot a s hs).mp ?_ hnone hmissing
      by_cases hw : Writable config db a s
      · have hlast : lastWrite (slotWrite a s) stateUpdate = none := by
          rw [← Option.not_isSome_iff_eq_none, lastWrite_isSome_iff]
          exact fun hwritten => hs ⟨hw, hwritten⟩
        rw [hwritable a s hw, hlast]
        rfl
      · exact hother a s hw
  · rintro ⟨hzero, hinfos, hslots⟩
    have hgiven : ∀ a, db.isRwRoAccount a = true →
        InfoAsGiven a stateUpdate (db.infoOf a) (db'.infoOf a) := by
      intro a htracked
      by_cases ha : a = 0
      · subst ha
        rw [infoOf_zero, infoOf_zero]
        exact (infoAsGiven_zero_iff stateUpdate).mpr (hzero htracked)
      · exact (hinfo a ha htracked).mpr (hinfos a ha htracked)
    have hkept : ∀ a s, ¬ (Writable config db a s ∧
        ∃ diff ∈ stateUpdate, (slotWrite a s diff).isSome = true) →
        db'.storageRef a s = db.storageRef a s := fun a s h =>
      (hslot a s h).mpr fun hnone hmissing => hslots a hnone hmissing s h
    refine ⟨fun a s hw => ?_, fun a s hw => hkept a s fun h => hw h.1,
      fun a htracked => (hgiven a htracked).1, fun a htracked => (hgiven a htracked).2⟩
    cases hlast : lastWrite (slotWrite a s) stateUpdate with
    | some v =>
        rw [(hrecord a).storageRef_eq, readStorage_of_written hw hlast]
        rfl
    | none =>
        refine hkept a s fun h => ?_
        have hsome := (lastWrite_isSome_iff _ _).mpr h.2
        rw [hlast] at hsome
        simp at hsome

/-! ### A slot beside the one that is written -/

/-- An external layer that answers slots but fails on accounts. -/
def failingExt : DatabaseRef where
  basicRef _ := .error .transportError
  codeByHashRef _ := .ok default
  storageRef _ _ := .ok 7
  blockHashRef _ := .ok 0

def failingDb : KabuDB := { KabuDB.new with extDb := some failingExt }

def forcedConfig : MarketStateConfig := (default : MarketStateConfig).addForceInsert 1

/-- The diff writes slot 0 of a forced account. -/
def oneSlotEntry : BlockHistoryEntry Unit :=
  ⟨⟨1, 0, 1⟩, none, none, some [(∅ : GethStateUpdate).insert 1
    ⟨none, none, none, (∅ : AssocMap B256 B256).insert 0 1⟩]⟩

/-- Slot 3 is in no diff; it reads 7 before the update and 0 after it. -/
theorem other_slot_lost :
    failingDb.storageRef 1 3 = .ok 7 ∧
      (failingDb.applyUpdate oneSlotEntry forcedConfig).storageRef 1 3 = .ok 0 ∧
      ¬ ChangesTracked forcedConfig failingDb (failingDb.applyUpdate oneSlotEntry forcedConfig)
        (oneSlotEntry.stateUpdate.getD []) := by
  refine ⟨rfl, rfl, fun h => ?_⟩
  have hkept : (Except.ok 0 : Except KabuDBError U256) = .ok 7 := h.slot 1 3 (Or.inl rfl)
  exact absurd (Except.ok.inj hkept) (by decide)

end KabuDB

end Kabu
