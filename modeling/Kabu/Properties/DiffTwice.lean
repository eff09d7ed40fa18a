import Kabu.Entities.AccountUpdate

/-!
# Applying the update of a block twice

When the chain is reorganised, the update of the new head is applied while its parent's state is
put together, and once more afterwards, which is harmless only if the second time changes nothing.

It can change something, because the first time tracks what was not tracked before.  An account
that is forced but in no layer gets its record at the first diff that writes one of its slots.  The
balance and the nonce of that diff and of the diffs before it are skipped, since the account is not
tracked when they come; those of the later diffs are written.  The second time it is tracked from
the start, and gets what was skipped.

`applyUpdate_twice_iff` says that this is all: the second time changes nothing exactly when for
every such account the balance and the nonce it ends up with are the ones it has anyway.
-/

namespace Kabu

open KabuDBHelper LastWrite

namespace KabuDB

/-- What the first slot of a new account comes too late for would not change its info. -/
def NothingSkipped (config : MarketStateConfig) (db : KabuDB) (stateUpdate : GethStateUpdateVec)
    (a : Address) : Prop :=
  db.isRwRoAccount a = false → ∀ info, db.basicRef a = .ok (some info) →
    ∀ before diff after, stateUpdate = before ++ diff :: after →
      (∀ d ∈ before, ¬ WritesSlot config db a d) → WritesSlot config db a diff →
      info.given (lastWrite (balanceWrite a) stateUpdate) (lastWrite (nonceWrite a) stateUpdate) =
        info.given (lastWrite (balanceWrite a) after) (lastWrite (nonceWrite a) after)

section Twice

variable {config : MarketStateConfig} {db : KabuDB} {a : Address} {s : U256}
  {record : Option FastDbAccount} {stateUpdate : GethStateUpdateVec}

lemma recordSlot_twice (config : MarketStateConfig) (db : KabuDB) (a : Address) (s : U256)
    (record : Option FastDbAccount) (stateUpdate : GethStateUpdateVec) :
    recordSlot s (stateUpdate.foldl (db.accountStep config a)
      (stateUpdate.foldl (db.accountStep config a) record)) =
      recordSlot s (stateUpdate.foldl (db.accountStep config a) record) := by
  rw [recordSlot_foldl, recordSlot_foldl]
  by_cases hreach : config.isForceInsert a || (recordSlot s record).isSome ||
      (db.roSlot a s).isSome
  · rw [if_pos hreach, ← Option.or_assoc, Option.or_self, ite_self]
  · rw [if_neg hreach, if_neg hreach]

lemma foldl_twice_of_none (h : stateUpdate.foldl (db.accountStep config a) record = none) :
    stateUpdate.foldl (db.accountStep config a)
      (stateUpdate.foldl (db.accountStep config a) record) = none := by
  cases record with
  | none => rw [h, h]
  | some account =>
      have hhead : recordHead (some account) = some (account.accountState, account.info) := rfl
      have hafter : recordHead (stateUpdate.foldl (db.accountStep config a) (some account)) = _ :=
        recordHead_foldl hhead stateUpdate
      rw [h] at hafter
      simp [recordHead] at hafter

lemma readStorage_twice :
    readStorage (stateUpdate.foldl (db.accountStep config a)
      (stateUpdate.foldl (db.accountStep config a) record)) db.readOnlyRef db.extDb a s =
      readStorage (stateUpdate.foldl (db.accountStep config a) record) db.readOnlyRef db.extDb
        a s := by
  cases hrecord : stateUpdate.foldl (db.accountStep config a) record with
  | none =>
      have htwice := foldl_twice_of_none hrecord
      rw [hrecord] at htwice
      rw [htwice]
  | some account =>
      have hslot := recordSlot_twice config db a s record stateUpdate
      rw [hrecord] at hslot
      exact readStorage_foldl_some hslot _ _

lemma readBasic_twice_of_settled {state : AccountState} {info : AccountInfo}
    (hhead : recordHead (stateUpdate.foldl (db.accountStep config a) record) = some (state, info))
    (hsettled : info.given (lastWrite (balanceWrite a) stateUpdate)
      (lastWrite (nonceWrite a) stateUpdate) = info) :
    readBasic (stateUpdate.foldl (db.accountStep config a)
      (stateUpdate.foldl (db.accountStep config a) record)) db.readOnlyRef db.extDb a =
      readBasic (stateUpdate.foldl (db.accountStep config a) record) db.readOnlyRef db.extDb a := by
  rw [readBasic_of_head (recordHead_foldl hhead _), readBasic_of_head hhead, hsettled]

lemma given_settled (info : AccountInfo) (balance : Option U256) (nonce : Option ℕ) :
    (info.given balance nonce).given balance nonce = info.given balance nonce := by
  rw [given_given, Option.or_self, Option.or_self]

/-- The first pass settles every account that was tracked before it. -/
lemma readBasic_twice_of_tracked (htracked : db.isRwRoAccount a = true) :
    readBasic (stateUpdate.foldl (db.accountStep config a)
      (stateUpdate.foldl (db.accountStep config a) (db.accounts.lookup a)))
      db.readOnlyRef db.extDb a =
      readBasic (stateUpdate.foldl (db.accountStep config a) (db.accounts.lookup a))
        db.readOnlyRef db.extDb a := by
  cases hrecord : db.accounts.lookup a with
  | some account => exact readBasic_twice_of_settled (recordHead_foldl rfl _) (given_settled _ _ _)
  | none =>
      rcases changes_cases config db a stateUpdate with
        hall | ⟨before, diff, after, rfl, hbefore, hdiff⟩
      · have hnone := foldl_accountStep_of_not_changes hrecord hall
        rw [hnone, hnone]
      · exact readBasic_twice_of_settled
          (recordHead_foldl_of_tracked hrecord htracked hbefore hdiff after) (given_settled _ _ _)

section Untracked

variable (huntracked : db.isRwRoAccount a = false)

include huntracked

lemma changes_iff_of_untracked (diff : GethStateUpdate) :
    Changes config db a diff ↔ WritesSlot config db a diff := by
  unfold Changes
  rw [huntracked]
  simp

lemma lookup_of_untracked : db.accounts.lookup a = none := by
  rw [isRwRoAccount_eq] at huntracked
  simpa using (Bool.or_eq_false_iff.mp huntracked).1

/-- An account that is new is settled if the values that are skipped do not matter. -/
lemma readBasic_twice_iff_of_writes {before after : List GethStateUpdate} {diff : GethStateUpdate}
    (hbefore : ∀ d ∈ before, ¬ WritesSlot config db a d) (hdiff : WritesSlot config db a diff)
    {info : AccountInfo} (hinfo : unwrapOr none (getOrFetchBasic db.readOnlyRef db.extDb a) =
      some info) :
    readBasic ((before ++ diff :: after).foldl (db.accountStep config a)
      ((before ++ diff :: after).foldl (db.accountStep config a) none))
      db.readOnlyRef db.extDb a =
      readBasic ((before ++ diff :: after).foldl (db.accountStep config a) none)
        db.readOnlyRef db.extDb a ↔
      info.given (lastWrite (balanceWrite a) (before ++ diff :: after))
        (lastWrite (nonceWrite a) (before ++ diff :: after)) =
        info.given (lastWrite (balanceWrite a) after) (lastWrite (nonceWrite a) after) := by
  have hor : ∀ {B : Type} (f : GethStateUpdate → Option B),
      (lastWrite f (before ++ diff :: after)).or (lastWrite f after) =
        lastWrite f (before ++ diff :: after) := by
    intro B f
    rw [lastWrite_append_cons]
    cases lastWrite f after <;> simp
  have hhead := recordHead_foldl_of_untracked (lookup_of_untracked huntracked) huntracked
    (fun d hd => mt (changes_iff_of_untracked huntracked d).mp (hbefore d hd))
    ((changes_iff_of_untracked huntracked diff).mpr hdiff) after
  have hloaded : db.extLoaded a = .ofInfo info := by
    rw [extLoaded, hinfo]
    rfl
  have hexists : (FastDbAccount.ofInfo info).accountState ≠ .notExisting := by
    simp [FastDbAccount.ofInfo]
  rw [hloaded] at hhead
  rw [readBasic_of_head (recordHead_foldl hhead _), readBasic_of_head hhead, given_given, hor, hor,
    if_neg hexists, if_neg hexists, Option.some_inj]
  rfl

/-- A new account that exists nowhere stays unseen. -/
lemma readBasic_twice_of_missing
    (hinfo : unwrapOr none (getOrFetchBasic db.readOnlyRef db.extDb a) = none) :
    readBasic (stateUpdate.foldl (db.accountStep config a)
      (stateUpdate.foldl (db.accountStep config a) none)) db.readOnlyRef db.extDb a =
      readBasic (stateUpdate.foldl (db.accountStep config a) none) db.readOnlyRef db.extDb a := by
  rcases changes_cases config db a stateUpdate with
    hall | ⟨before, diff, after, rfl, hbefore, hdiff⟩
  · have hnone := foldl_accountStep_of_not_changes (lookup_of_untracked huntracked) hall
    rw [hnone, hnone]
  · have hhead := recordHead_foldl_of_untracked (lookup_of_untracked huntracked) huntracked hbefore
      hdiff after
    have hmissing : (db.extLoaded a).accountState = .notExisting := by
      rw [extLoaded, hinfo]
      rfl
    rw [readBasic_of_head (recordHead_foldl hhead _), readBasic_of_head hhead, if_pos hmissing,
      if_pos hmissing]

end Untracked

lemma readBasic_twice_iff (ha : a ≠ 0) :
    readBasic (stateUpdate.foldl (db.accountStep config a)
      (stateUpdate.foldl (db.accountStep config a) (db.accounts.lookup a)))
      db.readOnlyRef db.extDb a =
      readBasic (stateUpdate.foldl (db.accountStep config a) (db.accounts.lookup a))
        db.readOnlyRef db.extDb a ↔ NothingSkipped config db stateUpdate a := by
  cases htracked : db.isRwRoAccount a with
  | true =>
      refine iff_of_true (readBasic_twice_of_tracked htracked) fun huntracked => ?_
      exact absurd huntracked (by rw [htracked]; simp)
  | false =>
      have hlookup := lookup_of_untracked htracked
      have hbasic : db.basicRef a =
          .ok (unwrapOr none (getOrFetchBasic db.readOnlyRef db.extDb a)) := by
        rw [KabuDB.basicRef_eq _ ha, hlookup]
        rfl
      unfold NothingSkipped
      rw [hlookup, hbasic]
      constructor
      · rintro hsame - info hinfo before diff after rfl hbefore hdiff
        exact (readBasic_twice_iff_of_writes htracked hbefore hdiff
          (Except.ok.inj hinfo)).mp hsame
      · intro hskipped
        cases hinfo : unwrapOr none (getOrFetchBasic db.readOnlyRef db.extDb a) with
        | none => exact readBasic_twice_of_missing htracked hinfo
        | some info =>
            rcases changes_cases config db a stateUpdate with
              hall | ⟨before, diff, after, rfl, hbefore, hdiff⟩
            · have hnone := foldl_accountStep_of_not_changes hlookup hall
              rw [hnone, hnone]
            · have hwrites := (changes_iff_of_untracked htracked diff).mp hdiff
              have hslots : ∀ d ∈ before, ¬ WritesSlot config db a d := fun d hd =>
                mt (changes_iff_of_untracked htracked d).mpr (hbefore d hd)
              exact (readBasic_twice_iff_of_writes htracked hslots hwrites hinfo).mpr
                (hskipped htracked info (by rw [hinfo]) before diff after rfl hslots hwrites)

end Twice

lemma hasRecord_twice {Block : Type*} {entry : BlockHistoryEntry Block}
    {stateUpdate : GethStateUpdateVec} (hentry : entry.stateUpdate = some stateUpdate) (db : KabuDB)
    (config : MarketStateConfig) (a : Address) :
    HasRecord db a (stateUpdate.foldl (db.accountStep config a)
      (stateUpdate.foldl (db.accountStep config a) (db.accounts.lookup a)))
      ((db.applyUpdate entry config).applyUpdate entry config) := by
  have hfirst := hasRecord_applyUpdate hentry db config a
  have hsecond := hasRecord_applyUpdate hentry (db.applyUpdate entry config) config a
  rw [hfirst.accountStep_eq, hfirst.account] at hsecond
  exact ⟨hsecond.account, hsecond.ro.trans hfirst.ro, hsecond.ext.trans hfirst.ext⟩

/-- **Twice is as good as once** for what is read, exactly when no balance and no nonce that is
skipped the first time would change what is read. -/
theorem applyUpdate_twice_iff {Block : Type*} (db : KabuDB) (config : MarketStateConfig)
    (entry : BlockHistoryEntry Block) :
    ((∀ a, ((db.applyUpdate entry config).applyUpdate entry config).basicRef a =
        (db.applyUpdate entry config).basicRef a) ∧
      ∀ a s, ((db.applyUpdate entry config).applyUpdate entry config).storageRef a s =
        (db.applyUpdate entry config).storageRef a s) ↔
      ∀ stateUpdate, entry.stateUpdate = some stateUpdate →
        ∀ a, a ≠ 0 → NothingSkipped config db stateUpdate a := by
  cases hentry : entry.stateUpdate with
  | none =>
      have hsame : ∀ db' : KabuDB, db'.applyUpdate entry config = db' := by
        intro db'
        rw [applyUpdate, hentry]
      rw [hsame, hsame]
      exact iff_of_true ⟨fun _ => rfl, fun _ _ => rfl⟩ fun _ h => by simp at h
  | some stateUpdate =>
      have hbasic : ∀ a, a ≠ 0 → (((db.applyUpdate entry config).applyUpdate entry config).basicRef
          a = (db.applyUpdate entry config).basicRef a ↔
          NothingSkipped config db stateUpdate a) := by
        intro a ha
        rw [(hasRecord_twice hentry db config a).basicRef_eq ha,
          (hasRecord_applyUpdate hentry db config a).basicRef_eq ha, Except.ok.injEq]
        exact readBasic_twice_iff ha
      constructor
      · rintro ⟨hsame, -⟩ _ ⟨rfl⟩ a ha
        exact (hbasic a ha).mp (hsame a)
      · intro hskipped
        refine ⟨fun a => ?_, fun a s => ?_⟩
        · by_cases ha : a = 0
          · rw [ha, basicRef_zero, basicRef_zero]
          · exact (hbasic a ha).mpr (hskipped stateUpdate rfl a ha)
        · rw [(hasRecord_twice hentry db config a).storageRef_eq,
            (hasRecord_applyUpdate hentry db config a).storageRef_eq]
          exact readStorage_twice

/-! ### A forced account -/

/-- An external layer with one account. -/
def payeeExt : DatabaseRef where
  basicRef a := .ok (if a = 1 then some { (default : AccountInfo) with balance := 5 } else none)
  codeByHashRef _ := .ok default
  storageRef _ _ := .ok 0
  blockHashRef _ := .ok 0

/-- A diff that pays the account and writes one of its slots. -/
def payeeEntry : BlockHistoryEntry Unit :=
  ⟨⟨1, 0, 1⟩, none, none, some [(∅ : GethStateUpdate).insert 1
    ⟨some 7, none, none, (∅ : AssocMap B256 B256).insert 0 1⟩]⟩

/-- The account is forced and in no layer but the external one. -/
def payeeDb : KabuDB := { KabuDB.new with extDb := some payeeExt }

def payeeConfig : MarketStateConfig := (default : MarketStateConfig).addForceInsert 1

/-- The first pass writes the slot and skips the balance, and the second one does not. -/
theorem second_pass_pays :
    (payeeDb.applyUpdate payeeEntry payeeConfig).basicRef 1 =
        .ok (some { (default : AccountInfo) with balance := 5 }) ∧
      ((payeeDb.applyUpdate payeeEntry payeeConfig).applyUpdate payeeEntry payeeConfig).basicRef 1 =
        .ok (some { (default : AccountInfo) with balance := 7 }) :=
  ⟨rfl, rfl⟩

end KabuDB

end Kabu
