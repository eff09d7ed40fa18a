import Kabu.Entities.BlockHistoryState

/-!
# What the update of a block does to one account

An update treats the accounts one by one, and what it does to an account depends on the record the
writable layer has for it, on the layers below, and on nothing else.  `accountStep` is one diff as
it acts on that record, and `hasRecord_applyUpdate` says that the record after an update is what
the diffs make of it one after another.

The record is best seen in two parts.  Each slot of it follows the diffs on its own
(`recordSlot_foldl`): a slot that is tracked, or whose account is forced, gets the last value that
is written, and any other stays.  The rest of a record keeps its state and gets the last balance and
the last nonce (`recordHead_foldl`).  A record that does not exist yet is made at the first diff
that changes the account, and it matters by what: a balance or a nonce takes the record from the
read-only layer alone, a slot takes it from all the layers below (`recordHead_of_changes`).
-/

namespace Kabu

open KabuDBHelper LastWrite

/-- The balance that a diff gives an account, if it gives one. -/
def balanceWrite (a : Address) (diff : GethStateUpdate) : Option U256 :=
  (diff.lookup a).bind (·.balance)

def nonceWrite (a : Address) (diff : GethStateUpdate) : Option ℕ :=
  (diff.lookup a).bind (·.nonce)

/-- The info with the balance and the nonce that are given. -/
def AccountInfo.given (info : AccountInfo) (balance : Option U256) (nonce : Option ℕ) :
    AccountInfo :=
  { info with balance := balance.getD info.balance, nonce := nonce.getD info.nonce }

namespace KabuDB

/-! ## The layers below the record -/

section Below

variable (db : KabuDB) (a : Address)

/-- The account as the read-only layer has it. -/
def roAccount : Option FastDbAccount := db.readOnlyDb.bind (·.accounts.lookup a)

/-- The record that a change of the info makes. -/
def roLoaded : FastDbAccount := .ofOptionInfo (unwrapOr none (getBasic db.readOnlyRef a))

/-- The record that a write to a slot makes. -/
def extLoaded : FastDbAccount :=
  .ofOptionInfo (unwrapOr none (getOrFetchBasic db.readOnlyRef db.extDb a))

lemma isRwRoAccount_eq :
    db.isRwRoAccount a = ((db.accounts.lookup a).isSome || (db.roAccount a).isSome) := by
  unfold isRwRoAccount roAccount
  cases db.readOnlyDb <;> rfl

lemma isRwRoSlot_eq (s : U256) :
    db.isRwRoSlot a s = ((db.cachedSlot a s).isSome || (db.roSlot a s).isSome) := by
  unfold isRwRoSlot cachedSlot roSlot
  cases db.accounts.lookup a with
  | none =>
      cases db.readOnlyDb with
      | none => rfl
      | some ro => cases hro : ro.accounts.lookup a <;> simp [hro]
  | some account =>
      cases hslot : account.storage.lookup s with
      | some v => simp [hslot]
      | none =>
          cases db.readOnlyDb with
          | none => simp [hslot]
          | some ro => cases hro : ro.accounts.lookup a <;> simp [hslot, hro]

end Below

/-! ## One record -/

section Step

variable (config : MarketStateConfig) (db : KabuDB) (a : Address)

/-- A change of the info, as it acts on the record. -/
def infoStep (change : AccountInfo → AccountInfo) (record : Option FastDbAccount) :
    Option FastDbAccount :=
  if record.isSome || (db.roAccount a).isSome then
    some { record.getD (db.roLoaded a) with info := change (record.getD (db.roLoaded a)).info }
  else record

/-- A write to a slot, as it acts on the record. -/
def slotStep (record : Option FastDbAccount) (s v : U256) : Option FastDbAccount :=
  if config.isForceInsert a || (record.bind (·.storage.lookup s)).isSome ||
      (db.roSlot a s).isSome then
    some { record.getD (db.extLoaded a) with
      storage := (record.getD (db.extLoaded a)).storage.insert s v }
  else record

/-- The changes of the info that a diff brings. -/
def infosStep (accountState : GethAccountState) (record : Option FastDbAccount) :
    Option FastDbAccount :=
  let record := match accountState.balance with
    | some balance => db.infoStep a (fun info => { info with balance := balance }) record
    | none => record
  match accountState.nonce with
  | some nonce => db.infoStep a (fun info => { info with nonce := nonce }) record
  | none => record

/-- A diff, as it acts on the record. -/
def accountStep (record : Option FastDbAccount) (diff : GethStateUpdate) : Option FastDbAccount :=
  AssocMap.applyAt (fun accountState record =>
    accountState.storage.foldl (db.slotStep config a) (db.infosStep a accountState record))
    (diff.lookup a) record

/-- The database has the record, over the same layers. -/
structure HasRecord (record : Option FastDbAccount) (db' : KabuDB) : Prop where
  account : db'.accounts.lookup a = record
  ro : db'.readOnlyDb = db.readOnlyDb
  ext : db'.extDb = db.extDb

variable {config db a} {record : Option FastDbAccount} {db' : KabuDB} {b : Address}

lemma loadRoRwAccount_snd (db : KabuDB) (a : Address) :
    (db.loadRoRwAccount a).2 = (db.accounts.lookup a).getD (db.roLoaded a) := by
  unfold loadRoRwAccount
  cases db.accounts.lookup a <;> rfl

lemma loadRoRwExtAccount_snd (db : KabuDB) (a : Address) :
    (db.loadRoRwExtAccount a).2 = (db.accounts.lookup a).getD (db.extLoaded a) := by
  unfold loadRoRwExtAccount
  cases db.accounts.lookup a <;> rfl

lemma loadRoRwAccount_extDb (db : KabuDB) (a : Address) :
    (db.loadRoRwAccount a).1.extDb = db.extDb := by
  unfold loadRoRwAccount
  split <;> rfl

lemma loadRoRwExtAccount_extDb (db : KabuDB) (a : Address) :
    (db.loadRoRwExtAccount a).1.extDb = db.extDb := by
  unfold loadRoRwExtAccount
  split <;> rfl

namespace HasRecord

variable (h : HasRecord db a record db')

include h

lemma below (s : U256) : db'.roAccount b = db.roAccount b ∧
    db'.roSlot b s = db.roSlot b s ∧ db'.roLoaded b = db.roLoaded b ∧
      db'.extLoaded b = db.extLoaded b := by
  unfold roAccount roSlot roLoaded extLoaded readOnlyRef
  rw [h.ro, h.ext]
  exact ⟨rfl, rfl, rfl, rfl⟩

lemma updateTrackedInfo (change : AccountInfo → AccountInfo) :
    HasRecord db a (db.infoStep a change record) (db'.updateTrackedInfo a change) := by
  obtain ⟨hro, -, hloaded, -⟩ := h.below (b := a) 0
  unfold KabuDB.updateTrackedInfo infoStep
  rw [isRwRoAccount_eq, h.account, hro]
  split
  · dsimp only
    rw [loadRoRwAccount_snd, h.account, hloaded]
    refine ⟨?_, (loadRoRwAccount_readOnlyDb db' a).trans h.ro,
      (loadRoRwAccount_extDb db' a).trans h.ext⟩
    rw [setAccount_lookup, if_pos rfl]
  · exact h

lemma updateTrackedInfo_ne (hab : a ≠ b) (change : AccountInfo → AccountInfo) :
    HasRecord db a record (db'.updateTrackedInfo b change) := by
  unfold KabuDB.updateTrackedInfo
  split
  · refine ⟨?_, (loadRoRwAccount_readOnlyDb db' b).trans h.ro,
      (loadRoRwAccount_extDb db' b).trans h.ext⟩
    dsimp only
    rw [setAccount_lookup, if_neg hab, loadRoRwAccount_lookup_ne db' hab, h.account]
  · exact h

lemma insertAccountStorage (s v : U256) :
    HasRecord db a (some { record.getD (db.extLoaded a) with
      storage := (record.getD (db.extLoaded a)).storage.insert s v })
      (db'.insertAccountStorage a s v) := by
  obtain ⟨-, -, -, hloaded⟩ := h.below (b := a) 0
  refine ⟨?_, (loadRoRwExtAccount_readOnlyDb db' a).trans h.ro,
    (loadRoRwExtAccount_extDb db' a).trans h.ext⟩
  rw [insertAccountStorage_lookup, setAccount_lookup, if_pos rfl, loadRoRwExtAccount_snd,
    h.account, hloaded]

lemma insertAccountStorage_ne (hab : a ≠ b) (s v : U256) :
    HasRecord db a record (db'.insertAccountStorage b s v) := by
  refine ⟨?_, (loadRoRwExtAccount_readOnlyDb db' b).trans h.ro,
    (loadRoRwExtAccount_extDb db' b).trans h.ext⟩
  rw [insertAccountStorage_lookup, setAccount_lookup, if_neg hab, h.account]

lemma updateTrackedSlot (s v : U256) :
    HasRecord db a (db.slotStep config a record s v) (db'.updateTrackedSlot config a s v) := by
  obtain ⟨-, hslot, -, -⟩ := h.below (b := a) s
  have hwritten := h.insertAccountStorage s v
  have htracked : db'.isRwRoSlot a s =
      ((record.bind (·.storage.lookup s)).isSome || (db.roSlot a s).isSome) := by
    rw [isRwRoSlot_eq, cachedSlot, h.account, hslot]
  unfold KabuDB.updateTrackedSlot slotStep
  rw [htracked]
  cases config.isForceInsert a with
  | true => exact hwritten
  | false =>
      simp only [Bool.false_eq_true, if_false, Bool.false_or]
      split
      · exact hwritten
      · exact h

lemma updateTrackedSlot_ne (hab : a ≠ b) (s v : U256) :
    HasRecord db a record (db'.updateTrackedSlot config b s v) := by
  unfold KabuDB.updateTrackedSlot
  split
  · exact h.insertAccountStorage_ne hab s v
  · split
    · exact h.insertAccountStorage_ne hab s v
    · exact h

lemma slots (storage : AssocMap U256 U256) :
    HasRecord db a (storage.foldl (db.slotStep config a) record)
      (storage.foldl (KabuDB.updateTrackedSlot config a) db') :=
  AssocMap.foldl_rel (db.slotStep config a) (KabuDB.updateTrackedSlot config a)
    (fun _ _ s v h => h.updateTrackedSlot s v) storage h

lemma updateAccount (accountState : GethAccountState) :
    HasRecord db a (accountState.storage.foldl (db.slotStep config a)
      (db.infosStep a accountState record)) (db'.updateAccount config a accountState) := by
  unfold KabuDB.updateAccount infosStep
  cases accountState.balance <;> cases accountState.nonce
  · exact h.slots _
  · exact (h.updateTrackedInfo _).slots _
  · exact (h.updateTrackedInfo _).slots _
  · exact ((h.updateTrackedInfo _).updateTrackedInfo _).slots _

lemma updateAccount_ne (hab : a ≠ b) (accountState : GethAccountState) :
    HasRecord db a record (db'.updateAccount config b accountState) := by
  have hslots : ∀ {db₁ : KabuDB}, HasRecord db a record db₁ →
      HasRecord db a record (accountState.storage.foldl (KabuDB.updateTrackedSlot config b) db₁) :=
    fun h₁ => AssocMap.foldl_invariant _ (fun _ s v h => h.updateTrackedSlot_ne hab s v) _ h₁
  unfold KabuDB.updateAccount
  cases accountState.balance <;> cases accountState.nonce
  · exact hslots h
  · exact hslots (h.updateTrackedInfo_ne hab _)
  · exact hslots (h.updateTrackedInfo_ne hab _)
  · exact hslots ((h.updateTrackedInfo_ne hab _).updateTrackedInfo_ne hab _)

lemma applyDiff (diff : GethStateUpdate) :
    HasRecord db a (db.accountStep config a record diff) (db'.applyDiff config diff) :=
  AssocMap.foldl_at (KabuDB.updateAccount config) a _ (P := HasRecord db a)
    (fun _ accountState _ h => h.updateAccount accountState)
    (fun _ _ accountState _ hab h => h.updateAccount_ne hab.symm accountState) diff h

end HasRecord

lemma HasRecord.accountStep_eq (h : HasRecord db a record db') :
    db'.accountStep config a = db.accountStep config a := by
  unfold accountStep infosStep infoStep slotStep roSlot roAccount roLoaded extLoaded readOnlyRef
  rw [h.ro, h.ext]

/-- **Account by account.**  The record after an update is what the diffs make of it. -/
lemma hasRecord_applyUpdate {Block : Type*} {entry : BlockHistoryEntry Block}
    {stateUpdate : GethStateUpdateVec} (hentry : entry.stateUpdate = some stateUpdate) (db : KabuDB)
    (config : MarketStateConfig) (a : Address) :
    HasRecord db a (stateUpdate.foldl (db.accountStep config a) (db.accounts.lookup a))
      (db.applyUpdate entry config) := by
  have hdiffs : ∀ (diffs : List GethStateUpdate) (record : Option FastDbAccount) (db' : KabuDB),
      HasRecord db a record db' →
      HasRecord db a (diffs.foldl (db.accountStep config a) record)
        (diffs.foldl (KabuDB.applyDiff config) db') := by
    intro diffs
    induction diffs with
    | nil => exact fun record db' h => h
    | cons diff diffs ih => exact fun record db' h => ih _ _ (h.applyDiff diff)
  unfold KabuDB.applyUpdate
  rw [hentry]
  exact hdiffs stateUpdate _ db ⟨rfl, rfl, rfl⟩

end Step

/-! ## The slots of a record -/

section Slots

variable {config : MarketStateConfig} {db : KabuDB} {a : Address} {s : U256}

/-- What a record has in a slot. -/
def recordSlot (s : U256) (record : Option FastDbAccount) : Option U256 :=
  record.bind (·.storage.lookup s)

@[simp] lemma recordSlot_none (s : U256) : recordSlot s none = none := rfl

@[simp] lemma recordSlot_some (s : U256) (account : FastDbAccount) :
    recordSlot s (some account) = account.storage.lookup s := rfl

lemma storage_roLoaded (db : KabuDB) (a : Address) : (db.roLoaded a).storage = ∅ := by
  unfold roLoaded FastDbAccount.ofOptionInfo
  split <;> rfl

lemma storage_extLoaded (db : KabuDB) (a : Address) : (db.extLoaded a).storage = ∅ := by
  unfold extLoaded FastDbAccount.ofOptionInfo
  split <;> rfl

lemma recordSlot_infoStep (change : AccountInfo → AccountInfo) (record : Option FastDbAccount) :
    recordSlot s (db.infoStep a change record) = recordSlot s record := by
  unfold infoStep
  split
  · cases record with
    | none =>
        rw [Option.getD_none, recordSlot_some, storage_roLoaded]
        rfl
    | some account => rfl
  · rfl

lemma recordSlot_infosStep (accountState : GethAccountState) (record : Option FastDbAccount) :
    recordSlot s (db.infosStep a accountState record) = recordSlot s record := by
  unfold infosStep
  cases accountState.balance <;> cases accountState.nonce
  · rfl
  · exact recordSlot_infoStep _ _
  · exact recordSlot_infoStep _ _
  · exact (recordSlot_infoStep _ _).trans (recordSlot_infoStep _ _)

/-- A write reaches the slot if the account is forced, or the slot is there already. -/
def slotAfter (config : MarketStateConfig) (db : KabuDB) (a : Address) (s v : U256)
    (cached : Option U256) : Option U256 :=
  if config.isForceInsert a || cached.isSome || (db.roSlot a s).isSome then some v else cached

variable (record : Option FastDbAccount)

lemma recordSlot_slotStep (v : U256) :
    recordSlot s (db.slotStep config a record s v) =
      slotAfter config db a s v (recordSlot s record) := by
  unfold slotStep slotAfter recordSlot
  split
  · exact AList.lookup_insert _
  · rfl

lemma recordSlot_slotStep_ne {t : U256} (hst : s ≠ t) (v : U256) :
    recordSlot s (db.slotStep config a record t v) = recordSlot s record := by
  unfold slotStep
  split
  · rw [recordSlot_some]
    dsimp only
    rw [AList.lookup_insert_ne hst]
    cases record with
    | none =>
        rw [Option.getD_none, storage_extLoaded]
        rfl
    | some account => rfl
  · rfl

lemma recordSlot_accountStep (diff : GethStateUpdate) :
    recordSlot s (db.accountStep config a record diff) =
      AssocMap.applyAt (slotAfter config db a s) (slotWrite a s diff) (recordSlot s record) := by
  unfold accountStep slotWrite
  cases diff.lookup a with
  | none => rfl
  | some accountState =>
      rw [AssocMap.applyAt_some, Option.bind_some, ← recordSlot_infosStep accountState record]
      exact AssocMap.foldl_at (db.slotStep config a) s (slotAfter config db a s)
        (P := fun cached record => recordSlot s record = cached)
        (fun record v cached h => by rw [recordSlot_slotStep, h])
        (fun record t v cached hts h => by rw [recordSlot_slotStep_ne record hts.symm, h])
        accountState.storage rfl

/-- **Each slot by itself.**  A slot that is tracked, or whose account is forced, has the last value
written to it, and any other is as it was. -/
lemma recordSlot_foldl (diffs : List GethStateUpdate) :
    recordSlot s (diffs.foldl (db.accountStep config a) record) =
      if config.isForceInsert a || (recordSlot s record).isSome || (db.roSlot a s).isSome then
        (lastWrite (slotWrite a s) diffs).or (recordSlot s record)
      else recordSlot s record := by
  induction diffs using List.reverseRecOn with
  | nil => simp
  | append_singleton diffs diff ih =>
      rw [List.foldl_append, List.foldl_cons, List.foldl_nil, recordSlot_accountStep, ih,
        lastWrite_append_singleton]
      by_cases hreach : config.isForceInsert a || (recordSlot s record).isSome ||
          (db.roSlot a s).isSome
      · rw [if_pos hreach, if_pos hreach]
        cases slotWrite a s diff with
        | none => rw [AssocMap.applyAt_none, Option.none_or]
        | some v =>
            have hstill : config.isForceInsert a || ((lastWrite (slotWrite a s) diffs).or
                (recordSlot s record)).isSome || (db.roSlot a s).isSome := by
              simp only [Bool.or_eq_true, Option.isSome_or] at hreach ⊢
              rcases hreach with (hforced | hcached) | hro
              · exact Or.inl (Or.inl hforced)
              · exact Or.inl (Or.inr (Or.inr hcached))
              · exact Or.inr hro
            rw [AssocMap.applyAt_some, slotAfter, if_pos hstill]
            rfl
      · rw [if_neg hreach, if_neg hreach]
        cases slotWrite a s diff with
        | none => rfl
        | some v => exact if_neg hreach

end Slots

/-! ## The rest of a record -/

variable {info : AccountInfo} {state : AccountState}

section Head

variable {config : MarketStateConfig} {db : KabuDB} {a : Address}

/-- The state and the info of a record. -/
def recordHead (record : Option FastDbAccount) : Option (AccountState × AccountInfo) :=
  record.map fun account => (account.accountState, account.info)

lemma given_given (info : AccountInfo) (balance balance' : Option U256) (nonce nonce' : Option ℕ) :
    (info.given balance nonce).given balance' nonce' =
      info.given (balance'.or balance) (nonce'.or nonce) := by
  unfold AccountInfo.given
  rw [Option.getD_or, Option.getD_or]

variable {record : Option FastDbAccount}

lemma recordHead_slots {head : AccountState × AccountInfo} (h : recordHead record = some head)
    (storage : AssocMap U256 U256) :
    recordHead (storage.foldl (db.slotStep config a) record) = some head := by
  refine AssocMap.foldl_invariant (db.slotStep config a)
    (P := fun record => recordHead record = some head) (fun record s v h => ?_) storage h
  obtain ⟨account, rfl, hhead⟩ := Option.map_eq_some_iff.mp h
  unfold slotStep
  split
  · exact congrArg some hhead
  · exact h

lemma recordHead_infosStep (account : FastDbAccount) (accountState : GethAccountState) :
    recordHead (db.infosStep a accountState (some account)) =
      some (account.accountState,
        account.info.given accountState.balance accountState.nonce) := by
  unfold infosStep
  cases accountState.balance <;> cases accountState.nonce <;> rfl

lemma recordHead_accountStep (h : recordHead record = some (state, info)) (diff : GethStateUpdate) :
    recordHead (db.accountStep config a record diff) =
      some (state, info.given (balanceWrite a diff) (nonceWrite a diff)) := by
  unfold accountStep balanceWrite nonceWrite
  cases diff.lookup a with
  | none => exact h
  | some accountState =>
      obtain ⟨account, rfl, hhead⟩ := Option.map_eq_some_iff.mp h
      obtain ⟨rfl, rfl⟩ := Prod.mk.inj hhead
      exact recordHead_slots (recordHead_infosStep account accountState) accountState.storage

/-- A record that is there keeps its state and gets the last balance and the last nonce. -/
lemma recordHead_foldl (h : recordHead record = some (state, info)) (diffs : List GethStateUpdate) :
    recordHead (diffs.foldl (db.accountStep config a) record) =
      some (state, info.given (lastWrite (balanceWrite a) diffs)
        (lastWrite (nonceWrite a) diffs)) := by
  induction diffs using List.reverseRecOn with
  | nil => exact h
  | append_singleton diffs diff ih =>
      rw [List.foldl_append, List.foldl_cons, List.foldl_nil, recordHead_accountStep ih,
        given_given, lastWrite_append_singleton, lastWrite_append_singleton]

/-! ## The first change of an account -/

/-- The diff gives the account a balance or a nonce. -/
def GivesInfo (a : Address) (diff : GethStateUpdate) : Prop :=
  (balanceWrite a diff).isSome = true ∨ (nonceWrite a diff).isSome = true

/-- The diff writes a slot of the account that is tracked, or any slot of a forced account. -/
def WritesSlot (config : MarketStateConfig) (db : KabuDB) (a : Address) (diff : GethStateUpdate) :
    Prop :=
  ∃ s, (slotWrite a s diff).isSome = true ∧
    (config.isForceInsert a = true ∨ db.isRwRoSlot a s = true)

/-- The diff changes the record of the account. -/
def Changes (config : MarketStateConfig) (db : KabuDB) (a : Address) (diff : GethStateUpdate) :
    Prop :=
  db.isRwRoAccount a = true ∧ GivesInfo a diff ∨ WritesSlot config db a diff

/-- A slot that a diff writes into a missing record is one it may write. -/
lemma writesSlot_of_recordSlot (hnone : db.accounts.lookup a = none) {diff : GethStateUpdate}
    {s : U256} (h : (recordSlot s (db.accountStep config a none diff)).isSome = true) :
    WritesSlot config db a diff := by
  rw [recordSlot_accountStep, recordSlot_none] at h
  cases hwrite : slotWrite a s diff with
  | none =>
      rw [hwrite] at h
      simp at h
  | some v =>
      rw [hwrite, AssocMap.applyAt_some, slotAfter] at h
      refine ⟨s, by rw [hwrite]; rfl, ?_⟩
      rw [isRwRoSlot_eq, KabuDB.cachedSlot, hnone]
      split at h
      · rename_i hreach
        simpa using hreach
      · simp at h

lemma recordSlot_of_writesSlot (hnone : db.accounts.lookup a = none) {diff : GethStateUpdate}
    (h : WritesSlot config db a diff) (record : Option FastDbAccount) :
    ∃ s, (recordSlot s (db.accountStep config a record diff)).isSome = true := by
  obtain ⟨s, hwrite, hreach⟩ := h
  obtain ⟨v, hv⟩ := Option.isSome_iff_exists.mp hwrite
  rw [isRwRoSlot_eq, KabuDB.cachedSlot, hnone] at hreach
  have hreach' : config.isForceInsert a || (recordSlot s record).isSome ||
      (db.roSlot a s).isSome := by
    revert hreach
    cases config.isForceInsert a <;> cases (recordSlot s record).isSome <;> simp
  refine ⟨s, ?_⟩
  rw [recordSlot_accountStep, hv, AssocMap.applyAt_some, slotAfter, if_pos hreach']
  rfl

/-- Writes to slots leave a missing record missing, or make it from the layers below and put
something in it. -/
lemma slots_of_none (storage : AssocMap U256 U256) :
    storage.foldl (db.slotStep config a) none = none ∨
      recordHead (storage.foldl (db.slotStep config a) none) = recordHead (some (db.extLoaded a)) ∧
        ∃ s, (recordSlot s (storage.foldl (db.slotStep config a) none)).isSome = true := by
  refine AssocMap.foldl_invariant (db.slotStep config a) (P := fun record => record = none ∨
    recordHead record = recordHead (some (db.extLoaded a)) ∧
      ∃ s, (recordSlot s record).isSome = true) (fun record t v h => ?_) storage (Or.inl rfl)
  unfold slotStep
  split
  · refine Or.inr ⟨?_, t, ?_⟩
    · rcases h with rfl | ⟨hhead, -⟩
      · rfl
      · obtain ⟨account, rfl, hsame⟩ := Option.map_eq_some_iff.mp hhead
        exact congrArg some hsame
    · rw [recordSlot_some]
      dsimp only
      rw [AList.lookup_insert]
      rfl
  · exact h

/-- What a diff says about the info reaches a missing record only through the read-only layer. -/
lemma infosStep_none (accountState : GethAccountState) :
    db.infosStep a accountState none =
      if (db.roAccount a).isSome && (accountState.balance.isSome || accountState.nonce.isSome) then
        some { db.roLoaded a with
          info := (db.roLoaded a).info.given accountState.balance accountState.nonce }
      else none := by
  unfold infosStep infoStep
  cases (db.roAccount a).isSome <;> cases accountState.balance <;> cases accountState.nonce <;> rfl

/-- The record that the first change makes. -/
def firstRecord (db : KabuDB) (a : Address) (diff : GethStateUpdate) : AccountState × AccountInfo :=
  if db.isRwRoAccount a && ((balanceWrite a diff).isSome || (nonceWrite a diff).isSome) then
    ((db.roLoaded a).accountState, (db.roLoaded a).info)
  else ((db.extLoaded a).accountState, (db.extLoaded a).info)

section Missing

variable (hnone : db.accounts.lookup a = none) {diff : GethStateUpdate}

include hnone

lemma accountStep_of_not_changes (h : ¬ Changes config db a diff) :
    db.accountStep config a none diff = none := by
  have hslot := fun s => mt (writesSlot_of_recordSlot (s := s) hnone) fun hw => h (Or.inr hw)
  unfold Changes GivesInfo balanceWrite nonceWrite at h
  rw [isRwRoAccount_eq, hnone] at h
  unfold accountStep at hslot ⊢
  cases hstate : diff.lookup a with
  | none => rfl
  | some accountState =>
      rw [hstate] at h hslot
      have hinfos : db.infosStep a accountState none = none := by
        rw [infosStep_none]
        refine if_neg fun hgiven => h (Or.inl ?_)
        simpa using hgiven
      simp only [AssocMap.applyAt_some, hinfos] at hslot ⊢
      rcases slots_of_none accountState.storage with hmissing | ⟨-, s, hs⟩
      · exact hmissing
      · exact absurd hs (hslot s)

/-- **The first change** makes the record, and gives it the balance and the nonce of the diff if
the account was tracked before. -/
lemma recordHead_of_changes (h : Changes config db a diff) :
    recordHead (db.accountStep config a none diff) =
      some ((db.firstRecord a diff).1, if db.isRwRoAccount a then
        (db.firstRecord a diff).2.given (balanceWrite a diff) (nonceWrite a diff)
        else (db.firstRecord a diff).2) := by
  have hwrites := fun hw : WritesSlot config db a diff => recordSlot_of_writesSlot hnone hw none
  have htracked : db.isRwRoAccount a = (db.roAccount a).isSome := by
    rw [isRwRoAccount_eq, hnone]
    rfl
  unfold Changes GivesInfo at h
  unfold firstRecord
  rw [htracked] at h ⊢
  cases hstate : diff.lookup a with
  | none =>
      have hbalance : balanceWrite a diff = none := by rw [balanceWrite, hstate]; rfl
      have hnonce : nonceWrite a diff = none := by rw [nonceWrite, hstate]; rfl
      rw [hbalance, hnonce] at h
      obtain ⟨s, hs, -⟩ := h.resolve_left (by simp)
      rw [slotWrite, hstate] at hs
      simp at hs
  | some accountState =>
      have hbalance : balanceWrite a diff = accountState.balance := by rw [balanceWrite, hstate]; rfl
      have hnonce : nonceWrite a diff = accountState.nonce := by rw [nonceWrite, hstate]; rfl
      have hstep : db.accountStep config a none diff = accountState.storage.foldl
          (db.slotStep config a) (db.infosStep a accountState none) := by
        rw [accountStep, hstate]
        rfl
      rw [hbalance, hnonce] at h ⊢
      rw [hstep] at hwrites ⊢
      rw [infosStep_none] at hwrites ⊢
      by_cases hgiven : (db.roAccount a).isSome &&
          (accountState.balance.isSome || accountState.nonce.isSome)
      · have hro : (db.roAccount a).isSome = true := (Bool.and_eq_true_iff.mp hgiven).1
        rw [if_pos hgiven, if_pos hgiven, if_pos hro]
        exact recordHead_slots rfl accountState.storage
      · rw [if_neg hgiven] at hwrites ⊢
        rw [if_neg hgiven]
        rcases slots_of_none accountState.storage with hmissing | ⟨hhead, -⟩
        · -- then no slot is written, and the change would have to be one of the info
          refine absurd h (not_or.mpr ⟨fun hinfo => hgiven ?_, fun hslot => ?_⟩)
          · simpa using hinfo
          · obtain ⟨s, hs⟩ := hwrites hslot
            rw [hmissing] at hs
            simp at hs
        · rw [hhead]
          split
          · rename_i hro
            have hboth : accountState.balance = none ∧ accountState.nonce = none := by
              simpa [hro] using hgiven
            rw [hboth.1, hboth.2]
            rfl
          · rfl

lemma foldl_accountStep_of_not_changes {diffs : List GethStateUpdate}
    (h : ∀ diff ∈ diffs, ¬ Changes config db a diff) :
    diffs.foldl (db.accountStep config a) none = none := by
  induction diffs with
  | nil => rfl
  | cons diff diffs ih =>
      obtain ⟨hdiff, hdiffs⟩ := List.forall_mem_cons.mp h
      rw [List.foldl_cons, accountStep_of_not_changes hnone hdiff]
      exact ih hdiffs

variable {before : List GethStateUpdate}

/-- The record that is made at the first change, after all the diffs. -/
lemma recordHead_foldl_of_changes (hbefore : ∀ d ∈ before, ¬ Changes config db a d)
    (hdiff : Changes config db a diff) (after : List GethStateUpdate) :
    recordHead ((before ++ diff :: after).foldl (db.accountStep config a) none) =
      some ((db.firstRecord a diff).1, (if db.isRwRoAccount a then
        (db.firstRecord a diff).2.given (balanceWrite a diff) (nonceWrite a diff)
        else (db.firstRecord a diff).2).given (lastWrite (balanceWrite a) after)
          (lastWrite (nonceWrite a) after)) := by
  rw [List.foldl_append, foldl_accountStep_of_not_changes hnone hbefore, List.foldl_cons]
  exact recordHead_foldl (recordHead_of_changes hnone hdiff) after

/-- If the account is tracked, no balance and no nonce comes before the first change. -/
lemma recordHead_foldl_of_tracked (htracked : db.isRwRoAccount a = true)
    (hbefore : ∀ d ∈ before, ¬ Changes config db a d) (hdiff : Changes config db a diff)
    (after : List GethStateUpdate) :
    recordHead ((before ++ diff :: after).foldl (db.accountStep config a) none) =
      some ((db.firstRecord a diff).1, (db.firstRecord a diff).2.given
        (lastWrite (balanceWrite a) (before ++ diff :: after))
        (lastWrite (nonceWrite a) (before ++ diff :: after))) := by
  have hinfo : ∀ d ∈ before, ¬ GivesInfo a d := fun d hd hgives =>
    hbefore d hd (Or.inl ⟨htracked, hgives⟩)
  have hbalance : lastWrite (balanceWrite a) before = none :=
    (lastWrite_eq_none_iff _ _).mpr fun d hd => by
      simpa using (not_or.mp (hinfo d hd)).1
  have hnonce : lastWrite (nonceWrite a) before = none :=
    (lastWrite_eq_none_iff _ _).mpr fun d hd => by
      simpa using (not_or.mp (hinfo d hd)).2
  rw [recordHead_foldl_of_changes hnone hbefore hdiff after, if_pos htracked, given_given,
    lastWrite_append_cons, lastWrite_append_cons, hbalance, hnonce, Option.or_none, Option.or_none]

/-- If it is not, the record is made by a slot, and what came until then is skipped. -/
lemma recordHead_foldl_of_untracked (huntracked : db.isRwRoAccount a = false)
    (hbefore : ∀ d ∈ before, ¬ Changes config db a d) (hdiff : Changes config db a diff)
    (after : List GethStateUpdate) :
    recordHead ((before ++ diff :: after).foldl (db.accountStep config a) none) =
      some ((db.extLoaded a).accountState, (db.extLoaded a).info.given
        (lastWrite (balanceWrite a) after) (lastWrite (nonceWrite a) after)) := by
  rw [recordHead_foldl_of_changes hnone hbefore hdiff after, firstRecord, huntracked]
  rfl

omit hnone in
/-- The diffs change nothing, or there is a first change. -/
lemma changes_cases (config : MarketStateConfig) (db : KabuDB) (a : Address)
    (diffs : List GethStateUpdate) :
    (∀ diff ∈ diffs, ¬ Changes config db a diff) ∨
      ∃ before diff after, diffs = before ++ diff :: after ∧
        (∀ d ∈ before, ¬ Changes config db a d) ∧ Changes config db a diff := by
  induction diffs with
  | nil => exact Or.inl (by simp)
  | cons diff diffs ih =>
      by_cases hdiff : Changes config db a diff
      · exact Or.inr ⟨[], diff, diffs, rfl, by simp, hdiff⟩
      · rcases ih with hall | ⟨before, first, after, rfl, hbefore, hfirst⟩
        · exact Or.inl (List.forall_mem_cons.mpr ⟨hdiff, hall⟩)
        · exact Or.inr ⟨diff :: before, first, after, rfl,
            List.forall_mem_cons.mpr ⟨hdiff, hbefore⟩, hfirst⟩

end Missing

end Head

/-! ## What is read -/

section Reads

variable {db db' : KabuDB} {a : Address} {record : Option FastDbAccount} {s : U256}

lemma HasRecord.storageRef_eq (h : HasRecord db a record db') (s : U256) :
    db'.storageRef a s = readStorage record db.readOnlyRef db.extDb a s := by
  rw [KabuDB.storageRef_eq, h.account, readOnlyRef, h.ro, h.ext, ← readOnlyRef]

lemma HasRecord.basicRef_eq (h : HasRecord db a record db') (ha : a ≠ 0) :
    db'.basicRef a = .ok (readBasic record db.readOnlyRef db.extDb a) := by
  rw [KabuDB.basicRef_eq _ ha, h.account, readOnlyRef, h.ro, h.ext, ← readOnlyRef]

lemma readStorage_of_slot {v : U256} (h : recordSlot s record = some v)
    (ro ext : Option DatabaseRef) : readStorage record ro ext a s = .ok v := by
  obtain ⟨account, rfl, hslot⟩ := Option.bind_eq_some_iff.mp h
  simp only [readStorage, hslot]

lemma readStorage_of_head (hhead : recordHead record = some (state, info))
    (hslot : recordSlot s record = none) (ro ext : Option DatabaseRef) :
    readStorage record ro ext a s =
      if state.hidesStorage then .ok 0 else getOrFetchStorage ro ext a s := by
  obtain ⟨account, rfl, hsame⟩ := Option.map_eq_some_iff.mp hhead
  obtain ⟨rfl, -⟩ := Prod.mk.inj hsame
  rw [recordSlot_some] at hslot
  simp only [readStorage, hslot]

lemma readStorage_foldl_some {config : MarketStateConfig} {account : FastDbAccount}
    {diffs : List GethStateUpdate}
    (hslot : recordSlot s (diffs.foldl (db.accountStep config a) (some account)) =
      recordSlot s (some account)) (ro ext : Option DatabaseRef) :
    readStorage (diffs.foldl (db.accountStep config a) (some account)) ro ext a s =
      readStorage (some account) ro ext a s := by
  have hhead : recordHead (some account) = some (account.accountState, account.info) := rfl
  cases hcached : recordSlot s (some account) with
  | some v =>
      rw [hcached] at hslot
      rw [readStorage_of_slot hslot, readStorage_of_slot hcached]
  | none =>
      rw [hcached] at hslot
      rw [readStorage_of_head (recordHead_foldl hhead _) hslot, readStorage_of_head hhead hcached]

lemma readBasic_of_head (hhead : recordHead record = some (state, info))
    (ro ext : Option DatabaseRef) :
    readBasic record ro ext a = if state = .notExisting then none else some info := by
  obtain ⟨account, rfl, hsame⟩ := Option.map_eq_some_iff.mp hhead
  obtain ⟨rfl, rfl⟩ := Prod.mk.inj hsame
  split
  · exact FastDbAccount.info?_of_eq ‹_›
  · exact FastDbAccount.info?_of_ne ‹_›

end Reads

end KabuDB

end Kabu
