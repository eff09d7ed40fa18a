import Kabu.Evm.Merge
import Kabu.Evm.Reads
import Kabu.Evm.TraceDiff

/-!
# Tracked slots

A slot is tracked when the writable or the read-only layer has it.  The market depends on what
it has loaded staying that way: a tracked slot is served from memory, and the updates of blocks
are written to it.

`Holds db a s v` says that the slot is tracked and reads as `v`.  It asks for a little more than
that.  An account that is brought into the writable layer comes with what the layers below know
about it, and if they say that it does not exist, its slots are hidden; so the read-only layer
must not know the account as missing.  With that, the fact survives everything that is done to
the database: loading an account, writing a slot, a change of its info, a change set of touched
accounts, and the merge.
-/

namespace Kabu

open KabuDBHelper

namespace KabuDB

/-! ## What is tracked -/

/-- The slot as the read-only layer has it. -/
def roSlot (db : KabuDB) (a : Address) (s : U256) : Option U256 :=
  db.readOnlyDb.bind fun ro => (ro.accounts.lookup a).bind (·.storage.lookup s)

/-- A slot of an account of the writable layer, over what is found below it. -/
def slotOver (account : Option FastDbAccount) (below : Option U256) (s : U256) : Option U256 :=
  match account with
  | some account =>
      match account.storage.lookup s with
      | some v => some v
      | none => if account.accountState.hidesStorage then none else below
  | none => below

/-- The tracked slot that is read. -/
def trackedSlot (db : KabuDB) (a : Address) (s : U256) : Option U256 :=
  slotOver (db.accounts.lookup a) (db.roSlot a s) s

/-- The read-only layer does not know the account as missing. -/
def RoLive (db : KabuDB) (a : Address) : Prop :=
  ∀ ro account, db.readOnlyDb = some ro → ro.accounts.lookup a = some account →
    account.accountState ≠ .notExisting

/-- The slot is tracked with this value, and stays so when its account is loaded. -/
structure Holds (db : KabuDB) (a : Address) (s v : U256) : Prop where
  slot : db.trackedSlot a s = some v
  live : db.RoLive a

lemma roSlot_eq_some_iff (db : KabuDB) (a : Address) (s v : U256) :
    db.roSlot a s = some v ↔ ∃ ro account, db.readOnlyDb = some ro ∧
      ro.accounts.lookup a = some account ∧ account.storage.lookup s = some v := by
  unfold roSlot
  simp only [Option.bind_eq_some_iff]
  constructor
  · rintro ⟨ro, hro, account, hacc, hs⟩
    exact ⟨ro, account, hro, hacc, hs⟩
  · rintro ⟨ro, account, hro, hacc, hs⟩
    exact ⟨ro, hro, account, hacc, hs⟩

lemma getOrFetchStorage_of_roSlot {db : KabuDB} {a : Address} {s v : U256}
    (h : db.roSlot a s = some v) : getOrFetchStorage db.readOnlyRef db.extDb a s = .ok v := by
  obtain ⟨ro, account, hro, hacc, hs⟩ := (roSlot_eq_some_iff db a s v).mp h
  have hread : ro.toRef.storageRef a s = .ok v := by
    have hlayer : ro.toRef.storageRef a s = _ := ro.storageRef_eq a s
    rw [hlayer, hacc]
    simp only [readStorage, hs]
  rw [readOnlyRef, hro]
  show orElseOf (ro.toRef.storageRef a s) _ = _
  rw [hread, orElseOf_ok]

namespace Holds

variable {db : KabuDB} {a b : Address} {s t v x : U256}

lemma storageRef_eq (h : Holds db a s v) : db.storageRef a s = .ok v := by
  have hslot := h.slot
  unfold trackedSlot slotOver at hslot
  rw [KabuDB.storageRef_eq]
  unfold readStorage
  cases hacc : db.accounts.lookup a with
  | none =>
      rw [hacc] at hslot
      exact getOrFetchStorage_of_roSlot hslot
  | some account =>
      rw [hacc] at hslot
      dsimp only at hslot ⊢
      cases hs : account.storage.lookup s with
      | some w =>
          rw [hs] at hslot
          rw [Option.some.inj hslot]
      | none =>
          rw [hs] at hslot
          dsimp only at hslot ⊢
          by_cases hhides : account.accountState.hidesStorage = true
          · rw [if_pos hhides] at hslot
            simp at hslot
          · rw [if_neg hhides] at hslot ⊢
            exact getOrFetchStorage_of_roSlot hslot

lemma isRwRoSlot_of_roSlot (h : db.roSlot a s = some v) : db.isRwRoSlot a s = true := by
  obtain ⟨ro, account, hro, hacc, hs⟩ := (roSlot_eq_some_iff db a s v).mp h
  unfold isRwRoSlot
  simp [hro, hacc, hs]

lemma isRwRoSlot_eq (h : Holds db a s v) : db.isRwRoSlot a s = true := by
  have hslot := h.slot
  unfold trackedSlot slotOver at hslot
  cases hacc : db.accounts.lookup a with
  | none =>
      rw [hacc] at hslot
      exact isRwRoSlot_of_roSlot hslot
  | some account =>
      rw [hacc] at hslot
      dsimp only at hslot
      cases hs : account.storage.lookup s with
      | some w =>
          unfold isRwRoSlot
          simp [hacc, hs]
      | none =>
          rw [hs] at hslot
          dsimp only at hslot
          by_cases hhides : account.accountState.hidesStorage = true
          · rw [if_pos hhides] at hslot
            simp at hslot
          · rw [if_neg hhides] at hslot
            exact isRwRoSlot_of_roSlot hslot

end Holds

/-! ## Writing an account -/

section Account

variable {db : KabuDB} {a b : Address} {s t v x : U256} {acc : FastDbAccount}

lemma trackedSlot_setAccount (db : KabuDB) (a b : Address) (acc : FastDbAccount) (s : U256) :
    (db.setAccount b acc).trackedSlot a s =
      if a = b then slotOver (some acc) (db.roSlot a s) s else db.trackedSlot a s := by
  have hlookup := db.setAccount_lookup b a acc
  unfold trackedSlot
  rw [hlookup]
  by_cases hab : a = b
  · rw [if_pos hab, if_pos hab]
    rfl
  · rw [if_neg hab, if_neg hab]
    rfl

lemma Holds.setAccount (h : Holds db a s v)
    (hacc : a = b → slotOver (some acc) (db.roSlot a s) s = some x) (hne : a ≠ b → x = v) :
    Holds (db.setAccount b acc) a s x := by
  refine ⟨?_, h.live⟩
  rw [trackedSlot_setAccount]
  by_cases hab : a = b
  · rw [if_pos hab]
    exact hacc hab
  · rw [if_neg hab, hne hab]
    exact h.slot

lemma slotOver_insert (acc : FastDbAccount) (below : Option U256) (s t x : U256) :
    slotOver (some { acc with storage := acc.storage.insert t x }) below s =
      if s = t then some x else slotOver (some acc) below s := by
  unfold slotOver
  dsimp only
  rw [AssocMap.lookup_insert_eq]
  by_cases hst : s = t
  · rw [if_pos hst, if_pos hst]
  · rw [if_neg hst, if_neg hst]

/-! ## Loading an account -/

lemma roInfo_of_live (h : db.RoLive a) {ro : KabuDB} {account : FastDbAccount}
    (hro : db.readOnlyDb = some ro) (hacc : ro.accounts.lookup a = some account) :
    ∃ info, ro.toRef.basicRef a = .ok (some info) := by
  by_cases ha : a = 0
  · rw [ha]
    exact ⟨default, ro.basicRef_zero⟩
  · refine ⟨account.info, ?_⟩
    have hread : ro.toRef.basicRef a = _ := ro.basicRef_eq ha
    rw [hread, hacc]
    exact congrArg Except.ok (FastDbAccount.info?_of_ne (h ro account hro hacc))

/-- An account that is loaded shows the slots that are held. -/
lemma Holds.slotOver_ofInfo (h : Holds db a s v) (hacc : db.accounts.lookup a = none)
    (info : AccountInfo) :
    slotOver (some (FastDbAccount.ofOptionInfo (some info))) (db.roSlot a s) s = some v := by
  have hslot := h.slot
  rw [trackedSlot, hacc] at hslot
  exact hslot

/-- What a held slot needs of its account, when the account is only in the read-only layer. -/
lemma Holds.exists_roInfo (h : Holds db a s v) (hacc : db.accounts.lookup a = none) :
    ∃ ro info, db.readOnlyRef = some ro ∧ ro.basicRef a = .ok (some info) := by
  have hslot := h.slot
  rw [trackedSlot, hacc] at hslot
  obtain ⟨ro, account, hro, hlookup, -⟩ := (roSlot_eq_some_iff db a s v).mp hslot
  obtain ⟨info, hinfo⟩ := roInfo_of_live h.live hro hlookup
  refine ⟨ro.toRef, info, ?_, hinfo⟩
  rw [readOnlyRef, hro]
  rfl

lemma Holds.loadRoRwExtAccount (h : Holds db a s v) :
    slotOver (some (db.loadRoRwExtAccount a).2) (db.roSlot a s) s = some v := by
  unfold KabuDB.loadRoRwExtAccount
  cases hacc : db.accounts.lookup a with
  | some acc =>
      have hslot := h.slot
      rw [trackedSlot, hacc] at hslot
      exact hslot
  | none =>
      obtain ⟨ro, info, hro, hinfo⟩ := h.exists_roInfo hacc
      have hfound : getOrFetchBasic db.readOnlyRef db.extDb a = .ok (some info) := by
        rw [hro, getOrFetchBasic, hinfo]
      dsimp only
      rw [hfound]
      exact h.slotOver_ofInfo hacc info

lemma Holds.loadRoRwAccount (h : Holds db a s v) :
    slotOver (some (db.loadRoRwAccount a).2) (db.roSlot a s) s = some v := by
  unfold KabuDB.loadRoRwAccount
  cases hacc : db.accounts.lookup a with
  | some acc =>
      have hslot := h.slot
      rw [trackedSlot, hacc] at hslot
      exact hslot
  | none =>
      obtain ⟨ro, info, hro, hinfo⟩ := h.exists_roInfo hacc
      have hfound : getBasic db.readOnlyRef a = .ok (some info) := by
        rw [hro, getBasic, hinfo]
      dsimp only
      rw [hfound]
      exact h.slotOver_ofInfo hacc info

end Account

/-! ## What keeps a slot held -/

section Keeps

variable {db db' : KabuDB} {a b : Address} {s t v x : U256}

lemma Holds.congr (h : Holds db a s v) (hlookup : db'.accounts.lookup a = db.accounts.lookup a)
    (hro : db'.readOnlyDb = db.readOnlyDb) : Holds db' a s v := by
  obtain ⟨hslot, hlive⟩ := h
  refine ⟨?_, ?_⟩
  · rw [trackedSlot, roSlot, hlookup, hro]
    exact hslot
  · unfold RoLive
    rw [hro]
    exact hlive

lemma loadRoRwExtAccount_lookup_ne (db : KabuDB) (hab : a ≠ b) :
    (db.loadRoRwExtAccount b).1.accounts.lookup a = db.accounts.lookup a := by
  unfold loadRoRwExtAccount
  split
  · rfl
  · exact (AssocMap.lookup_insert_eq _ _ _ _).trans (if_neg hab)

lemma loadRoRwExtAccount_readOnlyDb (db : KabuDB) (b : Address) :
    (db.loadRoRwExtAccount b).1.readOnlyDb = db.readOnlyDb := by
  unfold loadRoRwExtAccount
  split <;> rfl

lemma loadRoRwAccount_lookup_ne (db : KabuDB) (hab : a ≠ b) :
    (db.loadRoRwAccount b).1.accounts.lookup a = db.accounts.lookup a := by
  unfold loadRoRwAccount
  split
  · rfl
  · exact (AssocMap.lookup_insert_eq _ _ _ _).trans (if_neg hab)

lemma loadRoRwAccount_readOnlyDb (db : KabuDB) (b : Address) :
    (db.loadRoRwAccount b).1.readOnlyDb = db.readOnlyDb := by
  unfold loadRoRwAccount
  split <;> rfl

lemma insertAccountStorage_lookup (db : KabuDB) (a b : Address) (t x : U256) :
    (db.insertAccountStorage b t x).accounts.lookup a =
      (db.setAccount b { (db.loadRoRwExtAccount b).2 with
        storage := (db.loadRoRwExtAccount b).2.storage.insert t x }).accounts.lookup a := by
  unfold insertAccountStorage
  rw [setAccount_lookup, setAccount_lookup]
  by_cases hab : a = b
  · rw [if_pos hab, if_pos hab]
  · rw [if_neg hab, if_neg hab, loadRoRwExtAccount_lookup_ne db hab]

lemma Holds.insertAccountStorage (h : Holds db a s v) (b : Address) (t x : U256) :
    Holds (db.insertAccountStorage b t x) a s (if a = b ∧ s = t then x else v) := by
  refine Holds.congr ?_ (insertAccountStorage_lookup db a b t x)
    (loadRoRwExtAccount_readOnlyDb db b)
  refine h.setAccount (fun hab => ?_) (fun hab => if_neg fun hboth => hab hboth.1)
  subst hab
  rw [slotOver_insert, h.loadRoRwExtAccount]
  by_cases hst : s = t
  · rw [if_pos hst, if_pos ⟨rfl, hst⟩]
  · rw [if_neg hst, if_neg fun hboth => hst hboth.2]

end Keeps

/-! ## Diffs and merges -/

section Diffs

variable [Keccak] {db : KabuDB} {a : Address} {s v : U256}

/-- An account after a diff shows the slots the diff writes, and those it showed before. -/
lemma slotOver_tracedAccount (ro ext : Option DatabaseRef) (old : Option FastDbAccount)
    (state : GethAccountState) (below : Option U256)
    (h : state.storage.lookup s = none → slotOver old below s = some v)
    (hwrite : ∀ x, state.storage.lookup s = some x → x = v) :
    slotOver (tracedAccount ro ext a old state) below s = some v := by
  rw [tracedAccount_eq]
  unfold slotOver
  dsimp only
  rw [AssocMap.lookup_extendMap, lookup_commitRecord_storage]
  cases hstate : state.storage.lookup s with
  | some x =>
      rw [hwrite x hstate]
      rfl
  | none =>
      have hold := h hstate
      rw [Option.none_or]
      cases old with
      | none => exact hold
      | some acc =>
          unfold slotOver at hold
          dsimp only [Option.getD_some] at hold ⊢
          cases hs : acc.storage.lookup s with
          | some w =>
              rw [hs] at hold
              exact hold
          | none =>
              rw [hs] at hold
              dsimp only at hold ⊢
              by_cases hhides : acc.accountState.hidesStorage = true
              · rw [if_pos hhides] at hold
                simp at hold
              · -- an account that hides nothing is not cleared, so it becomes a touched one
                have hcleared : acc.accountState.isStorageCleared ≠ true := by
                  intro hst
                  rw [(AccountState.isStorageCleared_iff _).mp hst] at hhides
                  exact hhides rfl
                rw [if_neg hhides] at hold
                refine (if_neg ?_).trans hold
                rw [if_neg hcleared]
                simp [AccountState.hidesStorage]

/-- The slot that a diff writes, if it writes it. -/
def slotWrite (a : Address) (s : U256) (update : GethStateUpdate) : Option U256 :=
  (update.lookup a).bind (·.storage.lookup s)

lemma holds_applyGethStateUpdate {update : GethStateUpdate} (ha : a ≠ 0) (hlive : db.RoLive a)
    (h : slotWrite a s update = none → Holds db a s v)
    (hwrite : ∀ x, slotWrite a s update = some x → x = v) :
    Holds (DatabaseHelpers.applyGethStateUpdate db update) a s v := by
  have hlookup := applyGethStateUpdate_lookup db update ha
  have hro : (DatabaseHelpers.applyGethStateUpdate db update).readOnlyDb = db.readOnlyDb :=
    db.commit_readOnlyDb _
  refine ⟨?_, ?_⟩
  · rw [trackedSlot, hlookup, roSlot, hro]
    cases hstate : update.lookup a with
    | none =>
        have hnone : slotWrite a s update = none := by rw [slotWrite, hstate]; rfl
        exact (h hnone).slot
    | some state =>
        have hslot : slotWrite a s update = state.storage.lookup s := by
          rw [slotWrite, hstate]
          rfl
        rw [hslot] at h hwrite
        exact slotOver_tracedAccount _ _ _ state _ (fun hnone => (h hnone).slot) hwrite
  · unfold RoLive
    rw [hro]
    exact hlive

/-- The merged account has the state the read-only layer had, or the default one. -/
lemma RoLive.maintain (h : db.RoLive a) : db.maintain.RoLive a := by
  have hbase : ∀ old, db.roBase.accounts.lookup a = some old →
      old.accountState ≠ .notExisting := by
    intro old hlookup
    unfold roBase at hlookup
    cases hro : db.readOnlyDb with
    | none =>
        rw [hro] at hlookup
        simp [default, withExtDb, new] at hlookup
    | some ro =>
        rw [hro] at hlookup
        exact h ro old hro hlookup
  intro ro account hro hlookup
  obtain rfl : db.mergedRo = ro := Option.some.inj hro
  rw [mergedRo_lookup] at hlookup
  cases hacc : db.accounts.lookup a with
  | none =>
      rw [hacc] at hlookup
      exact hbase account hlookup
  | some cached =>
      rw [hacc] at hlookup
      obtain rfl := Option.some.inj hlookup
      cases hold : db.roBase.accounts.lookup a with
      | none =>
          show AccountState.none ≠ .notExisting
          simp
      | some old => exact hbase old hold

lemma trackedSlot_maintain (h : db.trackedSlot a s = some v) :
    db.maintain.trackedSlot a s = some v := by
  have hbase : db.roSlot a s = (db.roBase.accounts.lookup a).bind (·.storage.lookup s) := by
    unfold roSlot roBase
    cases db.readOnlyDb <;> rfl
  unfold trackedSlot slotOver at h
  show (db.mergedRo.accounts.lookup a).bind (·.storage.lookup s) = some v
  rw [mergedRo_lookup]
  rw [hbase] at h
  cases hacc : db.accounts.lookup a with
  | none =>
      rw [hacc] at h
      exact h
  | some account =>
      rw [hacc] at h
      dsimp only at h
      have hstorage : ((mergedAccount account (db.roBase.accounts.lookup a)).bind
          (·.storage.lookup s)) = (account.storage.lookup s).or
            (((db.roBase.accounts.lookup a).getD default).storage.lookup s) :=
        AssocMap.lookup_extend _ _ _
      rw [AssocMap.applyAt_some, hstorage]
      cases hs : account.storage.lookup s with
      | some w =>
          rw [hs] at h
          exact h
      | none =>
          rw [hs] at h
          dsimp only at h
          rw [Option.none_or]
          split at h
          · simp at h
          · obtain ⟨ro, hro, hlookup⟩ := Option.bind_eq_some_iff.mp h
            rw [hro]
            exact hlookup

lemma Holds.maintain (h : Holds db a s v) : Holds db.maintain a s v :=
  ⟨trackedSlot_maintain h.slot, h.live.maintain⟩

end Diffs

end KabuDB

end Kabu
