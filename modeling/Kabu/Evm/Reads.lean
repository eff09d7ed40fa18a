import Kabu.Evm.KabuDB

/-!
# Reads through the cache, one at a time

The four reads that cache their answer, as one type of requests.  `KabuDB.read` performs a
request on the database and returns its answer with the database after it; `KabuDB.refRead` is
the same request made without caching.

A request is *transparent* when it answers as the plain read does and leaves every plain read
as it was.  `read_transparent_iff` says exactly when: requests for code and block hashes always
are, and a request for an account that is not cached is when the cached record cannot be told
from the layers below.  A record of an account that does not exist answers zero for every slot,
so the layers below must do so too; a failing lookup of the account makes the storage request
fail, so the plain one must fail alike; and the zero address, which the plain read answers with
the default account, must be cached or found as that.
-/

namespace Kabu

open KabuDBHelper

/-- A read that caches its answer. -/
inductive DbRead
  | basic (address : Address)
  | storage (address : Address) (slot : U256)
  | codeByHash (codeHash : B256)
  | blockHash (number : ℕ)
  deriving DecidableEq

/-- The answer to a read. -/
inductive DbAnswer
  | basic (answer : Except KabuDBError (Option AccountInfo))
  | storage (answer : Except KabuDBError U256)
  | codeByHash (answer : Except KabuDBError Bytecode)
  | blockHash (answer : Except KabuDBError B256)

namespace KabuDB

def read (db : KabuDB) : DbRead → DbAnswer × KabuDB
  | .basic a => (.basic (db.basic a).1, (db.basic a).2)
  | .storage a s => (.storage (db.storage a s).1, (db.storage a s).2)
  | .codeByHash h => (.codeByHash (db.codeByHash h).1, (db.codeByHash h).2)
  | .blockHash n => (.blockHash (db.blockHash n).1, (db.blockHash n).2)

def refRead (db : KabuDB) : DbRead → DbAnswer
  | .basic a => .basic (db.basicRef a)
  | .storage a s => .storage (db.storageRef a s)
  | .codeByHash h => .codeByHash (db.codeByHashRef h)
  | .blockHash n => .blockHash (db.blockHashRef n)

def readAll (db : KabuDB) : List DbRead → List DbAnswer × KabuDB
  | [] => ([], db)
  | r :: reads => ((db.read r).1 :: ((db.read r).2.readAll reads).1, ((db.read r).2.readAll reads).2)

end KabuDB

lemma SameReads.refRead {d d' : KabuDB} (h : SameReads d d') (r : DbRead) :
    d.refRead r = d'.refRead r := by
  cases r with
  | basic a => exact congrArg DbAnswer.basic (h.basic a)
  | storage a s => exact congrArg DbAnswer.storage (h.storage a s)
  | codeByHash c => exact congrArg DbAnswer.codeByHash (h.code c)
  | blockHash n => exact congrArg DbAnswer.blockHash (h.blockHash n)

namespace KabuDB

/-! ## Plain reads after one account is cached -/

lemma setAccount_lookup (db : KabuDB) (a b : Address) (acc : FastDbAccount) :
    (db.setAccount a acc).accounts.lookup b = if b = a then some acc else db.accounts.lookup b :=
  AssocMap.lookup_insert_eq db.accounts a b acc

lemma setAccount_readOnlyRef (db : KabuDB) (a : Address) (acc : FastDbAccount) :
    (db.setAccount a acc).readOnlyRef = db.readOnlyRef := rfl

lemma setAccount_extDb (db : KabuDB) (a : Address) (acc : FastDbAccount) :
    (db.setAccount a acc).extDb = db.extDb := rfl

lemma sameReads_setAccount_iff (db : KabuDB) (a : Address) (acc : FastDbAccount) :
    SameReads (db.setAccount a acc) db ↔
      (a ≠ 0 → acc.info? = readBasic (db.accounts.lookup a) db.readOnlyRef db.extDb a) ∧
        ∀ s, readStorage (some acc) db.readOnlyRef db.extDb a s =
          readStorage (db.accounts.lookup a) db.readOnlyRef db.extDb a s := by
  constructor
  · intro h
    refine ⟨fun ha => ?_, fun s => ?_⟩
    · have hb := h.basic a
      rw [basicRef_eq _ ha, basicRef_eq _ ha, setAccount_lookup, if_pos rfl, Except.ok.injEq] at hb
      exact hb
    · have hs := h.storage a s
      rwa [storageRef_eq, storageRef_eq, setAccount_lookup, if_pos rfl] at hs
  · rintro ⟨hinfo, hslots⟩
    refine ⟨fun b => ?_, fun b s => ?_, fun h => ?_, fun n => ?_⟩
    · by_cases hb : b = 0
      · rw [hb, basicRef_zero, basicRef_zero]
      · rw [basicRef_eq _ hb, basicRef_eq _ hb, setAccount_lookup, setAccount_readOnlyRef,
          setAccount_extDb]
        by_cases hba : b = a
        · subst hba
          rw [if_pos rfl, ← hinfo hb]
          rfl
        · rw [if_neg hba]
    · rw [storageRef_eq, storageRef_eq, setAccount_lookup, setAccount_readOnlyRef, setAccount_extDb]
      by_cases hba : b = a
      · subst hba
        rw [if_pos rfl, hslots s]
      · rw [if_neg hba]
    · rw [codeByHashRef_eq, codeByHashRef_eq]
      rfl
    · rw [blockHashRef_eq, blockHashRef_eq]
      rfl

variable {a : Address}

/-- Caching a record made from an account's info is seen only through the slots that a record
without an info hides. -/
lemma sameReads_setAccount_ofOptionInfo_iff (db : KabuDB) (hacc : db.accounts.lookup a = none)
    (info : Option AccountInfo)
    (hinfo : info = unwrapOr none (getOrFetchBasic db.readOnlyRef db.extDb a)) :
    SameReads (db.setAccount a (FastDbAccount.ofOptionInfo info)) db ↔
      (info = none → ∀ s, getOrFetchStorage db.readOnlyRef db.extDb a s = .ok 0) := by
  rw [sameReads_setAccount_iff, hacc, FastDbAccount.info?_ofOptionInfo]
  have hread : readBasic none db.readOnlyRef db.extDb a = info := hinfo.symm
  cases info with
  | none =>
      -- the record answers zero for every slot
      constructor
      · rintro ⟨-, hslots⟩ - s
        exact (hslots s).symm
      · intro hzero
        exact ⟨fun _ => hread.symm, fun s => (hzero rfl s).symm⟩
  | some info => exact iff_of_true ⟨fun _ => hread.symm, fun _ => rfl⟩ (by simp)

variable {acc : FastDbAccount}

/-- A slot that is found below may be added to a cached account that does not hide it. -/
lemma sameReads_cache_slot (db : KabuDB) {s v : U256}
    (hinfo : a ≠ 0 → acc.info? = readBasic (db.accounts.lookup a) db.readOnlyRef db.extDb a)
    (hslots : ∀ s, readStorage (some acc) db.readOnlyRef db.extDb a s =
      readStorage (db.accounts.lookup a) db.readOnlyRef db.extDb a s)
    (hv : readStorage (some acc) db.readOnlyRef db.extDb a s = .ok v) :
    SameReads (db.setAccount a { acc with storage := acc.storage.insert s v }) db := by
  refine (sameReads_setAccount_iff db a _).mpr ⟨hinfo, fun s' => ?_⟩
  rw [← hslots s']
  by_cases hs : s' = s
  · subst hs
    rw [hv]
    simp only [readStorage, AssocMap.lookup_insert_eq, if_true]
  · simp only [readStorage, AssocMap.lookup_insert_eq, if_neg hs]

/-! ## When a request is transparent -/

/-- A request that answers as the plain read does and changes no plain read. -/
def Transparent (db : KabuDB) (r : DbRead) : Prop :=
  (db.read r).1 = db.refRead r ∧ SameReads (db.read r).2 db

/-- The condition for it, on the database the request is made on. -/
def ReadSafe (db : KabuDB) : DbRead → Prop
  | .basic a =>
      (a = 0 → readBasic (db.accounts.lookup a) db.readOnlyRef db.extDb a = some default) ∧
        (db.accounts.lookup a = none →
          unwrapOr none (getOrFetchBasic db.readOnlyRef db.extDb a) = none →
          ∀ s, getOrFetchStorage db.readOnlyRef db.extDb a s = .ok 0)
  | .storage a s => db.accounts.lookup a = none →
      (∀ e, getOrFetchBasic db.readOnlyRef db.extDb a = .error e →
        getOrFetchStorage db.readOnlyRef db.extDb a s = .error e) ∧
      (getOrFetchBasic db.readOnlyRef db.extDb a = .ok none →
        ∀ s', getOrFetchStorage db.readOnlyRef db.extDb a s' = .ok 0)
  | .codeByHash _ => True
  | .blockHash _ => True

variable {db : KabuDB}

lemma basic_of_some (h : db.accounts.lookup a = some acc) : db.basic a = (.ok acc.info?, db) := by
  simp only [basic, h]

lemma basic_of_none (h : db.accounts.lookup a = none) :
    db.basic a = (.ok (unwrapOr none (getOrFetchBasic db.readOnlyRef db.extDb a)),
      db.setAccount a (FastDbAccount.ofOptionInfo
        (unwrapOr none (getOrFetchBasic db.readOnlyRef db.extDb a)))) := by
  simp only [basic, h, FastDbAccount.info?_ofOptionInfo]
  rfl

/-- The answer of `basic`, whether or not the account is cached. -/
lemma basic_fst (db : KabuDB) (a : Address) :
    (db.basic a).1 = .ok (readBasic (db.accounts.lookup a) db.readOnlyRef db.extDb a) := by
  cases h : db.accounts.lookup a with
  | none => rw [basic_of_none h]; rfl
  | some acc => rw [basic_of_some h]; rfl

lemma basic_fst_eq_iff (db : KabuDB) (a : Address) :
    (db.basic a).1 = db.basicRef a ↔
      (a = 0 → readBasic (db.accounts.lookup a) db.readOnlyRef db.extDb a = some default) := by
  rw [basic_fst]
  by_cases ha : a = 0
  · rw [ha, basicRef_zero]
    simp
  · rw [basicRef_eq db ha]
    exact iff_of_true rfl fun h => absurd h ha

lemma basic_transparent_iff (db : KabuDB) (a : Address) :
    db.Transparent (.basic a) ↔ db.ReadSafe (.basic a) := by
  have hfst : (db.read (.basic a)).1 = db.refRead (.basic a) ↔ _ :=
    DbAnswer.basic.injEq _ _ ▸ basic_fst_eq_iff db a
  refine and_congr hfst ?_
  show SameReads (db.basic a).2 db ↔ _
  cases h : db.accounts.lookup a with
  | some acc =>
      rw [basic_of_some h]
      exact iff_of_true (SameReads.refl db) (by simp)
  | none =>
      rw [basic_of_none h, sameReads_setAccount_ofOptionInfo_iff db h _ rfl]
      simp

lemma storage_transparent_of_some (h : db.accounts.lookup a = some acc) (s : U256) :
    (db.storage a s).1 = db.storageRef a s ∧ SameReads (db.storage a s).2 db := by
  rw [storageRef_eq, h]
  unfold storage
  simp only [h]
  cases hs : acc.storage.lookup s with
  | some v => simp only [readStorage, hs]; exact ⟨trivial, SameReads.refl db⟩
  | none =>
      simp only [readStorage, hs]
      cases hhide : acc.accountState.hidesStorage with
      | true => exact ⟨rfl, SameReads.refl db⟩
      | false =>
          simp only [Bool.false_eq_true, if_false]
          cases hv : getOrFetchStorage db.readOnlyRef db.extDb a s with
          | error e => exact ⟨rfl, SameReads.refl db⟩
          | ok v =>
              refine ⟨rfl, sameReads_cache_slot db (fun _ => by rw [h]; rfl) (fun _ => by rw [h]) ?_⟩
              simp only [readStorage, hs, hhide, Bool.false_eq_true, if_false, hv]

lemma storage_transparent_iff_of_none (h : db.accounts.lookup a = none) (s : U256) :
    ((db.storage a s).1 = db.storageRef a s ∧ SameReads (db.storage a s).2 db) ↔
      (∀ e, getOrFetchBasic db.readOnlyRef db.extDb a = .error e →
        getOrFetchStorage db.readOnlyRef db.extDb a s = .error e) ∧
      (getOrFetchBasic db.readOnlyRef db.extDb a = .ok none →
        ∀ s', getOrFetchStorage db.readOnlyRef db.extDb a s' = .ok 0) := by
  have href : db.storageRef a s = getOrFetchStorage db.readOnlyRef db.extDb a s := by
    rw [storageRef_eq, h]
    rfl
  rw [href]
  unfold storage
  simp only [h]
  cases hinfo : getOrFetchBasic db.readOnlyRef db.extDb a with
  | error e =>
      -- the request fails as the account lookup does
      simp [SameReads.refl, eq_comm]
  | ok info =>
      have hcache := sameReads_setAccount_ofOptionInfo_iff db h info (by rw [hinfo]; rfl)
      cases info with
      | none =>
          -- the request answers zero, and the record it leaves does so for every slot
          simp only [reduceCtorEq, false_implies, implies_true, true_and, true_implies]
          rw [hcache]
          exact ⟨fun h' => h'.2 rfl, fun h' => ⟨(h' s).symm, fun _ => h'⟩⟩
      | some info =>
          refine iff_of_true ?_ (by simp)
          obtain ⟨hbasic, hslots⟩ := (sameReads_setAccount_iff db a _).mp (hcache.mpr (by simp))
          cases hv : getOrFetchStorage db.readOnlyRef db.extDb a s with
          | error e => exact ⟨rfl, SameReads.refl db⟩
          | ok v => exact ⟨rfl, sameReads_cache_slot db hbasic hslots hv⟩

lemma storage_transparent_iff (db : KabuDB) (a : Address) (s : U256) :
    db.Transparent (.storage a s) ↔ db.ReadSafe (.storage a s) := by
  have hfst : db.Transparent (.storage a s) ↔
      ((db.storage a s).1 = db.storageRef a s ∧ SameReads (db.storage a s).2 db) :=
    and_congr (DbAnswer.storage.injEq _ _ ▸ Iff.rfl) Iff.rfl
  rw [hfst]
  cases h : db.accounts.lookup a with
  | some acc => exact iff_of_true (storage_transparent_of_some h s) (by simp [ReadSafe, h])
  | none =>
      rw [storage_transparent_iff_of_none h s]
      simp [ReadSafe, h]

/-- Databases with the same accounts over the same layers are told apart by the other two
reads alone. -/
lemma sameReads_of_accounts {d d' : KabuDB} (hacc : d'.accounts = d.accounts)
    (hro : d'.readOnlyRef = d.readOnlyRef) (hext : d'.extDb = d.extDb)
    (hcode : ∀ h, d'.codeByHashRef h = d.codeByHashRef h)
    (hhash : ∀ n, d'.blockHashRef n = d.blockHashRef n) : SameReads d' d := by
  refine ⟨fun a => ?_, fun a s => ?_, hcode, hhash⟩
  · by_cases ha : a = 0
    · rw [ha, basicRef_zero, basicRef_zero]
    · rw [basicRef_eq d' ha, basicRef_eq d ha, hacc, hro, hext]
  · rw [storageRef_eq, storageRef_eq, hacc, hro, hext]

lemma codeByHash_transparent (db : KabuDB) (h : B256) : db.Transparent (.codeByHash h) := by
  unfold Transparent read refRead
  simp only [DbAnswer.codeByHash.injEq]
  rw [codeByHashRef_eq]
  unfold codeByHash
  cases hc : db.contracts.lookup h with
  | some code => exact ⟨rfl, SameReads.refl db⟩
  | none =>
      cases hb : getCodeByHash db.readOnlyRef h with
      | error e => exact ⟨rfl, SameReads.refl db⟩
      | ok code =>
          refine ⟨rfl, sameReads_of_accounts rfl rfl rfl (fun h' => ?_) (fun n => ?_)⟩
          · rw [codeByHashRef_eq, codeByHashRef_eq]
            simp only [AssocMap.lookup_insert_eq]
            by_cases hh : h' = h
            · rw [if_pos hh, hh, hc]
              exact hb.symm
            · rw [if_neg hh]
              rfl
          · rw [blockHashRef_eq, blockHashRef_eq]
            rfl

lemma blockHash_transparent (db : KabuDB) (n : ℕ) : db.Transparent (.blockHash n) := by
  unfold Transparent read refRead
  simp only [DbAnswer.blockHash.injEq]
  rw [blockHashRef_eq]
  unfold blockHash
  cases hc : db.blockHashes.lookup n with
  | some hash => exact ⟨rfl, SameReads.refl db⟩
  | none =>
      cases hb : getOrFetchBlockHash db.readOnlyRef db.extDb n with
      | error e => exact ⟨rfl, SameReads.refl db⟩
      | ok hash =>
          refine ⟨rfl, sameReads_of_accounts rfl rfl rfl (fun h => ?_) (fun n' => ?_)⟩
          · rw [codeByHashRef_eq, codeByHashRef_eq]
            rfl
          · rw [blockHashRef_eq, blockHashRef_eq]
            simp only [AssocMap.lookup_insert_eq]
            by_cases hn : n' = n
            · rw [if_pos hn, hn, hc]
              exact hb.symm
            · rw [if_neg hn]
              rfl

/-- **One request** is transparent exactly when it is safe. -/
lemma read_transparent_iff (db : KabuDB) (r : DbRead) : db.Transparent r ↔ db.ReadSafe r := by
  cases r with
  | basic a => exact basic_transparent_iff db a
  | storage a s => exact storage_transparent_iff db a s
  | codeByHash h => exact iff_of_true (codeByHash_transparent db h) trivial
  | blockHash n => exact iff_of_true (blockHash_transparent db n) trivial

end KabuDB

end Kabu
