import Kabu.Evm.Reads
import Kabu.Framework.Runs

/-!
# Whether reading through the cache can be seen

A sequence of requests through the caching interface should answer as the plain reads of the
untouched database do, and leave every plain read as it was.  `reads_transparent_iff` says for
each database and each sequence exactly when it does: every request of the sequence must be
`SafeAfter` the ones before it.  The condition speaks of the original database alone.

One request's condition is `KabuDB.ReadSafe`.  The requests before it matter in a single way:
where the lookup of an account fails, a storage request fails too, unless the account was asked
for before, because that request swallows the failure and caches the account as missing.  So
the order of the requests does matter.
-/

namespace Kabu

open KabuDBHelper KabuDB

/-- The requests answer as plain reads of `db`, and leave them all as they were. -/
def ReadsTransparent (db : KabuDB) (reads : List DbRead) : Prop :=
  (db.readAll reads).1 = reads.map db.refRead ∧ SameReads (db.readAll reads).2 db

/-- The condition on one request of a sequence on `db`, given the requests before it. -/
def SafeAfter (db : KabuDB) (past : List DbRead) : DbRead → Prop
  | .basic a =>
      (a = 0 → readBasic (db.accounts.lookup a) db.readOnlyRef db.extDb a = some default) ∧
        (db.accounts.lookup a = none →
          unwrapOr none (getOrFetchBasic db.readOnlyRef db.extDb a) = none →
          ∀ s, getOrFetchStorage db.readOnlyRef db.extDb a s = .ok 0)
  | .storage a s => db.accounts.lookup a = none →
      (∀ e, getOrFetchBasic db.readOnlyRef db.extDb a = .error e →
        getOrFetchStorage db.readOnlyRef db.extDb a s = .error e ∨ .basic a ∈ past) ∧
      (getOrFetchBasic db.readOnlyRef db.extDb a = .ok none →
        ∀ s', getOrFetchStorage db.readOnlyRef db.extDb a s' = .ok 0)
  | .codeByHash _ => True
  | .blockHash _ => True

/-! ## What a request can do to the cache -/

/-- The effect of a request `r` that takes `c` to `c'`, on the cached accounts. -/
structure ReadKeeps (c c' : KabuDB) (r : DbRead) : Prop where
  readOnlyRef : c'.readOnlyRef = c.readOnlyRef
  extDb : c'.extDb = c.extDb
  /-- A cached account keeps its info, and a missing one stays as it is. -/
  cached : ∀ a old, c.accounts.lookup a = some old → ∃ acc, c'.accounts.lookup a = some acc ∧
    acc.info? = old.info? ∧ (old.accountState = .notExisting → acc = old)
  /-- A new account has the info that is found for it, and a failed lookup is cached by the
  request for the account alone. -/
  loaded : ∀ a acc, c.accounts.lookup a = none → c'.accounts.lookup a = some acc →
    acc.info? = unwrapOr none (getOrFetchBasic c.readOnlyRef c.extDb a) ∧
      (acc.info? = none → acc = FastDbAccount.newNotExisting) ∧
      (∀ e, getOrFetchBasic c.readOnlyRef c.extDb a = .error e → r = .basic a)
  /-- A request for an account caches it. -/
  basicLoads : ∀ a, r = .basic a → c'.accounts.lookup a ≠ none

variable {r : DbRead}

lemma ReadKeeps.of_accounts {c c' : KabuDB} (hro : c'.readOnlyRef = c.readOnlyRef)
    (hext : c'.extDb = c.extDb) (hacc : c'.accounts = c.accounts)
    (hr : ∀ a, r = .basic a → c.accounts.lookup a ≠ none) : ReadKeeps c c' r where
  readOnlyRef := hro
  extDb := hext
  cached a old h := ⟨old, by rw [hacc, h], rfl, fun _ => rfl⟩
  loaded a acc hnone hsome := by
    rw [hacc, hnone] at hsome
    simp at hsome
  basicLoads a ha := by
    rw [hacc]
    exact hr a ha

variable {c : KabuDB}

lemma ReadKeeps.of_cached {b : Address} {old acc : FastDbAccount}
    (hold : c.accounts.lookup b = some old) (hinfo : acc.info? = old.info?)
    (hstate : old.accountState ≠ .notExisting) (hr : ∀ a, r ≠ .basic a) :
    ReadKeeps c (c.setAccount b acc) r where
  readOnlyRef := rfl
  extDb := rfl
  cached a old' h := by
    by_cases hab : a = b
    · subst hab
      rw [hold, Option.some.injEq] at h
      subst h
      exact ⟨acc, by rw [setAccount_lookup, if_pos rfl], hinfo, fun hne => absurd hne hstate⟩
    · exact ⟨old', by rw [setAccount_lookup, if_neg hab, h], rfl, fun _ => rfl⟩
  loaded a acc' hnone hsome := by
    by_cases hab : a = b
    · rw [hab, hold] at hnone
      simp at hnone
    · rw [setAccount_lookup, if_neg hab, hnone] at hsome
      simp at hsome
  basicLoads a ha := absurd ha (hr a)

lemma ReadKeeps.of_loaded {b : Address} {acc : FastDbAccount} (hnone : c.accounts.lookup b = none)
    (hinfo : acc.info? = unwrapOr none (getOrFetchBasic c.readOnlyRef c.extDb b))
    (hmissing : acc.info? = none → acc = FastDbAccount.newNotExisting)
    (herror : ∀ e, getOrFetchBasic c.readOnlyRef c.extDb b = .error e → r = .basic b)
    (hr : ∀ a, r = .basic a → a = b) : ReadKeeps c (c.setAccount b acc) r where
  readOnlyRef := rfl
  extDb := rfl
  cached a old h := by
    have hab : a ≠ b := by
      rintro rfl
      rw [hnone] at h
      simp at h
    exact ⟨old, by rw [setAccount_lookup, if_neg hab, h], rfl, fun _ => rfl⟩
  loaded a acc' hnone' hsome := by
    by_cases hab : a = b
    · subst hab
      rw [setAccount_lookup, if_pos rfl, Option.some.injEq] at hsome
      subst hsome
      exact ⟨hinfo, hmissing, herror⟩
    · rw [setAccount_lookup, if_neg hab, hnone'] at hsome
      simp at hsome
  basicLoads a ha := by
    rw [setAccount_lookup, if_pos (hr a ha)]
    simp

lemma basic_keeps (c : KabuDB) (b : Address) : ReadKeeps c (c.basic b).2 (.basic b) := by
  cases h : c.accounts.lookup b with
  | some acc =>
      rw [basic_of_some h]
      refine .of_accounts rfl rfl rfl ?_
      rintro a ha
      obtain rfl := DbRead.basic.inj ha
      simp [h]
  | none =>
      rw [basic_of_none h]
      refine .of_loaded h (by rw [FastDbAccount.info?_ofOptionInfo]) ?_ (fun _ _ => rfl)
        (fun a ha => (DbRead.basic.inj ha).symm)
      rw [FastDbAccount.info?_ofOptionInfo]
      intro hnone
      rw [hnone]
      rfl

lemma storage_keeps (c : KabuDB) (b : Address) (s : U256) :
    ReadKeeps c (c.storage b s).2 (.storage b s) := by
  have hrefl : ReadKeeps c c (.storage b s) := .of_accounts rfl rfl rfl (by simp)
  unfold storage
  cases h : c.accounts.lookup b with
  | some acc =>
      simp only
      cases acc.storage.lookup s with
      | some v => exact hrefl
      | none =>
          cases hhide : acc.accountState.hidesStorage with
          | true => exact hrefl
          | false =>
              cases getOrFetchStorage c.readOnlyRef c.extDb b s with
              | error e => exact hrefl
              | ok v =>
                  refine .of_cached h rfl (fun hne => ?_) (by simp)
                  rw [hne] at hhide
                  exact absurd hhide (by decide)
  | none =>
      simp only
      cases hinfo : getOrFetchBasic c.readOnlyRef c.extDb b with
      | error e => exact hrefl
      | ok info =>
          cases info with
          | none => exact .of_loaded h (by rw [hinfo]; rfl) (fun _ => rfl) (by simp [hinfo]) (by simp)
          | some info =>
              cases getOrFetchStorage c.readOnlyRef c.extDb b s with
              | error e => exact hrefl
              | ok v =>
                  refine .of_loaded h (by rw [hinfo]; rfl) (fun hnone => ?_) (by simp [hinfo])
                    (by simp)
                  exact absurd hnone (by simp [FastDbAccount.info?, FastDbAccount.ofOptionInfo,
                    FastDbAccount.ofInfo])

/-- **What one request does to the cache.** -/
lemma read_keeps (c : KabuDB) (r : DbRead) : ReadKeeps c (c.read r).2 r := by
  cases r with
  | basic a => exact basic_keeps c a
  | storage a s => exact storage_keeps c a s
  | codeByHash h =>
      show ReadKeeps c (c.codeByHash h).2 _
      unfold codeByHash
      cases c.contracts.lookup h with
      | some code => exact .of_accounts rfl rfl rfl (by simp)
      | none =>
          cases getCodeByHash c.readOnlyRef h <;> exact .of_accounts rfl rfl rfl (by simp)
  | blockHash n =>
      show ReadKeeps c (c.blockHash n).2 _
      unfold blockHash
      cases c.blockHashes.lookup n with
      | some hash => exact .of_accounts rfl rfl rfl (by simp)
      | none =>
          cases getOrFetchBlockHash c.readOnlyRef c.extDb n <;>
            exact .of_accounts rfl rfl rfl (by simp)

/-! ## A run of requests -/

lemma readAll_keeps_missing {a : Address}
    (h : c.accounts.lookup a = some FastDbAccount.newNotExisting) (reads : List DbRead) :
    (c.readAll reads).2.accounts.lookup a = some FastDbAccount.newNotExisting := by
  induction reads generalizing c with
  | nil => exact h
  | cons r reads ih =>
      obtain ⟨acc, hacc, -, hsame⟩ := (read_keeps c r).cached a _ h
      rw [hsame rfl] at hacc
      exact ih hacc

lemma storageRef_missing {a : Address} (h : c.accounts.lookup a = some FastDbAccount.newNotExisting)
    (s : U256) :
    c.storageRef a s = .ok 0 := by
  rw [storageRef_eq, h]
  rfl

lemma storageRef_uncached {a : Address} (h : c.accounts.lookup a = none) (s : U256) :
    c.storageRef a s = getOrFetchStorage c.readOnlyRef c.extDb a s := by
  rw [storageRef_eq, h]
  rfl

/-- A request that answers right, in a sequence that leaves the plain reads alone, is safe:
had it cached a missing account over slots that are not zero, they would be zero in the end. -/
lemma readSafe_of_sameReads_end (hanswer : (c.read r).1 = c.refRead r) (reads : List DbRead)
    (hend : SameReads ((c.read r).2.readAll reads).2 c) : c.ReadSafe r := by
  have hslots : ∀ a, c.accounts.lookup a = none →
      (c.read r).2.accounts.lookup a = some FastDbAccount.newNotExisting →
      ∀ s, getOrFetchStorage c.readOnlyRef c.extDb a s = .ok 0 := by
    intro a hnone hmissing s
    rw [← storageRef_uncached hnone, ← hend.storage a s]
    exact storageRef_missing (readAll_keeps_missing hmissing reads) s
  cases r with
  | basic a =>
      refine ⟨(basic_fst_eq_iff c a).mp (DbAnswer.basic.inj hanswer), fun hnone hinfo => ?_⟩
      refine hslots a hnone ?_
      show (c.basic a).2.accounts.lookup a = _
      rw [basic_of_none hnone, setAccount_lookup, if_pos rfl, hinfo]
      rfl
  | storage a s =>
      intro hnone
      refine ⟨fun e he => ?_, fun hinfo => ?_⟩
      · have hs : (c.storage a s).1 = c.storageRef a s := DbAnswer.storage.inj hanswer
        rw [storageRef_uncached hnone] at hs
        rw [← hs]
        simp only [storage, hnone, he]
      · refine hslots a hnone ?_
        show (c.storage a s).2.accounts.lookup a = _
        simp only [storage, hnone, hinfo, setAccount_lookup, if_true]
        rfl
  | codeByHash h => trivial
  | blockHash n => trivial

lemma readsTransparent_cons (c : KabuDB) (r : DbRead) (reads : List DbRead) :
    ReadsTransparent c (r :: reads) ↔ c.ReadSafe r ∧ ReadsTransparent (c.read r).2 reads := by
  have hmap : c.Transparent r → reads.map (c.read r).2.refRead = reads.map c.refRead :=
    fun h => List.map_congr_left fun r' _ => h.2.refRead r'
  constructor
  · rintro ⟨hanswers, hend⟩
    obtain ⟨hfirst, hrest⟩ := List.cons.inj hanswers
    have hsafe := readSafe_of_sameReads_end hfirst reads hend
    have htrans := (read_transparent_iff c r).mpr hsafe
    exact ⟨hsafe, hrest.trans (hmap htrans).symm, hend.trans htrans.2.symm⟩
  · rintro ⟨hsafe, hanswers, hend⟩
    have htrans := (read_transparent_iff c r).mpr hsafe
    refine ⟨?_, hend.trans htrans.2⟩
    show (c.read r).1 :: ((c.read r).2.readAll reads).1 = c.refRead r :: reads.map c.refRead
    rw [htrans.1, hanswers, hmap htrans]

/-- How the cache `c` stands to the database `d` after the safe requests `past`. -/
structure CachedFrom (d c : KabuDB) (past : List DbRead) : Prop where
  readOnlyRef : c.readOnlyRef = d.readOnlyRef
  extDb : c.extDb = d.extDb
  cached : ∀ a old, d.accounts.lookup a = some old →
    ∃ acc, c.accounts.lookup a = some acc ∧ acc.info? = old.info?
  loaded : ∀ a acc, d.accounts.lookup a = none → c.accounts.lookup a = some acc →
    acc.info? = unwrapOr none (getOrFetchBasic d.readOnlyRef d.extDb a) ∧
      (acc.info? = none → ∀ s, getOrFetchStorage d.readOnlyRef d.extDb a s = .ok 0) ∧
      (∀ e, getOrFetchBasic d.readOnlyRef d.extDb a = .error e → .basic a ∈ past)
  basicLoads : ∀ a, .basic a ∈ past → c.accounts.lookup a ≠ none

lemma CachedFrom.refl (d : KabuDB) : CachedFrom d d [] where
  readOnlyRef := rfl
  extDb := rfl
  cached a old h := ⟨old, h, rfl⟩
  loaded a acc hnone hsome := by
    rw [hnone] at hsome
    simp at hsome
  basicLoads a ha := absurd ha (by simp)

variable {past : List DbRead}

lemma CachedFrom.step {d : KabuDB} (h : CachedFrom d c past) (hsafe : c.ReadSafe r) :
    CachedFrom d (c.read r).2 (past ++ [r]) := by
  have hkeeps := read_keeps c r
  have hsame := ((read_transparent_iff c r).mpr hsafe).2
  refine
    { readOnlyRef := hkeeps.readOnlyRef.trans h.readOnlyRef
      extDb := hkeeps.extDb.trans h.extDb
      cached := fun a old hold => ?_
      loaded := fun a acc hnone hsome => ?_
      basicLoads := fun a ha => ?_ }
  · obtain ⟨acc, hacc, hinfo⟩ := h.cached a old hold
    obtain ⟨acc', hacc', hinfo', -⟩ := hkeeps.cached a acc hacc
    exact ⟨acc', hacc', hinfo'.trans hinfo⟩
  · cases hc : c.accounts.lookup a with
    | some acc₀ =>
        -- cached by an earlier request
        obtain ⟨acc', hacc', hinfo', -⟩ := hkeeps.cached a acc₀ hc
        rw [hsome, Option.some.injEq] at hacc'
        subst hacc'
        obtain ⟨hinfo, hzero, herror⟩ := h.loaded a acc₀ hnone hc
        exact ⟨hinfo'.trans hinfo, fun hi => hzero (hinfo'.symm.trans hi),
          fun e he => List.mem_append_left _ (herror e he)⟩
    | none =>
        obtain ⟨hinfo, hmissing, herror⟩ := hkeeps.loaded a acc hc hsome
        rw [h.readOnlyRef, h.extDb] at hinfo herror
        refine ⟨hinfo, fun hi s => ?_, fun e he => by rw [herror e he]; simp⟩
        rw [hmissing hi] at hsome
        rw [← h.readOnlyRef, ← h.extDb, ← storageRef_uncached hc, ← hsame.storage a s]
        exact storageRef_missing hsome s
  · rcases List.mem_append.mp ha with hpast | hlast
    · obtain ⟨acc, hacc⟩ := Option.ne_none_iff_exists'.mp (h.basicLoads a hpast)
      obtain ⟨acc', hacc', -⟩ := hkeeps.cached a acc hacc
      simp [hacc']
    · exact hkeeps.basicLoads a (List.mem_singleton.mp hlast).symm

/-- What is safe on the cache is what is safe on the database after those requests. -/
lemma CachedFrom.readSafe_iff {d : KabuDB} (h : CachedFrom d c past) (r : DbRead) :
    c.ReadSafe r ↔ SafeAfter d past r := by
  cases r with
  | basic a =>
      simp only [KabuDB.ReadSafe, SafeAfter, h.readOnlyRef, h.extDb]
      cases hd : d.accounts.lookup a with
      | some old =>
          obtain ⟨acc, hacc, hinfo⟩ := h.cached a old hd
          simp only [hacc, readBasic, hinfo, reduceCtorEq, false_implies]
      | none =>
          cases hc : c.accounts.lookup a with
          | none => exact Iff.rfl
          | some acc =>
              obtain ⟨hinfo, hzero, -⟩ := h.loaded a acc hd hc
              simp only [readBasic, ← hinfo]
              exact and_congr_right fun _ => iff_of_true (by simp) fun _ => hzero
  | storage a s =>
      simp only [KabuDB.ReadSafe, SafeAfter, h.readOnlyRef, h.extDb]
      cases hd : d.accounts.lookup a with
      | some old =>
          obtain ⟨acc, hacc, -⟩ := h.cached a old hd
          simp [hacc]
      | none =>
          cases hc : c.accounts.lookup a with
          | none =>
              have hnot : .basic a ∉ past := fun hmem => h.basicLoads a hmem hc
              simp [hnot]
          | some acc =>
              obtain ⟨hinfo, hzero, herror⟩ := h.loaded a acc hd hc
              refine iff_of_true (by simp) fun _ => ⟨fun e he => .inr (herror e he), fun hok => ?_⟩
              refine hzero ?_
              rw [hinfo, hok]
              rfl
  | codeByHash h => exact Iff.rfl
  | blockHash n => exact Iff.rfl

lemma CachedFrom.readsTransparent_iff {d : KabuDB} (h : CachedFrom d c past)
    (reads : List DbRead) :
    ReadsTransparent c reads ↔
      ∀ p r q, reads = p ++ r :: q → SafeAfter d (past ++ p) r := by
  induction reads generalizing c past with
  | nil =>
      refine iff_of_true ⟨rfl, SameReads.refl c⟩ ?_
      intro p r q heq
      simp at heq
  | cons r reads ih =>
      rw [readsTransparent_cons, h.readSafe_iff,
        Runs.forall_split_cons (P := fun p r => SafeAfter d (past ++ p) r), List.append_nil]
      refine and_congr_right fun hsafe => ?_
      rw [ih (h.step ((h.readSafe_iff r).mpr hsafe))]
      simp only [List.append_assoc, List.singleton_append]

/-- **Reading through the cache.**  A sequence of requests answers as the plain reads of the
database, and leaves them as they were, exactly when each request is safe after the ones
before it. -/
theorem reads_transparent_iff (db : KabuDB) (reads : List DbRead) :
    ReadsTransparent db reads ↔
      ∀ past r rest, reads = past ++ r :: rest → SafeAfter db past r :=
  (CachedFrom.refl db).readsTransparent_iff reads

/-- More requests before it make no request unsafe. -/
lemma SafeAfter.mono {db : KabuDB} {past' : List DbRead} (hsub : past ⊆ past')
    (h : SafeAfter db past r) : SafeAfter db past' r := by
  cases r with
  | basic a => exact h
  | storage a s =>
      intro hnone
      obtain ⟨herror, hmissing⟩ := h hnone
      exact ⟨fun e he => (herror e he).imp_right fun hmem => hsub hmem, hmissing⟩
  | codeByHash _ => trivial
  | blockHash _ => trivial

/-- **Callers that share a database.**  If the requests of each caller alone answer as plain reads
and leave them as they were, then so do the requests of all of them, however they interleave. -/
theorem interleaved_reads_transparent {Caller : Type*} [DecidableEq Caller] (db : KabuDB)
    (requests : List (Caller × DbRead))
    (h : ∀ caller, ReadsTransparent db ((requests.filter (·.1 = caller)).map Prod.snd)) :
    ReadsTransparent db (requests.map Prod.snd) := by
  refine ((CachedFrom.refl db).readsTransparent_iff _).mpr fun p r q heq => ?_
  obtain ⟨past, rest, rfl, rfl, hrest⟩ := List.map_eq_append_iff.mp heq
  obtain ⟨⟨caller, r⟩, rest, rfl, rfl, rfl⟩ := List.map_eq_cons_iff.mp hrest
  -- on its own, the request comes after those of the same caller only
  have hown := ((CachedFrom.refl db).readsTransparent_iff _).mp (h caller)
    ((past.filter (·.1 = caller)).map Prod.snd) r ((rest.filter (·.1 = caller)).map Prod.snd)
    (by simp)
  exact hown.mono (List.map_subset _ List.filter_sublist.subset)

/-! ### A failing lookup that is cached -/

/-- An external database whose account reads fail and in which every slot is `7`. -/
def failingDbRef : DatabaseRef where
  basicRef _ := .error .transportError
  codeByHashRef _ := .ok default
  storageRef _ _ := .ok 7
  blockHashRef _ := .ok 0

def failingDb : KabuDB := KabuDB.new.withExtDb failingDbRef

/-- Asking for an account whose lookup fails makes its slots read as zero. -/
theorem failingDb_basic_hides_slot :
    failingDb.storageRef 1 0 = .ok 7 ∧
      (failingDb.readAll [.basic 1]).2.storageRef 1 0 = .ok 0 ∧
      ¬ ReadsTransparent failingDb [.basic 1] := by
  have hbefore : failingDb.storageRef 1 0 = .ok 7 := rfl
  have hafter : (failingDb.readAll [.basic 1]).2.storageRef 1 0 = .ok 0 := rfl
  refine ⟨hbefore, hafter, ?_⟩
  rintro ⟨-, hsame⟩
  have hslot := hsame.storage 1 0
  rw [hbefore, hafter] at hslot
  simp at hslot

/-- One caller asks an empty database for an account, another one for a slot of it. -/
theorem empty_interleaved_reads :
    letI := constKeccak
    ReadsTransparent (KabuDB.new.withExtDb emptyDbRef) [.basic 1, .storage 1 0] := by
  let _ := constKeccak
  refine interleaved_reads_transparent _ [(true, .basic 1), (false, .storage 1 0)] fun caller => ?_
  cases caller with
  | true =>
      exact (readsTransparent_cons _ _ []).mpr ⟨⟨by simp, fun _ _ _ => rfl⟩, rfl, .refl _⟩
  | false =>
      exact (readsTransparent_cons _ _ []).mpr ⟨fun _ => ⟨nofun, fun _ _ => rfl⟩, rfl, .refl _⟩

end Kabu
