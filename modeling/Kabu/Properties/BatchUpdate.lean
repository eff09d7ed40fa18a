import Kabu.Evm.TraceDiff
import Kabu.Market.MarketState

/-!
# A list of diffs in one commit and one by one

`applyGethStateUpdateVec` builds every record against the database it is given and lets a later
record replace an earlier one for the same account.  So, of the parts the diffs have for an
account, only the last one takes effect.  Applied one by one, as `MarketState.applyGethUpdateVec`
does, all of them do.

`EarlierWritesKept` is the condition that nothing is lost for an account: whatever an earlier
part wrote and the last part leaves out is what the account reads as without it.  The code hash
has a case of its own even when no part writes code, because storing an account fills the hash
in and the two ways store it a different number of times.  `applyGethStateUpdateVec_reads_iff`
says that the two ways read alike exactly when the condition holds for every account with more
than one part.
-/

namespace Kabu

open KabuDBHelper KabuDB DatabaseHelpers LastWrite

/-- Two databases answer account and storage reads alike. -/
def SameAccountReads (d d' : KabuDB) : Prop :=
  ∀ a, d.basicRef a = d'.basicRef a ∧ ∀ s, d.storageRef a s = d'.storageRef a s

section Batch

variable [Keccak]

/-- What the parts before the last one wrote at `a` and the last one leaves out is what `a`
reads as without them. -/
structure EarlierWritesKept (db : KabuDB) (a : Address) (earlier : List GethAccountState)
    (last : GethAccountState) : Prop where
  balance : last.balance = none → ∀ b, lastWrite (·.balance) earlier = some b →
    b = (baseInfo db.toRef a).balance
  nonce : last.nonce = none → ∀ n, lastWrite (·.nonce) earlier = some n →
    n = (baseInfo db.toRef a).nonce
  code : last.code = none → match lastWrite (·.code) earlier with
    | some code => some (Bytecode.newRaw code) = (baseInfo db.toRef a).code ∧
        contractHash (some (Bytecode.newRaw code)) (Bytecode.newRaw code).hashSlow =
          nextHash (baseInfo db.toRef a)
    | none => contractHash (baseInfo db.toRef a).code (nextHash (baseInfo db.toRef a)) =
        nextHash (baseInfo db.toRef a)
  storage : ∀ s, last.storage.lookup s = none →
    ∀ v, lastWrite (·.storage.lookup s) earlier = some v →
      .ok v = keptSlot (db.accounts.lookup a) db.readOnlyRef db.extDb a s

/-! ## Two infos after the same diff -/

lemma contractInfo_updateInfo_eq_iff (i j : AccountInfo) (state : GethAccountState) :
    contractInfo (updateInfo i state) = contractInfo (updateInfo j state) ↔
      (state.balance = none → i.balance = j.balance) ∧ (state.nonce = none → i.nonce = j.nonce) ∧
        (state.code = none → i.code = j.code ∧ nextHash i = nextHash j) := by
  have hfields : contractInfo (updateInfo i state) = contractInfo (updateInfo j state) ↔
      (updateInfo i state).balance = (updateInfo j state).balance ∧
        (updateInfo i state).nonce = (updateInfo j state).nonce ∧
        (updateInfo i state).code = (updateInfo j state).code ∧
        nextHash (updateInfo i state) = nextHash (updateInfo j state) := by
    rw [contractInfo, contractInfo, AccountInfo.mk.injEq]
    constructor
    · rintro ⟨hb, hn, hh, hc⟩
      exact ⟨hb, hn, hc, hh⟩
    · rintro ⟨hb, hn, hc, hh⟩
      exact ⟨hb, hn, hh, hc⟩
  rw [hfields, balance_updateInfo, balance_updateInfo, nonce_updateInfo, nonce_updateInfo]
  refine and_congr ?_ (and_congr ?_ ?_)
  · cases state.balance <;> simp
  · cases state.nonce <;> simp
  · rw [nextHash, nextHash, code_updateInfo, code_updateInfo, codeHash_updateInfo,
      codeHash_updateInfo]
    cases state.code <;> simp [nextHash]

/-! ## One account -/

section OneAccount

variable {a : Address} {earlier : List GethAccountState}

lemma traced_info_eq_iff (ro ext : Option DatabaseRef) (old : Option FastDbAccount)
    (hearlier : earlier ≠ []) (last : GethAccountState) :
    contractInfo (updateInfo (tracedInfo ro ext a (earlier.foldl (tracedAccount ro ext a) old))
        last) = contractInfo (updateInfo (tracedInfo ro ext a old) last) ↔
      (last.balance = none → ∀ b, lastWrite (·.balance) earlier = some b →
        b = (tracedInfo ro ext a old).balance) ∧
      (last.nonce = none → ∀ n, lastWrite (·.nonce) earlier = some n →
        n = (tracedInfo ro ext a old).nonce) ∧
      (last.code = none → match lastWrite (·.code) earlier with
        | some code => some (Bytecode.newRaw code) = (tracedInfo ro ext a old).code ∧
            contractHash (some (Bytecode.newRaw code)) (Bytecode.newRaw code).hashSlow =
              nextHash (tracedInfo ro ext a old)
        | none => contractHash (tracedInfo ro ext a old).code
            (nextHash (tracedInfo ro ext a old)) = nextHash (tracedInfo ro ext a old)) := by
  rw [contractInfo_updateInfo_eq_iff,
    tracedInfo_foldl ro ext a old AccountInfo.balance balance_updateInfo,
    tracedInfo_foldl ro ext a old AccountInfo.nonce nonce_updateInfo, code_foldl,
    nextHash_foldl ro ext a old hearlier]
  refine and_congr ?_ (and_congr ?_ (imp_congr_right fun _ => ?_))
  · cases lastWrite (·.balance) earlier <;> simp
  · cases lastWrite (·.nonce) earlier <;> simp
  · cases lastWrite (·.code) earlier <;> simp

lemma traced_slot_eq_iff (ro ext : Option DatabaseRef) (old : Option FastDbAccount)
    (last : GethAccountState) (s : U256) :
    readStorage (tracedAccount ro ext a (earlier.foldl (tracedAccount ro ext a) old) last)
        ro ext a s = readStorage (tracedAccount ro ext a old last) ro ext a s ↔
      (last.storage.lookup s = none → ∀ v, lastWrite (·.storage.lookup s) earlier = some v →
        .ok v = keptSlot old ro ext a s) := by
  rw [readStorage_tracedAccount, readStorage_tracedAccount, keptSlot_foldl, getD_getD_eq_iff]
  cases last.storage.lookup s <;> cases lastWrite (·.storage.lookup s) earlier <;> simp

lemma traced_reads_iff (db : KabuDB) (ha : a ≠ 0) (hearlier : earlier ≠ [])
    (last : GethAccountState) :
    (readBasic (tracedAccount db.readOnlyRef db.extDb a (db.accounts.lookup a) last)
          db.readOnlyRef db.extDb a =
        readBasic ((earlier ++ [last]).foldl (tracedAccount db.readOnlyRef db.extDb a)
          (db.accounts.lookup a)) db.readOnlyRef db.extDb a ∧
      ∀ s, readStorage (tracedAccount db.readOnlyRef db.extDb a (db.accounts.lookup a) last)
          db.readOnlyRef db.extDb a s =
        readStorage ((earlier ++ [last]).foldl (tracedAccount db.readOnlyRef db.extDb a)
          (db.accounts.lookup a)) db.readOnlyRef db.extDb a s) ↔
      EarlierWritesKept db a earlier last := by
  have hbase : baseInfo db.toRef a = tracedInfo db.readOnlyRef db.extDb a (db.accounts.lookup a) :=
    baseInfo_toRef db ha
  have hinfo := traced_info_eq_iff (a := a) db.readOnlyRef db.extDb (db.accounts.lookup a)
    hearlier last
  simp only [List.foldl_append, List.foldl_cons, List.foldl_nil, readBasic_tracedAccount,
    Option.some.injEq]
  rw [eq_comm, hinfo]
  simp only [eq_comm (a := readStorage (tracedAccount _ _ _ (db.accounts.lookup a) last) _ _ _ _),
    traced_slot_eq_iff]
  constructor
  · rintro ⟨⟨hb, hn, hc⟩, hs⟩
    exact ⟨hbase ▸ hb, hbase ▸ hn, hbase ▸ hc, hs⟩
  · rintro ⟨hb, hn, hc, hs⟩
    exact ⟨⟨hbase ▸ hb, hbase ▸ hn, hbase ▸ hc⟩, hs⟩

end OneAccount

/-! ## Every account -/

omit [Keccak] in
/-- Reads agree as soon as they agree on what the writable layer holds, account by account. -/
lemma sameAccountReads_iff {d d' : KabuDB} (hro : d'.readOnlyRef = d.readOnlyRef)
    (hext : d'.extDb = d.extDb) (hzero : d'.accounts.lookup 0 = d.accounts.lookup 0) :
    SameAccountReads d d' ↔ ∀ a, a ≠ 0 →
      readBasic (d.accounts.lookup a) d.readOnlyRef d.extDb a =
          readBasic (d'.accounts.lookup a) d.readOnlyRef d.extDb a ∧
        ∀ s, readStorage (d.accounts.lookup a) d.readOnlyRef d.extDb a s =
          readStorage (d'.accounts.lookup a) d.readOnlyRef d.extDb a s := by
  constructor
  · intro h a ha
    obtain ⟨hb, hs⟩ := h a
    rw [basicRef_eq d ha, basicRef_eq d' ha, hro, hext, Except.ok.injEq] at hb
    refine ⟨hb, fun s => ?_⟩
    have hslot := hs s
    rwa [storageRef_eq, storageRef_eq, hro, hext] at hslot
  · intro h a
    by_cases ha : a = 0
    · subst ha
      refine ⟨by rw [basicRef_zero, basicRef_zero], fun s => ?_⟩
      rw [storageRef_eq, storageRef_eq, hro, hext, hzero]
    · obtain ⟨hb, hs⟩ := h a ha
      refine ⟨by rw [basicRef_eq d ha, basicRef_eq d' ha, hro, hext, hb], fun s => ?_⟩
      rw [storageRef_eq, storageRef_eq, hro, hext, hs s]

/-- **Batch against one by one.**  Diffs applied through one change set read as diffs applied
one by one exactly when no account with several parts needs one of its earlier ones. -/
theorem applyGethStateUpdateVec_reads_iff (db : KabuDB) (updates : GethStateUpdateVec) :
    SameAccountReads (applyGethStateUpdateVec db updates)
        (updates.foldl applyGethStateUpdate db) ↔
      ∀ a, a ≠ 0 → ∀ earlier last, diffsOf updates a = earlier ++ [last] → earlier ≠ [] →
        EarlierWritesKept db a earlier last := by
  obtain ⟨hro, hext⟩ := foldl_applyGethStateUpdate_layers updates db
  have hro' : (applyGethStateUpdateVec db updates).readOnlyRef = db.readOnlyRef :=
    db.commit_readOnlyRef _
  have hext' : (applyGethStateUpdateVec db updates).extDb = db.extDb := db.commit_extDb _
  rw [sameAccountReads_iff (hro.trans hro'.symm) (hext.trans hext'.symm)
    ((foldl_applyGethStateUpdate_lookup_zero updates db).trans
      (applyGethStateUpdateVec_lookup_zero updates db).symm), hro', hext']
  refine forall_congr' fun a => imp_congr_right fun ha => ?_
  rw [foldl_applyGethStateUpdate_lookup updates db ha, applyGethStateUpdateVec_lookup updates db ha]
  rcases List.eq_nil_or_concat (diffsOf updates a) with hnil | ⟨earlier, last, hconcat⟩
  · -- no diff has a part for `a`, and both ways leave it alone
    rw [hnil]
    simp
  · rw [List.concat_eq_append] at hconcat
    rw [hconcat, List.getLast?_concat, AssocMap.applyAt_some]
    by_cases hearlier : earlier = []
    · -- a single part acts the same either way
      subst hearlier
      refine iff_of_true ⟨rfl, fun _ => rfl⟩ ?_
      intro earlier' last' heq hne
      have hlen := congrArg List.length heq
      rw [List.length_append, List.length_append] at hlen
      exact absurd (List.length_eq_zero_iff.mp (by simpa using hlen.symm)) hne
    · rw [traced_reads_iff db ha hearlier last]
      constructor
      · intro hkept earlier' last' heq _
        obtain ⟨rfl, hlast⟩ := List.append_inj' heq rfl
        rw [List.singleton_inj] at hlast
        exact hlast ▸ hkept
      · intro h
        exact h earlier last rfl hearlier

end Batch

/-! ### A lost write -/

/-- A diff that gives account `1` the balance `5` and writes `7` to its slot `0`, and one that
raises its nonce. -/
def fundThenNonce : GethStateUpdateVec :=
  [(∅ : GethStateUpdate).insert 1 ⟨some 5, none, none, (∅ : AssocMap B256 B256).insert 0 7⟩,
    (∅ : GethStateUpdate).insert 1 ⟨none, none, some 1, ∅⟩]

/-- The batch forgets the balance and the slot of the first diff. -/
theorem fundThenNonce_batch_loses_writes :
    letI := constKeccak
    (applyGethStateUpdateVec (default : KabuDB) fundThenNonce).storageRef 1 0 = .ok 0 ∧
      (fundThenNonce.foldl applyGethStateUpdate (default : KabuDB)).storageRef 1 0 = .ok 7 ∧
      ¬ SameAccountReads (applyGethStateUpdateVec (default : KabuDB) fundThenNonce)
        (fundThenNonce.foldl applyGethStateUpdate (default : KabuDB)) := by
  let _ := constKeccak
  have hbatch : (applyGethStateUpdateVec (default : KabuDB) fundThenNonce).storageRef 1 0 =
      .ok 0 := rfl
  have hseq : (fundThenNonce.foldl applyGethStateUpdate (default : KabuDB)).storageRef 1 0 =
      .ok 7 := rfl
  refine ⟨hbatch, hseq, ?_⟩
  intro h
  have hslot := (h 1).2 0
  rw [hbatch, hseq] at hslot
  simp at hslot

end Kabu
