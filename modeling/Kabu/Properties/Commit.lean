import Kabu.Evm.Commit
import Kabu.Framework.Runs

/-!
# What accounts read as after a commit

`CommitReads` is the contract of one commit, stated on reads alone: a destroyed account is gone
and its slots are zero, a created one has the committed slots and no others, a merely touched
one has the committed slots over the ones it had, and every other address reads as before.

The commit keeps this contract except in one situation.  An account that a former commit
destroyed is cached as *not existing*, and that state alone is what makes its missing slots
read as zero.  When such an account is touched again, without being created, the commit stores
the state *touched*, and the missing slots are served by the layers below once more.
`WipedStaysZero` is the condition that this cannot be seen, and `commit_run_reads_iff` says
that it is exactly the condition under which every call of a run of commits keeps the contract.
-/

namespace Kabu

open KabuDBHelper KabuDB

/-- The contract of a commit of `changes` that takes `d` to `d'`, on reads. -/
structure CommitReads (d : KabuDB) (changes : AssocMap Address Account) (d' : KabuDB) : Prop where
  /-- A destroyed account is gone, with its storage. -/
  selfdestructed : ∀ a account, a ≠ 0 → changes.lookup a = some account → account.isTouched →
    account.isSelfdestructed → d'.basicRef a = .ok none ∧ ∀ s, d'.storageRef a s = .ok 0
  /-- A created account has the committed slots and no others. -/
  created : ∀ a account, a ≠ 0 → changes.lookup a = some account → account.isTouched →
    account.isSelfdestructed = false → account.isCreated →
    ∀ s, d'.storageRef a s = .ok (((account.storage.lookup s).map (·.presentValue)).getD 0)
  /-- A touched account has the committed slots, and otherwise those it had. -/
  touched : ∀ a account, a ≠ 0 → changes.lookup a = some account → account.isTouched →
    account.isSelfdestructed = false → account.isCreated = false →
    ∀ s, d'.storageRef a s = match account.storage.lookup s with
      | some slot => .ok slot.presentValue
      | none => d.storageRef a s
  /-- Everything else reads as before. -/
  untouched : ∀ a, a ≠ 0 → (∀ account, changes.lookup a = some account → account.isTouched = false) →
    d'.basicRef a = d.basicRef a ∧ ∀ s, d'.storageRef a s = d.storageRef a s

/-- An account that is cached as not existing and is touched without being created has, in the
layers below, nothing but zero at the slots that neither the cache nor the change set has. -/
def WipedStaysZero (d : KabuDB) (changes : AssocMap Address Account) : Prop :=
  ∀ a account old, a ≠ 0 → changes.lookup a = some account → account.isTouched →
    account.isSelfdestructed = false → account.isCreated = false →
    d.accounts.lookup a = some old → old.accountState = .notExisting →
    ∀ s, account.storage.lookup s = none → old.storage.lookup s = none →
      getOrFetchStorage d.readOnlyRef d.extDb a s = .ok 0

/-! ## One commit, and a run of them -/

section Run

variable [Keccak]

lemma commit_selfdestructed (d : KabuDB) {changes : AssocMap Address Account} {a : Address}
    {account : Account} (ha : a ≠ 0) (h : changes.lookup a = some account)
    (ht : account.isTouched = true) (hs : account.isSelfdestructed = true) :
    (d.commit changes).basicRef a = .ok none ∧ ∀ s, (d.commit changes).storageRef a s = .ok 0 := by
  refine ⟨?_, fun s => ?_⟩
  · rw [basicRef_commit d changes ha, h, AssocMap.applyAt_some, committed_of_selfdestructed ht hs]
    rfl
  · rw [storageRef_commit, h, AssocMap.applyAt_some, committed_of_selfdestructed ht hs]
    rfl

lemma commit_untouched (d : KabuDB) {changes : AssocMap Address Account} {a : Address}
    (ha : a ≠ 0)
    (h : ∀ account, changes.lookup a = some account → account.isTouched = false) :
    (d.commit changes).basicRef a = d.basicRef a ∧
      ∀ s, (d.commit changes).storageRef a s = d.storageRef a s := by
  have hsame : AssocMap.applyAt committed (changes.lookup a) (d.accounts.lookup a) =
      d.accounts.lookup a := by
    cases hc : changes.lookup a with
    | none => rfl
    | some account => exact committed_of_not_touched (h account hc)
  refine ⟨?_, fun s => ?_⟩
  · rw [basicRef_commit d changes ha, hsame, basicRef_eq d ha]
  · rw [storageRef_commit, hsame, storageRef_eq]

/-- **One commit keeps its contract exactly when no wiped account shows through.** -/
lemma commit_reads_iff (d : KabuDB) (changes : AssocMap Address Account) :
    CommitReads d changes (d.commit changes) ↔ WipedStaysZero d changes := by
  constructor
  · intro h a account old ha hc ht hs hn hold hst s hslot hmiss
    have hread := h.touched a account ha hc ht hs hn s
    rw [storageRef_commit, hc, AssocMap.applyAt_some, readStorage_touched ht hs hn, hslot,
      storageRef_eq] at hread
    exact (keptSlot_eq_iff s).mp hread old hold hst hmiss
  · intro h
    refine
      { selfdestructed := fun a account ha hc ht hs => commit_selfdestructed d ha hc ht hs
        created := fun a account ha hc ht hs hn s => ?_
        touched := fun a account ha hc ht hs hn s => ?_
        untouched := fun a ha hc => commit_untouched d ha hc }
    · rw [storageRef_commit, hc, AssocMap.applyAt_some, readStorage_created ht hs hn]
    · rw [storageRef_commit, hc, AssocMap.applyAt_some, readStorage_touched ht hs hn]
      cases hslot : account.storage.lookup s with
      | some slot => rfl
      | none =>
          rw [storageRef_eq]
          refine (keptSlot_eq_iff s).mpr ?_
          intro acc hold hst hmiss
          exact h a account acc ha hc ht hs hn hold hst s hslot hmiss

/-- **Commit semantics.**  In a run of commits, every call keeps the contract exactly when
every call meets the condition in the state it is made in. -/
theorem commit_run_reads_iff (db : KabuDB) (run : List (AssocMap Address Account)) :
    Runs.EveryStep commit CommitReads db run ↔
      Runs.EveryStep commit (fun d changes _ => WipedStaysZero d changes) db run :=
  Runs.everyStep_congr commit_reads_iff db run

end Run

/-! ### An account that comes back with its old storage -/

/-- A database over a read-only layer in which account `1` has the value `7` in slot `0`. -/
def layeredDb : KabuDB :=
  new.withRoDb (some (new.setAccount 1 ⟨default, .none, (∅ : AssocMap U256 U256).insert 0 7⟩))

def destroyChange : AssocMap Address Account :=
  (∅ : AssocMap Address Account).insert 1 ⟨default, ∅, ⟨false, true, true⟩⟩

def touchChange : AssocMap Address Account :=
  (∅ : AssocMap Address Account).insert 1 ⟨default, ∅, AccountStatus.onlyTouched⟩

/-- Destroyed by one commit and touched by the next, account `1` has its old slot again. -/
theorem destroyed_slot_comes_back :
    letI := constKeccak
    (layeredDb.commit destroyChange).storageRef 1 0 = .ok 0 ∧
      ((layeredDb.commit destroyChange).commit touchChange).storageRef 1 0 = .ok 7 ∧
      ¬ Runs.EveryStep commit CommitReads layeredDb [destroyChange, touchChange] := by
  let _ := constKeccak
  have hzero : (layeredDb.commit destroyChange).storageRef 1 0 = .ok 0 := rfl
  have hseven : ((layeredDb.commit destroyChange).commit touchChange).storageRef 1 0 = .ok 7 := rfl
  refine ⟨hzero, hseven, ?_⟩
  rintro ⟨-, htouch, -⟩
  have hsame := htouch.touched 1 _ (by decide) rfl rfl rfl rfl 0
  have hread : ((layeredDb.commit destroyChange).commit touchChange).storageRef 1 0 =
      (layeredDb.commit destroyChange).storageRef 1 0 := hsame
  rw [hzero, hseven] at hread
  simp at hread

end Kabu
