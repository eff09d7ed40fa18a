import Kabu.Core.BlockHistoryActor
import Kabu.Framework.LastWrite

/-!
# The override of a block

A node is asked to simulate on the state after the latest block, and for that it is given what the
block's diffs say.  There is a diff for each transaction, so an account can be in several, with
other fields and slots in each.  The override should have the last balance and nonce that a diff
gives, and for every slot that a diff writes the last value.

Each diff is put in place of what the earlier ones said of the account.  So the override has the
fields and slots of the last diff that mentions the account (`lookup_nodeStateOverride`), and is
right exactly if that diff covers those before it (`nodeStateOverride_describes_iff`).
-/

namespace Kabu

open LastWrite

/-- The override says of every account what the last diffs say that give its balance, give its
nonce and write its slots. -/
def DescribesBlock (override : AssocMap Address AccountOverride) (diffs : GethStateUpdateVec) :
    Prop :=
  ∀ addr,
    (override.lookup addr).bind (·.balance) =
        lastWrite (fun diff => (diff.lookup addr).bind (·.balance)) diffs ∧
      (override.lookup addr).bind (·.nonce) =
        lastWrite (fun diff => (diff.lookup addr).bind (·.nonce)) diffs ∧
      ∀ slot, ((override.lookup addr).bind (·.stateDiff)).bind (·.lookup slot) =
        lastWrite (fun diff => (diff.lookup addr).bind (·.storage.lookup slot)) diffs

/-- What is said of the account before is said again: its fields are given and its slots written. -/
structure GethAccountState.Covers (state earlier : GethAccountState) : Prop where
  balance : earlier.balance.isSome → state.balance.isSome
  nonce : earlier.nonce.isSome → state.nonce.isSome
  storage : ∀ slot, (earlier.storage.lookup slot).isSome → (state.storage.lookup slot).isSome

/-- The last diff that mentions an account covers the earlier ones. -/
def LastCovers (diffs : GethStateUpdateVec) : Prop :=
  ∀ addr past diff rest state, diffs = past ++ diff :: rest → diff.lookup addr = some state →
    (∀ later ∈ rest, later.lookup addr = none) →
      ∀ earlier ∈ past, ∀ before, earlier.lookup addr = some before → state.Covers before

lemma lookup_nodeStateOverride {Block : Type*} (latest : LatestBlock Block) (addr : Address) :
    latest.nodeStateOverride.lookup addr =
      (lastWrite (fun diff => diff.lookup addr) (latest.diff.getD [])).map fun state =>
        ⟨state.balance, state.nonce, some state.storage⟩ := by
  have hdiff : ∀ (override : AssocMap Address AccountOverride) (diff : GethStateUpdate),
      (diff.foldl LatestBlock.overrideAccount override).lookup addr =
        ((diff.lookup addr).map fun state =>
          (⟨state.balance, state.nonce, some state.storage⟩ : AccountOverride)).or
            (override.lookup addr) := by
    intro override diff
    rw [AssocMap.foldl_obs LatestBlock.overrideAccount (fun override addr => override.lookup addr)
      (fun _ state _ => some ⟨state.balance, state.nonce, some state.storage⟩)
      (fun override addr state => ?_) (fun override addr state addr' hne => ?_) diff override addr]
    · cases diff.lookup addr <;> rfl
    · unfold LatestBlock.overrideAccount
      rw [AssocMap.lookup_upsert, if_pos rfl]
    · unfold LatestBlock.overrideAccount
      rw [AssocMap.lookup_upsert, if_neg hne]
  have hall := foldl_or (fun override (diff : GethStateUpdate) =>
    diff.foldl LatestBlock.overrideAccount override) (fun override => override.lookup addr) _ hdiff
    ∅ (latest.diff.getD [])
  unfold LatestBlock.nodeStateOverride
  rw [hall, AssocMap.lookup_empty_eq, Option.or_none, lastWrite_map]

/-- **When the override describes the block.**  For every block, the override has for each account
the last balance, the last nonce and the last value of each slot that the block's diffs give,
exactly if the last diff that mentions an account gives every field and writes every slot of it
that an earlier diff does. -/
theorem nodeStateOverride_describes_iff {Block : Type*} (latest : LatestBlock Block) :
    DescribesBlock latest.nodeStateOverride (latest.diff.getD []) ↔
      LastCovers (latest.diff.getD []) := by
  unfold DescribesBlock
  simp only [lookup_nodeStateOverride, Option.bind_map, Function.comp_def,
    Option.bind_assoc, Option.bind_some]
  generalize latest.diff.getD [] = diffs
  simp only [bind_lastWrite_eq_iff]
  constructor
  · intro h addr past diff rest state heq hstate hrest earlier hearlier before hbefore
    obtain ⟨hbalance, hnonce, hstorage⟩ := h addr
    exact ⟨hbalance past diff rest state heq hstate hrest earlier hearlier before hbefore,
      hnonce past diff rest state heq hstate hrest earlier hearlier before hbefore, fun slot =>
        hstorage slot past diff rest state heq hstate hrest earlier hearlier before hbefore⟩
  · intro h addr
    refine ⟨?_, ?_, fun slot => ?_⟩ <;>
      intro past diff rest state heq hstate hrest earlier hearlier before hbefore
    · exact (h addr past diff rest state heq hstate hrest earlier hearlier before hbefore).balance
    · exact (h addr past diff rest state heq hstate hrest earlier hearlier before hbefore).nonce
    · exact (h addr past diff rest state heq hstate hrest earlier hearlier before
        hbefore).storage slot

/-! ### A block with two transactions -/

/-- The first transaction changes the balance of the account and two of its slots, the second one
of the slots. -/
def twoDiffs : GethStateUpdateVec :=
  [AList.singleton 1 ⟨some 100, none, none, ((∅ : AssocMap B256 B256).insert 7 1).insert 8 2⟩,
    AList.singleton 1 ⟨none, none, none, AList.singleton 8 3⟩]

def twoDiffsBlock : LatestBlock Unit := { LatestBlock.new 1 1 with diff := some twoDiffs }

/-- **A lost balance.**  The second diff takes the balance of the first one away, and a slot. -/
theorem override_loses_balance :
    (twoDiffsBlock.nodeStateOverride.lookup 1).bind (·.balance) = none ∧
      lastWrite (fun diff : GethStateUpdate => (diff.lookup 1).bind (·.balance)) twoDiffs =
        some 100 ∧
      ¬ DescribesBlock twoDiffsBlock.nodeStateOverride twoDiffs := by
  have hlost : (twoDiffsBlock.nodeStateOverride.lookup 1).bind (·.balance) = none := by
    decide +kernel
  have hgiven : lastWrite (fun diff : GethStateUpdate => (diff.lookup 1).bind (·.balance))
      twoDiffs = some 100 := by decide +kernel
  refine ⟨hlost, hgiven, fun h => ?_⟩
  have hsame := (h 1).1
  rw [hlost, hgiven] at hsame
  simp at hsame

end Kabu
