import Kabu.Framework.GreedyChoice
import Kabu.Events.BestTxCompose

/-!
# Merging swaps along different paths

Swaps that were found separately can be made in one transaction, as long as none of them changes a
pool that another one has been priced in.  For a new request the source goes through the swaps it
has seen and takes each one that has no pool in common with the request and with those taken before.

The source carries the pools along in one list.  `getMergeList_eq_choose` says that this is a greedy
choice with `SharesPool` as the clash, and `getMergeList_disjoint` is what follows.
-/

namespace Kabu

namespace DiffPathMerger

variable {request p q : SwapComposeData} {swapPaths : List SwapComposeData}

/-- The pools so far and the list so far, after one more candidate. -/
def mergeStep (s : List PoolId × List SwapComposeData) (p : SwapComposeData) :
    List PoolId × List SwapComposeData :=
  if !p.crossPools s.1 then (s.1 ++ p.swap.getPoolIdVec, s.2 ++ [p]) else s

def getMergeList (request : SwapComposeData) (swapPaths : List SwapComposeData) :
    List SwapComposeData :=
  (swapPaths.foldl mergeStep (request.swap.getPoolIdVec, [])).2

/-! ## Pools in common -/

/-- Two requests have a pool in common. -/
def SharesPool (p q : SwapComposeData) : Prop := ∃ id, p.swap.UsesPool id ∧ q.swap.UsesPool id

lemma crossPools_iff {pools : List PoolId} :
    p.crossPools pools = true ↔ ∃ id ∈ pools, p.swap.UsesPool id := by
  simp only [SwapComposeData.crossPools, List.any_eq_true, List.contains_iff_mem,
    Swap.mem_getPoolIdVec]
  exact exists_congr fun id => and_comm

lemma crossPools_getPoolIdVec_iff : p.crossPools q.swap.getPoolIdVec = true ↔ SharesPool q p := by
  simp only [crossPools_iff, Swap.mem_getPoolIdVec, SharesPool]

instance : DecidableRel SharesPool := fun p q =>
  decidable_of_iff (q.crossPools p.swap.getPoolIdVec = true) crossPools_getPoolIdVec_iff

/-- The pools that are carried along are asked one request after another. -/
lemma crossPools_flatMap_iff {taken : List SwapComposeData} :
    p.crossPools (taken.flatMap fun q => q.swap.getPoolIdVec) = true ↔
      ∃ q ∈ taken, SharesPool q p := by
  simp only [crossPools_iff, List.mem_flatMap, Swap.mem_getPoolIdVec, SharesPool]
  constructor
  · rintro ⟨id, ⟨q, hq, hid⟩, hid'⟩
    exact ⟨q, hq, id, hid, hid'⟩
  · rintro ⟨q, hq, id, hid, hid'⟩
    exact ⟨id, ⟨q, hq, hid⟩, hid'⟩

/-! ## The choice -/

open GreedyChoice

/-- The loop makes the greedy choice, and carries along the pools of what has been chosen. -/
lemma foldl_mergeStep (request : SwapComposeData) (swapPaths : List SwapComposeData) :
    swapPaths.foldl mergeStep (request.swap.getPoolIdVec, []) =
      ((request :: choose SharesPool request swapPaths).flatMap fun q => q.swap.getPoolIdVec,
        choose SharesPool request swapPaths) := by
  induction swapPaths using List.reverseRecOn with
  | nil => simp [choose]
  | append_singleton swapPaths p ih =>
      rw [List.foldl_append, ih, choose_append_singleton]
      simp only [List.foldl_cons, List.foldl_nil, mergeStep, step, ← crossPools_flatMap_iff]
      cases p.crossPools ((request :: choose SharesPool request swapPaths).flatMap fun q =>
          q.swap.getPoolIdVec) with
      | true => rfl
      | false => simp

lemma getMergeList_eq_choose (request : SwapComposeData) (swapPaths : List SwapComposeData) :
    getMergeList request swapPaths = choose SharesPool request swapPaths := by
  rw [getMergeList, foldl_mergeStep]

/-- **The request and the swaps it is merged with have no pool in common.**  The swaps are taken in
the order of the list, and one that is not taken has a pool in common with the request or with one
that is taken and stands before it. -/
theorem getMergeList_disjoint (request : SwapComposeData) (swapPaths : List SwapComposeData) :
    (request :: getMergeList request swapPaths).Pairwise (fun p q => ¬ SharesPool p q) ∧
      ∃ positions : List ℕ, positions.Pairwise (· < ·) ∧
        (∀ i ∈ positions, i < swapPaths.length) ∧
        getMergeList request swapPaths = positions.filterMap (swapPaths[·]?) ∧
        ∀ j p, swapPaths[j]? = some p → j ∉ positions →
          SharesPool request p ∨
            ∃ i ∈ positions, i < j ∧ ∃ q, swapPaths[i]? = some q ∧ SharesPool q p := by
  rw [getMergeList_eq_choose]
  have hpositions : ∃ positions, TakenAt SharesPool request swapPaths positions ∧ _ :=
    exists_positions swapPaths
  obtain ⟨positions, htaken, hchoose⟩ := hpositions
  exact ⟨pairwise_choose swapPaths, positions, htaken.ascending, htaken.lt_length, hchoose,
    htaken.left_out⟩

end DiffPathMerger

end Kabu
