import Mathlib.Data.List.Sort
import Kabu.Framework.Runs
import Kabu.Properties.SwapPaths
import Kabu.Strategy.ArbSearcher

/-!
# Events that are not searched

The worker of the searcher skips an event if it has started a search for the same pools in the same
block.  What else the event says does not count.  Two pending transactions that touch the same pools
are told apart by neither, so the second of them is not searched.

An event is skipped exactly if an earlier one with its next block number and its pools was handed to
a search, and no event for another block came in between (`receive_skips_iff`).
-/

namespace Kabu

namespace ArbSearcher

variable {DB Transaction : Type*}

/-- The event was handed to a search, coming after the messages. -/
def Searched (past : List (Except RecvError (StateUpdateEvent DB Transaction)))
    (event : StateUpdateEvent DB Transaction) : Prop :=
  ((Worker.run past).receive (.ok event)).2 = some event

def Skipped (past : List (Except RecvError (StateUpdateEvent DB Transaction)))
    (event : StateUpdateEvent DB Transaction) : Prop :=
  ((Worker.run past).receive (.ok event)).2 = none

/-- The two events are for the same block and affect the same pools. -/
def SameUpdate (event event' : StateUpdateEvent DB Transaction) : Prop :=
  event.nextBlockNumber = event'.nextBlockNumber ∧
    ∀ id, id ∈ event.directions.ids ↔ id ∈ event'.directions.ids

/-! ## The key of an event -/

lemma affectedPools_eq (event : StateUpdateEvent DB Transaction) :
    affectedPools event = event.directions.keys := by
  refine List.mergeSort_of_pairwise ?_
  have hsorted := event.directions.sorted
  rw [List.pairwise_map] at hsorted
  exact List.pairwise_map.mpr (hsorted.imp fun h => h.1)

lemma updateKey_poolUpdateKey (event : StateUpdateEvent DB Transaction) :
    updateKey (poolUpdateKey event) = (event.nextBlockNumber, event.directions.ids) := by
  rw [poolUpdateKey, affectedPools_eq]
  rfl

/-- Two maps with the same ids list them in the same order. -/
lemma ids_eq_iff (directions directions' : PoolDirections) :
    directions.ids = directions'.ids ↔ ∀ id, id ∈ directions.ids ↔ id ∈ directions'.ids := by
  have hsorted : ∀ d : PoolDirections, d.ids.Pairwise fun id id' =>
      id.le id' = true ∧ id ≠ id' := fun d => by
    unfold PoolDirections.ids PoolDirections.keys
    rw [List.map_map]
    exact d.sorted
  have hnodup : ∀ d : PoolDirections, d.ids.Nodup := fun d => (hsorted d).imp fun h => h.2
  constructor
  · rintro heq id
    rw [heq]
  · intro hmem
    refine List.Perm.eq_of_pairwise (fun id id' _ _ h h' => ?_) (hsorted directions)
      (hsorted directions') ((List.perm_ext_iff_of_nodup (hnodup _) (hnodup _)).mpr hmem)
    exact PoolId.le_antisymm id id' h.1 h'.1

lemma updateKey_eq_iff (event event' : StateUpdateEvent DB Transaction) :
    updateKey (poolUpdateKey event) = updateKey (poolUpdateKey event') ↔
      SameUpdate event event' := by
  rw [updateKey_poolUpdateKey, updateKey_poolUpdateKey, Prod.mk.injEq, ids_eq_iff, SameUpdate]

/-! ## The recent updates -/

variable (msgs : List (Except RecvError (StateUpdateEvent DB Transaction)))

namespace Worker

/-- The keys of the recent updates. -/
def recent (worker : Worker) : List (ℕ × List PoolId) :=
  worker.recentPoolUpdates.elems.map updateKey

/-- **One event.**  It is searched unless its key is recent for its block, and then its key is
recent, beside those that were so for its block. -/
lemma receive_ok (worker : Worker) (event : StateUpdateEvent DB Transaction)
    (hblock : ∀ k ∈ worker.recent, k.1 = worker.lastBlockNumber) :
    let next := worker.receive (.ok event)
    let k := updateKey (poolUpdateKey event)
    (next.2 = none ↔ k ∈ worker.recent) ∧ (next.2 = some event ↔ k ∉ worker.recent) ∧
      next.1.lastBlockNumber = event.nextBlockNumber ∧
      ∀ k', k' ∈ next.1.recent ↔
        k' ∈ worker.recent ∧ event.nextBlockNumber = k'.1 ∨ k' = k ∧ k ∉ worker.recent := by
  have hkept : ∀ k', k' ∈ (worker.onBlock event.nextBlockNumber).recent ↔
      k' ∈ worker.recent ∧ event.nextBlockNumber = k'.1 := by
    intro k'
    unfold onBlock
    split
    · rename_i hne
      refine ⟨fun hmem => absurd hmem List.not_mem_nil, fun hmem => absurd ?_ hne⟩
      exact hmem.2.trans (hblock k' hmem.1)
    · rename_i heq
      exact ⟨fun hmem => ⟨hmem, (not_not.mp heq).trans (hblock k' hmem).symm⟩, And.left⟩
  have hkey : updateKey (poolUpdateKey event) ∈ (worker.onBlock event.nextBlockNumber).recent ↔
      updateKey (poolUpdateKey event) ∈ worker.recent :=
    (hkept _).trans (and_iff_left rfl)
  have hlast : (worker.onBlock event.nextBlockNumber).lastBlockNumber = event.nextBlockNumber := by
    unfold onBlock
    split
    · rfl
    · rename_i heq
      exact (not_not.mp heq).symm
  have hcontains : (worker.onBlock event.nextBlockNumber).recentPoolUpdates.contains
      (poolUpdateKey event) = decide (updateKey (poolUpdateKey event) ∈ worker.recent) :=
    decide_eq_decide.mpr hkey
  dsimp only [receive]
  rw [hcontains]
  by_cases hknown : updateKey (poolUpdateKey event) ∈ worker.recent
  · rw [if_pos (decide_eq_true hknown)]
    refine ⟨by simp [hknown], by simp [hknown], hlast, fun k' => (hkept k').trans ?_⟩
    simp [hknown]
  · rw [if_neg (by rwa [decide_eq_true_eq])]
    refine ⟨by simp [hknown], by simp [hknown], hlast, fun k' => ?_⟩
    refine (KeyedSet.mem_keys_insert _ _ k').trans ?_
    rw [and_iff_left hknown]
    exact or_congr_left (hkept k')

lemma run_concat (msg : Except RecvError (StateUpdateEvent DB Transaction)) :
    run (msgs ++ [msg]) = ((run msgs).receive msg).1 := by
  unfold run
  rw [List.foldl_append]
  rfl

lemma recent_block : ∀ k ∈ (run msgs).recent, k.1 = (run msgs).lastBlockNumber := by
  induction msgs using List.reverseRecOn with
  | nil => exact fun k hk => absurd hk List.not_mem_nil
  | append_singleton msgs msg ih =>
      rw [run_concat]
      cases msg with
      | error reason => exact ih
      | ok event =>
          obtain ⟨-, -, hlast, hrecent⟩ := (run msgs).receive_ok event ih
          intro k hk
          rw [hlast]
          rcases (hrecent k).mp hk with ⟨-, hblock⟩ | ⟨rfl, -⟩
          · exact hblock.symm
          · rfl

end Worker

/-- **The recent updates of a run** are the keys of the events that were searched, and after which
no event for another block came. -/
lemma mem_recent_run (k : ℕ × List PoolId) :
    k ∈ (Worker.run msgs).recent ↔ ∃ past msg rest, msgs = past ++ msg :: rest ∧
      ∃ event, msg = .ok event ∧ updateKey (poolUpdateKey event) = k ∧ Searched past event ∧
        ∀ other, .ok other ∈ rest → other.nextBlockNumber = k.1 := by
  induction msgs using List.reverseRecOn with
  | nil =>
      refine ⟨fun hmem => absurd hmem List.not_mem_nil, ?_⟩
      rintro ⟨past, msg, rest, heq, -⟩
      simp at heq
  | append_singleton msgs msg ih =>
      rw [Runs.exists_split_concat, Worker.run_concat]
      cases msg with
      | error reason =>
          refine ih.trans ?_
          simp
      | ok event =>
          obtain ⟨-, hsearched, -, hrecent⟩ :=
            (Worker.run msgs).receive_ok event (Worker.recent_block msgs)
          rw [hrecent, or_comm, ih]
          refine or_congr ?_ ?_
          · constructor
            · rintro ⟨rfl, hnew⟩
              exact ⟨event, rfl, rfl, hsearched.mpr hnew, by simp⟩
            · rintro ⟨event', heq, rfl, hhanded, -⟩
              obtain rfl := Except.ok.inj heq
              exact ⟨rfl, hsearched.mp hhanded⟩
          · constructor
            · rintro ⟨⟨past, msg, rest, heq, event', hmsg, hk, hhanded, hrest⟩, hblock⟩
              refine ⟨past, msg, rest, heq, event', hmsg, hk, hhanded, fun other hother => ?_⟩
              rcases List.mem_append.mp hother with hold | hlast
              · exact hrest other hold
              · obtain rfl := Except.ok.inj (List.mem_singleton.mp hlast)
                exact hblock
            · rintro ⟨past, msg, rest, heq, event', hmsg, hk, hhanded, hrest⟩
              exact ⟨⟨past, msg, rest, heq, event', hmsg, hk, hhanded, fun other hother =>
                hrest other (List.mem_append_left _ hother)⟩, hrest event (by simp)⟩

/-- **Which events are skipped.**  After any messages, an event is skipped exactly if an earlier
event with the same next block number and the same affected pools was handed to a search, with no
event for another block since.  Every other event is handed to a search. -/
theorem receive_skips_iff (msgs : List (Except RecvError (StateUpdateEvent DB Transaction)))
    (event : StateUpdateEvent DB Transaction) :
    (Skipped msgs event ↔ ∃ past earlier rest, msgs = past ++ .ok earlier :: rest ∧
      SameUpdate earlier event ∧ Searched past earlier ∧
        ∀ other, .ok other ∈ rest → other.nextBlockNumber = event.nextBlockNumber) ∧
      (¬ Skipped msgs event → Searched msgs event) := by
  obtain ⟨hskipped, hsearched, -, -⟩ :=
    (Worker.run msgs).receive_ok event (Worker.recent_block msgs)
  refine ⟨hskipped.trans ((mem_recent_run msgs _).trans ?_), fun hnot =>
    hsearched.mpr fun hmem => hnot (hskipped.mpr hmem)⟩
  have hnumber : (updateKey (poolUpdateKey event)).1 = event.nextBlockNumber := rfl
  simp only [updateKey_eq_iff, hnumber]
  constructor
  · rintro ⟨past, msg, rest, heq, earlier, rfl, hsame, hhanded, hrest⟩
    exact ⟨past, earlier, rest, heq, hsame, hhanded, hrest⟩
  · rintro ⟨past, earlier, rest, heq, hsame, hhanded, hrest⟩
    exact ⟨past, _, rest, heq, earlier, rfl, hsame, hhanded, hrest⟩

/-- A pending transaction that changes one slot of a pool, for the same block and the same direction
whatever it writes. -/
def pendingSwap (hash : B256) (value : B256) : StateUpdateEvent Unit Bytes where
  nextBlockNumber := 101
  marketState := ()
  stateUpdate := [(∅ : GethStateUpdate).insert 12
    ⟨none, none, none, (∅ : AssocMap B256 B256).insert 8 value⟩]
  directions := ⟨[(pairPool 12 1 2, [⟨1, 2⟩])], List.pairwise_singleton _ _⟩
  stuffingTxsHashes := [hash]
  stuffingTxs := [[]]

/-- **A second transaction that is not searched.**  Two transactions that leave the pool in
different states. -/
theorem second_transaction_skipped :
    (pendingSwap 1 5).stuffingTxsHashes ≠ (pendingSwap 2 6).stuffingTxsHashes ∧
      (pendingSwap 1 5).stateUpdate ≠ (pendingSwap 2 6).stateUpdate ∧
      Searched [] (pendingSwap 1 5) ∧ Skipped [.ok (pendingSwap 1 5)] (pendingSwap 2 6) := by
  have hsame : SameUpdate (pendingSwap 1 5) (pendingSwap 2 6) := ⟨rfl, fun _ => Iff.rfl⟩
  have hfirst : Searched [] (pendingSwap 1 5) :=
    ((Worker.run []).receive_ok _ (Worker.recent_block _)).2.1.mpr List.not_mem_nil
  refine ⟨by decide, fun heq => ?_, hfirst, ?_⟩
  · have hslot := congrArg (fun update : GethStateUpdateVec => update.map fun diff =>
      (diff.lookup 12).map fun state => state.storage.lookup 8) heq
    exact absurd hslot (by decide)
  · refine ((Worker.run _).receive_ok _ (Worker.recent_block _)).1.mpr ?_
    exact (mem_recent_run _ _).mpr ⟨[], _, [], rfl, _, rfl, (updateKey_eq_iff _ _).mpr hsame,
      hfirst, by simp⟩

end ArbSearcher

end Kabu
