import Kabu.Market.SwapPaths

/-!
# The searcher for arbitrage after a state change

A state update event says what a pending transaction or a new block would change, and lists the
pools that are affected, each with the directions to look at.  The worker receives the events one
by one and starts a search for each of them, unless it has already started one for the same pools
in the same block.

The search collects the paths to be calculated, and applies the update to the event's database.
For each pool it takes the stored paths that the market hands out for it, at most a hundred of
them, and if the market hands out none it has them built.

The directions are a map ordered by the ids of the pools.  The score of a path, by which paths
after the hundredth could be taken as well, is not set anywhere in the source.
-/

namespace Kabu

/-- The order of ids: contracts first, and numbers in their order. -/
def PoolId.le : PoolId → PoolId → Bool
  | .address a, .address b => decide (a ≤ b)
  | .address _, .b256 _ => true
  | .b256 _, .address _ => false
  | .b256 a, .b256 b => decide (a ≤ b)

/-- A map from pools to directions, in the order of the ids of the pools. -/
structure PoolDirections where
  entries : List (Pool × List SwapDirection)
  sorted : (entries.map fun entry => entry.1.getPoolId).Pairwise fun id id' =>
    id.le id' = true ∧ id ≠ id'

namespace PoolDirections

def keys (directions : PoolDirections) : List Pool := directions.entries.map Prod.fst

def ids (directions : PoolDirections) : List PoolId := directions.keys.map Pool.getPoolId

end PoolDirections

structure StateUpdateEvent (DB Transaction : Type*) where
  nextBlockNumber : ℕ
  marketState : DB
  stateUpdate : GethStateUpdateVec
  directions : PoolDirections
  stuffingTxsHashes : List B256
  stuffingTxs : List Transaction

/-- Why nothing was received. -/
inductive RecvError
  | closed
  | lagged (skipped : ℕ)

/-! ## The worker -/

namespace ArbSearcher

variable {DB Transaction : Type*}

/-- Pools are compared by their ids. -/
def updateKey (update : ℕ × List Pool) : ℕ × List PoolId :=
  (update.1, update.2.map Pool.getPoolId)

structure Worker where
  recentPoolUpdates : KeyedSet updateKey
  lastBlockNumber : ℕ

def Worker.start : Worker := ⟨.empty, 0⟩

def affectedPools (msg : StateUpdateEvent DB Transaction) : List Pool :=
  msg.directions.keys.mergeSort fun p q => p.getPoolId.le q.getPoolId

def poolUpdateKey (msg : StateUpdateEvent DB Transaction) : ℕ × List Pool :=
  (msg.nextBlockNumber, affectedPools msg)

/-- Clear the recent updates on a new block. -/
def Worker.onBlock (worker : Worker) (nextBlockNumber : ℕ) : Worker :=
  if nextBlockNumber ≠ worker.lastBlockNumber then ⟨.empty, nextBlockNumber⟩ else worker

/-- One turn of the worker's loop, with the event it starts a search for. -/
def Worker.receive (worker : Worker) :
    Except RecvError (StateUpdateEvent DB Transaction) →
      Worker × Option (StateUpdateEvent DB Transaction)
  | .error _ => (worker, none)
  | .ok msg =>
      let worker := worker.onBlock msg.nextBlockNumber
      if worker.recentPoolUpdates.contains (poolUpdateKey msg) then (worker, none)
      else
        ({ worker with recentPoolUpdates := worker.recentPoolUpdates.insert (poolUpdateKey msg) },
          some msg)

def Worker.run (msgs : List (Except RecvError (StateUpdateEvent DB Transaction))) : Worker :=
  msgs.foldl (fun worker msg => (worker.receive msg).1) .start

/-! ## The search -/

/-- The paths that are taken for one pool. -/
def poolPaths (market : PathMarket) (entry : Pool × List SwapDirection) : List SwapPath :=
  match market.getPoolPaths entry.1.getPoolId with
  | some paths => (paths.zipIdx.filter fun indexed => decide (indexed.2 < 100)).map Prod.fst
  | none => unwrapOr [] (SwapPathBuilder.buildSwapPathVec market.toMarket [entry])

def swapPathSet (market : PathMarket) (event : StateUpdateEvent DB Transaction) :
    SwapPathBuilder.SwapPathSet :=
  event.directions.entries.foldl (fun set entry => set.extend (poolPaths market entry)) .empty

/-- What the search hands to the calculator: the database after the update, and the paths. -/
def search [Keccak] [DatabaseCommit DB] (market : PathMarket)
    (event : StateUpdateEvent DB Transaction) : Except Report (DB × List SwapPath) :=
  let db := DatabaseHelpers.applyGethStateUpdateVec event.marketState event.stateUpdate
  let swapPathVec := (swapPathSet market event).elems
  if swapPathVec.isEmpty then .error "NO_SWAP_PATHS" else .ok (db, swapPathVec)

end ArbSearcher

/-! ## The order of ids -/

namespace PoolId

lemma le_antisymm (a b : PoolId) (hab : a.le b = true) (hba : b.le a = true) : a = b := by
  cases a <;> cases b <;> simp only [le, decide_eq_true_eq, Bool.false_eq_true] at hab hba
  · exact congrArg address (BitVec.le_antisymm hab hba)
  · exact congrArg b256 (BitVec.le_antisymm hab hba)

end PoolId

end Kabu
