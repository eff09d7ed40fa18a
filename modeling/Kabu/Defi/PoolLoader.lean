import Kabu.Core.BlockHistoryActor
import Kabu.Evm.Tracked
import Kabu.Market.Pool

/-!
# Loading the state of pools

Before a pool can be priced, the state it needs is read from the provider and written to the
market state.  `fetchCallsAndSlots` is the reading.  Each request is made at the block that is
the provider's latest at that time, and no lock is held.  `addPoolState` is the writing, in one
go under the market's lock: the state is committed, the pool's read-only cells are noted, and
the accounts the state touches, the pool's tokens apart, are forced, so that every later update
of theirs is written.

Between the two lies whatever time it takes, and the block history worker goes on.  `LoaderState`
is the system of both: the worker's state, the loads that have been read and not written yet, and
the slots that have been written.  The registration of the pool with the market's token graph,
which follows, has no part in it.
-/

namespace Kabu

/-! ## Reading -/

/-- The provider, as the answers it gives during one load. -/
structure HeadProvider where
  debugTraceCallPreState : Address → Bytes → Except Report GethStateUpdate
  getStorageAt : Address → U256 → Except Report U256

namespace RequiredStateReader

/-- Add the state a call touched.  What is not storage is taken from the first call that touches
the account. -/
def addCallState (ret update : GethStateUpdate) : GethStateUpdate :=
  update.foldl (fun ret address accountState =>
    ret.upsert address accountState fun entry =>
      { entry with storage := entry.storage.extend accountState.storage }) ret

def addSlot (ret : GethStateUpdate) (address : Address) (slot value : U256) : GethStateUpdate :=
  ret.upsert address default fun entry => { entry with storage := entry.storage.insert slot value }

def fetchCall (provider : HeadProvider) (ret : GethStateUpdate) (call : Address × Bytes) :
    Except Report GethStateUpdate :=
  match provider.debugTraceCallPreState call.1 call.2 with
  | .ok update => .ok (addCallState ret update)
  | .error _ => .error "CONTRACT_CALL_FAILED"

def fetchSlot (provider : HeadProvider) (ret : GethStateUpdate) (slot : Address × U256) :
    GethStateUpdate :=
  match provider.getStorageAt slot.1 slot.2 with
  | .ok value => addSlot ret slot.1 slot.2 value
  | .error _ => ret

/-- A call that fails ends the reading; a slot that cannot be read is left out; the slots taken
to be empty are not asked for. -/
def fetchCallsAndSlots (provider : HeadProvider) (required : RequiredState) :
    Except Report GethStateUpdate :=
  (required.calls.foldlM (fetchCall provider) ∅).map fun ret =>
    required.emptySlots.foldl (fun ret (address, slot) => addSlot ret address slot 0)
      (required.slots.foldl (fetchSlot provider) ret)

end RequiredStateReader

/-! ## Writing -/

/-- The accounts of which a diff has storage. -/
def getTouchedAddresses (stateUpdate : GethStateUpdate) : List Address :=
  (stateUpdate.entries.filter fun e => !e.2.storage.entries.isEmpty).map fun e => e.1

/-- Write the state of a pool. -/
def addPoolState {DB : Type*} [Keccak] [DatabaseCommit DB] (marketState : MarketState DB)
    (pool : Pool) (state : GethStateUpdate) : MarketState DB :=
  let marketState := marketState.applyGethUpdate state
  let config := marketState.config.disableCellVec pool.getAddress.addressOrZero
    pool.getReadOnlyCellVec
  let config := (getTouchedAddresses state).foldl (fun config address =>
    if pool.getTokens.contains address then config else config.addForceInsert address) config
  { marketState with config := config }

/-! ## The worker and the loaders -/

/-- The state of a pool that has been read and not written yet. -/
structure PoolLoad where
  pool : Pool
  state : GethStateUpdate

structure LoaderState (DB Block : Type*) where
  worker : WorkerState DB Block
  loads : List PoolLoad
  /-- The slots that completed loads have written, for statements about them. -/
  loaded : List (Address × U256)

def LoaderState.init {DB Block : Type*} (depth : ℕ) (marketState : MarketState DB) :
    LoaderState DB Block := ⟨WorkerState.init depth marketState, [], []⟩

/-- What happens next: a step of the worker, the reading of a load, or the writing of one. -/
inductive LoaderEvent (Block : Type*)
  | worker (event : WorkerEvent Block)
  | fetch (provider : HeadProvider) (pool : Pool)
  | apply (i : ℕ)

/-- The slots that a load writes.  The commit skips the zero address. -/
def writtenSlots (state : GethStateUpdate) : List (Address × U256) :=
  state.entries.flatMap fun e =>
    if e.1 = 0 then [] else e.2.storage.keys.map fun slot => (e.1, slot)

section Step

variable {DB Block : Type*} [Keccak] [KabuBlock Block] [BlockHistoryState DB Block]
  [DatabaseKabuExt DB] [DatabaseCommit DB]

def loaderStep (s : LoaderState DB Block) : LoaderEvent Block → Option (LoaderState DB Block)
  | .worker event => (workerStep s.worker event).map fun w => { s with worker := w }
  | .fetch provider pool =>
      match pool.getStateRequired with
      | .error _ => some s
      | .ok required =>
          match RequiredStateReader.fetchCallsAndSlots provider required with
          | .error _ => some s
          | .ok state => some { s with loads := s.loads ++ [⟨pool, state⟩] }
  | .apply i => s.loads[i]?.map fun load =>
      { s with
        worker := { s.worker with
          marketState := addPoolState s.worker.marketState load.pool load.state }
        loads := s.loads.eraseIdx i
        loaded := s.loaded ++ writtenSlots load.state }

end Step

lemma mem_writtenSlots (state : GethStateUpdate) (a : Address) (s : U256) :
    (a, s) ∈ writtenSlots state ↔ a ≠ 0 ∧ ∃ v, KabuDB.slotWrite a s state = some v := by
  unfold writtenSlots KabuDB.slotWrite
  rw [List.mem_flatMap]
  constructor
  · rintro ⟨⟨b, accountState⟩, he, hmem⟩
    dsimp only at hmem
    split at hmem
    · simp at hmem
    · rename_i hb
      obtain ⟨slot, hslot, heq⟩ := List.mem_map.mp hmem
      obtain ⟨rfl, rfl⟩ := Prod.mk.inj heq
      obtain ⟨v, hv⟩ := Option.isSome_iff_exists.mp (AList.lookup_isSome.mpr hslot)
      refine ⟨hb, v, ?_⟩
      rw [AList.mem_lookup_iff.mpr he]
      exact hv
  · rintro ⟨ha, v, hv⟩
    obtain ⟨accountState, hlookup, hslot⟩ := Option.bind_eq_some_iff.mp hv
    refine ⟨⟨a, accountState⟩, AList.mem_lookup_iff.mp hlookup, ?_⟩
    rw [if_neg ha]
    refine List.mem_map.mpr ⟨s, ?_, rfl⟩
    exact AList.lookup_isSome.mp (by rw [hslot]; rfl)

end Kabu
