import Kabu.Evm.DatabaseHelpers

/-!
# The market's view of the chain state

`MarketState` is the database the pools are priced against, with the block it stands for and the
configuration that says which cells updates may write.  It is shared by the block history worker
and the pool loaders, and it applies trace diffs one at a time.
-/

namespace Kabu

structure MarketStateConfig where
  forceInsertAccounts : AssocMap Address Unit
  readOnlyCells : AssocMap Address (AssocMap U256 Unit)

namespace MarketStateConfig

instance : Inhabited MarketStateConfig := ⟨⟨∅, ∅⟩⟩

def isForceInsert (config : MarketStateConfig) (address : Address) : Bool :=
  (config.forceInsertAccounts.lookup address).isSome

def addForceInsert (config : MarketStateConfig) (address : Address) : MarketStateConfig :=
  { config with forceInsertAccounts := config.forceInsertAccounts.insert address () }

def disableCell (config : MarketStateConfig) (address : Address) (cell : U256) :
    MarketStateConfig :=
  { config with readOnlyCells := config.readOnlyCells.upsert address ∅ (·.insert cell ()) }

def disableCellVec (config : MarketStateConfig) (address : Address) (cells : List U256) :
    MarketStateConfig :=
  cells.foldl (fun config cell => config.disableCell address cell) config

def isReadOnlyCell (config : MarketStateConfig) (address : Address) (cell : U256) : Bool :=
  match config.readOnlyCells.lookup address with
  | some cells => (cells.lookup cell).isSome
  | none => false

end MarketStateConfig

structure MarketState (DB : Type*) where
  blockNumber : ℕ
  blockHash : BlockHash
  stateDb : DB
  config : MarketStateConfig

namespace MarketState

variable {DB : Type*}

def new (db : DB) : MarketState DB := ⟨0, 0, db, default⟩

variable [Keccak] [DatabaseCommit DB]

def applyGethUpdate (marketState : MarketState DB) (update : GethStateUpdate) : MarketState DB :=
  { marketState with stateDb := DatabaseHelpers.applyGethStateUpdate marketState.stateDb update }

def applyGethUpdateVec (marketState : MarketState DB) (update : GethStateUpdateVec) :
    MarketState DB :=
  update.foldl applyGethUpdate marketState

end MarketState

end Kabu
