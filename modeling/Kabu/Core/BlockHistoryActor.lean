import Kabu.Entities.BlockHistoryManager

/-!
# The block history worker

The worker takes messages about blocks, in whatever order they arrive: headers, full blocks,
logs, and state updates.  Each moves the head of the block history if its block is new, and then
fills in what it brings.  A state update of the latest block also moves the market state to that
block.  If the market stands at the block's parent, the update is applied to its database; if
not, the database is rebuilt from the stored one of the nearest ancestor.

After that the worker starts a task which merges the layers of the new database and, at some
later time, stores the result in the market state.  The task holds nothing in between, and any
number of messages may be handled before it stores.  So the system has two kinds of steps:
handling a message, for which the worker holds the locks throughout, and the store of one of the
tasks that are pending.

The source drops a worker that panics, or that fails on a header; its tasks still run.  The
events the worker sends are left out.
-/

namespace Kabu

/-! ## The latest block -/

/-- What is known about the block with the highest number. -/
structure LatestBlock (Block : Type*) where
  blockNumber : ℕ
  blockHash : BlockHash
  blockHeader : Option Header
  blockWithTxs : Option Block
  logs : Option (List Log)
  diff : Option GethStateUpdateVec

/-- What a node puts over an account.  The code and the whole storage can be overridden as well,
which the source leaves at nothing. -/
structure AccountOverride where
  balance : Option U256
  nonce : Option ℕ
  stateDiff : Option (AssocMap B256 B256)

instance : Inhabited AccountOverride := ⟨⟨none, none, none⟩⟩

namespace LatestBlock

variable {Block : Type*}

def new (blockNumber : ℕ) (blockHash : BlockHash) : LatestBlock Block :=
  ⟨blockNumber, blockHash, none, none, none, none⟩

def parentHash (latest : LatestBlock Block) : Option BlockHash :=
  latest.blockHeader.map (·.parentHash)

/-- Take what is given about a block, unless the block is below the latest one.  Another block
than the latest one replaces it.  The answer says whether the number grew. -/
def update (latest : LatestBlock Block) (blockNumber : ℕ) (blockHash : BlockHash)
    (blockHeader : Option Header) (blockWithTxs : Option Block) (logs : Option (List Log))
    (diff : Option GethStateUpdateVec) : Bool × LatestBlock Block :=
  if blockNumber ≥ latest.blockNumber then
    let isNew := decide (blockNumber > latest.blockNumber)
    let latest := if blockNumber > latest.blockNumber ∨ blockHash ≠ latest.blockHash then
        new blockNumber blockHash
      else latest
    (isNew,
      { latest with
        blockHeader := blockHeader.or latest.blockHeader
        blockWithTxs := blockWithTxs.or latest.blockWithTxs
        logs := logs.or latest.logs
        diff := diff.or latest.diff })
  else (false, latest)

/-- Enter what a diff says of an account, in place of what stood there. -/
def overrideAccount (override : AssocMap Address AccountOverride) (addr : Address)
    (state : GethAccountState) : AssocMap Address AccountOverride :=
  override.upsert addr default fun account =>
    { account with
      balance := state.balance
      nonce := state.nonce
      stateDiff := some state.storage }

/-- What a node is told to put over its own state. -/
def nodeStateOverride (latest : LatestBlock Block) : AssocMap Address AccountOverride :=
  (latest.diff.getD []).foldl (fun override diffEntry => diffEntry.foldl overrideAccount override) ∅

end LatestBlock

/-! ## The state of the worker -/

/-- A database whose layers can be merged. -/
class DatabaseKabuExt (DB : Type*) where
  maintain : DB → DB

instance [Keccak] : DatabaseKabuExt KabuDB := ⟨KabuDB.maintain⟩

/-- A merge that has not been stored yet.  The source's task carries the number of its block for
a log line; the hash is added so that statements can name the block. -/
structure MergeTask (DB : Type*) where
  blockNumber : ℕ
  blockHash : BlockHash
  updatedDb : DB

structure WorkerState (DB Block : Type*) where
  /-- The worker takes messages. -/
  running : Bool
  latestBlock : LatestBlock Block
  marketState : MarketState DB
  blockHistory : BlockHistory DB Block
  merges : List (MergeTask DB)

inductive WorkerMessage (Block : Type*)
  | header (header : Header)
  | block (block : Block)
  | logs (blockHeader : Header) (logs : List Log)
  | stateUpdate (blockHeader : Header) (stateUpdate : GethStateUpdateVec)

namespace WorkerState

variable {DB Block : Type*}

def init (depth : ℕ) (marketState : MarketState DB) : WorkerState DB Block :=
  ⟨true, LatestBlock.new 0 0, marketState, BlockHistory.new depth, []⟩

/-- The worker has panicked, or returned. -/
def stop (w : WorkerState DB Block) : WorkerState DB Block := { w with running := false }

/-- Move the head of the history, and the latest block with it if the header is new. -/
def setChainHead [KabuBlock Block] (fuel : ℕ) (client : Client Block) (w : WorkerState DB Block)
    (header : Header) : Except Halt (Except Report (Bool × ℕ) × WorkerState DB Block) :=
  (BlockHistoryManager.setChainHead fuel client w.blockHistory header).map fun
    | (.error _, history) => (.error "CANNOT_SET_CHAIN_HEAD", { w with blockHistory := history })
    | (.ok (isNew, reorgDepth), history) =>
        (.ok (isNew, reorgDepth),
          { w with
            blockHistory := history
            latestBlock := if isNew then
                (w.latestBlock.update header.number header.hash (some header) none none none).2
              else w.latestBlock })

/-! ## Headers, blocks and logs -/

/-- A header that cannot be made the head ends the worker. -/
def receiveHeader [KabuBlock Block] (fuel : ℕ) (client : Client Block) (w : WorkerState DB Block)
    (header : Header) : Except Halt (WorkerState DB Block) :=
  (w.setChainHead fuel client header).map fun
    | (.error _, w) => w.stop
    | (.ok _, w) => w

/-- What arrived about a block goes to the latest block if it is that one. -/
def updateLatest (w : WorkerState DB Block) (blockHeader : Header) (blockWithTxs : Option Block)
    (logs : Option (List Log)) : WorkerState DB Block :=
  if blockHeader.hash = w.latestBlock.blockHash then
    { w with latestBlock :=
        (w.latestBlock.update blockHeader.number blockHeader.hash none blockWithTxs logs none).2 }
  else w

def receiveBlock [KabuBlock Block] (fuel : ℕ) (client : Client Block) (w : WorkerState DB Block)
    (block : Block) : Except Halt (WorkerState DB Block) :=
  let blockHeader := KabuBlock.getHeader block
  (w.setChainHead fuel client blockHeader).map fun
    | (.error _, w) => w
    | (.ok _, w) =>
        match w.blockHistory.addBlock block with
        | (.error _, history) => { w with blockHistory := history }
        | (.ok _, history) =>
            { w with blockHistory := history }.updateLatest blockHeader (some block) none

def receiveLogs [KabuBlock Block] (fuel : ℕ) (client : Client Block) (w : WorkerState DB Block)
    (blockHeader : Header) (logs : List Log) : Except Halt (WorkerState DB Block) :=
  (w.setChainHead fuel client blockHeader).map fun
    | (.error _, w) => w
    | (.ok _, w) =>
        match w.blockHistory.addLogs blockHeader.hash logs with
        | none => w.stop
        | some (.error _, history) => { w with blockHistory := history }
        | some (.ok _, history) =>
            { w with blockHistory := history }.updateLatest blockHeader none (some logs)

/-! ## State updates -/

variable [BlockHistoryState DB Block]

/-- The database the update is applied to: the market's own if the market stands at the parent
or at no block yet, and otherwise one that is rebuilt.  The rebuilt one has the block's update
already. -/
def newMarketStateDb (fuel : ℕ) (client : Client Block) (w : WorkerState DB Block)
    (blockHash parentHash : BlockHash) : Except Halt (Except Report DB × BlockHistory DB Block) :=
  if w.marketState.blockHash = 0 ∨ w.marketState.blockHash = parentHash then
    .ok (.ok w.marketState.stateDb, w.blockHistory)
  else
    BlockHistoryManager.applyStateUpdateOnParentDb fuel client w.blockHistory
      w.marketState.config blockHash

/-- Apply the update of a block to the database found for it, store the result with the block,
make it the market's and start its merge. -/
def moveMarket (w : WorkerState DB Block) (newDb : DB) (blockHeader : Header)
    (latestBlockNumber : ℕ) (stateUpdate : GethStateUpdateVec) : WorkerState DB Block :=
  match w.blockHistory.addStateDiff blockHeader.hash stateUpdate with
  | none => w.stop
  | some (.error _, history) => { w with blockHistory := history }
  | some (.ok _, history) =>
      match history.getBlockHistoryEntry blockHeader.hash with
      | none => { w with blockHistory := history }
      | some entry =>
          let updatedDb := BlockHistoryState.applyUpdate newDb entry w.marketState.config
          { w with
            blockHistory := history.addDb blockHeader.hash updatedDb
            marketState := { w.marketState with
              stateDb := updatedDb
              blockHash := blockHeader.hash
              blockNumber := latestBlockNumber }
            merges := w.merges ++ [⟨blockHeader.number, blockHeader.hash, updatedDb⟩] }

/-- The part of a state update after the head is moved, for a block that is the latest. -/
def updateMarket (fuel : ℕ) (client : Client Block) (w : WorkerState DB Block)
    (blockHeader : Header) (stateUpdate : GethStateUpdateVec) :
    Except Halt (WorkerState DB Block) :=
  let latestBlockNumber := w.latestBlock.blockNumber
  let parentHash := w.latestBlock.parentHash.getD 0
  let w := { w with latestBlock := (w.latestBlock.update blockHeader.number blockHeader.hash none
    none none (some stateUpdate)).2 }
  match w.newMarketStateDb fuel client blockHeader.hash parentHash with
  | .error .fuel => .error .fuel
  | .error .panic => .ok w.stop
  | .ok (.error _, history) => .ok { w with blockHistory := history }
  | .ok (.ok newDb, history) =>
      .ok ({ w with blockHistory := history }.moveMarket newDb blockHeader latestBlockNumber
        stateUpdate)

/-- The update of a block that is not the latest is stored with its entry and nothing else. -/
def receiveStateUpdate [KabuBlock Block] (fuel : ℕ) (client : Client Block)
    (w : WorkerState DB Block) (blockHeader : Header) (stateUpdate : GethStateUpdateVec) :
    Except Halt (WorkerState DB Block) :=
  match w.setChainHead fuel client blockHeader with
  | .error halt => .error halt
  | .ok (.error _, w) => .ok w
  | .ok (.ok _, w) =>
      if w.latestBlock.blockHash ≠ blockHeader.hash then
        match w.blockHistory.addStateDiff blockHeader.hash stateUpdate with
        | none => .ok w.stop
        | some (_, history) => .ok { w with blockHistory := history }
      else w.updateMarket fuel client blockHeader stateUpdate

/-! ## Steps -/

def receive [KabuBlock Block] (fuel : ℕ) (client : Client Block) (w : WorkerState DB Block) :
    WorkerMessage Block → Except Halt (WorkerState DB Block)
  | .header header => w.receiveHeader fuel client header
  | .block block => w.receiveBlock fuel client block
  | .logs blockHeader logs => w.receiveLogs fuel client blockHeader logs
  | .stateUpdate blockHeader stateUpdate =>
      w.receiveStateUpdate fuel client blockHeader stateUpdate

/-- The task stores what it has merged, whatever the market state is by now. -/
def storeMerge [DatabaseKabuExt DB] (w : WorkerState DB Block) (task : MergeTask DB) :
    WorkerState DB Block :=
  { w with marketState :=
      { w.marketState with stateDb := DatabaseKabuExt.maintain task.updatedDb } }

end WorkerState

/-- What happens next: a message is handled, with the answers the client gives meanwhile, or one
of the pending merges is stored. -/
inductive WorkerEvent (Block : Type*)
  | receive (fuel : ℕ) (client : Client Block) (message : WorkerMessage Block)
  | merge (i : ℕ)

/-- There is no step while a message is still being handled, nor any message after the worker
has stopped. -/
def workerStep {DB Block : Type*} [KabuBlock Block] [BlockHistoryState DB Block]
    [DatabaseKabuExt DB] (w : WorkerState DB Block) :
    WorkerEvent Block → Option (WorkerState DB Block)
  | .receive fuel client message =>
      if w.running then
        match w.receive fuel client message with
        | .ok w' => some w'
        | .error _ => none
      else none
  | .merge i => w.merges[i]?.map fun task =>
      { w with merges := w.merges.eraseIdx i }.storeMerge task

end Kabu
