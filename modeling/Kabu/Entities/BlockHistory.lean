import Kabu.Market.MarketState

/-!
# The block history

The recent blocks the node knows.  `BlockHistory` keeps an entry for each block by hash, in
whatever state of completeness it is, the database of some of the blocks by hash, and one hash
for each number of the chain that is taken as canonical.  The history is cut off at a depth:
accepting a header drops the numbers that are too far below it, and with them every entry and
every database whose hash is no longer a canonical one.

The history is generic in the database `S` and in the type `Block` of full blocks.  It is a
structure with an invariant: each entry is stored under the hash of its own header, as every
function that writes the map does.

The functions that the source lets fail return `Except Report`, and those that can change the
history return the new history beside their answer, whether they fail or not.  A reference to
an entry that the source hands out is modelled by writing the entry back (`writeEntry`).
-/

namespace Kabu

/-- The text of an error. -/
abbrev Report := String

lemma exceptMap_eq_ok {ε α β : Type*} {x : Except ε α} {f : α → β} {b : β}
    (h : x.map f = .ok b) : ∃ a, x = .ok a ∧ f a = b := by
  cases x with
  | error e => simp [Except.map] at h
  | ok a => exact ⟨a, rfl, Except.ok.inj h⟩

/-- The part of a block header that the history looks at. -/
structure Header where
  hash : BlockHash
  parentHash : BlockHash
  number : ℕ
  deriving DecidableEq, Repr

/-- A type of full blocks. -/
class KabuBlock (Block : Type*) where
  getHeader : Block → Header

/-- A header stands for a block without transactions. -/
instance : KabuBlock Header := ⟨id⟩

/-- What is known about one block. -/
structure BlockHistoryEntry (Block : Type*) where
  header : Header
  block : Option Block
  logs : Option (List Log)
  stateUpdate : Option GethStateUpdateVec

namespace BlockHistoryEntry

variable {Block : Type*}

def isFetched (entry : BlockHistoryEntry Block) : Bool :=
  entry.stateUpdate.isSome && entry.block.isSome && entry.logs.isSome

def hash (entry : BlockHistoryEntry Block) : BlockHash := entry.header.hash
def parentHash (entry : BlockHistoryEntry Block) : BlockHash := entry.header.parentHash
def number (entry : BlockHistoryEntry Block) : ℕ := entry.header.number

/-- The entry of a block of which the header alone has arrived. -/
def ofHeader (header : Header) : BlockHistoryEntry Block := ⟨header, none, none, none⟩

end BlockHistoryEntry

/-- A database that can take the update of a block. -/
class BlockHistoryState (S : Type*) (Block : Type*) where
  applyUpdate : S → BlockHistoryEntry Block → MarketStateConfig → S

@[ext] structure BlockHistory (S : Type*) (Block : Type*) where
  depth : ℕ
  latestBlockNumber : ℕ
  blockStates : AssocMap BlockHash S
  blockEntries : AssocMap BlockHash (BlockHistoryEntry Block)
  blockNumbers : AssocMap ℕ BlockHash
  /-- Entries are stored under their own hash. -/
  keyed : ∀ h entry, blockEntries.lookup h = some entry → entry.hash = h

namespace BlockHistory

variable {S Block : Type*}

def new (depth : ℕ) : BlockHistory S Block := ⟨depth, 0, ∅, ∅, ∅, fun _ _ h => by simp at h⟩

def addDb (history : BlockHistory S Block) (blockHash : BlockHash) (state : S) :
    BlockHistory S Block :=
  { history with blockStates := history.blockStates.insert blockHash state }

/-! ## Reading -/

def getBlockHistoryEntry (history : BlockHistory S Block) (blockHash : BlockHash) :
    Option (BlockHistoryEntry Block) :=
  history.blockEntries.lookup blockHash

def getBlockState (history : BlockHistory S Block) (blockHash : BlockHash) : Option S :=
  history.blockStates.lookup blockHash

def getBlockHashForBlockNumber (history : BlockHistory S Block) (blockNumber : ℕ) :
    Option BlockHash :=
  history.blockNumbers.lookup blockNumber

def getFirstBlockNumber (history : BlockHistory S Block) : Option ℕ :=
  (history.blockEntries.values.map (·.number)).min?

def containsBlock (history : BlockHistory S Block) (blockHash : BlockHash) : Bool :=
  (history.blockEntries.lookup blockHash).isSome

/-! ## Writing -/

/-- Store an entry under its own hash. -/
def writeEntry (history : BlockHistory S Block) (entry : BlockHistoryEntry Block) :
    BlockHistory S Block :=
  { history with
    blockEntries := history.blockEntries.insert entry.hash entry
    keyed := by
      intro h e he
      rw [AssocMap.lookup_insert_eq] at he
      by_cases hh : h = entry.hash
      · rw [if_pos hh, Option.some.injEq] at he
        rw [← he, hh]
      · rw [if_neg hh] at he
        exact history.keyed h e he }

def setBlockNumber (history : BlockHistory S Block) (blockNumber : ℕ)
    (blockHash : BlockHash) : BlockHistory S Block :=
  { history with blockNumbers := history.blockNumbers.insert blockNumber blockHash }

def setEntry (history : BlockHistory S Block) (entry : BlockHistoryEntry Block) :
    BlockHistory S Block :=
  (history.setBlockNumber entry.number entry.hash).writeEntry entry

section Lookup

variable (history : BlockHistory S Block) (entry : BlockHistoryEntry Block)

lemma lookup_writeEntry (k : BlockHash) : (history.writeEntry entry).blockEntries.lookup k =
    if k = entry.hash then some entry else history.blockEntries.lookup k :=
  AssocMap.lookup_insert_eq _ _ _ _

lemma lookup_setEntry (k : BlockHash) : (history.setEntry entry).blockEntries.lookup k =
    if k = entry.hash then some entry else history.blockEntries.lookup k :=
  AssocMap.lookup_insert_eq _ _ _ _

lemma lookup_setBlockNumber (number : ℕ) (hash : BlockHash) (n : ℕ) :
    (history.setBlockNumber number hash).blockNumbers.lookup n =
      if n = number then some hash else history.blockNumbers.lookup n :=
  AssocMap.lookup_insert_eq _ _ _ _

end Lookup

def moveHead (history : BlockHistory S Block) (header : Header) : BlockHistory S Block :=
  { history with
    latestBlockNumber := header.number
    blockNumbers := history.blockNumbers.insert header.number header.hash }

/-- Drop the numbers at or below `blockNumber - depth`, and everything that is not canonical
any more. -/
def retainAbove (history : BlockHistory S Block) (blockNumber : ℕ) :
    BlockHistory S Block :=
  let blockNumbers := history.blockNumbers.retain fun key _ => key > blockNumber - history.depth
  let actualHashes := blockNumbers.values
  { history with
    blockNumbers := blockNumbers
    blockEntries := history.blockEntries.retain fun key _ => actualHashes.contains key
    blockStates := history.blockStates.retain fun key _ => actualHashes.contains key
    keyed := fun h entry he =>
      history.keyed h entry ((AssocMap.mem_lookup_retain _ _ _ _).mp he).1 }

/-- Move the head to the header if it is not below it, cut the history off, and find or insert
the header's entry. -/
def getOrInsertEntryWithHeader (history : BlockHistory S Block) (header : Header) :
    BlockHistory S Block × BlockHistoryEntry Block :=
  let history := if history.latestBlockNumber ≤ header.number then history.moveHead header
    else history
  let history := if header.number > history.depth then history.retainAbove header.number
    else history
  match history.blockEntries.lookup header.hash with
  | some entry => (history, entry)
  | none => (history.writeEntry (.ofHeader header), .ofHeader header)

/-- The answer says whether the header is the new head. -/
def addBlockHeader (history : BlockHistory S Block) (blockHeader : Header) :
    Except Report Bool × BlockHistory S Block :=
  if history.containsBlock blockHeader.hash then (.error "BLOCK_IS_ALREADY_PROCESSED", history)
  else
    let history := (history.getOrInsertEntryWithHeader blockHeader).1
    let isNew : Bool := decide (blockHeader.number ≥ history.latestBlockNumber)
    let history := if blockHeader.number = history.latestBlockNumber + 1 then
        { history with latestBlockNumber := blockHeader.number }
      else history
    (.ok isNew, history)

def addBlock [KabuBlock Block] (history : BlockHistory S Block) (block : Block) :
    Except Report Unit × BlockHistory S Block :=
  let inserted := history.getOrInsertEntryWithHeader (KabuBlock.getHeader block)
  if inserted.2.block.isSome then (.error "BLOCK_IS_ALREADY_PROCESSED", inserted.1)
  else (.ok (), inserted.1.writeEntry { inserted.2 with block := some block })

/-- `none` is the panic on an entry that does not exist. -/
def addStateDiff (history : BlockHistory S Block) (blockHash : BlockHash)
    (stateDiff : GethStateUpdateVec) : Option (Except Report Unit × BlockHistory S Block) :=
  (history.blockEntries.lookup blockHash).map fun entry =>
    if entry.stateUpdate.isNone then
      (.ok (), history.writeEntry { entry with stateUpdate := some stateDiff })
    else (.error "BLOCK_STATE_IS_ALREADY_PROCESSED", history)

/-- `none` is the panic on an entry that does not exist. -/
def addLogs (history : BlockHistory S Block) (blockHash : BlockHash) (logs : List Log) :
    Option (Except Report Unit × BlockHistory S Block) :=
  (history.blockEntries.lookup blockHash).map fun entry =>
    if entry.logs.isNone then (.ok (), history.writeEntry { entry with logs := some logs })
    else (.error "BLOCK_LOGS_ARE_ALREADY_PROCESSED", history)

end BlockHistory

end Kabu
