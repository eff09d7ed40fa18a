import Kabu.Entities.BlockHistory

/-!
# Moving the head and replaying blocks

The manager drives the history with the help of a client that may fail.  `setChainHead` accepts
a header as the new head and then walks down from its parent, through cached entries and through
blocks it fetches, until it meets the canonical chain; on the way it makes each block it passes
canonical.  `getParentState` walks down from a block to the nearest ancestor whose database is
stored, and replays the blocks in between on top of it.

Both walks follow parent hashes for as long as the entries send them on, and nothing bounds them
in the code.  They take fuel here, and `Halt.fuel` is the answer when it runs out; it stands for
a call that has not returned.  `Halt.panic` is a panic.
-/

namespace Kabu

/-- A call that does not return. -/
inductive Halt
  | fuel
  | panic
  deriving DecidableEq, Repr

/-- The remote node, as the answers it gives during one call. -/
structure Client (Block : Type*) where
  getBlockByHash : BlockHash → Except Report (Option Block)
  getLogs : BlockHash → Except Report (List Log)
  debugTraceBlock : BlockHash → Except Report GethStateUpdateVec

namespace BlockHistoryManager

variable {S Block : Type*}

/-! ## Fetching -/

/-- A diff that cannot be traced counts as empty. -/
def fetchEntryByHash [KabuBlock Block] (client : Client Block) (blockHash : BlockHash) :
    Except Report (BlockHistoryEntry Block) :=
  match client.getBlockByHash blockHash with
  | .error e => .error e
  | .ok none => .error "BLOCK_IS_EMPTY"
  | .ok (some block) =>
      match client.getLogs blockHash with
      | .error e => .error e
      | .ok logs =>
          let stateUpdate := unwrapOr [] (client.debugTraceBlock blockHash)
          .ok ⟨KabuBlock.getHeader block, some block, some logs, some stateUpdate⟩

lemma fetchEntryByHash_ok [KabuBlock Block] {client : Client Block} {p : BlockHash}
    {entry : BlockHistoryEntry Block} (h : fetchEntryByHash client p = .ok entry) :
    ∃ block, client.getBlockByHash p = .ok (some block) ∧
      entry.header = KabuBlock.getHeader block := by
  unfold fetchEntryByHash at h
  split at h
  · simp at h
  · simp at h
  · rename_i block hblock
    split at h
    · simp at h
    · exact ⟨block, hblock, congrArg BlockHistoryEntry.header (Except.ok.inj h).symm⟩

/-- What is there already, or the answer to a request for it. -/
def orFetch {α : Type*} : Option α → Except Report α → Except Report α
  | some a, _ => .ok a
  | none, answer => answer

/-- Fill in what is missing of an entry.  Again a diff that cannot be traced counts as empty. -/
def fetchEntryData (client : Client Block) (entry : BlockHistoryEntry Block) :
    Except Report (BlockHistoryEntry Block) :=
  match orFetch entry.logs (client.getLogs entry.hash) with
  | .error e => .error e
  | .ok logs =>
      match orFetch (entry.block.map some) (client.getBlockByHash entry.hash) with
      | .error e => .error e
      | .ok block =>
          let stateUpdate := match entry.stateUpdate with
            | some stateUpdate => stateUpdate
            | none => unwrapOr [] (client.debugTraceBlock entry.hash)
          let entry : BlockHistoryEntry Block := ⟨entry.header, block, some logs, some stateUpdate⟩
          if entry.isFetched then .ok entry else .error "BLOCK_DATA_NOT_FETCHED"

/-! ## Moving the head -/

/-- The loop of `setChainHead`.  A known block that is canonical already ends it, and so does a
fetched one below `minBlock`; any other is made canonical, and the walk goes on at its parent. -/
def walkParents [KabuBlock Block] (client : Client Block) (minBlock : ℕ) :
    ℕ → BlockHistory S Block → BlockHash → ℕ →
      Except Halt (Except Report ℕ × BlockHistory S Block)
  | 0, _, _, _ => .error .fuel
  | fuel + 1, history, parentBlockHash, reorgDepth =>
      match history.getBlockHistoryEntry parentBlockHash with
      | some entry =>
          if (history.getBlockHashForBlockNumber entry.number).getD 0 = entry.hash then
            .ok (.ok reorgDepth, history)
          else
            walkParents client minBlock fuel (history.setBlockNumber entry.number entry.hash)
              entry.parentHash (reorgDepth + 1)
      | none =>
          match fetchEntryByHash client parentBlockHash with
          | .error e => .ok (.error e, history)
          | .ok entry =>
              if entry.number < minBlock then .ok (.ok reorgDepth, history)
              else
                walkParents client minBlock fuel (history.setEntry entry) entry.parentHash
                  (reorgDepth + 1)

/-- **Invariants of the walk.**  What holds where the walk starts, and is passed on from each block
that it passes to the parent of that, holds where it ends.  If it fails, it is there. -/
lemma walkParents_invariant [KabuBlock Block] {client : Client Block} {minBlock fuel d : ℕ}
    {I : BlockHistory S Block → BlockHash → Prop}
    (hknown : ∀ history p entry, I history p → history.getBlockHistoryEntry p = some entry →
      (history.getBlockHashForBlockNumber entry.number).getD 0 ≠ entry.hash →
      I (history.setBlockNumber entry.number entry.hash) entry.parentHash)
    (hfetched : ∀ history p entry, I history p → history.getBlockHistoryEntry p = none →
      fetchEntryByHash client p = .ok entry → minBlock ≤ entry.number →
      I (history.setEntry entry) entry.parentHash)
    {history history' : BlockHistory S Block} {p : BlockHash} {r : Except Report ℕ}
    (h : walkParents client minBlock fuel history p d = .ok (r, history')) (hI : I history p) :
    ∃ p', I history' p' ∧ ∀ e, r = .error e →
      history'.getBlockHistoryEntry p' = none ∧ fetchEntryByHash client p' = .error e := by
  induction fuel generalizing history p d with
  | zero => simp [walkParents] at h
  | succ fuel ih =>
      rw [walkParents] at h
      cases hentry : history.getBlockHistoryEntry p with
      | some entry =>
          simp only [hentry] at h
          split at h
          · obtain ⟨rfl, rfl⟩ := Prod.mk.inj (Except.ok.inj h)
            exact ⟨p, hI, fun _ he => by cases he⟩
          · rename_i hcan
            exact ih h (hknown history p entry hI hentry hcan)
      | none =>
          simp only [hentry] at h
          cases hfetch : fetchEntryByHash client p with
          | error e =>
              simp only [hfetch] at h
              obtain ⟨rfl, rfl⟩ := Prod.mk.inj (Except.ok.inj h)
              exact ⟨p, hI, fun _ he => ⟨hentry, Except.error.inj he ▸ hfetch⟩⟩
          | ok entry =>
              simp only [hfetch] at h
              split at h
              · obtain ⟨rfl, rfl⟩ := Prod.mk.inj (Except.ok.inj h)
                exact ⟨p, hI, fun _ he => by cases he⟩
              · rename_i hmin
                exact ih h (hfetched history p entry hI hentry hfetch (not_lt.mp hmin))

/-- The answer says whether the header is the new head, and how many blocks the walk passed. -/
def setChainHead [KabuBlock Block] (fuel : ℕ) (client : Client Block)
    (history : BlockHistory S Block) (header : Header) :
    Except Halt (Except Report (Bool × ℕ) × BlockHistory S Block) :=
  let firstBlockNumber := history.getFirstBlockNumber
  match history.addBlockHeader header with
  | (.error _, history) => .ok (.ok (false, 0), history)
  | (.ok isNew, history) =>
      match firstBlockNumber with
      | none => .ok (.ok (isNew, 0), history)
      | some minBlock =>
          if isNew then
            (walkParents client minBlock fuel history header.parentHash 0).map fun walked =>
              (walked.1.map fun reorgDepth => (true, reorgDepth), walked.2)
          else .ok (.ok (false, 0), history)

/-- The blocks that the loop asks the client for, counted. -/
def walkRequests [KabuBlock Block] (client : Client Block) (minBlock : ℕ) :
    ℕ → BlockHistory S Block → BlockHash → ℕ
  | 0, _, _ => 0
  | fuel + 1, history, parentBlockHash =>
      match history.getBlockHistoryEntry parentBlockHash with
      | some entry =>
          if (history.getBlockHashForBlockNumber entry.number).getD 0 = entry.hash then 0
          else
            walkRequests client minBlock fuel (history.setBlockNumber entry.number entry.hash)
              entry.parentHash
      | none =>
          1 + match fetchEntryByHash client parentBlockHash with
            | .error _ => 0
            | .ok entry =>
                if entry.number < minBlock then 0
                else walkRequests client minBlock fuel (history.setEntry entry) entry.parentHash

/-- The blocks that `setChainHead` asks the client for, counted. -/
def headRequests [KabuBlock Block] (fuel : ℕ) (client : Client Block)
    (history : BlockHistory S Block) (header : Header) : ℕ :=
  let firstBlockNumber := history.getFirstBlockNumber
  match history.addBlockHeader header with
  | (.error _, _) => 0
  | (.ok isNew, history) =>
      match firstBlockNumber with
      | none => 0
      | some minBlock =>
          if isNew then walkRequests client minBlock fuel history header.parentHash else 0

/-! ## Replaying blocks -/

/-- The first loop of `getParentState`: walk to a block whose database is stored, collecting
the blocks on the way.  The entry of a block below the first block number would end it. -/
def findParentDb (history : BlockHistory S Block) (firstBlockNumber : Option ℕ) :
    ℕ → BlockHash → List BlockHash → Except Halt (Except Report (Option S × List BlockHash))
  | 0, _, _ => .error .fuel
  | fuel + 1, parentHash, missedBlocks =>
      match history.getBlockHistoryEntry parentHash with
      | none => .ok (.error "PARENT_ENTRY_NOT_FOUND")
      | some parentEntry =>
          match firstBlockNumber with
          | none => findParentDb history firstBlockNumber fuel parentHash missedBlocks
          | some firstBlockNumber' =>
              if parentEntry.number < firstBlockNumber' then .ok (.ok (none, missedBlocks))
              else
                match history.blockStates.lookup parentHash with
                | some db => .ok (.ok (some db, missedBlocks))
                | none =>
                    findParentDb history firstBlockNumber fuel parentEntry.parentHash
                      (missedBlocks ++ [parentEntry.hash])

variable [BlockHistoryState S Block]

/-- The second loop of `getParentState`: apply the update of each block and store the database
that results as the block's own. -/
def replay (config : MarketStateConfig) :
    List BlockHash → S → BlockHistory S Block → Except Report S × BlockHistory S Block
  | [], db, history => (.ok db, history)
  | blockHash :: blocks, db, history =>
      match history.getBlockHistoryEntry blockHash with
      | none => (.error "ENTRY_NOT_FOUND", history)
      | some entry =>
          let db := BlockHistoryState.applyUpdate db entry config
          replay config blocks db (history.addDb blockHash db)

def getParentState (fuel : ℕ) (history : BlockHistory S Block) (config : MarketStateConfig)
    (parentHash : BlockHash) : Except Halt (Except Report S × BlockHistory S Block) :=
  (findParentDb history history.getFirstBlockNumber fuel parentHash []).map fun
    | .error e => (.error e, history)
    | .ok (some db, missedBlocks) => replay config missedBlocks.reverse db history
    | .ok (none, _) => (.error "PARENT_DB_NOT_FOUND", history)

/-- The database of a block: its own update on the database of its parent.  What is missing of
the block's entry is fetched first, and not stored. -/
def applyStateUpdateOnParentDb (fuel : ℕ) (client : Client Block)
    (history : BlockHistory S Block) (config : MarketStateConfig) (blockHash : BlockHash) :
    Except Halt (Except Report S × BlockHistory S Block) :=
  match history.getBlockHistoryEntry blockHash with
  | none => .error .panic
  | some entry =>
      match (if entry.isFetched then .ok entry else fetchEntryData client entry) with
      | .error e => .ok (.error e, history)
      | .ok entry =>
          (getParentState fuel history config entry.parentHash).map fun parent =>
            (parent.1.map fun parentDb => BlockHistoryState.applyUpdate parentDb entry config,
              parent.2)

end BlockHistoryManager

end Kabu
