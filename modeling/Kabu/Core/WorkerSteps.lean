import Kabu.Core.BlockHistoryActor
import Kabu.Entities.ParentState

/-!
# What one message can do

The blocks the messages are about form a `Chain`: a header and a state update for each block
hash.  While all messages are about blocks of one chain, the latest block is one of them
(`LatestOf`), so the parent the worker finds in it is the block's parent.

`receive_cases` then says all that a message can do to the market state, the pending merges and
the stored databases.  Either the market state stays as it is, or the message is the state update
of the latest block and the market moves to it; and the database it moves to is the update
applied to a database that was found as `FoundDb` says.
-/

namespace Kabu

open BlockHistoryManager BlockHistory

/-! ## Chains -/

/-- A block with the change it makes. -/
structure ChainBlock where
  header : Header
  stateUpdate : GethStateUpdateVec

/-- The blocks by hash.  No block has the zero hash, which the code uses for no block at all, and
a child's number is one above its parent's. -/
structure Chain where
  block : BlockHash → Option ChainBlock
  keyed : ∀ h b, block h = some b → b.header.hash = h
  zero : block 0 = none
  level : ∀ h b p, block h = some b → block b.header.parentHash = some p →
    b.header.number = p.header.number + 1

namespace Chain

/-- The header is the one of a block of the chain. -/
def Knows (chain : Chain) (header : Header) : Prop :=
  ∃ b, chain.block header.hash = some b ∧ b.header = header

variable {chain : Chain} {header header' : Header}

lemma Knows.hash_ne_zero (h : chain.Knows header) : header.hash ≠ 0 := by
  obtain ⟨b, hb, -⟩ := h
  intro hzero
  rw [hzero, chain.zero] at hb
  simp at hb

lemma Knows.eq (h : chain.Knows header) (h' : chain.Knows header')
    (hhash : header.hash = header'.hash) : header = header' := by
  obtain ⟨b, hb, rfl⟩ := h
  obtain ⟨b', hb', rfl⟩ := h'
  rw [hhash, hb'] at hb
  rw [Option.some.inj hb]

/-- The message is about a block of the chain, and brings what the chain has for it. -/
def Sends {Block : Type*} [KabuBlock Block] (chain : Chain) : WorkerMessage Block → Prop
  | .header header => chain.Knows header
  | .block block => chain.Knows (KabuBlock.getHeader block)
  | .logs blockHeader _ => chain.Knows blockHeader
  | .stateUpdate blockHeader stateUpdate =>
      chain.block blockHeader.hash = some ⟨blockHeader, stateUpdate⟩

end Chain

variable {DB Block : Type*}

/-! ## The latest block -/

namespace LatestBlock

/-- The latest block is the one of the header. -/
structure Is (latest : LatestBlock Block) (header : Header) : Prop where
  hash : latest.blockHash = header.hash
  number : latest.blockNumber = header.number
  header : latest.blockHeader = some header

/-- There is no latest block, or it is one of the chain. -/
def LatestOf (chain : Chain) (latest : LatestBlock Block) : Prop :=
  latest.blockHash = 0 ∨ ∃ header, chain.Knows header ∧ latest.Is header

variable {chain : Chain} {latest : LatestBlock Block} {header : Header}

lemma LatestOf.is_of_hash (h : LatestOf chain latest) (hheader : chain.Knows header)
    (hhash : latest.blockHash = header.hash) : latest.Is header := by
  rcases h with hzero | ⟨header', hknows, his⟩
  · exact absurd (hhash.symm.trans hzero) hheader.hash_ne_zero
  · have heq : header' = header := hknows.eq hheader (his.hash.symm.trans hhash)
    exact heq ▸ his

lemma is_update_header (h : ¬ header.number < latest.blockNumber) :
    (latest.update header.number header.hash (some header) none none none).2.Is header := by
  unfold update
  rw [if_pos (not_lt.mp h)]
  by_cases hnew : header.number > latest.blockNumber ∨ header.hash ≠ latest.blockHash
  · simp only [if_pos hnew]
    exact ⟨rfl, rfl, rfl⟩
  · simp only [if_neg hnew]
    obtain ⟨hnum, hhash⟩ := not_or.mp hnew
    have hnumber : latest.blockNumber = header.number := by omega
    exact ⟨(not_not.mp hhash).symm, hnumber, rfl⟩

lemma LatestOf.update_header (h : LatestOf chain latest) (hheader : chain.Knows header) :
    LatestOf chain
      (latest.update header.number header.hash (some header) none none none).2 := by
  by_cases hlt : header.number < latest.blockNumber
  · have hsame : (latest.update header.number header.hash (some header) none none none).2 =
        latest := by
      unfold update
      rw [if_neg (by omega)]
    rw [hsame]
    exact h
  · exact Or.inr ⟨header, hheader, is_update_header hlt⟩

lemma Is.update (h : latest.Is header) (blockWithTxs : Option Block) (logs : Option (List Log))
    (diff : Option GethStateUpdateVec) :
    (latest.update header.number header.hash none blockWithTxs logs diff).2.Is header := by
  have hold : ¬ (header.number > latest.blockNumber ∨ header.hash ≠ latest.blockHash) := by
    rw [h.number, h.hash]
    simp
  unfold LatestBlock.update
  rw [if_pos (le_of_eq h.number)]
  simp only [if_neg hold, Option.none_or]
  exact ⟨h.hash, h.number, h.header⟩

end LatestBlock

open LatestBlock

/-! ## The stored databases -/

/-- Every stored database was stored before. -/
def StatesFrom (history history' : BlockHistory DB Block) : Prop :=
  ∀ h db, history'.blockStates.lookup h = some db → history.blockStates.lookup h = some db

namespace StatesFrom

variable {history history' history'' : BlockHistory DB Block}

lemma trans (h : StatesFrom history history') (h' : StatesFrom history' history'') :
    StatesFrom history history'' := fun k db hk => h k db (h' k db hk)

end StatesFrom

lemma statesFrom_of_eq {history history' : BlockHistory DB Block}
    (h : history'.blockStates = history.blockStates) : StatesFrom history history' :=
  fun k db hk => by rwa [h] at hk

variable {answer : Except Report (Bool × ℕ)} {stateUpdate : GethStateUpdateVec}

section States

variable {history : BlockHistory DB Block}

lemma statesFrom_getOrInsertEntry (history : BlockHistory DB Block) (header : Header) :
    StatesFrom history (history.getOrInsertEntryWithHeader header).1 := by
  have hmove : ∀ h : BlockHistory DB Block, StatesFrom h
      (if h.latestBlockNumber ≤ header.number then h.moveHead header else h) := by
    intro h k db hk
    split at hk <;> exact hk
  have hcut : ∀ h : BlockHistory DB Block, StatesFrom h
      (if header.number > h.depth then h.retainAbove header.number else h) := by
    intro h k db hk
    split at hk
    · exact ((AssocMap.mem_lookup_retain _ _ _ _).mp hk).1
    · exact hk
  have hboth := (hmove history).trans (hcut _)
  intro k db hk
  refine hboth k db ?_
  rw [getOrInsertEntryWithHeader] at hk
  generalize (if header.number > BlockHistory.depth _ then _ else _ : BlockHistory DB Block) = cut
    at hk ⊢
  cases hentry : cut.blockEntries.lookup header.hash <;> (rw [hentry] at hk; exact hk)

lemma statesFrom_addBlockHeader (history : BlockHistory DB Block) (header : Header) :
    StatesFrom history (history.addBlockHeader header).2 := by
  intro k db hk
  unfold addBlockHeader at hk
  split at hk
  · exact hk
  · refine statesFrom_getOrInsertEntry history header k db ?_
    simp only at hk
    split at hk <;> exact hk

lemma statesFrom_addBlock [KabuBlock Block] (history : BlockHistory DB Block) (block : Block) :
    StatesFrom history (history.addBlock block).2 := by
  intro k db hk
  refine statesFrom_getOrInsertEntry history (KabuBlock.getHeader block) k db ?_
  rw [addBlock] at hk
  dsimp only at hk
  split at hk <;> exact hk

variable {history' : BlockHistory DB Block} {k : BlockHash} {done : Except Report Unit}

lemma blockStates_addLogs {logs : List Log}
    (h : history.addLogs k logs = some (done, history')) :
    history'.blockStates = history.blockStates := by
  obtain ⟨entry, -, hentry⟩ := Option.map_eq_some_iff.mp h
  split at hentry <;> (obtain ⟨-, rfl⟩ := Prod.mk.inj hentry; rfl)

lemma blockStates_addStateDiff
    (h : history.addStateDiff k stateUpdate = some (done, history')) :
    history'.blockStates = history.blockStates := by
  obtain ⟨entry, -, hentry⟩ := Option.map_eq_some_iff.mp h
  split at hentry <;> (obtain ⟨-, rfl⟩ := Prod.mk.inj hentry; rfl)

variable [KabuBlock Block] {client : Client Block}

lemma blockStates_walkParents {minBlock fuel d : ℕ} {p : BlockHash} {r : Except Report ℕ}
    (h : walkParents client minBlock fuel history p d = .ok (r, history')) :
    history'.blockStates = history.blockStates := by
  obtain ⟨-, hstates, -⟩ := walkParents_invariant
    (I := fun history' _ => history'.blockStates = history.blockStates)
    (fun _ _ _ hsame _ _ => hsame) (fun _ _ _ hsame _ _ _ => hsame) h rfl
  exact hstates

lemma statesFrom_setChainHead {fuel : ℕ} {header : Header}
    (h : BlockHistoryManager.setChainHead fuel client history header = .ok (answer, history')) :
    StatesFrom history history' := by
  have hadd := statesFrom_addBlockHeader history header
  cases headAnswer_of_setChainHead h with
  | known _ => exact statesFrom_of_eq rfl
  | added _ hsecond _ =>
      rw [hsecond] at hadd
      exact hadd
  | walked _ hsecond _ _ _ hwalk =>
      rw [hsecond] at hadd
      exact hadd.trans (statesFrom_of_eq (blockStates_walkParents hwalk))

end States

/-! ## The database an update is applied to -/

section Found

variable [BlockHistoryState DB Block]

/-- The entry with what was missing of it. -/
def FilledIn (client : Client Block) (entry fetched : BlockHistoryEntry Block) : Prop :=
  (if entry.isFetched then .ok entry else fetchEntryData client entry) = .ok fetched

variable {client : Client Block} {entry fetched : BlockHistoryEntry Block}
  {history history' : BlockHistory DB Block} {header : Header} {newDb : DB}

/-- The header stays, and an update that was missing is the traced one, or empty. -/
lemma fetchEntryData_ok (h : fetchEntryData client entry = .ok fetched) :
    fetched.header = entry.header ∧ fetched.stateUpdate =
      some (entry.stateUpdate.getD (unwrapOr [] (client.debugTraceBlock entry.hash))) := by
  unfold fetchEntryData at h
  split at h
  · simp at h
  · split at h
    · simp at h
    · dsimp only at h
      cases hupdate : entry.stateUpdate with
      | none =>
          simp only [hupdate] at h
          split at h
          · rw [← Except.ok.inj h]
            exact ⟨rfl, rfl⟩
          · simp at h
      | some stateUpdate =>
          simp only [hupdate] at h
          split at h
          · rw [← Except.ok.inj h]
            exact ⟨rfl, rfl⟩
          · simp at h

lemma FilledIn.header_eq (h : FilledIn client entry fetched) :
    fetched.header = entry.header := by
  unfold FilledIn at h
  split at h
  · rw [Except.ok.inj h]
  · exact (fetchEntryData_ok h).1

lemma FilledIn.stateUpdate_eq (h : FilledIn client entry fetched)
    (hnone : entry.stateUpdate = none) :
    fetched.stateUpdate = some (unwrapOr [] (client.debugTraceBlock entry.hash)) := by
  have hfetch : entry.isFetched = false := by
    unfold BlockHistoryEntry.isFetched
    rw [hnone]
    rfl
  unfold FilledIn at h
  rw [hfetch] at h
  have hupdate := (fetchEntryData_ok h).2
  rw [hnone] at hupdate
  exact hupdate

/-- The entries that a rebuild for the block reads are those of the chain's blocks, with their
updates. -/
structure ReplaysChain (chain : Chain) (history : BlockHistory DB Block) (header : Header) :
    Prop where
  own : ∀ entry, history.getBlockHistoryEntry header.hash = some entry →
    entry.parentHash = header.parentHash
  path : ∀ path base, ReplayPath history header.parentHash path base → ∀ entry ∈ path,
    ∃ b, chain.block entry.hash = some b ∧ b.header = entry.header ∧
      entry.stateUpdate = some b.stateUpdate

/-- How the database that the update of a block is applied to is found. -/
inductive FoundDb (client : Client Block) (marketState : MarketState DB)
    (history : BlockHistory DB Block) (header : Header) : DB → BlockHistory DB Block → Prop
  /-- The market stands at the parent, or at no block. -/
  | market : marketState.blockHash = 0 ∨ marketState.blockHash = header.parentHash →
      FoundDb client marketState history header marketState.stateDb history
  /-- The blocks above the nearest stored database are replayed on it, and then the block
  itself, as it was before its update was stored. -/
  | rebuilt {entry fetched : BlockHistoryEntry Block} {path : List (BlockHistoryEntry Block)}
      {base parentDb : DB} {history' : BlockHistory DB Block} :
      marketState.blockHash ≠ 0 → marketState.blockHash ≠ header.parentHash →
      history.getBlockHistoryEntry header.hash = some entry → FilledIn client entry fetched →
      ReplayPath history entry.parentHash path base →
      path.foldl (replayStep marketState.config) (base, history) = (parentDb, history') →
      FoundDb client marketState history header
        (BlockHistoryState.applyUpdate parentDb fetched marketState.config) history'

lemma FoundDb.getBlockHistoryEntry_eq {marketState : MarketState DB}
    (h : FoundDb client marketState history header newDb history') (k : BlockHash) :
    history'.getBlockHistoryEntry k = history.getBlockHistoryEntry k := by
  cases h with
  | market _ => rfl
  | @rebuilt entry fetched path base parentDb history' _ _ _ _ _ hfold =>
      have hentries := replayStep_foldl_blockEntries marketState.config path (base, history)
      rw [hfold] at hentries
      rw [getBlockHistoryEntry, hentries]
      rfl

variable {fuel : ℕ} {w : WorkerState DB Block}

lemma newMarketStateDb_ok
    (h : w.newMarketStateDb fuel client header.hash header.parentHash =
      .ok (.ok newDb, history)) :
    FoundDb client w.marketState w.blockHistory header newDb history := by
  unfold WorkerState.newMarketStateDb at h
  by_cases hdirect : w.marketState.blockHash = 0 ∨ w.marketState.blockHash = header.parentHash
  · rw [if_pos hdirect] at h
    obtain ⟨hdb, rfl⟩ := Prod.mk.inj (Except.ok.inj h)
    obtain rfl := Except.ok.inj hdb
    exact .market hdirect
  · rw [if_neg hdirect] at h
    obtain ⟨hzero, hparent⟩ := not_or.mp hdirect
    unfold applyStateUpdateOnParentDb at h
    cases hentry : w.blockHistory.getBlockHistoryEntry header.hash with
    | none =>
        rw [hentry] at h
        simp at h
    | some entry =>
        simp only [hentry] at h
        split at h
        · simp at h
        · rename_i fetched hfilled
          have hfetched : FilledIn client entry fetched := hfilled
          obtain ⟨⟨parent, history'⟩, hget, hanswer⟩ := exceptMap_eq_ok h
          obtain ⟨hparentDb, rfl⟩ := Prod.mk.inj hanswer
          obtain ⟨parentDb, rfl, rfl⟩ := exceptMap_eq_ok hparentDb
          obtain ⟨path, base, hpath, hfold⟩ := getParentState_ok hget
          have hsame : fetched.parentHash = entry.parentHash :=
            congrArg Header.parentHash hfetched.header_eq
          exact .rebuilt hzero hparent hentry hfetched (hsame ▸ hpath) hfold

lemma newMarketStateDb_error {e : Report} {blockHash parentHash : BlockHash}
    (h : w.newMarketStateDb fuel client blockHash parentHash = .ok (.error e, history)) :
    history = w.blockHistory := by
  unfold WorkerState.newMarketStateDb at h
  split at h
  · exact (Prod.mk.inj (Except.ok.inj h)).2.symm
  · unfold applyStateUpdateOnParentDb at h
    split at h
    · simp at h
    · split at h
      · exact (Prod.mk.inj (Except.ok.inj h)).2.symm
      · obtain ⟨⟨parent, history'⟩, hget, hanswer⟩ := exceptMap_eq_ok h
        obtain ⟨hparentDb, rfl⟩ := Prod.mk.inj hanswer
        cases parent with
        | error e' => exact (findParentDb_of_getParentState_error hget).2
        | ok db => simp [Except.map] at hparentDb

end Found

/-! ## What a message does -/

/-- The market has moved to the block of a header, with the given database. -/
structure MovedTo (w : WorkerState DB Block) (history : BlockHistory DB Block) (header : Header)
    (updatedDb : DB) (w' : WorkerState DB Block) : Prop where
  blockHash : w'.marketState.blockHash = header.hash
  stateDb : w'.marketState.stateDb = updatedDb
  config : w'.marketState.config = w.marketState.config
  merges : w'.merges = w.merges ++ [⟨header.number, header.hash, updatedDb⟩]
  states : w'.blockHistory.blockStates = history.blockStates.insert header.hash updatedDb

section Received

variable [KabuBlock Block] [BlockHistoryState DB Block]

/-- What a message does to the market state, the merges and the stored databases. -/
inductive Received (fuel : ℕ) (client : Client Block) (w : WorkerState DB Block) :
    WorkerMessage Block → WorkerState DB Block → Prop
  /-- At most some databases are dropped. -/
  | kept {message : WorkerMessage Block} {w' : WorkerState DB Block} :
      w'.marketState = w.marketState → w'.merges = w.merges →
      StatesFrom w.blockHistory w'.blockHistory → Received fuel client w message w'
  /-- A database was found for the update, but the block has an update already. -/
  | refused {header : Header} {stateUpdate : GethStateUpdateVec} {w' : WorkerState DB Block}
      {answer : Except Report (Bool × ℕ)} {history history' : BlockHistory DB Block} {newDb : DB} :
      BlockHistoryManager.setChainHead fuel client w.blockHistory header =
        .ok (answer, history) →
      FoundDb client w.marketState history header newDb history' →
      w'.marketState = w.marketState → w'.merges = w.merges →
      w'.blockHistory.blockStates = history'.blockStates →
      Received fuel client w (.stateUpdate header stateUpdate) w'
  /-- The market moves. -/
  | moved {header : Header} {stateUpdate : GethStateUpdateVec} {w' : WorkerState DB Block}
      {answer : Except Report (Bool × ℕ)} {history history' : BlockHistory DB Block} {newDb : DB}
      {entry : BlockHistoryEntry Block} :
      BlockHistoryManager.setChainHead fuel client w.blockHistory header =
        .ok (answer, history) →
      FoundDb client w.marketState history header newDb history' →
      history'.getBlockHistoryEntry header.hash = some entry → entry.stateUpdate = none →
      MovedTo w history' header (BlockHistoryState.applyUpdate newDb
        { entry with stateUpdate := some stateUpdate } w.marketState.config) w' →
      Received fuel client w (.stateUpdate header stateUpdate) w'

variable {fuel : ℕ} {client : Client Block} {w w' : WorkerState DB Block} {chain : Chain}
  {header : Header}

lemma updateLatest_kept (w₁ : WorkerState DB Block) (message : WorkerMessage Block)
    (hlatest : LatestOf chain w₁.latestBlock) (hheader : chain.Knows header)
    (hmarket : w₁.marketState = w.marketState) (hmerges : w₁.merges = w.merges)
    (hstates : StatesFrom w.blockHistory w₁.blockHistory) (blockWithTxs : Option Block)
    (logs : Option (List Log)) :
    LatestOf chain (w₁.updateLatest header blockWithTxs logs).latestBlock ∧
      Received fuel client w message (w₁.updateLatest header blockWithTxs logs) := by
  unfold WorkerState.updateLatest
  by_cases hhash : header.hash = w₁.latestBlock.blockHash
  · rw [if_pos hhash]
    have his := (hlatest.is_of_hash hheader hhash.symm).update blockWithTxs logs none
    exact ⟨Or.inr ⟨header, hheader, his⟩, .kept hmarket hmerges hstates⟩
  · rw [if_neg hhash]
    exact ⟨hlatest, .kept hmarket hmerges hstates⟩

omit [KabuBlock Block] in
/-- The update is stored and the market moves, unless the block has an update already. -/
lemma moveMarket_cases (newDb : DB) (number : ℕ) (stateUpdate : GethStateUpdateVec)
    (hw' : w.moveMarket newDb header number stateUpdate = w') :
    w'.latestBlock = w.latestBlock ∧
      ((w'.marketState = w.marketState ∧ w'.merges = w.merges ∧
          w'.blockHistory.blockStates = w.blockHistory.blockStates) ∨
        ∃ entry, w.blockHistory.getBlockHistoryEntry header.hash = some entry ∧
          entry.stateUpdate = none ∧
          MovedTo w w.blockHistory header (BlockHistoryState.applyUpdate newDb
            { entry with stateUpdate := some stateUpdate } w.marketState.config) w') := by
  subst hw'
  unfold WorkerState.moveMarket addStateDiff
  cases hentry : w.blockHistory.blockEntries.lookup header.hash with
  | none => exact ⟨rfl, Or.inl ⟨rfl, rfl, rfl⟩⟩
  | some entry =>
      cases hupdate : entry.stateUpdate with
      | some old =>
          simp only [Option.map_some, hupdate, Option.isNone_some, Bool.false_eq_true, if_false]
          exact ⟨trivial, Or.inl ⟨trivial, trivial, trivial⟩⟩
      | none =>
          have hhash : entry.hash = header.hash := w.blockHistory.keyed _ _ hentry
          have hown : (w.blockHistory.writeEntry
              { entry with stateUpdate := some stateUpdate }).getBlockHistoryEntry header.hash =
                some { entry with stateUpdate := some stateUpdate } := by
            refine (AssocMap.lookup_insert_eq _ _ _ _).trans (if_pos ?_)
            exact hhash.symm
          simp only [Option.map_some, hupdate, Option.isNone_none, if_true, hown]
          exact ⟨trivial, Or.inr ⟨entry, hentry, hupdate, ⟨rfl, rfl, rfl, rfl, rfl⟩⟩⟩

lemma updateMarket_cases {w₁ : WorkerState DB Block} (hheader : chain.Knows header)
    (his : w₁.latestBlock.Is header) (hmarket : w₁.marketState = w.marketState)
    (hmerges : w₁.merges = w.merges)
    (hhead : BlockHistoryManager.setChainHead fuel client w.blockHistory header =
      .ok (answer, w₁.blockHistory))
    (h : w₁.updateMarket fuel client header stateUpdate = .ok w') :
    LatestOf chain w'.latestBlock ∧
      Received fuel client w (.stateUpdate header stateUpdate) w' := by
  have hstates := statesFrom_setChainHead hhead
  have hparent : w₁.latestBlock.parentHash.getD 0 = header.parentHash := by
    rw [LatestBlock.parentHash, his.header]
    rfl
  have hlatest : LatestOf chain (w₁.latestBlock.update header.number header.hash none none none
      (some stateUpdate)).2 := Or.inr ⟨header, hheader, his.update none none (some stateUpdate)⟩
  unfold WorkerState.updateMarket at h
  simp only [hparent] at h
  generalize (w₁.latestBlock.update header.number header.hash none none none
    (some stateUpdate)).2 = latest at h hlatest
  split at h
  · simp at h
  · rw [← Except.ok.inj h]
    exact ⟨hlatest, .kept hmarket hmerges hstates⟩
  · rename_i e history hfound
    have hsame := newMarketStateDb_error hfound
    rw [← Except.ok.inj h]
    refine ⟨hlatest, .kept hmarket hmerges ?_⟩
    rw [hsame]
    exact hstates
  · rename_i newDb history hfound
    have hdb : FoundDb client w₁.marketState w₁.blockHistory header newDb history :=
      newMarketStateDb_ok hfound
    rw [hmarket] at hdb
    obtain ⟨hlatest', hmove⟩ := moveMarket_cases newDb w₁.latestBlock.blockNumber stateUpdate
      (Except.ok.inj h)
    refine ⟨hlatest'.symm ▸ hlatest, ?_⟩
    rcases hmove with ⟨hmarket', hmerges', hstates'⟩ | ⟨entry, hentry, hnone, hmoved⟩
    · exact .refused hhead hdb (hmarket'.trans hmarket) (hmerges'.trans hmerges) hstates'
    · refine .moved hhead hdb hentry hnone ?_
      have hconfig : w₁.marketState.config = w.marketState.config := by rw [hmarket]
      rw [← hconfig]
      exact ⟨hmoved.blockHash, hmoved.stateDb, hmoved.config.trans hconfig,
        hmoved.merges.trans (by rw [hmerges]), hmoved.states⟩

lemma receive_of_workerStep [DatabaseKabuExt DB] {message : WorkerMessage Block}
    (h : workerStep w (.receive fuel client message) = some w') :
    w.receive fuel client message = .ok w' := by
  rw [workerStep] at h
  split at h
  · split at h
    · rename_i hreceive
      rw [← Option.some.inj h]
      exact hreceive
    · simp at h
  · simp at h

variable (hlatest : LatestOf chain w.latestBlock)

include hlatest

omit [BlockHistoryState DB Block] in
lemma setChainHead_worker (hheader : chain.Knows header)
    (h : w.setChainHead fuel client header = .ok (answer, w')) :
    LatestOf chain w'.latestBlock ∧ w'.marketState = w.marketState ∧ w'.merges = w.merges ∧
      StatesFrom w.blockHistory w'.blockHistory ∧
      ∃ answer', BlockHistoryManager.setChainHead fuel client w.blockHistory header =
        .ok (answer', w'.blockHistory) := by
  unfold WorkerState.setChainHead at h
  obtain ⟨⟨answer', history⟩, hset, hanswer⟩ := exceptMap_eq_ok h
  cases answer' with
  | error e =>
      obtain ⟨-, rfl⟩ := Prod.mk.inj hanswer
      exact ⟨hlatest, rfl, rfl, statesFrom_setChainHead hset, _, hset⟩
  | ok moved =>
      obtain ⟨isNew, reorgDepth⟩ := moved
      obtain ⟨-, rfl⟩ := Prod.mk.inj hanswer
      refine ⟨?_, rfl, rfl, statesFrom_setChainHead hset, _, hset⟩
      cases isNew with
      | true => exact hlatest.update_header hheader
      | false => exact hlatest

lemma receiveHeader_cases (hheader : chain.Knows header)
    (h : w.receiveHeader fuel client header = .ok w') :
    LatestOf chain w'.latestBlock ∧ Received fuel client w (.header header) w' := by
  unfold WorkerState.receiveHeader at h
  obtain ⟨⟨answer, w₁⟩, hset, hanswer⟩ := exceptMap_eq_ok h
  obtain ⟨hlatest₁, hmarket, hmerges, hstates, -⟩ := setChainHead_worker hlatest hheader hset
  cases answer <;> (rw [← hanswer]; exact ⟨hlatest₁, .kept hmarket hmerges hstates⟩)

lemma receiveBlock_cases {block : Block}
    (hheader : chain.Knows (KabuBlock.getHeader block))
    (h : w.receiveBlock fuel client block = .ok w') :
    LatestOf chain w'.latestBlock ∧ Received fuel client w (.block block) w' := by
  unfold WorkerState.receiveBlock at h
  obtain ⟨⟨answer, w₁⟩, hset, hanswer⟩ := exceptMap_eq_ok h
  obtain ⟨hlatest₁, hmarket, hmerges, hstates, -⟩ := setChainHead_worker hlatest hheader hset
  have hadd := statesFrom_addBlock w₁.blockHistory block
  cases answer with
  | error e =>
      rw [← hanswer]
      exact ⟨hlatest₁, .kept hmarket hmerges hstates⟩
  | ok moved =>
      dsimp only at hanswer
      split at hanswer
      · rename_i heq
        rw [heq] at hadd
        rw [← hanswer]
        exact ⟨hlatest₁, .kept hmarket hmerges (hstates.trans hadd)⟩
      · rename_i history heq
        rw [heq] at hadd
        rw [← hanswer]
        exact updateLatest_kept { w₁ with blockHistory := history } _ hlatest₁ hheader hmarket
          hmerges (hstates.trans hadd) _ _

lemma receiveLogs_cases {logs : List Log} (hheader : chain.Knows header)
    (h : w.receiveLogs fuel client header logs = .ok w') :
    LatestOf chain w'.latestBlock ∧ Received fuel client w (.logs header logs) w' := by
  unfold WorkerState.receiveLogs at h
  obtain ⟨⟨answer, w₁⟩, hset, hanswer⟩ := exceptMap_eq_ok h
  obtain ⟨hlatest₁, hmarket, hmerges, hstates, -⟩ := setChainHead_worker hlatest hheader hset
  cases answer with
  | error e =>
      rw [← hanswer]
      exact ⟨hlatest₁, .kept hmarket hmerges hstates⟩
  | ok moved =>
      dsimp only at hanswer
      split at hanswer
      · rw [← hanswer]
        exact ⟨hlatest₁, .kept hmarket hmerges hstates⟩
      · rename_i history heq
        rw [← hanswer]
        have hadd := hstates.trans (statesFrom_of_eq (blockStates_addLogs heq))
        exact ⟨hlatest₁, .kept hmarket hmerges hadd⟩
      · rename_i history heq
        rw [← hanswer]
        have hadd := hstates.trans (statesFrom_of_eq (blockStates_addLogs heq))
        exact updateLatest_kept { w₁ with blockHistory := history } _ hlatest₁ hheader hmarket
          hmerges hadd _ _

lemma receiveStateUpdate_cases (hheader : chain.Knows header)
    (h : w.receiveStateUpdate fuel client header stateUpdate = .ok w') :
    LatestOf chain w'.latestBlock ∧
      Received fuel client w (.stateUpdate header stateUpdate) w' := by
  unfold WorkerState.receiveStateUpdate at h
  cases hset : w.setChainHead fuel client header with
  | error halt =>
      rw [hset] at h
      simp at h
  | ok moved =>
      obtain ⟨answer, w₁⟩ := moved
      obtain ⟨hlatest₁, hmarket, hmerges, hstates, answer', hhead⟩ :=
        setChainHead_worker hlatest hheader hset
      rw [hset] at h
      cases answer with
      | error e =>
          rw [← Except.ok.inj h]
          exact ⟨hlatest₁, .kept hmarket hmerges hstates⟩
      | ok isNew =>
          dsimp only at h
          by_cases hhash : w₁.latestBlock.blockHash = header.hash
          · rw [if_neg (not_not.mpr hhash)] at h
            exact updateMarket_cases hheader (hlatest₁.is_of_hash hheader hhash) hmarket hmerges
              hhead h
          · rw [if_pos hhash] at h
            split at h
            · rw [← Except.ok.inj h]
              exact ⟨hlatest₁, .kept hmarket hmerges hstates⟩
            · rename_i history hdiff
              have hadd := hstates.trans (statesFrom_of_eq (blockStates_addStateDiff hdiff))
              rw [← Except.ok.inj h]
              exact ⟨hlatest₁, .kept hmarket hmerges hadd⟩

/-- **One message.**  The latest block stays one of the chain, and the market state, the merges
and the stored databases change as `Received` says. -/
lemma receive_cases {message : WorkerMessage Block} (hmessage : chain.Sends message)
    (h : w.receive fuel client message = .ok w') :
    LatestOf chain w'.latestBlock ∧ Received fuel client w message w' := by
  cases message with
  | header header => exact receiveHeader_cases hlatest hmessage h
  | block block => exact receiveBlock_cases hlatest hmessage h
  | logs blockHeader logs => exact receiveLogs_cases hlatest hmessage h
  | stateUpdate blockHeader stateUpdate =>
      exact receiveStateUpdate_cases hlatest ⟨_, hmessage, rfl⟩ h

end Received

end Kabu
