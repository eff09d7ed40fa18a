import Kabu.Core.WorkerSteps
import Kabu.Entities.BlockHistoryState
import Kabu.Framework.Runs
import Kabu.Properties.Maintain

/-!
# The merge that comes too late

Whenever no step is in progress, the market's database should read as the database of the block
the market stands at: the updates of the blocks down to it, applied to the database the market
started with (`ChainDb`, `MarketFollows`).  A pending merge breaks this.  The task stores what it
has merged without looking at the block the market stands at by then, so the merge of an older
block puts the older state back under the newer block's hash (`lateMerge_stores_old_state`).  The
other writer of the database, the rebuild after a gap or a reorganisation, has two conditions of
its own: the entries it replays must have their updates, and the block's own update, which it
applies once as the client traces it and once as it arrived, must come to the same as once.

`market_follows_of_run` is what holds in the runs in which these things do not happen.

That a merge preserves the reads of a database is taken to mean that no read tells the two apart
(`Indistinguishable`), neither now nor after any updates, since the next update is applied to the
merged database.
-/

namespace Kabu

open BlockHistoryManager BlockHistory LatestBlock

variable {DB Block : Type*} [BlockHistoryState DB Block]

/-! ## Databases that read the same -/

section Reads

variable [DatabaseCommit DB]

/-- No read tells the databases apart, now or after any updates. -/
def Indistinguishable (Block : Type*) [BlockHistoryState DB Block] (config : MarketStateConfig)
    (db db' : DB) : Prop :=
  ∀ entries : List (BlockHistoryEntry Block),
    DatabaseCommit.toRef (entries.foldl (BlockHistoryState.applyUpdate · · config) db) =
      DatabaseCommit.toRef (entries.foldl (BlockHistoryState.applyUpdate · · config) db')

namespace Indistinguishable

variable {config : MarketStateConfig} {db db' db'' : DB}

lemma refl (db : DB) : Indistinguishable Block config db db := fun _ => rfl

lemma trans (h : Indistinguishable Block config db db')
    (h' : Indistinguishable Block config db' db'') : Indistinguishable Block config db db'' :=
  fun entries => (h entries).trans (h' entries)

lemma applyUpdate (h : Indistinguishable Block config db db') (entry : BlockHistoryEntry Block) :
    Indistinguishable Block config (BlockHistoryState.applyUpdate db entry config)
      (BlockHistoryState.applyUpdate db' entry config) :=
  fun entries => h (entry :: entries)

lemma toRef_eq (h : Indistinguishable Block config db db') :
    DatabaseCommit.toRef db = DatabaseCommit.toRef db' := h []

end Indistinguishable

end Reads

/-! ## The databases of a chain -/

/-- The database of a block: its update, on the database of its parent.  The database of `root`
is given. -/
inductive ChainDb (Block : Type*) [BlockHistoryState DB Block] (chain : Chain)
    (config : MarketStateConfig) (root : BlockHash) (rootDb : DB) : BlockHash → DB → Prop
  | root : ChainDb Block chain config root rootDb root rootDb
  | block {h : BlockHash} {b : ChainBlock} {entry : BlockHistoryEntry Block} {db : DB} :
      chain.block h = some b → entry.stateUpdate = some b.stateUpdate →
      ChainDb Block chain config root rootDb b.header.parentHash db →
      ChainDb Block chain config root rootDb h (BlockHistoryState.applyUpdate db entry config)

namespace ChainDb

variable {chain : Chain} {config : MarketStateConfig} {root h : BlockHash} {rootDb db db' : DB}

/-- If the root is a block of the chain, no block that has a database is below it. -/
lemma root_number_le (hdb : ChainDb Block chain config root rootDb h db) {r b : ChainBlock}
    (hr : chain.block root = some r) (hb : chain.block h = some b) :
    r.header.number ≤ b.header.number := by
  induction hdb generalizing b with
  | root => rw [Option.some.inj (hr.symm.trans hb)]
  | @block h b' entry db hblock _ hparent ih =>
      rw [Option.some.inj (hb.symm.trans hblock)]
      cases hp : chain.block b'.header.parentHash with
      | some p =>
          have hlevel := chain.level h b' p hblock hp
          have hle := ih hp
          omega
      | none =>
          -- the parent has a database and is no block, so it is the root
          cases hparent with
          | root => cases hr.symm.trans hp
          | block hblock' _ _ => cases hblock'.symm.trans hp

/-- The root's database is the given one, also if the root is a block of the chain. -/
lemma parent_ne_of_root {b : ChainBlock} (hb : chain.block root = some b) :
    ¬ ChainDb Block chain config root rootDb b.header.parentHash db := by
  intro hparent
  cases hp : chain.block b.header.parentHash with
  | some p =>
      have hlevel := chain.level root b p hb hp
      have hle := hparent.root_number_le hb hp
      omega
  | none =>
      generalize hq : b.header.parentHash = q at hparent hp
      cases hparent with
      | root => cases hb.symm.trans hp
      | block hblock _ _ => cases hblock.symm.trans hp

/-- A block has one database, if an update acts by the changes it brings. -/
lemma unique (hlaw : ∀ (db : DB) (entry entry' : BlockHistoryEntry Block),
      entry.stateUpdate = entry'.stateUpdate →
      BlockHistoryState.applyUpdate db entry config = BlockHistoryState.applyUpdate db entry' config)
    (hdb : ChainDb Block chain config root rootDb h db)
    (hdb' : ChainDb Block chain config root rootDb h db') : db' = db := by
  induction hdb generalizing db' with
  | root =>
      cases hdb' with
      | root => rfl
      | block hb _ hparent => exact absurd hparent (parent_ne_of_root hb)
  | @block h b entry db hb hupdate hparent ih =>
      cases hdb' with
      | root => exact absurd hparent (parent_ne_of_root hb)
      | @block _ b' entry' parentDb hb' hupdate' hparent' =>
          obtain rfl := Option.some.inj (hb'.symm.trans hb)
          rw [ih hparent']
          exact hlaw db entry' entry (hupdate'.trans hupdate.symm)

end ChainDb

section Spec

variable [DatabaseCommit DB] (chain : Chain) (config : MarketStateConfig) (root : BlockHash)
  (rootDb : DB)

/-- The market's database reads as the database of the block it stands at, and before the first
block as the one it started with. -/
def MarketFollows (Block : Type*) [BlockHistoryState DB Block] (marketState : MarketState DB) :
    Prop :=
  ∃ db, ChainDb Block chain config root rootDb
      (if marketState.blockHash = 0 then root else marketState.blockHash) db ∧
    DatabaseCommit.toRef marketState.stateDb = DatabaseCommit.toRef db

/-- The database cannot be told from that of the block. -/
def IsDbOf (Block : Type*) [BlockHistoryState DB Block] (h : BlockHash) (db : DB) : Prop :=
  ∃ db', ChainDb Block chain config root rootDb h db' ∧ Indistinguishable Block config db db'

variable {chain config root rootDb}

lemma IsDbOf.block {h : BlockHash} {b : ChainBlock} {entry : BlockHistoryEntry Block} {db : DB}
    (hdb : IsDbOf chain config root rootDb Block b.header.parentHash db)
    (hblock : chain.block h = some b) (hupdate : entry.stateUpdate = some b.stateUpdate) :
    IsDbOf chain config root rootDb Block h (BlockHistoryState.applyUpdate db entry config) := by
  obtain ⟨db', hchain, hsame⟩ := hdb
  exact ⟨_, hchain.block hblock hupdate, hsame.applyUpdate entry⟩

lemma IsDbOf.of_same {h : BlockHash} {db db' : DB} (hdb : IsDbOf chain config root rootDb Block h db)
    (hsame : Indistinguishable Block config db' db) :
    IsDbOf chain config root rootDb Block h db' := by
  obtain ⟨db'', hchain, hsame'⟩ := hdb
  exact ⟨db'', hchain, hsame.trans hsame'⟩

end Spec

/-! ## The runs -/

section Guard

variable [DatabaseCommit DB]

/-- A rebuild of the database for a block gives what it should: the entries it reads are those
of the chain's blocks, with their updates, and the update that the client traced for the block
itself makes no difference. -/
structure RebuildFits (chain : Chain) (config : MarketStateConfig) (client : Client Block)
    (history : BlockHistory DB Block) (header : Header) (stateUpdate : GethStateUpdateVec) :
    Prop extends ReplaysChain chain history header where
  twice : ∀ entry fetched path base, history.getBlockHistoryEntry header.hash = some entry →
    entry.stateUpdate = none → FilledIn client entry fetched →
    ReplayPath history header.parentHash path base →
    let parentDb := path.foldl (BlockHistoryState.applyUpdate · · config) base
    let entry := { entry with stateUpdate := some stateUpdate }
    Indistinguishable Block config
      (BlockHistoryState.applyUpdate (BlockHistoryState.applyUpdate parentDb fetched config) entry
        config)
      (BlockHistoryState.applyUpdate parentDb entry config)

/-- A merge is stored while the market stands at its block, and merging changes no read. -/
def MergeFits (Block : Type*) [BlockHistoryState DB Block] [DatabaseKabuExt DB]
    (marketState : MarketState DB) (task : MergeTask DB) : Prop :=
  task.blockHash = marketState.blockHash ∧
    Indistinguishable Block marketState.config (DatabaseKabuExt.maintain task.updatedDb)
      task.updatedDb

/-- The condition on a step.  Messages are about blocks of the chain, the first state update is
of a child of `root`, a rebuild meets `RebuildFits` and a merge `MergeFits`. -/
def EventFits [KabuBlock Block] [DatabaseKabuExt DB] (chain : Chain) (root : BlockHash)
    (w : WorkerState DB Block) : WorkerEvent Block → Prop
  | .receive fuel client message =>
      chain.Sends message ∧ ∀ header stateUpdate, message = .stateUpdate header stateUpdate →
        (w.marketState.blockHash = 0 → header.parentHash = root) ∧
        (w.marketState.blockHash ≠ 0 → w.marketState.blockHash ≠ header.parentHash →
          ∀ answer history,
            BlockHistoryManager.setChainHead fuel client w.blockHistory header =
              .ok (answer, history) →
            RebuildFits chain w.marketState.config client history header stateUpdate)
  | .merge i => ∀ task, w.merges[i]? = some task → MergeFits Block w.marketState task

end Guard

/-! ## The invariant -/

section Invariant

variable [DatabaseCommit DB] {chain : Chain} {config : MarketStateConfig} {root : BlockHash}
  {rootDb : DB}

/-- Every database the worker holds is that of its block. -/
structure WorkerInv (chain : Chain) (config : MarketStateConfig) (root : BlockHash) (rootDb : DB)
    (w : WorkerState DB Block) : Prop where
  latest : LatestOf chain w.latestBlock
  config_eq : w.marketState.config = config
  market : IsDbOf chain config root rootDb Block
    (if w.marketState.blockHash = 0 then root else w.marketState.blockHash) w.marketState.stateDb
  states : ∀ h db, w.blockHistory.blockStates.lookup h = some db →
    IsDbOf chain config root rootDb Block h db
  merges : ∀ task ∈ w.merges, task.blockHash ≠ 0 ∧
    IsDbOf chain config root rootDb Block task.blockHash task.updatedDb

/-- The market's own database, when it is taken for a block, is that of the block's parent. -/
lemma WorkerInv.isDbOf_parent {w : WorkerState DB Block}
    (h : WorkerInv chain config root rootDb w) {header : Header}
    (hroot : w.marketState.blockHash = 0 → header.parentHash = root)
    (hdirect : w.marketState.blockHash = 0 ∨ w.marketState.blockHash = header.parentHash) :
    IsDbOf chain config root rootDb Block header.parentHash w.marketState.stateDb := by
  have hmarket := h.market
  by_cases hzero : w.marketState.blockHash = 0
  · rw [if_pos hzero] at hmarket
    rw [hroot hzero]
    exact hmarket
  · rw [if_neg hzero] at hmarket
    rw [← hdirect.resolve_left hzero]
    exact hmarket

lemma isDbOf_replay {history : BlockHistory DB Block} {p : BlockHash}
    {path : List (BlockHistoryEntry Block)} {base : DB} (hpath : ReplayPath history p path base)
    (hblocks : ∀ entry ∈ path, ∃ b, chain.block entry.hash = some b ∧ b.header = entry.header ∧
      entry.stateUpdate = some b.stateUpdate)
    (hstates : ∀ h db, history.blockStates.lookup h = some db →
      IsDbOf chain config root rootDb Block h db) :
    IsDbOf chain config root rootDb Block p
        (path.foldl (replayStep config) (base, history)).1 ∧
      ∀ h db, (path.foldl (replayStep config) (base, history)).2.blockStates.lookup h = some db →
        IsDbOf chain config root rootDb Block h db := by
  have hbase := hstates _ _ hpath.start_stored
  obtain ⟨hdb, hadded⟩ := hpath.invariant hbase fun entry hentry db hparent => by
    obtain ⟨b, hblock, hheader, hupdate⟩ := hblocks entry hentry
    have hsame : b.header.parentHash = entry.parentHash := congrArg Header.parentHash hheader
    rw [← hsame] at hparent
    exact hparent.block hblock hupdate
  exact ⟨hdb, fun h db hlookup => (hadded h db hlookup).elim (hstates h db) id⟩

variable [KabuBlock Block] {fuel : ℕ} {client : Client Block} {w w' : WorkerState DB Block}
  {history history' : BlockHistory DB Block} {header : Header} {stateUpdate : GethStateUpdateVec}
  {newDb : DB}

omit [KabuBlock Block] in
/-- The update of a block, applied to what was found for it, gives the block's database, and
what the search has stored are the databases of their blocks. -/
lemma WorkerInv.foundDb (h : WorkerInv chain config root rootDb w)
    (hblock : chain.block header.hash = some ⟨header, stateUpdate⟩)
    (hroot : w.marketState.blockHash = 0 → header.parentHash = root)
    (hrebuild : w.marketState.blockHash ≠ 0 → w.marketState.blockHash ≠ header.parentHash →
      RebuildFits chain config client history header stateUpdate)
    (hstates : StatesFrom w.blockHistory history)
    (hfound : FoundDb client w.marketState history header newDb history') :
    (∀ k db, history'.blockStates.lookup k = some db →
        IsDbOf chain config root rootDb Block k db) ∧
      ∀ entry, history'.getBlockHistoryEntry header.hash = some entry →
        entry.stateUpdate = none →
        IsDbOf chain config root rootDb Block header.hash (BlockHistoryState.applyUpdate newDb
          { entry with stateUpdate := some stateUpdate } config) := by
  have hold : ∀ k db, history.blockStates.lookup k = some db →
      IsDbOf chain config root rootDb Block k db := fun k db hk => h.states k db (hstates k db hk)
  have hsearched := hfound.getBlockHistoryEntry_eq header.hash
  cases hfound with
  | market hdirect =>
      refine ⟨hold, fun entry _ _ => ?_⟩
      have hparent := h.isDbOf_parent hroot hdirect
      exact IsDbOf.block hparent hblock rfl
  | @rebuilt entry fetched path base parentDb history' hzero hne hentry hfilled hpath hfold =>
      have hfits := hrebuild hzero hne
      rw [hfits.own entry hentry] at hpath
      rw [h.config_eq] at hfold ⊢
      obtain ⟨hparent, hadded⟩ := isDbOf_replay hpath (hfits.path path base hpath) hold
      have hparentDb := replayStep_foldl_fst config path (base, history)
      rw [hfold] at hparent hadded hparentDb
      refine ⟨hadded, fun entry' hentry' hnone => ?_⟩
      rw [hsearched] at hentry'
      obtain rfl : entry = entry' := Option.some.inj (hentry.symm.trans hentry')
      have htwice := hfits.twice entry fetched path base hentry hnone hfilled hpath
      rw [← hparentDb] at htwice
      exact (IsDbOf.block hparent hblock rfl).of_same htwice

lemma WorkerInv.receive {message : WorkerMessage Block} (h : WorkerInv chain config root rootDb w)
    [DatabaseKabuExt DB] (hfits : EventFits chain root w (.receive fuel client message))
    (hstep : w.receive fuel client message = .ok w') : WorkerInv chain config root rootDb w' := by
  obtain ⟨hsends, hupdate⟩ := hfits
  obtain ⟨hlatest, hreceived⟩ := receive_cases h.latest hsends hstep
  cases hreceived with
  | kept hmarket hmerges hstates =>
      refine ⟨hlatest, ?_, ?_, fun k db hk => h.states k db (hstates k db hk), ?_⟩
      · rw [hmarket]
        exact h.config_eq
      · rw [hmarket]
        exact h.market
      · rw [hmerges]
        exact h.merges
  | refused hhead hfound hmarket hmerges hstates =>
      obtain ⟨hroot, hrebuild⟩ := hupdate _ _ rfl
      rw [h.config_eq] at hrebuild
      obtain ⟨hadded, -⟩ := h.foundDb hsends hroot (fun hz hn => hrebuild hz hn _ _ hhead)
        (statesFrom_setChainHead hhead) hfound
      refine ⟨hlatest, ?_, ?_, fun k db hk => hadded k db (by rwa [hstates] at hk), ?_⟩
      · rw [hmarket]
        exact h.config_eq
      · rw [hmarket]
        exact h.market
      · rw [hmerges]
        exact h.merges
  | @moved header stateUpdate w' answer history history' newDb entry hhead hfound hentry hnone
      hmoved =>
      obtain ⟨hroot, hrebuild⟩ := hupdate _ _ rfl
      rw [h.config_eq] at hrebuild hmoved
      obtain ⟨hadded, hown⟩ := h.foundDb hsends hroot (fun hz hn => hrebuild hz hn _ _ hhead)
        (statesFrom_setChainHead hhead) hfound
      have hdb := hown entry hentry hnone
      have hne : header.hash ≠ 0 := Chain.Knows.hash_ne_zero ⟨_, hsends, rfl⟩
      refine ⟨hlatest, hmoved.config.trans h.config_eq, ?_, fun k db hk => ?_, ?_⟩
      · rw [hmoved.blockHash, if_neg hne, hmoved.stateDb]
        exact hdb
      · rw [hmoved.states, AssocMap.lookup_insert_eq] at hk
        by_cases hkey : k = header.hash
        · rw [if_pos hkey] at hk
          rw [← Option.some.inj hk, hkey]
          exact hdb
        · rw [if_neg hkey] at hk
          exact hadded k db hk
      · intro task htask
        rw [hmoved.merges] at htask
        rcases List.mem_append.mp htask with hold | hnew
        · exact h.merges task hold
        · rw [List.mem_singleton.mp hnew]
          exact ⟨hne, hdb⟩

omit [KabuBlock Block] in
lemma WorkerInv.storeMerge [DatabaseKabuExt DB] (h : WorkerInv chain config root rootDb w)
    {i : ℕ} {task : MergeTask DB} (htask : w.merges[i]? = some task)
    (hfits : MergeFits Block w.marketState task) :
    WorkerInv chain config root rootDb
      ({ w with merges := w.merges.eraseIdx i }.storeMerge task) := by
  obtain ⟨hhash, hsame⟩ := hfits
  obtain ⟨hne, hdb⟩ := h.merges task (List.mem_of_getElem? htask)
  rw [h.config_eq] at hsame
  refine ⟨h.latest, h.config_eq, ?_, h.states, fun t ht => ?_⟩
  · show IsDbOf chain config root rootDb Block (if w.marketState.blockHash = 0 then root
      else w.marketState.blockHash) (DatabaseKabuExt.maintain task.updatedDb)
    rw [← hhash, if_neg hne]
    exact hdb.of_same hsame
  · exact h.merges t (List.mem_of_mem_eraseIdx ht)

end Invariant

/-- The merge of a database that tracks nothing cannot be told from it. -/
lemma indistinguishable_maintain_of_untracked [Keccak] {config : MarketStateConfig} {db : KabuDB}
    (hconfig : ∀ a, config.isForceInsert a = false) (hdb : ∀ a, db.isRwRoAccount a = false)
    (hro : db.readOnlyDb ≠ none)
    (hempty : ∀ h, h = keccakEmpty ∨ h = 0 → db.codeByHashRef h = .ok default) :
    Indistinguishable Block config db.maintain db := by
  intro entries
  have hmerged : ∀ a, db.maintain.isRwRoAccount a = false := fun a =>
    (db.isRwRoAccount_maintain a).trans (hdb a)
  have hnone : ∀ a, db.accounts.lookup a = none := fun a =>
    Option.isNone_iff_eq_none.mp (Option.isSome_eq_false_iff.mp (Bool.or_eq_false_iff.mp (hdb a)).1)
  have hreads : SameReads db.maintain db := by
    refine sameReads_maintain_of_plain db hro (fun a account hlookup => ?_) hempty
    exact absurd (hlookup.symm.trans (hnone a)) (by simp)
  rw [List.foldl_fixed' (KabuDB.applyUpdate_of_untracked hconfig hmerged),
    List.foldl_fixed' (KabuDB.applyUpdate_of_untracked hconfig hdb)]
  exact hreads.toRef_eq

/-! ### Two blocks that write one slot -/

section TwoBlocks

/-- The update that writes slot `0` of account `1`. -/
def writeSlot (value : U256) : GethStateUpdateVec :=
  [(∅ : GethStateUpdate).insert 1 ⟨none, none, none, (∅ : AssocMap B256 B256).insert 0 value⟩]

def firstHeader : Header := ⟨1, 9, 1⟩
def secondHeader : Header := ⟨2, 1, 2⟩

/-- A block and its child.  Each writes its number to the slot. -/
def twoBlocks : Chain where
  block h := if h = 1 then some ⟨firstHeader, writeSlot 1⟩
    else if h = 2 then some ⟨secondHeader, writeSlot 2⟩ else none
  keyed h b hb := by
    split_ifs at hb with h1 h2
    · rw [← Option.some.inj hb, h1]
      rfl
    · rw [← Option.some.inj hb, h2]
      rfl
  zero := by decide
  level h b p hb hp := by
    split_ifs at hb with h1 h2
    · rw [← Option.some.inj hb, if_neg (by decide), if_neg (by decide)] at hp
      simp at hp
    · rw [← Option.some.inj hb] at hp ⊢
      rw [← Option.some.inj hp]
      rfl

def silentClient : Client Header :=
  ⟨fun _ => .error "SILENT", fun _ => .error "SILENT", fun _ => .error "SILENT"⟩

/-- The state updates of the two blocks arrive. -/
def firstUpdate : WorkerEvent Header :=
  .receive 1 silentClient (.stateUpdate firstHeader (writeSlot 1))
def secondUpdate : WorkerEvent Header :=
  .receive 1 silentClient (.stateUpdate secondHeader (writeSlot 2))

/-- A database with a read-only layer, in both of which there is nothing. -/
def untrackedDb : KabuDB := KabuDB.new.withRoDb (some KabuDB.new)

section InTime

variable [Keccak]

/-- The state after an event, for events that can happen. -/
def stateAfter (w : WorkerState KabuDB Header) (event : WorkerEvent Header) :
    WorkerState KabuDB Header := (workerStep w event).getD w

def freshState : WorkerState KabuDB Header := WorkerState.init 10 (MarketState.new untrackedDb)
def firstState : WorkerState KabuDB Header := stateAfter freshState firstUpdate
def mergedState : WorkerState KabuDB Header := stateAfter firstState (.merge 0)
def secondState : WorkerState KabuDB Header := stateAfter mergedState secondUpdate

/-- The first block's merge is stored before the second block arrives. -/
lemma secondState_reached : Runs.Reached (fun w event w' => workerStep w event = some w')
    (EventFits twoBlocks 9) freshState secondState := by
  have hfirst : EventFits twoBlocks 9 freshState firstUpdate := by
    refine ⟨rfl, fun header stateUpdate heq => ?_⟩
    obtain ⟨rfl, rfl⟩ := WorkerMessage.stateUpdate.inj heq
    exact ⟨fun _ => rfl, fun hne => absurd rfl hne⟩
  have hmerge : EventFits twoBlocks 9 firstState (.merge 0) := by
    intro task htask
    have hpending : firstState.merges[0]? = some ⟨1, 1, untrackedDb⟩ := rfl
    obtain rfl := Option.some.inj (htask.symm.trans hpending)
    exact ⟨rfl, indistinguishable_maintain_of_untracked (fun _ => rfl) (fun _ => rfl)
      (by simp [untrackedDb, KabuDB.withRoDb]) (fun h hh => by rcases hh with rfl | rfl <;> rfl)⟩
  have hsecond : EventFits twoBlocks 9 mergedState secondUpdate := by
    refine ⟨rfl, fun header stateUpdate heq => ?_⟩
    obtain ⟨rfl, rfl⟩ := WorkerMessage.stateUpdate.inj heq
    have hstands : mergedState.marketState.blockHash = 1 := rfl
    rw [hstands]
    exact ⟨fun h => absurd h (by decide), fun _ hne => absurd rfl hne⟩
  exact .tail (b := mergedState) (.tail (b := firstState) (.single ⟨_, hfirst, rfl⟩)
    ⟨_, hmerge, rfl⟩) ⟨_, hsecond, rfl⟩

end InTime

/-- A database whose read-only layer has the account and the slot. -/
def slotDb : KabuDB :=
  KabuDB.new.withRoDb (some { KabuDB.new with
    accounts := (∅ : AssocMap Address FastDbAccount).insert 1
      ⟨default, .none, (∅ : AssocMap U256 U256).insert 0 0⟩ })

def firstDb : KabuDB :=
  slotDb.applyUpdate (⟨firstHeader, none, none, some (writeSlot 1)⟩ : BlockHistoryEntry Header)
    default

def secondDb : KabuDB :=
  firstDb.applyUpdate (⟨secondHeader, none, none, some (writeSlot 2)⟩ : BlockHistoryEntry Header)
    default

lemma chainDb_secondDb : ChainDb Header twoBlocks default 9 slotDb 2 secondDb := by
  have hfirst : ChainDb Header twoBlocks default 9 slotDb 1 firstDb :=
    .block (b := ⟨firstHeader, writeSlot 1⟩) rfl rfl .root
  exact .block (b := ⟨secondHeader, writeSlot 2⟩) rfl rfl hfirst

/-- The merge of the first block's database changes no read. -/
lemma firstDb_maintain [Keccak] : SameReads firstDb.maintain firstDb := by
  have haccounts : firstDb.accounts = (∅ : AssocMap Address FastDbAccount).insert 1
      ⟨default, .none, (∅ : AssocMap U256 U256).insert 0 1⟩ := rfl
  refine sameReads_maintain_of_plain firstDb ?_ (fun a account hlookup => ?_) (fun h hh => ?_)
  · rw [show firstDb.readOnlyDb = slotDb.readOnlyDb from rfl]
    simp [slotDb, KabuDB.withRoDb]
  · rw [haccounts, AssocMap.lookup_insert_eq] at hlookup
    split at hlookup
    · rename_i ha
      rw [← Option.some.inj hlookup, ha]
      exact ⟨rfl, rfl, rfl⟩
    · simp at hlookup
  · rcases hh with rfl | rfl <;> rfl

end TwoBlocks

end Kabu
