import Kabu.Defi.PoolLoader
import Kabu.Properties.MergeRace

/-!
# Loaded slots and the chain

A slot that a pool load has written should read, from then on, as its value in the block the
market stands at (`LoadsFollow`).  A load reads at the provider's latest block and writes at
whatever block the market has reached by then, and nothing compares the two: the blocks that the
worker has processed in between skipped the slot, which was not tracked yet, and the load then
writes the old value under the new block (`lateLoad_reads_old_value`).

There are two more ways to lose a load.  A rebuild after a gap or a reorganisation starts from a
database that was stored before the load, and a merge puts back one that was taken before it.
`loaded_slots_follow_of_run` is what holds in the runs in which none of the three happens.

The invariant is that the market's database holds each loaded slot (`KabuDB.Holds`) with its value
in the block.
-/

namespace Kabu

open BlockHistoryManager BlockHistory LatestBlock

/-! ## The values of a chain -/

/-- The storage values in each block.  The update of a block has the values it changes. -/
def ValuesOf (chain : Chain) (val : BlockHash → Address → U256 → U256) : Prop :=
  ∀ h b, chain.block h = some b → ∀ a s,
    val h a s = (LastWrite.lastWrite (KabuDB.slotWrite a s) b.stateUpdate).getD
      (val b.header.parentHash a s)

/-- The database holds each of the slots with its value in the block. -/
def HoldsAll (val : BlockHash → Address → U256 → U256) (slots : List (Address × U256))
    (h : BlockHash) (db : KabuDB) : Prop :=
  ∀ a s, (a, s) ∈ slots → db.Holds a s (val h a s)

/-- Every slot that a load has written reads as its value in the block the market stands at. -/
def LoadsFollow {Block : Type*} (val : BlockHash → Address → U256 → U256)
    (s : LoaderState KabuDB Block) : Prop :=
  s.worker.marketState.blockHash ≠ 0 → ∀ address slot, (address, slot) ∈ s.loaded →
    s.worker.marketState.stateDb.storageRef address slot =
      .ok (val s.worker.marketState.blockHash address slot)

section Blocks

variable {Block : Type*} {chain : Chain} {val : BlockHash → Address → U256 → U256}
  {slots : List (Address × U256)} {config : MarketStateConfig} {db : KabuDB}

/-- The update of a block takes the values of the parent to those of the block. -/
lemma HoldsAll.block (hval : ValuesOf chain val) {h : BlockHash} {b : ChainBlock}
    {entry : BlockHistoryEntry Block} (hdb : HoldsAll val slots b.header.parentHash db)
    (hblock : chain.block h = some b) (hupdate : entry.stateUpdate = some b.stateUpdate) :
    HoldsAll val slots h (db.applyUpdate entry config) := by
  intro a s hmem
  rw [hval h b hblock a s]
  exact (hdb a s hmem).applyUpdate hupdate

/-- An update that is the block's or empty changes nothing that the block's would not. -/
lemma HoldsAll.block_twice (hval : ValuesOf chain val) {h : BlockHash} {b : ChainBlock}
    {traced : GethStateUpdateVec} {fetched entry : BlockHistoryEntry Block}
    (hdb : HoldsAll val slots b.header.parentHash db) (hblock : chain.block h = some b)
    (hfetched : fetched.stateUpdate = some traced) (htraced : traced = b.stateUpdate ∨ traced = [])
    (hupdate : entry.stateUpdate = some b.stateUpdate) :
    HoldsAll val slots h ((db.applyUpdate fetched config).applyUpdate entry config) := by
  intro a s hmem
  have hfirst : (db.applyUpdate fetched config).Holds a s _ := (hdb a s hmem).applyUpdate hfetched
  have hsecond : ((db.applyUpdate fetched config).applyUpdate entry config).Holds a s _ :=
    hfirst.applyUpdate hupdate
  rw [hval h b hblock a s]
  rcases htraced with rfl | rfl
  · cases hwrite : LastWrite.lastWrite (KabuDB.slotWrite a s) b.stateUpdate with
    | none =>
        rw [hwrite] at hsecond
        exact hsecond
    | some v =>
        rw [hwrite] at hsecond
        exact hsecond
  · exact hsecond

lemma HoldsAll.load [Keccak] {h : BlockHash} {state : GethStateUpdate}
    (hdb : HoldsAll val slots h db) (hslots : ∀ a s, (a, s) ∈ slots → a ≠ 0)
    (hvalues : ∀ a s, (a, s) ∈ writtenSlots state →
      KabuDB.slotWrite a s state = some (val h a s) ∧ db.RoLive a) :
    HoldsAll val (slots ++ writtenSlots state) h
      (DatabaseHelpers.applyGethStateUpdate db state) := by
  intro a s hmem
  have ha : a ≠ 0 := (List.mem_append.mp hmem).elim (hslots a s) fun hnew =>
    ((mem_writtenSlots state a s).mp hnew).1
  by_cases hnew : (a, s) ∈ writtenSlots state
  · obtain ⟨hwrite, hlive⟩ := hvalues a s hnew
    refine KabuDB.holds_applyGethStateUpdate ha hlive (fun hnone => ?_) (fun x hx => ?_)
    · cases hwrite.symm.trans hnone
    · exact Option.some.inj (hx.symm.trans hwrite)
  · have hold := hdb a s ((List.mem_append.mp hmem).resolve_right hnew)
    refine KabuDB.holds_applyGethStateUpdate ha hold.live (fun _ => hold) (fun x hx => ?_)
    exact absurd ((mem_writtenSlots state a s).mpr ⟨ha, x, hx⟩) hnew

lemma HoldsAll.replay (hval : ValuesOf chain val) {history : BlockHistory KabuDB Block}
    {p : BlockHash} {path : List (BlockHistoryEntry Block)} {base : KabuDB}
    (hpath : ReplayPath history p path base) (hbase : HoldsAll val slots (pathStart p path) base)
    (hblocks : ∀ entry ∈ path, ∃ b, chain.block entry.hash = some b ∧ b.header = entry.header ∧
      entry.stateUpdate = some b.stateUpdate) :
    HoldsAll val slots p (path.foldl (replayStep config) (base, history)).1 := by
  refine (hpath.invariant hbase fun entry hentry db hparent => ?_).1
  obtain ⟨b, hblock, hheader, hupdate⟩ := hblocks entry hentry
  have hsame : b.header.parentHash = entry.parentHash := congrArg Header.parentHash hheader
  rw [← hsame] at hparent
  exact hparent.block hval hblock hupdate

end Blocks

/-! ## The runs -/

section Guard

variable {Block : Type*}

/-- A rebuild keeps the loaded slots: it starts from a database that has them with the values of
its block, it replays the chain's blocks, and what the client traces for the block itself is the
block's update, unless it answers with nothing. -/
structure RebuildKeeps (chain : Chain) (val : BlockHash → Address → U256 → U256)
    (loaded : List (Address × U256)) (client : Client Block)
    (history : BlockHistory KabuDB Block) (header : Header) (stateUpdate : GethStateUpdateVec) :
    Prop extends ReplaysChain chain history header where
  base : ∀ path base, ReplayPath history header.parentHash path base →
    HoldsAll val loaded (pathStart header.parentHash path) base
  traced : unwrapOr [] (client.debugTraceBlock header.hash) = stateUpdate ∨
    unwrapOr [] (client.debugTraceBlock header.hash) = []

/-- A load brings the values of the block the market stands at, for accounts that the read-only
layer does not know as missing. -/
def LoadFits (val : BlockHash → Address → U256 → U256) (marketState : MarketState KabuDB)
    (load : PoolLoad) : Prop :=
  marketState.blockHash ≠ 0 → ∀ a s, (a, s) ∈ writtenSlots load.state →
    KabuDB.slotWrite a s load.state = some (val marketState.blockHash a s) ∧
      marketState.stateDb.RoLive a

/-- The condition on a step.  Messages are about blocks of the chain, and the database that the
update of a block is applied to has the slots loaded so far; a merge is stored while the database
is still the one that was merged; a load meets `LoadFits`. -/
def LoaderFits [KabuBlock Block] (chain : Chain) (val : BlockHash → Address → U256 → U256)
    (s : LoaderState KabuDB Block) : LoaderEvent Block → Prop
  | .worker (.receive fuel client message) =>
      chain.Sends message ∧ ∀ header stateUpdate, message = .stateUpdate header stateUpdate →
        (s.worker.marketState.blockHash = 0 →
          HoldsAll val s.loaded header.parentHash s.worker.marketState.stateDb) ∧
        (s.worker.marketState.blockHash ≠ 0 →
          s.worker.marketState.blockHash ≠ header.parentHash → ∀ answer history,
            BlockHistoryManager.setChainHead fuel client s.worker.blockHistory header =
              .ok (answer, history) →
            RebuildKeeps chain val s.loaded client history header stateUpdate)
  | .worker (.merge i) => ∀ task, s.worker.merges[i]? = some task →
      task.updatedDb = s.worker.marketState.stateDb
  | .fetch _ _ => True
  | .apply i => ∀ load, s.loads[i]? = some load → LoadFits val s.worker.marketState load

end Guard

/-! ## The invariant -/

section Invariant

variable {Block : Type*} {chain : Chain} {val : BlockHash → Address → U256 → U256}
  {s s' : LoaderState KabuDB Block}

/-- The market's database holds every loaded slot with its value in the block. -/
structure LoaderInv (chain : Chain) (val : BlockHash → Address → U256 → U256)
    (s : LoaderState KabuDB Block) : Prop where
  latest : LatestOf chain s.worker.latestBlock
  nonzero : ∀ a slot, (a, slot) ∈ s.loaded → a ≠ 0
  held : s.worker.marketState.blockHash ≠ 0 →
    HoldsAll val s.loaded s.worker.marketState.blockHash s.worker.marketState.stateDb

lemma LoaderInv.follow (h : LoaderInv chain val s) : LoadsFollow val s :=
  fun hne a slot hmem => (h.held hne a slot hmem).storageRef_eq

variable {fuel : ℕ} {client : Client Block} {history history' : BlockHistory KabuDB Block}
  {header : Header} {stateUpdate : GethStateUpdateVec} {newDb : KabuDB}

lemma LoaderInv.foundDb (hval : ValuesOf chain val) (h : LoaderInv chain val s)
    (hblock : chain.block header.hash = some ⟨header, stateUpdate⟩)
    (hfirst : s.worker.marketState.blockHash = 0 →
      HoldsAll val s.loaded header.parentHash s.worker.marketState.stateDb)
    (hrebuild : s.worker.marketState.blockHash ≠ 0 →
      s.worker.marketState.blockHash ≠ header.parentHash →
      RebuildKeeps chain val s.loaded client history header stateUpdate)
    (hfound : FoundDb client s.worker.marketState history header newDb history')
    {entry : BlockHistoryEntry Block}
    (hentry : history'.getBlockHistoryEntry header.hash = some entry)
    (hnone : entry.stateUpdate = none) :
    HoldsAll val s.loaded header.hash (newDb.applyUpdate
      { entry with stateUpdate := some stateUpdate } s.worker.marketState.config) := by
  rw [hfound.getBlockHistoryEntry_eq] at hentry
  cases hfound with
  | market hdirect =>
      have hparent : HoldsAll val s.loaded header.parentHash s.worker.marketState.stateDb := by
        by_cases hzero : s.worker.marketState.blockHash = 0
        · exact hfirst hzero
        · rw [← hdirect.resolve_left hzero]
          exact h.held hzero
      exact hparent.block hval hblock rfl
  | @rebuilt entry' fetched path base parentDb history' hzero hne hentry' hfilled hpath hfold =>
      have hkeeps := hrebuild hzero hne
      obtain rfl : entry' = entry := Option.some.inj (hentry'.symm.trans hentry)
      rw [hkeeps.own entry' hentry] at hpath
      have hparent : HoldsAll val s.loaded header.parentHash parentDb := by
        have hreplay : HoldsAll val s.loaded header.parentHash
            (path.foldl (replayStep s.worker.marketState.config) (base, history)).1 :=
          .replay hval hpath (hkeeps.base path base hpath) (hkeeps.path path base hpath)
        rw [hfold] at hreplay
        exact hreplay
      have hfetched := hfilled.stateUpdate_eq hnone
      rw [history.keyed header.hash entry' hentry] at hfetched
      exact hparent.block_twice hval hblock hfetched hkeeps.traced rfl

variable [Keccak] [KabuBlock Block]

omit [Keccak] in
lemma LoaderInv.receive {message : WorkerMessage Block} {w' : WorkerState KabuDB Block}
    (hval : ValuesOf chain val) (h : LoaderInv chain val s)
    (hfits : LoaderFits chain val s (.worker (.receive fuel client message)))
    (hstep : s.worker.receive fuel client message = .ok w') :
    LoaderInv chain val { s with worker := w' } := by
  obtain ⟨hsends, hupdate⟩ := hfits
  obtain ⟨hlatest, hreceived⟩ := receive_cases h.latest hsends hstep
  refine ⟨hlatest, h.nonzero, ?_⟩
  cases hreceived with
  | kept hmarket _ _ =>
      rw [hmarket]
      exact h.held
  | refused _ _ hmarket _ _ =>
      rw [hmarket]
      exact h.held
  | moved hhead hfound hentry hnone hmoved =>
      obtain ⟨hfirst, hrebuild⟩ := hupdate _ _ rfl
      rw [hmoved.blockHash, hmoved.stateDb]
      intro _
      exact h.foundDb hval hsends hfirst (fun hz hn => hrebuild hz hn _ _ hhead) hfound hentry
        hnone

omit [KabuBlock Block] in
lemma LoaderInv.apply {i : ℕ} {load : PoolLoad} (h : LoaderInv chain val s)
    (hfits : LoadFits val s.worker.marketState load) :
    LoaderInv chain val
      { s with
        worker := { s.worker with
          marketState := addPoolState s.worker.marketState load.pool load.state }
        loads := s.loads.eraseIdx i
        loaded := s.loaded ++ writtenSlots load.state } := by
  refine ⟨h.latest, fun a slot hmem => ?_, fun hne => ?_⟩
  · exact (List.mem_append.mp hmem).elim (h.nonzero a slot) fun hnew =>
      ((mem_writtenSlots load.state a slot).mp hnew).1
  · exact (h.held hne).load h.nonzero (hfits hne)

lemma LoaderInv.step (hval : ValuesOf chain val) (h : LoaderInv chain val s)
    {event : LoaderEvent Block} (hfits : LoaderFits chain val s event)
    (hstep : loaderStep s event = some s') : LoaderInv chain val s' := by
  cases event with
  | worker event =>
      obtain ⟨w', hworker, rfl⟩ := Option.map_eq_some_iff.mp hstep
      cases event with
      | receive fuel client message =>
          exact h.receive hval hfits (receive_of_workerStep hworker)
      | merge i =>
          obtain ⟨task, htask, rfl⟩ := Option.map_eq_some_iff.mp hworker
          refine ⟨h.latest, h.nonzero, fun hne a slot hmem => ?_⟩
          have hheld := (h.held hne a slot hmem).maintain
          rw [← hfits task htask] at hheld
          exact hheld
  | fetch provider pool =>
      -- reading changes neither the market nor the slots that are loaded
      rw [loaderStep] at hstep
      split at hstep
      · exact Option.some.inj hstep ▸ h
      · split at hstep
        · exact Option.some.inj hstep ▸ h
        · rw [← Option.some.inj hstep]
          exact ⟨h.latest, h.nonzero, h.held⟩
  | apply i =>
      obtain ⟨load, hload, rfl⟩ := Option.map_eq_some_iff.mp hstep
      exact h.apply (hfits load hload)

end Invariant

/-- **Loaded slots follow the chain.**  In every run whose steps fit, every slot that a load has
written reads as its value in the block the market stands at. -/
theorem loaded_slots_follow_of_run {Block : Type*} [Keccak] [KabuBlock Block] (chain : Chain)
    (val : BlockHash → Address → U256 → U256) (hval : ValuesOf chain val) (depth : ℕ)
    (marketState : MarketState KabuDB) (s : LoaderState KabuDB Block)
    (hrun : Runs.Reached (fun s event s' => loaderStep s event = some s') (LoaderFits chain val)
      (LoaderState.init depth marketState) s) : LoadsFollow val s := by
  have hinv : LoaderInv chain val s := by
    refine Runs.Reached.invariant (fun s event s' h hfits hstep => h.step hval hfits hstep) hrun ?_
    refine ⟨Or.inl rfl, fun a slot hmem => ?_, fun _ a slot hmem => ?_⟩
    · simp [LoaderState.init] at hmem
    · simp [LoaderState.init] at hmem
  exact hinv.follow

/-! ### A slot that two blocks write -/

section TwoBlocks

/-- The values of slot `0` of account `1`, which `twoBlocks` writes. -/
def slotValues (h : BlockHash) (a : Address) (s : U256) : U256 :=
  if a = 1 ∧ s = 0 then (if h = 1 then 1 else if h = 2 then 2 else 0) else 0

lemma slotWrite_writeSlot (value : U256) (a : Address) (s : U256) :
    LastWrite.lastWrite (KabuDB.slotWrite a s) (writeSlot value) =
      if a = 1 ∧ s = 0 then some value else none := by
  have hwrite : LastWrite.lastWrite (KabuDB.slotWrite a s) (writeSlot value) =
      (((∅ : GethStateUpdate).insert 1 ⟨none, none, none,
        (∅ : AssocMap B256 B256).insert 0 value⟩).lookup a).bind (·.storage.lookup s) := by
    rw [writeSlot, ← List.nil_append [_], LastWrite.lastWrite_append_singleton]
    exact Option.or_none
  rw [hwrite, AssocMap.lookup_insert_eq]
  by_cases ha : a = 1
  · rw [if_pos ha]
    show AList.lookup s ((∅ : AssocMap B256 B256).insert 0 value) = _
    rw [AssocMap.lookup_insert_eq]
    simp [ha]
  · rw [if_neg ha, if_neg fun hboth => ha hboth.1]
    rfl

lemma valuesOf_twoBlocks : ValuesOf twoBlocks slotValues := by
  intro h b hb a s
  unfold twoBlocks at hb
  dsimp only at hb
  split_ifs at hb with h1 h2
  · rw [← Option.some.inj hb]
    simp only [slotWrite_writeSlot, slotValues, h1, firstHeader]
    split_ifs <;> simp_all
  · rw [← Option.some.inj hb]
    simp only [slotWrite_writeSlot, slotValues, h2, secondHeader]
    split_ifs <;> simp_all

/-- The provider when its latest block is `h`. -/
def providerAt (h : BlockHash) : HeadProvider where
  debugTraceCallPreState _ _ := .ok ∅
  getStorageAt a s := .ok (slotValues h a s)

/-- A pool at account `1` that needs the slot. -/
def slotPool : Pool where
  getClass := .uniswapV2
  getAddress := .address 1
  getPoolId := .address 1
  getTokens := [2, 3]
  getSwapDirections := [⟨2, 3⟩, ⟨3, 2⟩]
  getReadOnlyCellVec := []
  getStateRequired := .ok ⟨[], [(1, 0)], []⟩

section InTime

variable [Keccak]

/-- The state after an event, for events that can happen. -/
def loaderAfter (s : LoaderState KabuDB Header) (event : LoaderEvent Header) :
    LoaderState KabuDB Header := (loaderStep s event).getD s

def unloaded : LoaderState KabuDB Header := LoaderState.init 10 (MarketState.new untrackedDb)
def atFirst : LoaderState KabuDB Header := loaderAfter unloaded (.worker firstUpdate)
def fetchedAtFirst : LoaderState KabuDB Header :=
  loaderAfter atFirst (.fetch (providerAt 1) slotPool)
def loadedAtFirst : LoaderState KabuDB Header := loaderAfter fetchedAtFirst (.apply 0)
def loadedAtSecond : LoaderState KabuDB Header := loaderAfter loadedAtFirst (.worker secondUpdate)

/-- The slot is read and written while the market stands at the first block. -/
lemma loadedAtSecond_reached : Runs.Reached (fun s event s' => loaderStep s event = some s')
    (LoaderFits twoBlocks slotValues) unloaded loadedAtSecond := by
  have hfirst : LoaderFits twoBlocks slotValues unloaded (.worker firstUpdate) := by
    refine ⟨rfl, fun header stateUpdate heq => ⟨fun _ a s hmem => ?_, fun hne => absurd rfl hne⟩⟩
    simp [unloaded, LoaderState.init] at hmem
  have hfetch : LoaderFits twoBlocks slotValues atFirst (.fetch (providerAt 1) slotPool) := trivial
  have happly : LoaderFits twoBlocks slotValues fetchedAtFirst (.apply 0) := by
    intro load hload _ a s hmem
    have hpending : fetchedAtFirst.loads[0]? = some ⟨slotPool, (∅ : GethStateUpdate).insert 1
      ⟨none, none, none, (∅ : AssocMap B256 B256).insert 0 1⟩⟩ := rfl
    obtain rfl := Option.some.inj (hload.symm.trans hpending)
    obtain ⟨rfl, rfl⟩ : a = 1 ∧ s = 0 := Prod.mk.inj (List.mem_singleton.mp hmem)
    refine ⟨rfl, fun ro account hro hlookup => ?_⟩
    have hempty : fetchedAtFirst.worker.marketState.stateDb.readOnlyDb = some KabuDB.new := rfl
    obtain rfl := Option.some.inj (hro.symm.trans hempty)
    simp [KabuDB.new] at hlookup
  have hsecond : LoaderFits twoBlocks slotValues loadedAtFirst (.worker secondUpdate) := by
    refine ⟨rfl, fun header stateUpdate heq => ?_⟩
    obtain ⟨rfl, rfl⟩ := WorkerMessage.stateUpdate.inj heq
    have hstands : loadedAtFirst.worker.marketState.blockHash = 1 := rfl
    rw [hstands]
    exact ⟨fun h => absurd h (by decide), fun _ hne => absurd rfl hne⟩
  exact .tail (b := loadedAtFirst) (.tail (b := fetchedAtFirst) (.tail (b := atFirst)
    (.single ⟨_, hfirst, rfl⟩) ⟨_, hfetch, rfl⟩) ⟨_, happly, rfl⟩) ⟨_, hsecond, rfl⟩

end InTime

/-- A run with a load in time: the slot has the second block's value. -/
theorem loadedAtSecond_follows :
    letI := constKeccak
    (1, 0) ∈ loadedAtSecond.loaded ∧ loadedAtSecond.worker.marketState.blockHash = 2 ∧
      LoadsFollow slotValues loadedAtSecond :=
  letI := constKeccak
  ⟨List.mem_singleton_self _, rfl, loaded_slots_follow_of_run twoBlocks slotValues
    valuesOf_twoBlocks 10 (MarketState.new untrackedDb) loadedAtSecond loadedAtSecond_reached⟩

/-- **A late load.**  The slot is read at the first block and written when the market stands at
the second.  It has its old value there. -/
theorem lateLoad_reads_old_value :
    letI := constKeccak
    ∃ s : LoaderState KabuDB Header,
      [.worker firstUpdate, .fetch (providerAt 1) slotPool, .worker secondUpdate,
          .apply 0].foldlM loaderStep (LoaderState.init 10 (MarketState.new untrackedDb)) =
        some s ∧
      ValuesOf twoBlocks slotValues ∧ (1, 0) ∈ s.loaded ∧
      s.worker.marketState.blockHash = 2 ∧ slotValues 2 1 0 = 2 ∧
      s.worker.marketState.stateDb.storageRef 1 0 = .ok 1 ∧ ¬ LoadsFollow slotValues s := by
  let _ := constKeccak
  refine ⟨_, rfl, valuesOf_twoBlocks, List.mem_singleton_self _, rfl, rfl, rfl, fun hfollow => ?_⟩
  have hread := hfollow (by decide) 1 0 (List.mem_singleton_self _)
  exact absurd hread (by decide)

end TwoBlocks

end Kabu
