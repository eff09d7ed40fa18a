import Kabu.Properties.DisabledPools
import Kabu.Strategy.ArbSearcher

/-!
# Disabled pools in a search

A search for a state update should not go through a disabled direction of a pool, unless the event
itself names the pool.

Two things decide instead.  A stored path is handed out for a pool of the event as long as no call
has named another of its hops since it was stored, so a hop that was disabled when the path was
stored goes unnoticed.  And when no path is handed out for the pool, paths are built, by a builder
that looks at a list of disabled pools which nothing enters a pool in.  So the search avoids the
disabled directions exactly when, for each pool of the event, the first hundred paths handed out
had no hop that was disabled when they were stored and, if there are none, nothing that is found
through the given directions has a disabled hop (`search_avoids_disabled_iff`).

The market is any that loads of pools and calls about disabled pools have left, with pools of any
kind.
-/

namespace Kabu

open LastWrite SwapPathBuilder ArbSearcher

inductive LoadCall
  | loadPool (pool : Pool)
  | setPoolDisabled (poolId : PoolId) (tokenFrom tokenTo : Address) (disabled : Bool)

def LoadCall.disabling : LoadCall → Option PathCall
  | .loadPool _ => none
  | .setPoolDisabled poolId tokenFrom tokenTo disabled =>
      some (.setPoolDisabled poolId tokenFrom tokenTo disabled)

def disablings (calls : List LoadCall) : List PathCall := calls.filterMap LoadCall.disabling

/-- No hop of the path, but for those of the given pools, is disabled after the calls. -/
def SwapPath.AvoidsDisabled (calls : List PathCall) (ids : List PoolId) (path : SwapPath) : Prop :=
  ∀ hop ∈ path.hops, hop.1.getPoolId ∉ ids → hopDisabled calls hop = false

/-- A path, with the calls before and after the one that stored it. -/
structure StoredPath where
  path : SwapPath
  past : List LoadCall
  rest : List LoadCall

namespace StoredPath

/-- The path goes through the pool, and no call since it was stored is about another of its
hops. -/
def shownFor (poolId : PoolId) (stored : StoredPath) : Bool :=
  decide (poolId ∈ stored.path.ids) && !stored.path.hops.any fun hop =>
    decide (hop.1.getPoolId ≠ poolId) && (disablings stored.rest).any fun call =>
      (call.flag hop).isSome

/-- The path as the store has it. -/
def now (stored : StoredPath) : SwapPath :=
  (disablings stored.rest).foldl SwapPath.onCall stored.path

end StoredPath

namespace PathMarket

variable [DefaultHasher]

def loadCall (market : PathMarket) : LoadCall → PathMarket
  | .loadPool pool => (market.addPoolPaths pool).1
  | .setPoolDisabled poolId tokenFrom tokenTo disabled =>
      market.setPoolDisabled poolId tokenFrom tokenTo disabled

def loadRun (tokens : List Token) (calls : List LoadCall) : PathMarket :=
  calls.foldl loadCall (.ofTokens tokens)

/-- The paths that the call adds to the store. -/
def storedBy (market : PathMarket) (call : LoadCall) : List SwapPath :=
  (market.loadCall call).swapPaths.paths.drop market.swapPaths.paths.length

def storedFrom (market : PathMarket) (past : List LoadCall) : List LoadCall → List StoredPath
  | [] => []
  | call :: rest => (market.storedBy call).map (⟨·, past, rest⟩) ++
      storedFrom (market.loadCall call) (past ++ [call]) rest

/-- The paths that a run stores, in the order it stores them. -/
def storedPaths (tokens : List Token) (calls : List LoadCall) : List StoredPath :=
  storedFrom (.ofTokens tokens) [] calls

end PathMarket

lemma disablings_cons (call : LoadCall) (calls : List LoadCall) :
    disablings (call :: calls) = call.disabling.toList ++ disablings calls := by
  unfold disablings
  rw [List.filterMap_cons]
  cases call.disabling <;> rfl

lemma disablings_append (calls calls' : List LoadCall) :
    disablings (calls ++ calls') = disablings calls ++ disablings calls' :=
  List.filterMap_append

/-! ## The paths of a market -/

namespace SwapPath

variable {path path' : SwapPath}

lemma map_hops_eq (path : SwapPath) :
    path.hops.map (fun hop => (hop.1.getPoolId, hop.2)) =
      path.key.2.zip (path.key.1.zipWith SwapDirection.mk path.key.1.tail) := by
  unfold hops key
  dsimp only
  rw [← List.map_tail, List.zipWith_map, List.zip_map_left]
  rfl

lemma hopDisabled_congr (calls : List PathCall) {hop hop' : Pool × SwapDirection}
    (h : (hop.1.getPoolId, hop.2) = (hop'.1.getPoolId, hop'.2)) :
    hopDisabled calls hop = hopDisabled calls hop' := by
  obtain ⟨hid, hdirection⟩ := Prod.mk.inj h
  unfold hopDisabled PathCall.flag
  rw [hid, hdirection]

/-- Whether a path avoids what is disabled can be told from its key. -/
lemma AvoidsDisabled.of_key {calls : List PathCall} {ids : List PoolId}
    (h : path.AvoidsDisabled calls ids) (hkey : path.key = path'.key) :
    path'.AvoidsDisabled calls ids := by
  intro hop hhop hid
  have hmap : path'.hops.map (fun hop => (hop.1.getPoolId, hop.2)) =
      path.hops.map fun hop => (hop.1.getPoolId, hop.2) := by
    rw [map_hops_eq, map_hops_eq, hkey]
  have hmem := List.mem_map_of_mem (f := fun hop : Pool × SwapDirection =>
    (hop.1.getPoolId, hop.2)) hhop
  rw [hmap] at hmem
  obtain ⟨hop', hhop', heq⟩ := List.mem_map.mp hmem
  rw [← hopDisabled_congr calls heq]
  exact h hop' hhop' ((Prod.mk.inj heq).1 ▸ hid)

end SwapPath

section Found

variable {market : Market} {pool : Pool} {a b : Address} {path : SwapPath}
  (h : Found market pool a b path)

include h

lemma SwapPathBuilder.Found.mem_ids : pool.getPoolId ∈ path.ids := by
  cases h <;> simp [SwapPath.ids, Market.pathOf]

lemma SwapPathBuilder.Found.wellFormed : path.WellFormed ∧ path.disabledPool = [] := by
  cases h with
  | twoOut loop hb he hg hd => exact ⟨⟨rfl, hd⟩, rfl⟩
  | threeOut m p q hb he hr hp hq hd => exact ⟨⟨rfl, hd⟩, rfl⟩
  | twoIn loop ha hg hd => exact ⟨⟨rfl, hd⟩, rfl⟩
  | threeIn m p q ha he hp hq hd => exact ⟨⟨rfl, hd⟩, rfl⟩
  | middle t p q ht hr hp hq hd => exact ⟨⟨rfl, hd⟩, rfl⟩

end Found

namespace PathMarket

variable [DefaultHasher] {market : PathMarket}

/-- The indices of the market and of its store are right. -/
structure Sound (market : PathMarket) : Prop where
  indices : market.toMarket.Indexed
  store : market.swapPaths.Indexed

lemma Sound.start (tokens : List Token) : (PathMarket.ofTokens tokens).Sound :=
  ⟨Market.indexed_run _, SwapPaths.Indexed.new⟩

/-- **One call** leaves each stored path as a call about disabled pools would, and a load adds
paths that are well formed and of which nothing is disabled. -/
lemma Sound.loadCall (h : market.Sound) (call : LoadCall) :
    (market.loadCall call).Sound ∧
      (market.loadCall call).swapPaths.paths =
        market.swapPaths.paths.map (fun path => call.disabling.toList.foldl SwapPath.onCall path) ++
          market.storedBy call ∧
      ∀ path ∈ market.storedBy call,
        call.disabling = none ∧ path.WellFormed ∧ path.disabledPool = [] := by
  cases call with
  | loadPool pool =>
      have hindexed := h.indices.call (.addPool pool)
      obtain ⟨paths, hbuilt, hmem⟩ :=
        buildSwapPathVec_single hindexed (pool, pool.getSwapDirections)
      have hfound : ∀ path ∈ paths, path.WellFormed ∧ path.disabledPool = [] := by
        intro path hpath
        obtain ⟨direction, -, hpath⟩ := (hmem path).mp hpath
        exact hpath.wellFormed
      let entered : PathMarket := { market with toMarket := market.toMarket.call (.addPool pool) }
      have hload : market.loadCall (.loadPool pool) = (entered.addPaths paths).1 := by
        unfold PathMarket.loadCall addPoolPaths
        dsimp only
        rw [hbuilt]
      obtain ⟨hpaths, htaken⟩ := paths_addPaths entered paths
      have hstored : market.storedBy (.loadPool pool) = entered.takenPaths paths := by
        unfold storedBy takenPaths
        rw [hload]
      rw [hload, hstored]
      refine ⟨⟨?_, ?_⟩, ?_, fun path hpath => ⟨rfl, hfound path (htaken path hpath)⟩⟩
      · rw [toMarket_addPaths]
        exact hindexed
      · exact addPaths_indexed entered h.store fun path hpath => (hfound path hpath).1.distinct
      · rw [hpaths]
        simp [LoadCall.disabling, entered]
  | setPoolDisabled poolId tokenFrom tokenTo disabled =>
      have hpaths := SwapPaths.paths_disablePoolPaths h.store.positions.lists poolId tokenFrom
        tokenTo disabled
      have hstored : market.storedBy (.setPoolDisabled poolId tokenFrom tokenTo disabled) = [] := by
        unfold storedBy PathMarket.loadCall setPoolDisabled
        dsimp only
        rw [hpaths]
        simp
      rw [hstored]
      refine ⟨⟨h.indices, ?_⟩, ?_, fun path hpath => absurd hpath List.not_mem_nil⟩
      · exact h.store.of_keeps
          (SwapPaths.disablePoolPaths_keeps _ poolId tokenFrom tokenTo disabled)
      · rw [List.append_nil]
        exact hpaths

/-- **A run of calls** leaves the paths from before, each after all the calls, and the paths that
it stored, each after those since. -/
lemma Sound.paths_foldl (h : market.Sound) (past calls : List LoadCall) :
    (calls.foldl PathMarket.loadCall market).Sound ∧
      (calls.foldl PathMarket.loadCall market).swapPaths.paths =
        market.swapPaths.paths.map (fun path => (disablings calls).foldl SwapPath.onCall path) ++
          (market.storedFrom past calls).map StoredPath.now := by
  induction calls generalizing market past with
  | nil => exact ⟨h, by simp [disablings, storedFrom]⟩
  | cons call calls ih =>
      obtain ⟨hsound, hpaths, -⟩ := h.loadCall call
      obtain ⟨hsound', hpaths'⟩ := ih hsound (past ++ [call])
      refine ⟨hsound', hpaths'.trans ?_⟩
      rw [hpaths]
      simp [storedFrom, StoredPath.now, disablings_cons, Function.comp_def]

/-- A path that a run stored came with nothing disabled, and what was said of disabled pools was
said before or after. -/
lemma Sound.mem_storedFrom (h : market.Sound) (past calls : List LoadCall) :
    ∀ stored ∈ market.storedFrom past calls,
      (stored.path.WellFormed ∧ stored.path.disabledPool = []) ∧
        disablings (past ++ calls) = disablings stored.past ++ disablings stored.rest := by
  induction calls generalizing market past with
  | nil => exact fun stored hstored => absurd hstored List.not_mem_nil
  | cons call calls ih =>
      obtain ⟨hsound, -, hstoredBy⟩ := h.loadCall call
      intro stored hstored
      rcases List.mem_append.mp hstored with hnew | hlater
      · obtain ⟨path, hpath, rfl⟩ := List.mem_map.mp hnew
        obtain ⟨hload, hpath⟩ := hstoredBy path hpath
        refine ⟨hpath, ?_⟩
        rw [disablings_append, disablings_cons, hload]
        rfl
      · have hlater := ih hsound (past ++ [call]) stored hlater
        rwa [List.append_assoc, List.singleton_append] at hlater

end PathMarket

/-! ## What is handed out -/

lemma StoredPath.ids_now (stored : StoredPath) : stored.now.ids = stored.path.ids :=
  congrArg (List.map Pool.getPoolId) (stored.path.foldl_onCall_fields _).1

lemma StoredPath.shownFor_eq {stored : StoredPath} (hpath : stored.path.WellFormed)
    (hempty : stored.path.disabledPool = []) (poolId : PoolId) :
    (decide (poolId ∈ stored.now.ids) && stored.now.enabledFor poolId) =
      stored.shownFor poolId := by
  have henabled := hpath.enabledFor_foldl (disablings stored.rest) poolId
  have hmarked : stored.path.MarkedFor (disablings stored.rest) poolId ↔
      (stored.path.hops.any fun hop => decide (hop.1.getPoolId ≠ poolId) &&
        (disablings stored.rest).any fun call => (call.flag hop).isSome) = true := by
    unfold SwapPath.MarkedFor SwapPath.Named
    rw [hempty]
    simp
  unfold shownFor
  rw [ids_now]
  refine congrArg (decide (poolId ∈ stored.path.ids) && ·) (Bool.eq_iff_iff.mpr ?_)
  rw [Bool.not_eq_true', ← Bool.not_eq_true, ← hmarked]
  exact henabled

/-- For a path that is handed out for a pool of the event, being disabled now is having been so
when it was stored. -/
lemma StoredPath.avoidsDisabled_iff {stored : StoredPath} {calls : List LoadCall}
    (hcalls : disablings calls = disablings stored.past ++ disablings stored.rest)
    {ids : List PoolId} {poolId : PoolId} (hid : poolId ∈ ids)
    (hshown : stored.shownFor poolId = true) :
    stored.now.AvoidsDisabled (disablings calls) ids ↔
      stored.path.AvoidsDisabled (disablings stored.past) ids := by
  obtain ⟨hpools, htokens⟩ := stored.path.foldl_onCall_fields (disablings stored.rest)
  have hhops : stored.now.hops = stored.path.hops := SwapPath.hops_congr hpools htokens
  unfold SwapPath.AvoidsDisabled
  rw [hhops]
  refine forall_congr' fun hop => forall_congr' fun hhop => forall_congr' fun hnot => ?_
  -- no call since is about the hop, whose pool is another one
  have hne : hop.1.getPoolId ≠ poolId := fun heq => hnot (heq ▸ hid)
  have hsince : lastWrite (PathCall.flag hop) (disablings stored.rest) = none := by
    rw [lastWrite_eq_none_iff]
    intro call hcall
    refine not_not.mp fun hsome => ?_
    have hnamed := (Bool.and_eq_true_iff.mp hshown).2
    rw [Bool.not_eq_true', List.any_eq_false] at hnamed
    refine hnamed hop hhop (Bool.and_eq_true_iff.mpr ⟨decide_eq_true hne, ?_⟩)
    exact List.any_eq_true.mpr ⟨call, hcall, Option.isSome_iff_ne_none.mpr hsome⟩
  unfold hopDisabled
  rw [hcalls, lastWrite_append, hsince, Option.none_or]

lemma take_eq_filter_zipIdx {A : Type*} (l : List A) (n : ℕ) :
    (l.zipIdx.filter fun indexed => decide (indexed.2 < n)).map Prod.fst = l.take n := by
  have hfrom : ∀ k, ((l.zipIdx k).filter fun indexed => decide (indexed.2 < n)).map Prod.fst =
      l.take (n - k) := by
    induction l with
    | nil => simp
    | cons x l ih =>
        intro k
        rw [List.zipIdx_cons, List.filter_cons]
        by_cases hlt : k < n
        · obtain ⟨d, hd⟩ : ∃ d, n - k = d + 1 := ⟨n - k - 1, by omega⟩
          have hd' : n - (k + 1) = d := by omega
          rw [if_pos (decide_eq_true hlt), List.map_cons, ih, hd, hd', List.take_succ_cons]
        · have hzero : n - k = 0 := by omega
          have hzero' : n - (k + 1) = 0 := by omega
          rw [if_neg (by simpa using hlt), ih, hzero, hzero', List.take_zero, List.take_zero]
  exact hfrom 0

section Search

variable [DefaultHasher] (tokens : List Token) (calls : List LoadCall)

open PathMarket

lemma sound_loadRun : (loadRun tokens calls).Sound :=
  ((Sound.start tokens).paths_foldl [] calls).1

lemma getPoolPaths_loadRun (poolId : PoolId) :
    (loadRun tokens calls).getPoolPaths poolId =
      let shown := (storedPaths tokens calls).filter (·.shownFor poolId)
      if shown.isEmpty then none else some (shown.map StoredPath.now) := by
  obtain ⟨hsound, hpaths⟩ := (Sound.start tokens).paths_foldl [] calls
  have hstored := (Sound.start tokens).mem_storedFrom [] calls
  unfold getPoolPaths
  rw [SwapPaths.getPoolPathsEnabledVec_eq (sound_loadRun tokens calls).store.positions]
  have hfilter : (loadRun tokens calls).swapPaths.paths.filter (fun path =>
      decide (poolId ∈ path.ids) && path.enabledFor poolId) =
      ((storedPaths tokens calls).filter (·.shownFor poolId)).map StoredPath.now := by
    rw [show (loadRun tokens calls).swapPaths.paths =
      (storedPaths tokens calls).map StoredPath.now from hpaths, List.filter_map]
    refine congrArg (List.map StoredPath.now) (List.filter_congr fun stored hmem => ?_)
    obtain ⟨⟨hpath, hempty⟩, -⟩ := hstored stored hmem
    exact StoredPath.shownFor_eq hpath hempty poolId
  rw [hfilter]
  simp

/-- **The paths that are taken for one pool of an event.** -/
lemma mem_poolPaths_loadRun (entry : Pool × List SwapDirection) (path : SwapPath) :
    let shown := (storedPaths tokens calls).filter (·.shownFor entry.1.getPoolId)
    path ∈ poolPaths (loadRun tokens calls) entry ↔
      (∃ stored ∈ shown.take 100, stored.now = path) ∨
        shown = [] ∧ ∃ direction ∈ entry.2, Found (loadRun tokens calls).toMarket entry.1
          direction.tokenFrom direction.tokenTo path := by
  unfold poolPaths
  rw [getPoolPaths_loadRun]
  dsimp only
  cases (storedPaths tokens calls).filter (·.shownFor entry.1.getPoolId) with
  | nil =>
      obtain ⟨paths, hbuilt, hmem⟩ :=
        buildSwapPathVec_single (sound_loadRun tokens calls).indices entry
      simp only [List.isEmpty_nil, if_true, hbuilt, unwrapOr]
      rw [hmem]
      simp
  | cons first others =>
      simp only [List.isEmpty_cons, Bool.false_eq_true, if_false]
      rw [take_eq_filter_zipIdx, ← List.map_take, List.mem_map]
      simp

end Search

/-! ## What is searched -/

namespace ArbSearcher

variable {DB Transaction : Type*}

lemma mem_keys_swapPathSet (market : PathMarket) (event : StateUpdateEvent DB Transaction)
    (k : List Address × List PoolId) :
    k ∈ (swapPathSet market event).elems.map SwapPath.key ↔
      ∃ entry ∈ event.directions.entries, ∃ path ∈ poolPaths market entry, path.key = k := by
  have hloop : ∀ (entries : List (Pool × List SwapDirection)) (set : SwapPathSet),
      k ∈ (entries.foldl (fun set entry => set.extend (poolPaths market entry)) set).elems.map
          SwapPath.key ↔
        k ∈ set.elems.map SwapPath.key ∨
          ∃ entry ∈ entries, ∃ path ∈ poolPaths market entry, path.key = k := by
    intro entries
    induction entries with
    | nil => simp
    | cons entry entries ih =>
        intro set
        rw [List.foldl_cons, ih, KeyedSet.mem_keys_extend,
          List.mem_map (l := poolPaths market entry)]
        simp only [List.mem_cons, exists_eq_or_imp, or_assoc]
  exact (hloop event.directions.entries .empty).trans (or_iff_right List.not_mem_nil)

lemma forall_search_iff [Keccak] [DatabaseCommit DB] (market : PathMarket)
    (event : StateUpdateEvent DB Transaction) {P : SwapPath → Prop}
    (hP : ∀ path path', P path → path.key = path'.key → P path') :
    (∀ db paths, search market event = .ok (db, paths) → ∀ path ∈ paths, P path) ↔
      ∀ entry ∈ event.directions.entries, ∀ path ∈ poolPaths market entry, P path := by
  have hkeys := mem_keys_swapPathSet market event
  constructor
  · intro h entry hentry path hpath
    obtain ⟨searched, hsearched, hkey⟩ :=
      List.mem_map.mp ((hkeys path.key).mpr ⟨entry, hentry, path, hpath, rfl⟩)
    have hsome : (swapPathSet market event).elems.isEmpty = false :=
      List.isEmpty_eq_false_iff.mpr (List.ne_nil_of_mem hsearched)
    have hsearch : search market event = .ok
        (DatabaseHelpers.applyGethStateUpdateVec event.marketState event.stateUpdate,
          (swapPathSet market event).elems) := by
      unfold search
      dsimp only
      rw [hsome]
      rfl
    exact hP searched path (h _ _ hsearch searched hsearched) hkey
  · intro h db paths hsearch path hpath
    have helems : (swapPathSet market event).elems = paths := by
      unfold search at hsearch
      dsimp only at hsearch
      split at hsearch
      · simp at hsearch
      · exact (Prod.mk.inj (Except.ok.inj hsearch)).2
    obtain ⟨entry, hentry, taken, htaken, hkey⟩ :=
      (hkeys path.key).mp (List.mem_map_of_mem (helems ▸ hpath))
    exact hP taken path (h entry hentry taken htaken) hkey

end ArbSearcher

open PathMarket

/-- **When a search avoids disabled directions.**  After any loads of pools and calls about disabled
ones, the paths that are searched for an event have no disabled hop of a pool that the event does
not name exactly when this holds for each pool of the event.  The first hundred stored paths through
the pool, of those that no later call named another hop of, had no such hop when they were stored.
If there are none, nothing that is found through the pool's directions has one now. -/
theorem search_avoids_disabled_iff [DefaultHasher] [Keccak] {DB Transaction : Type*}
    [DatabaseCommit DB] (tokens : List Token) (calls : List LoadCall)
    (event : StateUpdateEvent DB Transaction) :
    (∀ db paths, search (loadRun tokens calls) event = .ok (db, paths) → ∀ path ∈ paths,
        path.AvoidsDisabled (disablings calls) event.directions.ids) ↔
      ∀ entry ∈ event.directions.entries,
        let shown := (storedPaths tokens calls).filter (·.shownFor entry.1.getPoolId)
        (∀ stored ∈ shown.take 100,
          stored.path.AvoidsDisabled (disablings stored.past) event.directions.ids) ∧
        (shown = [] → ∀ direction ∈ entry.2, ∀ path, Found (loadRun tokens calls).toMarket entry.1
            direction.tokenFrom direction.tokenTo path →
          path.AvoidsDisabled (disablings calls) event.directions.ids) := by
  rw [forall_search_iff _ _ fun path path' h hkey => h.of_key hkey]
  refine forall_congr' fun entry => forall_congr' fun hentry => ?_
  dsimp only
  have hid : entry.1.getPoolId ∈ event.directions.ids := by
    unfold PoolDirections.ids PoolDirections.keys
    rw [List.map_map]
    exact List.mem_map_of_mem hentry
  have hmem := mem_poolPaths_loadRun tokens calls entry
  have hstored : ∀ stored ∈ ((storedPaths tokens calls).filter
      (·.shownFor entry.1.getPoolId)).take 100,
      (stored.now.AvoidsDisabled (disablings calls) event.directions.ids ↔
        stored.path.AvoidsDisabled (disablings stored.past) event.directions.ids) := by
    intro stored hmem
    obtain ⟨hmem, hshown⟩ := List.mem_filter.mp (List.mem_of_mem_take hmem)
    exact StoredPath.avoidsDisabled_iff ((Sound.start tokens).mem_storedFrom [] calls stored hmem).2
      hid hshown
  constructor
  · intro h
    refine ⟨fun stored hin => (hstored stored hin).mp ?_,
      fun hnone direction hdirection path hfound => ?_⟩
    · exact h _ ((hmem _).mpr (Or.inl ⟨stored, hin, rfl⟩))
    · exact h path ((hmem path).mpr (Or.inr ⟨hnone, direction, hdirection, hfound⟩))
  · rintro ⟨hshown, hbuilt⟩ path hpath
    rcases (hmem path).mp hpath with ⟨stored, hin, rfl⟩ | ⟨hnone, direction, hdirection, hfound⟩
    · exact (hstored stored hin).mpr (hshown stored hin)
    · exact hbuilt hnone direction hdirection path hfound

/-- Load two pools between two tokens, and disable one of them. -/
def blockedCalls : List LoadCall :=
  [.loadPool (pairPool 10 1 2), .loadPool (pairPool 20 1 2),
    .setPoolDisabled (.address 20) 1 2 true, .setPoolDisabled (.address 20) 2 1 true]

/-- A swap in the other pool. -/
def otherPoolEvent [Keccak] : StateUpdateEvent KabuDB Bytes where
  nextBlockNumber := 101
  marketState := default
  stateUpdate := []
  directions := ⟨[(pairPool 10 1 2, [⟨1, 2⟩, ⟨2, 1⟩])], List.pairwise_singleton _ _⟩
  stuffingTxsHashes := [1]
  stuffingTxs := [[]]

/-- **A disabled pool that is searched.**  All stored paths of the other pool are hidden, and the
paths that are built instead go through the disabled one. -/
theorem fallback_searches_disabled :
    letI := firstPoolHasher
    letI := constKeccak
    hopDisabled (disablings blockedCalls) (pairPool 20 1 2, ⟨2, 1⟩) = true ∧
      (PoolId.address 20) ∉ otherPoolEvent.directions.ids ∧
      ((loadRun basicTokens blockedCalls).getPoolPaths (.address 10)).isSome = false ∧
      ∃ db path others, search (loadRun basicTokens blockedCalls) otherPoolEvent =
          .ok (db, path :: others) ∧
        path.hops.map (fun hop => (hop.1.getPoolId, hop.2)) =
          [(.address 10, ⟨1, 2⟩), (.address 20, ⟨2, 1⟩)] :=
  ⟨by decide +kernel, by decide, by decide +kernel, _, _, _, rfl, rfl⟩

/-- **Where a search looks.**  Each path that is searched goes through one of the pools that the
event names, and through no pool twice. -/
theorem search_through_event [DefaultHasher] [Keccak] {DB Transaction : Type*}
    [DatabaseCommit DB] (tokens : List Token) (calls : List LoadCall)
    (event : StateUpdateEvent DB Transaction) :
    ∀ db paths, search (loadRun tokens calls) event = .ok (db, paths) → ∀ path ∈ paths,
      path.ids.Nodup ∧ ∃ id ∈ path.ids, id ∈ event.directions.ids := by
  refine (forall_search_iff _ _ fun path path' h hkey => ?_).mpr fun entry hentry path hpath => ?_
  · have hids : path.ids = path'.ids := congrArg Prod.snd hkey
    exact hids ▸ h
  suffices h : path.ids.Nodup ∧ entry.1.getPoolId ∈ path.ids from
    ⟨h.1, _, h.2, List.mem_map_of_mem (List.mem_map_of_mem hentry)⟩
  rcases (mem_poolPaths_loadRun tokens calls entry path).mp hpath with
    ⟨stored, hin, rfl⟩ | ⟨-, direction, -, hfound⟩
  · obtain ⟨hmem, hshown⟩ := List.mem_filter.mp (List.mem_of_mem_take hin)
    obtain ⟨⟨hpath, -⟩, -⟩ := (Sound.start tokens).mem_storedFrom [] calls stored hmem
    rw [stored.ids_now]
    exact ⟨hpath.distinct, of_decide_eq_true (Bool.and_eq_true_iff.mp hshown).1⟩
  · exact ⟨hfound.wellFormed.1.distinct, hfound.mem_ids⟩

theorem search_through_otherPoolEvent :
    letI := firstPoolHasher
    letI := constKeccak
    ∃ found, search (loadRun basicTokens blockedCalls) otherPoolEvent = .ok found ∧
      ∀ path ∈ found.2, path.ids.Nodup ∧ ∃ id ∈ path.ids, id ∈ otherPoolEvent.directions.ids :=
  letI := firstPoolHasher
  letI := constKeccak
  Exists.imp (fun _ h => ⟨h, search_through_event _ _ _ _ _ h⟩) ⟨_, rfl⟩

end Kabu
