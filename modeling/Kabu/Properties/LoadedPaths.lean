import Kabu.Market.SwapPaths
import Kabu.Properties.SwapPaths

/-!
# The swap paths of a market that pools are loaded into

Pools are loaded one after another.  Each load enters the pool in the market, builds the paths
through its directions, and stores them.  The stored paths are then the cycles over the pools that
were loaded, each once, and do not depend on the order of the loads, as long as no pool is of the
unknown class (`loadPools_stores_cycles`).

A cycle is found when its last pool is loaded.  By then the others have to be looked up, and a pool
of the unknown class is never handed out, so the cycles that are missing are those with such a pool
that was not the last to come (`SwapPath.EarlierKnown`).
-/

namespace Kabu

open Market SwapPathBuilder

/-- Of two pools of the path, the one that was loaded earlier is of a known class. -/
def SwapPath.EarlierKnown (pools : List Pool) (path : SwapPath) : Prop :=
  pools.Pairwise fun p q => p ∈ path.pools → q ∈ path.pools → p.getClass ≠ .unknown

def PathMarket.ofTokens (tokens : List Token) : PathMarket :=
  { toMarket := Market.run (tokens.map Call.addToken), swapPaths := .new }

def PathMarket.loadPools [DefaultHasher] (tokens : List Token) (pools : List Pool) : PathMarket :=
  pools.foldl (fun market pool => (market.addPoolPaths pool).1) (.ofTokens tokens)

/-! ## Cycles in a growing market -/

variable {path : SwapPath}

namespace Market

variable {market market' : Market}

/-- A cycle of one market is one of another that has the same tokens and the pools of the cycle. -/
lemma IsCycle.of_tokens_eq (h : market.IsCycle path)
    (htokens : ∀ a, market'.tokens.lookup a = market.tokens.lookup a)
    (hpools : ∀ pool ∈ path.pools, market'.pools.lookup pool.getPoolId = some pool) :
    market'.IsCycle path := by
  have htoken : ∀ a, market'.getTokenOrDefault a = market.getTokenOrDefault a := fun a => by
    rw [getTokenOrDefault, htokens, getTokenOrDefault]
  have hbasic : ∀ a, market'.isBasicToken a = market.isBasicToken a := fun a => by
    rw [← isBasicToken_eq_basic, htoken, isBasicToken_eq_basic]
  refine { h with tokens := fun token hmem => ?_, pools := hpools, basic := fun token hmem => ?_ }
  · rw [htoken]
    exact h.tokens token hmem
  · rw [hbasic]
    exact h.basic token hmem

lemma addPool_of_new {pool : Pool} (hnew : market.pools.lookup pool.getPoolId = none) :
    (market.call (.addPool pool)).tokens = market.tokens ∧
      (market.call (.addPool pool)).pools = market.pools.insert pool.getPoolId pool := by
  obtain ⟨hpools, -, htokens⟩ :=
    foldl_addDirection_fields pool.getPoolId market pool.getSwapDirections
  have hadd : ∃ market', market.addPool pool = .ok market' ∧ market'.tokens = market.tokens ∧
      market'.pools = market.pools.insert pool.getPoolId pool := by
    unfold addPool
    rw [hnew]
    exact ⟨_, rfl, htokens, congrArg (·.insert pool.getPoolId pool) hpools⟩
  obtain ⟨market', hok, hfields⟩ := hadd
  rw [call, hok]
  exact hfields

lemma tokens_run_addToken (tokens : List Token) (id : PoolId) :
    (Market.run (tokens.map Call.addToken)).pools.lookup id = none := by
  refine List.foldlRecOn (motive := fun market : Market => market.pools.lookup id = none)
    (tokens.map Call.addToken) Market.call rfl fun market h call hmem => ?_
  obtain ⟨token, -, rfl⟩ := List.mem_map.mp hmem
  exact h

end Market

namespace SwapPath

lemma map_fst_hops (h : path.tokens.length = path.pools.length + 1) :
    path.hops.map Prod.fst = path.pools := by
  refine List.map_fst_zip ?_
  rw [List.length_zipWith, List.length_tail]
  omega

end SwapPath

/-- For a cycle, having a pool is going through one of its directions. -/
lemma Market.IsCycle.mem_pools_iff {market : Market} (h : market.IsCycle path) (pool : Pool) :
    pool ∈ path.pools ↔ ∃ direction ∈ pool.getSwapDirections, (pool, direction) ∈ path.hops := by
  rw [← SwapPath.map_fst_hops h.tokens_length, List.mem_map]
  constructor
  · rintro ⟨⟨p, direction⟩, hhop, rfl⟩
    exact ⟨direction, h.directions _ hhop, hhop⟩
  · rintro ⟨direction, -, hhop⟩
    exact ⟨(pool, direction), hhop, rfl⟩

/-- Whether a class hides a path, after one more load: for a path with the new pool its other
pools have to be known, and for the others nothing changes. -/
lemma earlierKnown_concat_of_mem {pools : List Pool} {pool : Pool} (hmem : pool ∈ path.pools)
    (hnew : pool.getPoolId ∉ pools.map Pool.getPoolId)
    (hpools : ∀ p ∈ path.pools, p ∈ pools ∨ p = pool) :
    path.EarlierKnown (pools ++ [pool]) ↔ path.OthersKnown pool := by
  have hid : ∀ p ∈ pools, p.getPoolId ≠ pool.getPoolId := fun p hp heq =>
    hnew (List.mem_map.mpr ⟨p, hp, heq⟩)
  unfold SwapPath.EarlierKnown SwapPath.OthersKnown
  rw [List.pairwise_append]
  constructor
  · rintro ⟨-, -, hlast⟩ p hp hne
    rcases hpools p hp with hold | rfl
    · exact hlast p hold pool (List.mem_singleton_self pool) hp hmem
    · exact absurd rfl hne
  · intro hknown
    have hold : ∀ p ∈ pools, p ∈ path.pools → p.getClass ≠ .unknown := fun p hp hpath =>
      hknown p hpath (hid p hp)
    exact ⟨List.pairwise_of_forall_mem_list fun p hp q _ hpath _ => hold p hp hpath,
      List.pairwise_singleton _ _, fun p hp q _ hpath _ => hold p hp hpath⟩

lemma earlierKnown_concat_of_not_mem {pools : List Pool} {pool : Pool} (hnot : pool ∉ path.pools) :
    path.EarlierKnown (pools ++ [pool]) ↔ path.EarlierKnown pools := by
  unfold SwapPath.EarlierKnown
  rw [List.pairwise_append]
  constructor
  · exact fun h => h.1
  · refine fun h => ⟨h, List.pairwise_singleton _ _, fun p _ q hq _ hpath => ?_⟩
    rw [List.mem_singleton.mp hq] at hpath
    exact absurd hpath hnot

lemma earlierKnown_of_known {pools : List Pool}
    (hknown : ∀ pool ∈ pools, pool.getClass ≠ .unknown) :
    path.EarlierKnown pools :=
  List.pairwise_of_forall_mem_list fun p hp _ _ _ _ => hknown p hp

lemma nodup_ids_concat {pools : List Pool} {pool : Pool}
    (h : ((pools ++ [pool]).map Pool.getPoolId).Nodup) :
    (pools.map Pool.getPoolId).Nodup ∧ pool.getPoolId ∉ pools.map Pool.getPoolId := by
  rw [List.map_append, List.map_singleton, List.nodup_append] at h
  exact ⟨h.1, fun hmem => h.2.2 _ hmem _ (List.mem_singleton_self _) rfl⟩

/-! ## What the loads enter -/

/-- The market has the tokens it started with and the pools that were loaded. -/
structure Entered (tokens : List Token) (pools : List Pool) (market : Market) : Prop where
  indexed : market.Indexed
  tokens_eq : market.tokens = (PathMarket.ofTokens tokens).tokens
  pools_iff : ∀ id pool, market.pools.lookup id = some pool ↔ pool ∈ pools ∧ pool.getPoolId = id

namespace Entered

variable {tokens : List Token} {pools pools' : List Pool} {market market' : Market} {pool : Pool}

lemma start (tokens : List Token) : Entered tokens [] (PathMarket.ofTokens tokens).toMarket :=
  ⟨indexed_run _, rfl, fun id pool => by
    simp [PathMarket.ofTokens, Market.tokens_run_addToken tokens]⟩

section

variable (h : Entered tokens pools market)

include h

lemma lookup_new (hnew : pool.getPoolId ∉ pools.map Pool.getPoolId) :
    market.pools.lookup pool.getPoolId = none := by
  cases hlookup : market.pools.lookup pool.getPoolId with
  | none => rfl
  | some p =>
      obtain ⟨hmem, hid⟩ := (h.pools_iff _ p).mp hlookup
      exact absurd (List.mem_map.mpr ⟨p, hmem, hid⟩) hnew

lemma call (hnew : pool.getPoolId ∉ pools.map Pool.getPoolId) :
    Entered tokens (pools ++ [pool]) (market.call (.addPool pool)) := by
  obtain ⟨htokens, hpools⟩ := Market.addPool_of_new (h.lookup_new hnew)
  refine ⟨h.indexed.call _, htokens.trans h.tokens_eq, fun id p => ?_⟩
  rw [hpools, AssocMap.lookup_insert_eq, List.mem_append, List.mem_singleton]
  split
  · rename_i hid
    subst hid
    constructor
    · intro hsome
      obtain rfl := Option.some.inj hsome
      exact ⟨Or.inr rfl, rfl⟩
    · rintro ⟨hold | rfl, hid⟩
      · exact absurd (List.mem_map.mpr ⟨p, hold, hid⟩) hnew
      · rfl
  · rename_i hid
    rw [h.pools_iff]
    refine and_congr_left fun hpid => (or_iff_left fun heq => hid ?_).symm
    rw [← hpid, heq]

/-- A cycle over some of the pools is one in every market that those pools were entered in. -/
lemma isCycle_of_pools (h' : Entered tokens pools' market') (hcycle : market.IsCycle path)
    (hsub : ∀ p ∈ path.pools, p ∈ pools') :
    market'.IsCycle path :=
  hcycle.of_tokens_eq (fun a => by rw [h'.tokens_eq, h.tokens_eq]) fun p hp =>
    (h'.pools_iff _ p).mpr ⟨hsub p hp, rfl⟩

lemma mem_of_isCycle (hcycle : market.IsCycle path) {p : Pool} (hp : p ∈ path.pools) : p ∈ pools :=
  ((h.pools_iff _ p).mp (hcycle.pools p hp)).1

/-- The cycles after a pool was entered that do not have the pool are those from before. -/
lemma isCycle_call_iff (hnew : pool.getPoolId ∉ pools.map Pool.getPoolId) (path : SwapPath) :
    (market.call (.addPool pool)).IsCycle path ∧ pool ∉ path.pools ↔ market.IsCycle path := by
  have h' := h.call hnew
  constructor
  · rintro ⟨hcycle, hnot⟩
    refine h'.isCycle_of_pools h hcycle fun p hp => ?_
    rcases List.mem_append.mp (h'.mem_of_isCycle hcycle hp) with hold | hlast
    · exact hold
    · exact absurd (List.mem_singleton.mp hlast ▸ hp) hnot
  · intro hcycle
    refine ⟨h.isCycle_of_pools h' hcycle fun p hp =>
      List.mem_append_left _ (h.mem_of_isCycle hcycle hp), fun hmem => hnew ?_⟩
    exact List.mem_map.mpr ⟨pool, h.mem_of_isCycle hcycle hmem, rfl⟩

end

/-- What is built for a pool that was just entered are the cycles with the pool. -/
lemma buildSwapPathVec (h : Entered tokens (pools ++ [pool]) market)
    (hsymmetric : ∀ p ∈ pools ++ [pool], p.Symmetric)
    (hnew : pool.getPoolId ∉ pools.map Pool.getPoolId) :
    ∃ paths, SwapPathBuilder.buildSwapPathVec market [(pool, pool.getSwapDirections)] = .ok paths ∧
      ∀ path, path ∈ paths ↔
        market.IsCycle path ∧ pool ∈ path.pools ∧ path.EarlierKnown (pools ++ [pool]) := by
  have hreversible : market.Reversible := ⟨h.indexed, fun id p hlookup =>
    hsymmetric p ((h.pools_iff id p).mp hlookup).1⟩
  obtain ⟨paths, hbuilt, -, hmem⟩ := buildSwapPathVec_of_reversible hreversible
    [(pool, pool.getSwapDirections)] fun entry hentry => by
      rw [List.mem_singleton.mp hentry]
      exact ⟨(h.pools_iff _ pool).mpr ⟨by simp, rfl⟩, fun _ hdirection => hdirection⟩
  have hknown_iff : ∀ path, market.IsCycle path → pool ∈ path.pools →
      (path.EarlierKnown (pools ++ [pool]) ↔ path.OthersKnown pool) := fun path hcycle hpool =>
    earlierKnown_concat_of_mem hpool hnew fun p hp => by
      simpa using h.mem_of_isCycle hcycle hp
  refine ⟨paths, hbuilt, fun path => (hmem path).trans ?_⟩
  simp only [List.mem_singleton, exists_eq_left]
  constructor
  · rintro ⟨direction, hdirection, ⟨hcycle, hhop⟩, hothers⟩
    have hpool := (hcycle.mem_pools_iff pool).mpr ⟨direction, hdirection, hhop⟩
    exact ⟨hcycle, hpool, (hknown_iff path hcycle hpool).mpr hothers⟩
  · rintro ⟨hcycle, hpool, hknown⟩
    obtain ⟨direction, hdirection, hhop⟩ := (hcycle.mem_pools_iff pool).mp hpool
    exact ⟨direction, hdirection, ⟨hcycle, hhop⟩, (hknown_iff path hcycle hpool).mp hknown⟩

end Entered

/-! ## What the loads store -/

section Loads

variable [DefaultHasher]

/-- No two cycles of the market share a hash. -/
def HashesApart (market : Market) : Prop :=
  ∀ path path', market.IsCycle path → market.IsCycle path' → path.getHash = path'.getHash →
    path.key = path'.key

lemma HashesApart.eq {market : Market} (h : HashesApart market) {path path' : SwapPath}
    (hpath : market.IsCycle path) (hpath' : market.IsCycle path')
    (hhash : path.getHash = path'.getHash) : path = path' :=
  hpath.eq_of_key hpath' (h path path' hpath hpath' hhash)

/-- The store has the cycles over the loaded pools, but for those that an unknown class hides. -/
structure Loaded (tokens : List Token) (pools : List Pool) (market : PathMarket) : Prop
    extends Entered tokens pools market.toMarket where
  store : market.swapPaths.Indexed
  nodup : (market.swapPaths.paths.map SwapPath.getHash).Nodup
  exact : ∀ path, path ∈ market.swapPaths.paths ↔
    market.IsCycle path ∧ path.EarlierKnown pools

variable {tokens : List Token} {pools : List Pool} {market : PathMarket} {pool : Pool}

lemma Loaded.start (tokens : List Token) : Loaded tokens [] (.ofTokens tokens) := by
  refine ⟨Entered.start tokens, SwapPaths.Indexed.new, List.nodup_nil, fun path => ?_⟩
  refine ⟨fun hmem => absurd hmem List.not_mem_nil, ?_⟩
  rintro ⟨hcycle, -⟩
  -- a cycle has a pool, and the market has none
  have hpos : 0 < path.pools.length := by
    rcases hcycle.length with h | h <;> omega
  obtain ⟨pool, hpool⟩ := List.exists_mem_of_length_pos hpos
  exact absurd ((Entered.start tokens).mem_of_isCycle hcycle hpool) List.not_mem_nil

/-- **One load.**  The cycles that the load of a new pool adds are those with the pool whose others
are of a known class. -/
lemma Loaded.addPoolPaths (h : Loaded tokens pools market)
    (hsymmetric : ∀ p ∈ pools ++ [pool], p.Symmetric)
    (hnew : pool.getPoolId ∉ pools.map Pool.getPoolId)
    (hhash : HashesApart (market.toMarket.call (.addPool pool))) :
    Loaded tokens (pools ++ [pool]) (market.addPoolPaths pool).1 := by
  have hentered := h.toEntered.call hnew
  have hcycles := h.isCycle_call_iff hnew
  obtain ⟨paths, hbuilt, hbuilt_iff⟩ := hentered.buildSwapPathVec hsymmetric hnew
  unfold PathMarket.addPoolPaths
  generalize market.toMarket.call (.addPool pool) = entered
    at hhash hentered hcycles hbuilt hbuilt_iff
  dsimp only
  rw [hbuilt]
  dsimp only
  have hmarket := PathMarket.toMarket_addPaths { market with toMarket := entered } paths
  have hdistinct : ∀ path ∈ paths, path.ids.Nodup := fun path hpath =>
    ((hbuilt_iff path).mp hpath).1.distinct
  let stored : KeyedSet SwapPath.getHash := ⟨market.swapPaths.paths, h.nodup⟩
  have hstore := PathMarket.addPaths_indexed { market with toMarket := entered } h.store hdistinct
  have hpaths := PathMarket.paths_addPaths_eq_extend { market with toMarket := entered } h.store
    (show stored.elems = _ from rfl) hdistinct
  generalize (PathMarket.addPaths { market with toMarket := entered } paths).1 = market'
    at hmarket hstore hpaths ⊢
  -- the stored paths and the built ones are cycles, which their hashes tell apart
  have hstored := KeyedSet.mem_extend (P := entered.IsCycle) (fun _ _ hx hy => hhash.eq hx hy)
    (s := stored)
    (fun path hpath => ((hcycles path).mpr ((h.exact path).mp hpath).1).1)
    fun path hpath => ((hbuilt_iff path).mp hpath).1
  refine ⟨hmarket ▸ hentered, hstore, ?_, fun path => ?_⟩
  · rw [hpaths]
    exact KeyedSet.nodup _
  · rw [hpaths, hstored, hmarket, hbuilt_iff]
    refine (or_congr_left (h.exact path)).trans ?_
    rw [← hcycles]
    by_cases hpool : pool ∈ path.pools
    · simp [hpool]
    · simp [hpool, earlierKnown_concat_of_not_mem hpool]

lemma toMarket_addPoolPaths (market : PathMarket) (pool : Pool) :
    (market.addPoolPaths pool).1.toMarket = market.toMarket.call (.addPool pool) := by
  unfold PathMarket.addPoolPaths
  dsimp only
  split
  · rfl
  · exact PathMarket.toMarket_addPaths _ _

lemma loadPools_concat (tokens : List Token) (pools : List Pool) (pool : Pool) :
    PathMarket.loadPools tokens (pools ++ [pool]) =
      ((PathMarket.loadPools tokens pools).addPoolPaths pool).1 := by
  unfold PathMarket.loadPools
  rw [List.foldl_append]
  rfl

lemma entered_loadPools (hids : (pools.map Pool.getPoolId).Nodup) :
    Entered tokens pools (PathMarket.loadPools tokens pools).toMarket := by
  induction pools using List.reverseRecOn with
  | nil => exact Entered.start tokens
  | append_singleton pools pool ih =>
      obtain ⟨hold, hnew⟩ := nodup_ids_concat hids
      rw [loadPools_concat, toMarket_addPoolPaths]
      exact (ih hold).call hnew

/-- **Runs of loads.** -/
lemma loaded_loadPools (hids : (pools.map Pool.getPoolId).Nodup)
    (hsymmetric : ∀ pool ∈ pools, pool.Symmetric)
    (hhash : HashesApart (PathMarket.loadPools tokens pools).toMarket) :
    Loaded tokens pools (PathMarket.loadPools tokens pools) := by
  induction pools using List.reverseRecOn with
  | nil => exact Loaded.start tokens
  | append_singleton pools pool ih =>
      obtain ⟨hold, hnew⟩ := nodup_ids_concat hids
      rw [loadPools_concat] at hhash ⊢
      rw [toMarket_addPoolPaths] at hhash
      have hentered : Entered tokens pools _ := entered_loadPools hold
      have hcycles := hentered.isCycle_call_iff hnew
      refine (ih hold (fun p hp => hsymmetric p (List.mem_append_left _ hp)) ?_).addPoolPaths
        hsymmetric hnew hhash
      exact fun path path' hpath hpath' =>
        hhash path path' ((hcycles path).mpr hpath).1 ((hcycles path').mpr hpath').1

/-- The cycles over the same pools, loaded in another order, are the same. -/
lemma isCycle_loadPools_perm (tokens : List Token) {pools' : List Pool} (hperm : pools'.Perm pools)
    (hids : (pools.map Pool.getPoolId).Nodup) (path : SwapPath) :
    (PathMarket.loadPools tokens pools').IsCycle path ↔
      (PathMarket.loadPools tokens pools).IsCycle path := by
  have h : Entered tokens pools _ := entered_loadPools hids
  have h' : Entered tokens pools' _ :=
    entered_loadPools ((hperm.map Pool.getPoolId).nodup_iff.mpr hids)
  constructor
  · exact fun hcycle => h'.isCycle_of_pools h hcycle fun p hp =>
      hperm.mem_iff.mp (h'.mem_of_isCycle hcycle hp)
  · exact fun hcycle => h.isCycle_of_pools h' hcycle fun p hp =>
      hperm.mem_iff.mpr (h.mem_of_isCycle hcycle hp)

/-- **Loading pools finds their cycles.**  After pools with different ids, which swap in both
directions, were loaded one after another into a market with some tokens, the market's pools are
the loaded ones, and its stored paths are the cycles over them in which every pool but the one
loaded last is of a known class.  Each is stored once.  If no pool is of the unknown class, these
are all the cycles, whatever the order of the loads. -/
theorem loadPools_stores_cycles (tokens : List Token) (pools : List Pool)
    (hids : (pools.map Pool.getPoolId).Nodup) (hsymmetric : ∀ pool ∈ pools, pool.Symmetric)
    (hhash : HashesApart (PathMarket.loadPools tokens pools).toMarket) :
    (∀ id pool, (PathMarket.loadPools tokens pools).pools.lookup id = some pool ↔
        pool ∈ pools ∧ pool.getPoolId = id) ∧
      (∀ path, path ∈ (PathMarket.loadPools tokens pools).swapPaths.paths ↔
        (PathMarket.loadPools tokens pools).IsCycle path ∧ path.EarlierKnown pools) ∧
      ((PathMarket.loadPools tokens pools).swapPaths.paths.map SwapPath.key).Nodup ∧
      ((∀ pool ∈ pools, pool.getClass ≠ .unknown) → ∀ pools' : List Pool, pools'.Perm pools →
        ∀ path, path ∈ (PathMarket.loadPools tokens pools').swapPaths.paths ↔
          (PathMarket.loadPools tokens pools).IsCycle path) := by
  have h := loaded_loadPools hids hsymmetric hhash
  refine ⟨h.pools_iff, h.exact, ?_, fun hknown pools' hperm path => ?_⟩
  · -- paths with one key would have one hash
    have hmap : (PathMarket.loadPools tokens pools).swapPaths.paths.map SwapPath.getHash =
        ((PathMarket.loadPools tokens pools).swapPaths.paths.map SwapPath.key).map
          DefaultHasher.swapPath := by
      rw [List.map_map]
      rfl
    exact List.Nodup.of_map _ (hmap ▸ h.nodup)
  · have hcycles := isCycle_loadPools_perm tokens hperm hids
    have h' : Loaded tokens pools' _ := loaded_loadPools
      ((hperm.map Pool.getPoolId).nodup_iff.mpr hids)
      (fun pool hpool => hsymmetric pool (hperm.mem_iff.mp hpool))
      fun p p' hp hp' => hhash p p' ((hcycles p).mp hp) ((hcycles p').mp hp')
    rw [h'.exact, hcycles, and_iff_left]
    exact earlierKnown_of_known fun pool hpool => hknown pool (hperm.mem_iff.mp hpool)

end Loads

/-! ### Two pools between two tokens -/

section TwoPools

/-- Hash a path by its first pool, which is enough to tell the paths below apart. -/
@[reducible] def firstPoolHasher : DefaultHasher :=
  ⟨fun key => key.2.head?.elim 0 fun id => UInt64.ofNat id.addressOrZero.toNat, fun _ => 0⟩

def basicTokens : List Token := [Token.newWithData 1 true]

/-- A pool of the unknown class between the tokens. -/
def unknownPool : Pool := { pairPool 10 1 2 with getClass := .unknown }

variable {market : Market}

section Cycles

variable {p q : Pool} (hp : p.getSwapDirections = [⟨1, 2⟩, ⟨2, 1⟩])
  (hq : q.getSwapDirections = [⟨1, 2⟩, ⟨2, 1⟩])

include hp hq

lemma address_of_basic (h : Entered basicTokens [p, q] market) {r : Pool} {t x : Address}
    (hswaps : market.Swaps r t x) (ht : market.isBasicToken t = true) :
    (r = p ∨ r = q) ∧ t = 1 ∧ x = 2 := by
  have hmem : r = p ∨ r = q := by simpa using ((h.pools_iff _ r).mp hswaps.1).1
  have hdirections : r.getSwapDirections = [⟨1, 2⟩, ⟨2, 1⟩] := by
    rcases hmem with rfl | rfl
    · exact hp
    · exact hq
  have hdirection := hswaps.2
  rw [hdirections] at hdirection
  refine ⟨hmem, ?_⟩
  rcases List.mem_pair.mp hdirection with heq | heq
  · exact SwapDirection.mk.inj heq
  · -- the second token is not basic
    obtain ⟨rfl, -⟩ := SwapDirection.mk.inj heq
    have hbasic : market.isBasicToken 2 = false := by
      unfold Market.isBasicToken
      rw [h.tokens_eq]
      rfl
    exact absurd (hbasic.symm.trans ht) Bool.false_ne_true

/-- The cycles over two pools go out through one of them and back through the other. -/
lemma key_of_two_pools (h : Entered basicTokens [p, q] market) (hcycle : market.IsCycle path) :
    path.key = ([1, 2, 1], [p.getPoolId, q.getPoolId]) ∨
      path.key = ([1, 2, 1], [q.getPoolId, p.getPoolId]) := by
  rcases (isCycle_iff h.indexed path).mp hcycle with ⟨t, x, r, s, ht, hpath⟩ |
    ⟨t, x, y, r, s, u, ht, hpath⟩
  · obtain ⟨hr, rfl, rfl⟩ := address_of_basic hp hq h hpath.first ht
    have hs : s = p ∨ s = q := by simpa using ((h.pools_iff _ s).mp hpath.second.1).1
    have hne := (nodup_ids_pair _ _).mp hpath.distinct
    have hkey : path.key = ([1, 2, 1], [r.getPoolId, s.getPoolId]) := by
      simp [hpath.path_eq, SwapPath.key, Market.pathOf, h.indexed.address_getTokenOrDefault]
    rcases hr with rfl | rfl <;> rcases hs with rfl | rfl
    · exact absurd rfl hne
    · exact Or.inl hkey
    · exact Or.inr hkey
    · exact absurd rfl hne
  · -- there are no three different pools
    obtain ⟨hrs, hru, hsu⟩ := (nodup_ids_triple _ _ _).mp hpath.distinct
    have hr : r = p ∨ r = q := by simpa using ((h.pools_iff _ r).mp hpath.first.1).1
    have hs : s = p ∨ s = q := by simpa using ((h.pools_iff _ s).mp hpath.second.1).1
    have hu : u = p ∨ u = q := by simpa using ((h.pools_iff _ u).mp hpath.third.1).1
    rcases hr with rfl | rfl <;> rcases hs with rfl | rfl <;> rcases hu with rfl | rfl
    all_goals simp at hrs hru hsu

end Cycles

/-- Hashing by the first pool tells the cycles over two pools with these ids apart. -/
lemma hashesApart_two_pools {p q : Pool} (hp : p.getSwapDirections = [⟨1, 2⟩, ⟨2, 1⟩])
    (hq : q.getSwapDirections = [⟨1, 2⟩, ⟨2, 1⟩]) (hpid : p.getPoolId = .address 10)
    (hqid : q.getPoolId = .address 20) (h : Entered basicTokens [p, q] market) :
    @HashesApart firstPoolHasher market := by
  intro path path' hpath hpath' hhash
  have hkey := key_of_two_pools hp hq h hpath
  have hkey' := key_of_two_pools hp hq h hpath'
  rw [hpid, hqid] at hkey hkey'
  have hhash' : @DefaultHasher.swapPath firstPoolHasher path.key =
    @DefaultHasher.swapPath firstPoolHasher path'.key := hhash
  rcases hkey with hkey | hkey <;> rcases hkey' with hkey' | hkey' <;> rw [hkey, hkey'] at hhash' ⊢
  · exact absurd hhash' (by decide)
  · exact absurd hhash' (by decide)

/-- Two pools of a known class give a cycle each way round, in either order of loading. -/
theorem two_pools_stored :
    letI := firstPoolHasher
    (PathMarket.loadPools basicTokens [pairPool 10 1 2, pairPool 20 1 2]).swapPaths.paths.map
        SwapPath.key = [([1, 2, 1], [.address 20, .address 10]),
          ([1, 2, 1], [.address 10, .address 20])] ∧
      ∀ path, path ∈
          (PathMarket.loadPools basicTokens [pairPool 20 1 2, pairPool 10 1 2]).swapPaths.paths ↔
        (PathMarket.loadPools basicTokens [pairPool 10 1 2, pairPool 20 1 2]).IsCycle path := by
  have hids : ([pairPool 10 1 2, pairPool 20 1 2].map Pool.getPoolId).Nodup := by decide
  have hsymmetric : ∀ pool ∈ [pairPool 10 1 2, pairPool 20 1 2], pool.Symmetric := by
    intro pool hpool
    rcases List.mem_pair.mp hpool with rfl | rfl
    all_goals exact pairPool_symmetric _ _ _
  have hknown : ∀ pool ∈ [pairPool 10 1 2, pairPool 20 1 2], pool.getClass ≠ .unknown := by
    intro pool hpool
    rcases List.mem_pair.mp hpool with rfl | rfl
    all_goals exact PoolClass.noConfusion
  have hstores := @loadPools_stores_cycles firstPoolHasher basicTokens
    [pairPool 10 1 2, pairPool 20 1 2] hids hsymmetric
    (hashesApart_two_pools rfl rfl rfl rfl (@entered_loadPools firstPoolHasher _ _ hids))
  exact ⟨by decide +kernel, hstores.2.2.2 hknown _ (List.Perm.swap _ _ [])⟩

/-- The cycle out through a pool of the unknown class and back through the other pool. -/
def unknownCycle : SwapPath :=
  ⟨[Token.newWithData 1 true, Token.new 2, Token.newWithData 1 true],
    [unknownPool, pairPool 20 1 2], false, []⟩

lemma isCycle_unknownCycle (h : Entered basicTokens [unknownPool, pairPool 20 1 2] market) :
    market.IsCycle unknownCycle := by
  have htoken : ∀ a, market.getTokenOrDefault a =
      (PathMarket.ofTokens basicTokens).getTokenOrDefault a := fun a => by
    unfold Market.getTokenOrDefault
    rw [h.tokens_eq]
  refine Market.TwoHops.isCycle (t := 1) (x := 2) (p := unknownPool) (q := pairPool 20 1 2)
    h.indexed ⟨⟨(h.pools_iff _ _).mpr ⟨by simp, rfl⟩, List.mem_cons_self⟩,
      ⟨(h.pools_iff _ _).mpr ⟨by simp, rfl⟩, List.mem_cons_of_mem _ List.mem_cons_self⟩,
      by decide, ?_⟩ ?_
  · unfold Market.pathOf
    rw [funext htoken]
    rfl
  · rw [← isBasicToken_eq_basic, htoken]
    rfl

/-- **A hidden cycle.**  If the pool of the unknown class is loaded first, the cycle is not found,
although the pools are different, swap both ways, and no two cycles share a hash. -/
theorem unknown_class_hides_cycle :
    letI := firstPoolHasher
    (([unknownPool, pairPool 20 1 2].map Pool.getPoolId).Nodup ∧
      (∀ pool ∈ [unknownPool, pairPool 20 1 2], pool.Symmetric) ∧
      HashesApart (PathMarket.loadPools basicTokens [unknownPool, pairPool 20 1 2]).toMarket) ∧
      (PathMarket.loadPools basicTokens [unknownPool, pairPool 20 1 2]).IsCycle unknownCycle ∧
      (PathMarket.loadPools basicTokens [unknownPool, pairPool 20 1 2]).swapPaths.paths = [] ∧
      (PathMarket.loadPools basicTokens [pairPool 20 1 2, unknownPool]).swapPaths.paths ≠ [] := by
  have hids : ([unknownPool, pairPool 20 1 2].map Pool.getPoolId).Nodup := by decide
  have hentered := @entered_loadPools firstPoolHasher basicTokens _ hids
  have hcycle := isCycle_unknownCycle hentered
  have hnone : (@PathMarket.loadPools firstPoolHasher basicTokens
      [unknownPool, pairPool 20 1 2]).swapPaths.paths.map SwapPath.key = [] := by decide +kernel
  have hsome : (@PathMarket.loadPools firstPoolHasher basicTokens
      [pairPool 20 1 2, unknownPool]).swapPaths.paths.map SwapPath.key ≠ [] := by decide +kernel
  refine ⟨⟨hids, fun pool hpool => ?_, hashesApart_two_pools rfl rfl rfl rfl hentered⟩, hcycle,
    List.map_eq_nil_iff.mp hnone, fun hnil => hsome (congrArg (List.map SwapPath.key) hnil)⟩
  rcases List.mem_pair.mp hpool with rfl | rfl
  · exact pairPool_symmetric 10 1 2
  · exact pairPool_symmetric 20 1 2

end TwoPools

end Kabu
