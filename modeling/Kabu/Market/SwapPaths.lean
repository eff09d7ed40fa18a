import Kabu.Framework.PositionIndex
import Kabu.Market.SwapPathBuilder

/-!
# The store of swap paths

The market keeps the paths that were found in the order they were found, with an index from pools
to the positions of the paths through them.  A path whose hash is known is not taken a second time.

A path can be disabled, which sets its flag.  A pool can be disabled for one direction.  Every path
through the pool in that direction then gets the pool entered in its list of disabled pools, and the
paths handed out for a pool are those with no other pool in that list.

The market of `Kabu.Market.Market` is the part that the builder of paths reads.  `PathMarket` is the
market with the store, and `PathMarket.addPoolPaths` is what the loader of a pool does to it.

The hashes are those of the standard library's hasher, a parameter here.
-/

namespace Kabu

/-- The hashes that the store keys its maps by. -/
class DefaultHasher where
  swapPath : List Address × List PoolId → UInt64
  swapDirection : SwapDirection × PoolId → UInt64

section Hashes

variable [DefaultHasher]

/-- Tokens are hashed by their addresses and pools by their ids. -/
def SwapPath.getHash (path : SwapPath) : UInt64 := DefaultHasher.swapPath path.key

def SwapDirection.getHashWithPool (direction : SwapDirection) (poolId : PoolId) : UInt64 :=
  DefaultHasher.swapDirection (direction, poolId)

end Hashes

namespace SwapPath

def ids (path : SwapPath) : List PoolId := path.pools.map Pool.getPoolId

/-- The tokens and the pools, which disabling leaves as they are. -/
def route (path : SwapPath) : List Token × List Pool := (path.tokens, path.pools)

/-- The direction in which the path goes through the pool, first if it has the pool at all, and
then if it has the tokens. -/
def poolHop (path : SwapPath) (poolId : PoolId) : Option (Option SwapDirection) :=
  (path.pools.findIdx? fun pool => decide (pool.getPoolId = poolId)).map fun idx =>
    path.tokens[idx]?.bind fun tokenFrom => path.tokens[idx + 1]?.map fun tokenTo =>
      ⟨tokenFrom.address, tokenTo.address⟩

/-- The flag follows the call, but the pool is entered whether it is disabled or enabled. -/
def setDisabled (poolId : PoolId) (disabled : Bool) (path : SwapPath) : SwapPath :=
  { path with
    disabled := disabled
    disabledPool :=
      if poolId ∈ path.disabledPool then path.disabledPool else path.disabledPool ++ [poolId] }

/-- What is done to a path that the index lists for the pool. -/
def disablePool (poolId : PoolId) (direction : SwapDirection) (disabled : Bool)
    (path : SwapPath) : SwapPath :=
  match path.poolHop poolId with
  | some hop => if hop = some direction then path.setDisabled poolId disabled else path
  | none => path.setDisabled poolId disabled

/-- Whether the path is handed out for the pool. -/
def enabledFor (poolId : PoolId) (path : SwapPath) : Bool :=
  path.disabledPool.isEmpty || (path.disabledPool.length == 1 && path.disabledPool.contains poolId)

end SwapPath

structure SwapPaths where
  paths : List SwapPath
  poolPaths : AssocMap PoolId (List ℕ)
  pathHashMap : AssocMap UInt64 ℕ
  disabledDirections : AssocMap UInt64 Bool

namespace SwapPaths

def new : SwapPaths := ⟨[], ∅, ∅, ∅⟩

/-- The paths that are handed out for the pool. -/
def getPoolPathsEnabledVec (store : SwapPaths) (poolId : PoolId) : Option (List SwapPath) :=
  (store.poolPaths.lookup poolId).bind fun positions =>
    let paths := positions.filterMap fun idx =>
      store.paths[idx]?.filter (SwapPath.enabledFor poolId)
    if paths.isEmpty then none else some paths

variable [DefaultHasher]

/-- Take the path, unless one with its hash is there, and answer with its position. -/
def add (store : SwapPaths) (path : SwapPath) : SwapPaths × Option ℕ :=
  let pathIdx := store.paths.length
  match store.pathHashMap.lookup path.getHash with
  | some _ => (store, none)
  | none =>
      ({ store with
          pathHashMap := store.pathHashMap.insert path.getHash pathIdx
          poolPaths := PositionIndex.enter store.poolPaths path.ids pathIdx
          paths := store.paths ++ [path] }, some pathIdx)

/-- Set the flag of a stored path, found by its hash, and answer whether there is one. -/
def disablePath (store : SwapPaths) (swapPath : SwapPath) (disable : Bool) : SwapPaths × Bool :=
  match store.pathHashMap.lookup swapPath.getHash with
  | none => (store, false)
  | some swapPathIdx =>
      if swapPathIdx < store.paths.length then
        ({ store with
            paths := store.paths.modify swapPathIdx fun path => { path with disabled := disable } },
          true)
      else (store, false)

/-- The body of the loop over the positions that the index has for a pool. -/
def disableEntry (poolId : PoolId) (direction : SwapDirection) (disabled : Bool)
    (store : SwapPaths) (pathIdx : ℕ) : SwapPaths :=
  { store with
    paths := store.paths.modify pathIdx (SwapPath.disablePool poolId direction disabled)
    disabledDirections :=
      if store.paths[pathIdx]?.bind (·.poolHop poolId) = some (some direction) then
        store.disabledDirections.insert (direction.getHashWithPool poolId) disabled
      else store.disabledDirections }

def disablePoolPaths (store : SwapPaths) (poolId : PoolId) (tokenFrom tokenTo : Address)
    (disabled : Bool) : SwapPaths :=
  match store.poolPaths.lookup poolId with
  | none => store
  | some positions => positions.foldl (disableEntry poolId ⟨tokenFrom, tokenTo⟩ disabled) store

end SwapPaths

/-- The market with the paths it has stored. -/
structure PathMarket extends Market where
  swapPaths : SwapPaths

namespace PathMarket

instance : Inhabited PathMarket := ⟨⟨default, .new⟩⟩

def getPoolPaths (market : PathMarket) (poolId : PoolId) : Option (List SwapPath) :=
  market.swapPaths.getPoolPathsEnabledVec poolId

variable [DefaultHasher]

/-- Store the paths, and answer with the positions of those that were new. -/
def addPaths (market : PathMarket) (paths : List SwapPath) : PathMarket × List ℕ :=
  paths.foldl (fun acc path =>
    let added := acc.1.swapPaths.add path
    ({ acc.1 with swapPaths := added.1 }, acc.2 ++ added.2.toList)) (market, [])

def setPoolDisabled (market : PathMarket) (poolId : PoolId) (tokenFrom tokenTo : Address)
    (disabled : Bool) : PathMarket :=
  { market with swapPaths := market.swapPaths.disablePoolPaths poolId tokenFrom tokenTo disabled }

/-- What loading a pool does to the market once its state has been fetched: enter the pool, which
is ignored if it is known, build the paths through its directions and store them. -/
def addPoolPaths (market : PathMarket) (pool : Pool) : PathMarket × Except Report (List ℕ) :=
  let market := { market with toMarket := market.toMarket.call (.addPool pool) }
  match SwapPathBuilder.buildSwapPathVec market.toMarket [(pool, pool.getSwapDirections)] with
  | .error report => (market, .error report)
  | .ok paths => ((market.addPaths paths).1, .ok (market.addPaths paths).2)

end PathMarket

/-! ## What the operations do to the stored paths -/

namespace SwapPath

variable {path : SwapPath}

section DisablePool

variable (id : PoolId) (direction : SwapDirection) (disabled : Bool) (path : SwapPath)

lemma disablePool_cases : disablePool id direction disabled path = path.setDisabled id disabled ∨
    disablePool id direction disabled path = path := by
  unfold disablePool
  split
  · split
    · exact Or.inl rfl
    · exact Or.inr rfl
  · exact Or.inl rfl

@[simp] lemma disablePool_pools : (disablePool id direction disabled path).pools = path.pools := by
  rcases disablePool_cases id direction disabled path with h | h <;> rw [h]
  rfl

@[simp] lemma disablePool_tokens :
    (disablePool id direction disabled path).tokens = path.tokens := by
  rcases disablePool_cases id direction disabled path with h | h <;> rw [h]
  rfl

lemma disablePool_idem :
    disablePool id direction disabled (disablePool id direction disabled path) =
      disablePool id direction disabled path := by
  have htwice : (path.setDisabled id disabled).setDisabled id disabled =
      path.setDisabled id disabled := by
    unfold setDisabled
    by_cases hmem : id ∈ path.disabledPool
    · simp [hmem]
    · simp [hmem]
  rcases disablePool_cases id direction disabled path with h | h
  · rw [h]
    rcases disablePool_cases id direction disabled (path.setDisabled id disabled) with h' | h'
    · rw [h', htwice]
    · exact h'
  · rw [h, h]

lemma disabledPool_setDisabled :
    (∀ x, x ∈ (path.setDisabled id disabled).disabledPool ↔ x ∈ path.disabledPool ∨ x = id) ∧
      ((path.setDisabled id disabled).disabledPool.Nodup ↔ path.disabledPool.Nodup) := by
  unfold setDisabled
  by_cases hmem : id ∈ path.disabledPool
  · simp only [if_pos hmem]
    refine ⟨fun x => (or_iff_left_of_imp ?_).symm, trivial⟩
    rintro rfl
    exact hmem
  · simp only [if_neg hmem, List.mem_append, List.mem_singleton, implies_true, true_and]
    rw [List.nodup_append]
    refine ⟨fun hnodup => hnodup.1, fun hnodup => ⟨hnodup, List.nodup_singleton id, ?_⟩⟩
    rintro x hx y hy rfl
    exact hmem (List.mem_singleton.mp hy ▸ hx)

lemma poolHop_eq_none_iff : path.poolHop id = none ↔ id ∉ path.ids := by
  unfold poolHop ids
  rw [Option.map_eq_none_iff, List.findIdx?_eq_none_iff, List.mem_map]
  simp

/-- **Disabling a pool** in a direction enters it in the list of the paths that go through it in
that direction. -/
lemma disabledPool_disablePool :
    let next := if id ∈ path.ids then path.disablePool id direction disabled else path
    (∀ x, x ∈ next.disabledPool ↔
        x ∈ path.disabledPool ∨ x = id ∧ path.poolHop id = some (some direction)) ∧
      (next.disabledPool.Nodup ↔ path.disabledPool.Nodup) := by
  dsimp only
  unfold disablePool
  cases hhop : path.poolHop id with
  | none =>
      rw [if_neg ((path.poolHop_eq_none_iff id).mp hhop)]
      simp
  | some hop =>
      have hid : id ∈ path.ids := not_not.mp fun hnot =>
        Option.some_ne_none hop (hhop.symm.trans ((path.poolHop_eq_none_iff id).mpr hnot))
      simp only [if_pos hid, Option.some.injEq]
      by_cases hdirection : hop = some direction
      · simpa [hdirection] using disabledPool_setDisabled id disabled path
      · simp [hdirection]

end DisablePool

/-- A path is handed out when no other pool is entered, and none twice. -/
lemma enabledFor_iff (id : PoolId) (path : SwapPath) :
    path.enabledFor id = true ↔ path.disabledPool.Nodup ∧ ∀ x ∈ path.disabledPool, x = id := by
  unfold enabledFor
  rcases path.disabledPool with - | ⟨x, - | ⟨y, l⟩⟩
  · simp
  · simp [eq_comm]
  · simp only [List.isEmpty_cons, List.length_cons, Bool.false_or, Bool.and_eq_true, beq_iff_eq]
    constructor
    · rintro ⟨hlength, -⟩
      omega
    · rintro ⟨hnodup, hall⟩
      have hx := hall x List.mem_cons_self
      have hy := hall y (List.mem_cons_of_mem x List.mem_cons_self)
      rw [hx, hy] at hnodup
      exact absurd List.mem_cons_self (List.nodup_cons.mp hnodup).1

/-- A step that leaves the route of a path as it is, and enters in its list the pool that the call
marks. -/
structure Enters {C : Type*} (step : SwapPath → C → SwapPath)
    (marks : SwapPath → C → Option PoolId) : Prop where
  route : ∀ path call, (step path call).route = path.route
  marks_congr : ∀ path path' call, path'.route = path.route → marks path' call = marks path call
  list : ∀ path call,
    (∀ x, x ∈ (step path call).disabledPool ↔
        x ∈ path.disabledPool ∨ marks path call = some x) ∧
      ((step path call).disabledPool.Nodup ↔ path.disabledPool.Nodup)

namespace Enters

variable {C : Type*} {step : SwapPath → C → SwapPath} {marks : SwapPath → C → Option PoolId}

lemma route_foldl (h : Enters step marks) (path : SwapPath) (calls : List C) :
    (calls.foldl step path).route = path.route := by
  induction calls generalizing path with
  | nil => rfl
  | cons call calls ih => exact (ih _).trans (h.route path call)

lemma list_foldl (h : Enters step marks) (path : SwapPath) (calls : List C) :
    (∀ x, x ∈ (calls.foldl step path).disabledPool ↔
        x ∈ path.disabledPool ∨ ∃ call ∈ calls, marks path call = some x) ∧
      ((calls.foldl step path).disabledPool.Nodup ↔ path.disabledPool.Nodup) := by
  induction calls using List.reverseRecOn with
  | nil => simp
  | append_singleton calls call ih =>
      obtain ⟨hmem, hnodup⟩ := h.list (calls.foldl step path) call
      rw [List.foldl_append]
      refine ⟨fun x => (hmem x).trans ?_, hnodup.trans ih.2⟩
      rw [ih.1, h.marks_congr _ _ call (h.route_foldl path calls), or_assoc]
      simp [or_and_right, exists_or]

/-- **A path after some calls** is handed out for a pool unless another one was entered in its list,
at the start or by a call, or one was there twice. -/
lemma enabledFor_foldl (h : Enters step marks) (path : SwapPath) (calls : List C)
    (poolId : PoolId) :
    (calls.foldl step path).enabledFor poolId = true ↔
      ¬ ((¬ path.disabledPool.Nodup ∨ ∃ id ∈ path.disabledPool, id ≠ poolId) ∨
        ∃ call ∈ calls, ∃ id, marks path call = some id ∧ id ≠ poolId) := by
  obtain ⟨hmem, hnodup⟩ := h.list_foldl path calls
  rw [enabledFor_iff, hnodup]
  simp only [hmem]
  constructor
  · rintro ⟨hdistinct, hall⟩ ((hrepeated | ⟨x, hx, hne⟩) | ⟨call, hcall, x, hmarks, hne⟩)
    · exact hrepeated hdistinct
    · exact hne (hall x (Or.inl hx))
    · exact hne (hall x (Or.inr ⟨call, hcall, hmarks⟩))
  · intro hnot
    refine ⟨not_not.mp fun hrepeated => hnot (Or.inl (Or.inl hrepeated)), ?_⟩
    rintro x (hx | ⟨call, hcall, hmarks⟩)
    · exact not_not.mp fun hne => hnot (Or.inl (Or.inr ⟨x, hx, hne⟩))
    · exact not_not.mp fun hne => hnot (Or.inr ⟨call, hcall, x, hmarks, hne⟩)

end Enters

lemma poolHop_of_route {path path' : SwapPath} (h : path'.route = path.route) (id : PoolId) :
    path'.poolHop id = path.poolHop id := by
  obtain ⟨htokens, hpools⟩ := Prod.mk.inj h
  unfold poolHop
  rw [htokens, hpools]

end SwapPath

namespace SwapPaths

/-- The index lists the paths through each pool, and the hashes of the stored paths are the known
ones. -/
structure Indexed [DefaultHasher] (store : SwapPaths) : Prop where
  positions : PositionIndex.Indexes SwapPath.ids store.poolPaths store.paths
  hashes : ∀ h, (store.pathHashMap.lookup h).isSome ↔ ∃ path ∈ store.paths, path.getHash = h

lemma getPoolPathsEnabledVec_eq {store : SwapPaths} {poolId : PoolId}
    (h : PositionIndex.Indexes SwapPath.ids store.poolPaths store.paths) :
    store.getPoolPathsEnabledVec poolId =
      let paths := store.paths.filter fun path =>
        decide (poolId ∈ path.ids) && path.enabledFor poolId
      if paths.isEmpty then none else some paths := by
  have hread : (store.poolPaths.listAt poolId).filterMap
      (fun idx => store.paths[idx]?.filter (SwapPath.enabledFor poolId)) =
      store.paths.filter fun path => decide (poolId ∈ path.ids) && path.enabledFor poolId := by
    rw [← List.filter_filterMap, h.filterMap_listAt, List.filter_filter]
    exact List.filter_congr fun path _ => Bool.and_comm _ _
  rw [← hread]
  unfold getPoolPathsEnabledVec AssocMap.listAt
  cases store.poolPaths.lookup poolId <;> rfl

/-- The stored paths are the same but for what is disabled of them, and so are the maps that find
them. -/
structure Keeps (store store' : SwapPaths) : Prop where
  poolPaths : store'.poolPaths = store.poolPaths
  pathHashMap : store'.pathHashMap = store.pathHashMap
  routes : store'.paths.map SwapPath.route = store.paths.map SwapPath.route

namespace Keeps

variable {store store' store'' : SwapPaths}

lemma refl (store : SwapPaths) : Keeps store store := ⟨rfl, rfl, rfl⟩

lemma trans (h : Keeps store store') (h' : Keeps store' store'') : Keeps store store'' :=
  ⟨h'.poolPaths.trans h.poolPaths, h'.pathHashMap.trans h.pathHashMap, h'.routes.trans h.routes⟩

lemma map_eq (h : Keeps store store') {B : Type*} (f : List Token × List Pool → B) :
    store'.paths.map (fun path => f path.route) = store.paths.map (fun path => f path.route) := by
  have hmap := congrArg (List.map f) h.routes
  rwa [List.map_map, List.map_map] at hmap

lemma ids (h : Keeps store store') :
    store'.paths.map SwapPath.ids = store.paths.map SwapPath.ids :=
  h.map_eq fun route => route.2.map Pool.getPoolId

end Keeps

variable [DefaultHasher] {store : SwapPaths}

lemma Indexed.new : SwapPaths.new.Indexed :=
  ⟨PositionIndex.Indexes.empty _, fun h => by simp [SwapPaths.new]⟩

lemma paths_add (h : store.Indexed) {set : KeyedSet SwapPath.getHash}
    (hset : set.elems = store.paths) (path : SwapPath) :
    (store.add path).1.paths = (set.insert path).elems := by
  have hknown : path.getHash ∈ store.paths.map SwapPath.getHash ↔
      (store.pathHashMap.lookup path.getHash).isSome := by
    rw [h.hashes, List.mem_map]
  unfold add KeyedSet.insert
  rw [← hset] at hknown
  split
  · rename_i hlookup
    rw [hlookup] at hknown
    rw [dif_pos (hknown.mpr rfl)]
    exact hset.symm
  · rename_i hlookup
    rw [hlookup] at hknown
    rw [dif_neg fun hmem => absurd (hknown.mp hmem) (by simp)]
    exact congrArg (· ++ [path]) hset.symm

lemma add_of_known {path : SwapPath} {pathIdx : ℕ}
    (h : store.pathHashMap.lookup path.getHash = some pathIdx) :
    store.add path = (store, none) := by
  unfold add
  rw [h]

lemma add_of_new {path : SwapPath} (h : store.pathHashMap.lookup path.getHash = none) :
    store.add path =
      ({ store with
          pathHashMap := store.pathHashMap.insert path.getHash store.paths.length
          poolPaths := PositionIndex.enter store.poolPaths path.ids store.paths.length
          paths := store.paths ++ [path] }, some store.paths.length) := by
  unfold add
  rw [h]

lemma Indexed.add (h : store.Indexed) {path : SwapPath} (hpath : path.ids.Nodup) :
    (store.add path).1.Indexed := by
  unfold SwapPaths.add
  split
  · exact h
  · refine ⟨h.positions.append hpath, fun hash => ?_⟩
    rw [AssocMap.lookup_insert_eq]
    by_cases heq : hash = path.getHash
    · rw [if_pos heq, heq]
      exact ⟨fun _ => ⟨path, by simp, rfl⟩, fun _ => rfl⟩
    · rw [if_neg heq, h.hashes]
      simp only [List.mem_append, List.mem_singleton, or_and_right, exists_or, exists_eq_left]
      exact (or_iff_left fun hhash => heq hhash.symm).symm

lemma paths_disablePoolPaths
    (h : PositionIndex.Lists SwapPath.ids store.poolPaths store.paths) (poolId : PoolId)
    (tokenFrom tokenTo : Address) (disabled : Bool) :
    (store.disablePoolPaths poolId tokenFrom tokenTo disabled).paths = store.paths.map fun path =>
      if poolId ∈ path.ids then path.disablePool poolId ⟨tokenFrom, tokenTo⟩ disabled
      else path := by
  have hloop : ∀ (positions : List ℕ) (store : SwapPaths),
      (positions.foldl (disableEntry poolId ⟨tokenFrom, tokenTo⟩ disabled) store).paths =
        positions.foldl (fun paths idx => paths.modify idx
          (SwapPath.disablePool poolId ⟨tokenFrom, tokenTo⟩ disabled)) store.paths := by
    intro positions
    induction positions with
    | nil => exact fun _ => rfl
    | cons idx positions ih => exact fun store => ih (disableEntry _ _ _ store idx)
  rw [← h.foldl_modify poolId (SwapPath.disablePool_idem poolId ⟨tokenFrom, tokenTo⟩ disabled)]
  unfold disablePoolPaths AssocMap.listAt
  cases store.poolPaths.lookup poolId with
  | none => rfl
  | some positions => exact hloop positions store

lemma Keeps.hashes {store' : SwapPaths} (h : Keeps store store') :
    store'.paths.map SwapPath.getHash = store.paths.map SwapPath.getHash :=
  h.map_eq fun route => DefaultHasher.swapPath
    (route.1.map Token.address, route.2.map Pool.getPoolId)

lemma disablePath_keeps (store : SwapPaths) (swapPath : SwapPath) (disable : Bool) :
    Keeps store (store.disablePath swapPath disable).1 := by
  unfold disablePath
  split
  · exact Keeps.refl store
  · split
    · exact ⟨rfl, rfl, PositionIndex.map_modify (g := SwapPath.route)
        (f := fun path => { path with disabled := disable }) (fun _ => rfl) _ _⟩
    · exact Keeps.refl store

lemma disablePoolPaths_keeps (store : SwapPaths) (poolId : PoolId) (tokenFrom tokenTo : Address)
    (disabled : Bool) : Keeps store (store.disablePoolPaths poolId tokenFrom tokenTo disabled) := by
  have hroute : ∀ path : SwapPath,
      (path.disablePool poolId ⟨tokenFrom, tokenTo⟩ disabled).route = path.route := fun path => by
    simp [SwapPath.route]
  unfold disablePoolPaths
  split
  · exact Keeps.refl store
  · rename_i positions hpositions
    refine List.foldlRecOn positions _ (Keeps.refl store) fun store' h pathIdx _ => h.trans ?_
    exact ⟨rfl, rfl, PositionIndex.map_modify hroute _ _⟩

lemma Indexed.of_keeps {store' : SwapPaths} (h : store.Indexed) (hkeeps : Keeps store store') :
    store'.Indexed := by
  refine ⟨?_, fun hash => ?_⟩
  · rw [hkeeps.poolPaths]
    exact h.positions.congr hkeeps.ids
  · rw [hkeeps.pathHashMap, h.hashes]
    have hmem : hash ∈ store'.paths.map SwapPath.getHash ↔
        hash ∈ store.paths.map SwapPath.getHash := by rw [hkeeps.hashes]
    simpa only [List.mem_map] using hmem.symm

end SwapPaths

namespace PathMarket

variable [DefaultHasher]

lemma toMarket_addPaths (market : PathMarket) (paths : List SwapPath) :
    (market.addPaths paths).1.toMarket = market.toMarket := by
  unfold addPaths
  generalize ([] : List ℕ) = answers
  induction paths generalizing market answers with
  | nil => rfl
  | cons path paths ih => exact ih { market with swapPaths := (market.swapPaths.add path).1 } _

lemma addPaths_indexed (market : PathMarket) (h : market.swapPaths.Indexed)
    {paths : List SwapPath} (hpaths : ∀ path ∈ paths, path.ids.Nodup) :
    (market.addPaths paths).1.swapPaths.Indexed := by
  unfold addPaths
  generalize ([] : List ℕ) = answers
  induction paths generalizing market answers with
  | nil => exact h
  | cons path paths ih =>
      refine ih { market with swapPaths := (market.swapPaths.add path).1 } ?_ ?_ _
      · exact h.add (hpaths path List.mem_cons_self)
      · exact fun p hp => hpaths p (List.mem_cons_of_mem path hp)

lemma paths_addPaths_eq_extend (market : PathMarket) (h : market.swapPaths.Indexed)
    {set : KeyedSet SwapPath.getHash} (hset : set.elems = market.swapPaths.paths)
    {paths : List SwapPath} (hpaths : ∀ path ∈ paths, path.ids.Nodup) :
    (market.addPaths paths).1.swapPaths.paths = (set.extend paths).elems := by
  unfold addPaths
  generalize ([] : List ℕ) = answers
  induction paths generalizing market set answers with
  | nil => exact hset.symm
  | cons path paths ih =>
      refine ih { market with swapPaths := (market.swapPaths.add path).1 } ?_ ?_ ?_ _
      · exact h.add (hpaths path List.mem_cons_self)
      · exact (SwapPaths.paths_add h hset path).symm
      · exact fun p hp => hpaths p (List.mem_cons_of_mem path hp)

end PathMarket

end Kabu
