import Kabu.Properties.LoadedPaths

/-!
# The indices of the store of swap paths

The store finds a path by its hash and the paths through a pool by the pool's id.  Both maps have
positions in the list of paths, and everything that looks a path up relies on their agreement with
the list.  After any adding and disabling of paths that go through no pool twice and whose hashes
tell them apart, they agree: `run_consistent`.

A call enters a new path, or it leaves the routes of the paths and the two maps as they are
(`call_cases`). That each position is listed once needs the pools of a path to be different; that it
is listed does not (`Located`).
-/

namespace Kabu

open PositionIndex

inductive StoreCall
  | add (path : SwapPath)
  | disablePath (swapPath : SwapPath) (disable : Bool)
  | disablePoolPaths (poolId : PoolId) (tokenFrom tokenTo : Address) (disabled : Bool)

namespace SwapPaths

variable [DefaultHasher]

def call (store : SwapPaths) : StoreCall → SwapPaths
  | .add path => (store.add path).1
  | .disablePath swapPath disable => (store.disablePath swapPath disable).1
  | .disablePoolPaths poolId tokenFrom tokenTo disabled =>
      store.disablePoolPaths poolId tokenFrom tokenTo disabled

def run (calls : List StoreCall) : SwapPaths := calls.foldl call new

/-- The maps of the store agree with its paths, and no path is there twice. -/
structure Consistent (store : SwapPaths) : Prop where
  hashes : ∀ hash i, store.pathHashMap.lookup hash = some i ↔
    ∃ path, store.paths[i]? = some path ∧ path.getHash = hash
  positions : ∀ poolId i, i ∈ store.poolPaths.listAt poolId ↔
    ∃ path, store.paths[i]? = some path ∧ poolId ∈ path.ids
  increasing : ∀ poolId, (store.poolPaths.listAt poolId).Pairwise (· < ·)
  once : (store.paths.map SwapPath.key).Nodup

/-- A path is taken exactly if it is new, its position is where the store ended, and otherwise
nothing happens. -/
structure AddsIfNew (store : SwapPaths) (path : SwapPath) : Prop where
  answer : (store.add path).2 = some store.paths.length ↔
    path.key ∉ store.paths.map SwapPath.key
  known : path.key ∈ store.paths.map SwapPath.key → store.add path = (store, none)

/-! ## One call -/

variable {store : SwapPaths}

/-- **One call** enters a path whose hash is new, or it keeps everything but what is disabled. -/
lemma call_cases (store : SwapPaths) (call : StoreCall) :
    (∃ path, call = .add path ∧ store.pathHashMap.lookup path.getHash = none) ∨
      Keeps store (store.call call) := by
  cases call with
  | add path =>
      cases hlookup : store.pathHashMap.lookup path.getHash with
      | none => exact Or.inl ⟨path, rfl, hlookup⟩
      | some pathIdx =>
          refine Or.inr ?_
          rw [call, add_of_known hlookup]
          exact Keeps.refl store
  | disablePath swapPath disable => exact Or.inr (disablePath_keeps store swapPath disable)
  | disablePoolPaths poolId tokenFrom tokenTo disabled =>
      exact Or.inr (disablePoolPaths_keeps store poolId tokenFrom tokenTo disabled)

lemma run_concat (calls : List StoreCall) (call : StoreCall) :
    run (calls ++ [call]) = (run calls).call call := by
  unfold run
  rw [List.foldl_append]
  rfl

/-- The positions of a path are listed under its hash and under its pools. -/
structure Located (store : SwapPaths) : Prop where
  positions : Lists SwapPath.ids store.poolPaths store.paths
  hashes : Locates SwapPath.getHash store.pathHashMap store.paths

lemma Located.call (h : store.Located) (call : StoreCall) : (store.call call).Located := by
  rcases store.call_cases call with ⟨path, rfl, hnew⟩ | hkeeps
  · rw [SwapPaths.call, add_of_new hnew]
    exact ⟨h.positions.append path, h.hashes.append hnew⟩
  · exact ⟨hkeeps.poolPaths ▸ h.positions.congr hkeeps.ids,
      hkeeps.pathHashMap ▸ h.hashes.congr hkeeps.hashes⟩

/-! ## Runs -/

lemma located_run (calls : List StoreCall) : (run calls).Located :=
  List.foldlRecOn calls call ⟨Lists.empty _, Locates.empty _⟩ fun _ h call _ => h.call call

lemma indexes_run {calls : List StoreCall}
    (hdistinct : ∀ path, .add path ∈ calls → path.ids.Nodup) :
    Indexes SwapPath.ids (run calls).poolPaths (run calls).paths := by
  refine List.foldlRecOn (motive := fun store : SwapPaths =>
    Indexes SwapPath.ids store.poolPaths store.paths) calls call (Indexes.empty _)
    fun store h call hmem => ?_
  rcases store.call_cases call with ⟨path, rfl, hnew⟩ | hkeeps
  · rw [SwapPaths.call, add_of_new hnew]
    exact h.append (hdistinct path hmem)
  · rw [hkeeps.poolPaths]
    exact h.congr hkeeps.ids

lemma added_of_mem_run {calls : List StoreCall} {stored : SwapPath}
    (hmem : stored ∈ (run calls).paths) :
    ∃ path, .add path ∈ calls ∧ path.route = stored.route := by
  have hstart : ∀ route ∈ new.paths.map SwapPath.route,
      ∃ path, .add path ∈ calls ∧ path.route = route := List.forall_mem_nil _
  have hroutes : ∀ route ∈ (run calls).paths.map SwapPath.route,
      ∃ path, .add path ∈ calls ∧ path.route = route := by
    refine List.foldlRecOn (motive := fun store : SwapPaths =>
      ∀ route ∈ store.paths.map SwapPath.route, ∃ path, .add path ∈ calls ∧ path.route = route)
      calls call hstart fun store h call hcall => ?_
    rcases store.call_cases call with ⟨path, rfl, hnew⟩ | hkeeps
    · rw [SwapPaths.call, add_of_new hnew, List.map_append]
      intro route hroute
      rcases List.mem_append.mp hroute with hold | hlast
      · exact h route hold
      · exact ⟨path, hcall, (List.mem_singleton.mp hlast).symm⟩
    · rw [hkeeps.routes]
      exact h
  exact hroutes _ (List.mem_map_of_mem hmem)

lemma call_extends (store : SwapPaths) (call : StoreCall) :
    store.paths.map SwapPath.route <+: (store.call call).paths.map SwapPath.route := by
  rcases store.call_cases call with ⟨path, rfl, hnew⟩ | hkeeps
  · rw [SwapPaths.call, add_of_new hnew, List.map_append]
    exact List.prefix_append _ _
  · exact ⟨[], by rw [List.append_nil, hkeeps.routes]⟩

lemma run_extends (past rest : List StoreCall) :
    (run past).paths.map SwapPath.route <+: (run (past ++ rest)).paths.map SwapPath.route := by
  induction rest using List.reverseRecOn with
  | nil => exact ⟨[], by rw [List.append_nil, List.append_nil]⟩
  | append_singleton rest call ih =>
      rw [← List.append_assoc, run_concat]
      exact ih.trans (call_extends _ call)

/-- Where hashes tell the paths apart, a path is new if its hash is. -/
lemma Located.addsIfNew (h : store.Located) {path : SwapPath}
    (hapart : ∀ stored ∈ store.paths, stored.getHash = path.getHash → stored.key = path.key) :
    store.AddsIfNew path := by
  have hknown : (store.pathHashMap.lookup path.getHash).isSome ↔
      path.key ∈ store.paths.map SwapPath.key := by
    rw [h.hashes.isSome_iff, List.mem_map]
    constructor
    · rintro ⟨stored, hmem, hhash⟩
      exact ⟨stored, hmem, hapart stored hmem hhash⟩
    · rintro ⟨stored, hmem, hkey⟩
      exact ⟨stored, hmem, congrArg DefaultHasher.swapPath hkey⟩
  cases hlookup : store.pathHashMap.lookup path.getHash with
  | none =>
      have hnew : path.key ∉ store.paths.map SwapPath.key := fun hmem => by
        rw [hlookup] at hknown
        exact absurd (hknown.mpr hmem) (by simp)
      refine ⟨?_, fun hmem => absurd hmem hnew⟩
      rw [add_of_new hlookup]
      exact ⟨fun _ => hnew, fun _ => rfl⟩
  | some pathIdx =>
      have hmem : path.key ∈ store.paths.map SwapPath.key := hknown.mp (by rw [hlookup]; rfl)
      refine ⟨?_, fun _ => add_of_known hlookup⟩
      rw [add_of_known hlookup]
      exact ⟨fun hsome => absurd hsome (by simp), fun hnot => absurd hmem hnot⟩

end SwapPaths

open SwapPaths

/-- **The indices stay consistent.**  After calls that add paths which go through no pool twice and
whose hashes tell them apart, and that disable paths and pools, the map of hashes has the positions
of the stored paths, the positions of the paths through a pool are listed under the pool in
increasing order, and no path is stored twice.  The paths that were stored after the first calls
are where they were, and each path that was added was taken, at the end, exactly if it was new. -/
theorem run_consistent [DefaultHasher] (calls : List StoreCall)
    (hdistinct : ∀ path, .add path ∈ calls → path.ids.Nodup)
    (hapart : ∀ path path', .add path ∈ calls → .add path' ∈ calls →
      path.getHash = path'.getHash → path.key = path'.key) :
    (run calls).Consistent ∧
      (∀ past rest, calls = past ++ rest →
        (run past).paths.map SwapPath.route <+: (run calls).paths.map SwapPath.route) ∧
      ∀ past path rest, calls = past ++ .add path :: rest → (run past).AddsIfNew path := by
  have hlocated := located_run calls
  have hindexes := indexes_run hdistinct
  refine ⟨⟨hlocated.hashes, hlocated.positions, fun poolId => ?_, ?_⟩, ?_, ?_⟩
  · rw [hindexes poolId]
    exact pairwise_positions _ _
  · -- paths with one key have one hash, and hashes are found at one position
    refine List.Nodup.of_map DefaultHasher.swapPath ?_
    rw [List.map_map]
    exact hlocated.hashes.nodup
  · rintro past rest rfl
    exact run_extends past rest
  · rintro past path rest rfl
    refine (located_run past).addsIfNew fun stored hmem hhash => ?_
    obtain ⟨added, hadded, hroute⟩ := added_of_mem_run hmem
    have hkey : added.key = stored.key :=
      congrArg (fun route => (route.1.map Token.address, route.2.map Pool.getPoolId)) hroute
    rw [← hkey]
    refine hapart added path (List.mem_append_left _ hadded)
      (List.mem_append_right _ List.mem_cons_self) ?_
    rw [← hhash]
    exact congrArg DefaultHasher.swapPath hkey

/-! ### Two paths through three pools -/

/-- From the basic token and back, through one pool and then another. -/
def roundPath (first second : Address) : SwapPath :=
  ⟨[Token.newWithData 1 true, Token.new 2, Token.newWithData 1 true],
    [pairPool first 1 2, pairPool second 1 2], false, []⟩

/-- One of the paths is added twice, and there is disabling in between. -/
def roundCalls : List StoreCall :=
  [.add (roundPath 10 20), .disablePath (roundPath 10 20) true, .add (roundPath 20 30),
    .disablePoolPaths (.address 20) 2 1 true, .add (roundPath 10 20)]

theorem run_consistent_roundCalls :
    letI := firstPoolHasher
    (run roundCalls).paths.length = 2 ∧
      (run roundCalls).poolPaths.listAt (.address 20) = [0, 1] ∧ (run roundCalls).Consistent := by
  have hadded : ∀ path, .add path ∈ roundCalls →
      path = roundPath 10 20 ∨ path = roundPath 20 30 := by
    intro path hmem
    simpa [roundCalls, or_comm, or_left_comm] using hmem
  refine ⟨by decide +kernel, by decide +kernel,
    (@run_consistent firstPoolHasher roundCalls (fun path hmem => ?_)
      fun path path' hmem hmem' hhash => ?_).1⟩
  · rcases hadded path hmem with rfl | rfl
    · exact (by decide : (roundPath 10 20).ids.Nodup)
    · exact (by decide : (roundPath 20 30).ids.Nodup)
  · rcases hadded path hmem with rfl | rfl <;> rcases hadded path' hmem' with rfl | rfl
    · rfl
    · exact absurd hhash (by decide +kernel)
    · exact absurd hhash (by decide +kernel)
    · rfl

end Kabu
