import Kabu.Framework.LastWrite
import Kabu.Framework.Runs
import Kabu.Properties.LoadedPaths

/-!
# Disabled pools

A pool is disabled for a direction if the last call that set it says so.  The paths handed out for a
pool should then be those stored paths through it in which no hop of another pool is disabled.

What decides instead is the list of pools that a path carries.  A call enters its pool in the list
of every stored path that goes through the pool in the direction, whatever its flag, and nothing
takes a pool out of a list or enters one in the list of a path that is stored later.  So the paths
are the right ones exactly when, for every stored path, having been named since it was stored comes
to the same as being disabled now (`getPoolPaths_exact_iff`).
-/

namespace Kabu

open LastWrite

/-- The path has a token at either end of each hop, and goes through no pool twice. -/
structure SwapPath.WellFormed (path : SwapPath) : Prop where
  tokens_length : path.tokens.length = path.pools.length + 1
  distinct : path.ids.Nodup

inductive PathCall
  | addPaths (paths : List SwapPath)
  | setPoolDisabled (poolId : PoolId) (tokenFrom tokenTo : Address) (disabled : Bool)

/-- What the call says about the hop. -/
def PathCall.flag (hop : Pool × SwapDirection) : PathCall → Option Bool
  | .addPaths _ => none
  | .setPoolDisabled poolId tokenFrom tokenTo disabled =>
      if poolId = hop.1.getPoolId ∧ tokenFrom = hop.2.tokenFrom ∧ tokenTo = hop.2.tokenTo then
        some disabled
      else none

/-- The last call about the hop disabled it. -/
def hopDisabled (calls : List PathCall) (hop : Pool × SwapDirection) : Bool :=
  lastWrite (PathCall.flag hop) calls == some true

namespace SwapPath

/-- A hop of a pool other than the given one is disabled. -/
def blockedFor (calls : List PathCall) (poolId : PoolId) (path : SwapPath) : Bool :=
  path.hops.any fun hop => decide (hop.1.getPoolId ≠ poolId) && hopDisabled calls hop

/-- Some call is about the hop, whether it disables or enables. -/
def Named (calls : List PathCall) (hop : Pool × SwapDirection) : Prop :=
  ∃ call ∈ calls, (call.flag hop).isSome

/-- The path was given with a list of disabled pools that keeps it from being handed out for the
pool, or one of the calls names a hop of another pool. -/
def MarkedFor (calls : List PathCall) (poolId : PoolId) (path : SwapPath) : Prop :=
  (¬ path.disabledPool.Nodup ∨ ∃ id ∈ path.disabledPool, id ≠ poolId) ∨
    ∃ hop ∈ path.hops, hop.1.getPoolId ≠ poolId ∧ Named calls hop

/-- The pool that a call enters in the list of a stored path. -/
def markedBy (path : SwapPath) : PathCall → Option PoolId
  | .addPaths _ => none
  | .setPoolDisabled poolId tokenFrom tokenTo _ =>
      if path.poolHop poolId = some (some ⟨tokenFrom, tokenTo⟩) then some poolId else none

/-- What a call does to a path that is already stored. -/
def onCall (path : SwapPath) : PathCall → SwapPath
  | .addPaths _ => path
  | .setPoolDisabled poolId tokenFrom tokenTo disabled =>
      if poolId ∈ path.ids then path.disablePool poolId ⟨tokenFrom, tokenTo⟩ disabled else path

end SwapPath

namespace PathMarket

variable [DefaultHasher]

def pathCall (market : PathMarket) : PathCall → PathMarket
  | .addPaths paths => (market.addPaths paths).1
  | .setPoolDisabled poolId tokenFrom tokenTo disabled =>
      market.setPoolDisabled poolId tokenFrom tokenTo disabled

def pathRun (calls : List PathCall) : PathMarket := calls.foldl pathCall default

/-- The paths that the store takes of those given. -/
def takenPaths (market : PathMarket) (paths : List SwapPath) : List SwapPath :=
  (market.addPaths paths).1.swapPaths.paths.drop market.swapPaths.paths.length

/-- What should be handed out for a pool. -/
def enabledPaths (calls : List PathCall) (poolId : PoolId) : Option (List SwapPath) :=
  let paths := (pathRun calls).swapPaths.paths.filter fun path =>
    decide (poolId ∈ path.ids) && !path.blockedFor calls poolId
  if paths.isEmpty then none else some paths

end PathMarket

/-! ## The list of one path -/

namespace SwapPath

variable {path : SwapPath}

lemma mem_hops_iff (path : SwapPath) (pool : Pool) (direction : SwapDirection) :
    (pool, direction) ∈ path.hops ↔ ∃ idx tokenFrom tokenTo, path.pools[idx]? = some pool ∧
      path.tokens[idx]? = some tokenFrom ∧ path.tokens[idx + 1]? = some tokenTo ∧
        ⟨tokenFrom.address, tokenTo.address⟩ = direction := by
  unfold hops
  rw [List.mem_iff_getElem?]
  simp only [List.getElem?_zip_eq_some, List.getElem?_zipWith_eq_some, List.getElem?_tail,
    exists_and_left]

lemma WellFormed.poolHop_iff (h : path.WellFormed) (id : PoolId) (direction : SwapDirection) :
    path.poolHop id = some (some direction) ↔
      ∃ hop ∈ path.hops, hop.1.getPoolId = id ∧ hop.2 = direction := by
  unfold poolHop
  constructor
  · intro hsome
    obtain ⟨idx, hidx, hdirection⟩ := Option.map_eq_some_iff.mp hsome
    obtain ⟨hlt, hid, -⟩ := List.findIdx?_eq_some_iff_getElem.mp hidx
    obtain ⟨tokenFrom, hfrom, hrest⟩ := Option.bind_eq_some_iff.mp hdirection
    obtain ⟨tokenTo, hto, hdir⟩ := Option.map_eq_some_iff.mp hrest
    refine ⟨(path.pools[idx], direction), (mem_hops_iff _ _ _).mpr ⟨idx, tokenFrom, tokenTo,
      List.getElem?_eq_getElem hlt, hfrom, hto, hdir⟩, of_decide_eq_true hid, rfl⟩
  · rintro ⟨⟨pool, d⟩, hhop, rfl, rfl⟩
    obtain ⟨idx, tokenFrom, tokenTo, hpool, hfrom, hto, hdir⟩ := (mem_hops_iff _ _ _).mp hhop
    obtain ⟨hlt, hget⟩ := List.getElem?_eq_some_iff.mp hpool
    -- no earlier pool has the id
    have hfirst : path.pools.findIdx? (fun p => decide (p.getPoolId = pool.getPoolId)) =
        some idx := by
      refine List.findIdx?_eq_some_iff_getElem.mpr ⟨hlt, by simp [hget], fun j hj => ?_⟩
      intro heq
      have hids : path.ids[j]? = path.ids[idx]? := by
        have hj' : j < path.pools.length := by omega
        simp [SwapPath.ids, hj', hlt, hget, of_decide_eq_true heq]
      have hjlt : j < path.ids.length := by
        simp [SwapPath.ids]
        omega
      exact absurd ((List.getElem?_inj hjlt h.distinct).mp hids) (Nat.ne_of_lt hj)
    rw [hfirst, Option.map_some, hfrom, Option.bind_some, hto, Option.map_some, hdir]

lemma enters_onCall : Enters onCall markedBy := by
  refine ⟨fun path call => ?_, fun path path' call hroute => ?_, fun path call => ?_⟩
  · cases call with
    | addPaths paths => rfl
    | setPoolDisabled id a b disabled =>
        unfold onCall
        dsimp only
        split
        · simp [route]
        · rfl
  · unfold markedBy
    simp only [poolHop_of_route hroute]
  · cases call with
    | addPaths paths => simp [onCall, markedBy]
    | setPoolDisabled id a b disabled =>
        obtain ⟨hmem, hnodup⟩ := disabledPool_disablePool id ⟨a, b⟩ disabled path
        refine ⟨fun x => (hmem x).trans (or_congr_right ?_), hnodup⟩
        simp [markedBy, and_comm, eq_comm]

lemma foldl_onCall_fields (path : SwapPath) (calls : List PathCall) :
    (calls.foldl onCall path).pools = path.pools ∧
      (calls.foldl onCall path).tokens = path.tokens :=
  (Prod.mk.inj (enters_onCall.route_foldl path calls)).symm

lemma flag_isSome_iff (hop : Pool × SwapDirection) (id : PoolId) (a b : Address) (disabled : Bool) :
    ((PathCall.setPoolDisabled id a b disabled).flag hop).isSome ↔
      hop.1.getPoolId = id ∧ hop.2 = ⟨a, b⟩ := by
  obtain ⟨pool, tokenFrom, tokenTo⟩ := hop
  unfold PathCall.flag
  rw [SwapDirection.mk.injEq]
  dsimp only
  split
  · rename_i heq
    obtain ⟨rfl, rfl, rfl⟩ := heq
    exact ⟨fun _ => ⟨rfl, rfl, rfl⟩, fun _ => rfl⟩
  · rename_i hne
    refine ⟨fun hsome => absurd hsome Bool.false_ne_true, ?_⟩
    rintro ⟨rfl, rfl, rfl⟩
    exact absurd ⟨rfl, rfl, rfl⟩ hne

lemma WellFormed.markedBy_iff (h : path.WellFormed) (call : PathCall) (x : PoolId) :
    path.markedBy call = some x ↔
      ∃ hop ∈ path.hops, hop.1.getPoolId = x ∧ (call.flag hop).isSome := by
  cases call with
  | addPaths paths => simp [markedBy, PathCall.flag]
  | setPoolDisabled id a b disabled =>
      have hmarked : path.markedBy (.setPoolDisabled id a b disabled) = some x ↔
          path.poolHop id = some (some ⟨a, b⟩) ∧ id = x := by
        simp [markedBy]
      rw [hmarked, h.poolHop_iff]
      simp only [flag_isSome_iff]
      constructor
      · rintro ⟨⟨hop, hmem, hid, hdirection⟩, rfl⟩
        exact ⟨hop, hmem, hid, hid, hdirection⟩
      · rintro ⟨hop, hmem, rfl, hid, hdirection⟩
        exact ⟨⟨hop, hmem, hid, hdirection⟩, hid.symm⟩

lemma hops_congr {path' : SwapPath} (hpools : path'.pools = path.pools)
    (htokens : path'.tokens = path.tokens) : path'.hops = path.hops := by
  unfold hops
  rw [hpools, htokens]

lemma WellFormed.enabledFor_foldl (h : path.WellFormed) (calls : List PathCall) (id : PoolId) :
    (calls.foldl onCall path).enabledFor id = true ↔ ¬ path.MarkedFor calls id := by
  refine (enters_onCall.enabledFor_foldl path calls id).trans (not_congr (or_congr_right ?_))
  unfold Named
  constructor
  · rintro ⟨call, hcall, x, hmarked, hne⟩
    obtain ⟨hop, hhop, rfl, hflag⟩ := (h.markedBy_iff call x).mp hmarked
    exact ⟨hop, hhop, hne, call, hcall, hflag⟩
  · rintro ⟨hop, hhop, hne, call, hcall, hflag⟩
    exact ⟨call, hcall, _, (h.markedBy_iff call _).mpr ⟨hop, hhop, rfl, hflag⟩, hne⟩

end SwapPath

/-! ## The stored paths of a run -/

namespace PathMarket

/-- The paths that the calls give to the store are well formed. -/
def GivesWellFormed (calls : List PathCall) : Prop :=
  ∀ paths, PathCall.addPaths paths ∈ calls → ∀ path ∈ paths, path.WellFormed

lemma GivesWellFormed.of_concat {calls : List PathCall} {call : PathCall}
    (h : GivesWellFormed (calls ++ [call])) : GivesWellFormed calls :=
  fun paths hmem => h paths (List.mem_append_left _ hmem)

variable [DefaultHasher]

lemma pathRun_concat (calls : List PathCall) (call : PathCall) :
    pathRun (calls ++ [call]) = (pathRun calls).pathCall call := by
  unfold pathRun
  rw [List.foldl_append]
  rfl

lemma paths_addPaths (market : PathMarket) (paths : List SwapPath) :
    (market.addPaths paths).1.swapPaths.paths =
        market.swapPaths.paths ++ market.takenPaths paths ∧
      ∀ path ∈ market.takenPaths paths, path ∈ paths := by
  have hloop : ∀ (paths : List SwapPath) (acc : PathMarket × List ℕ), ∃ taken,
      (paths.foldl (fun acc path => let added := acc.1.swapPaths.add path
        ({ acc.1 with swapPaths := added.1 }, acc.2 ++ added.2.toList)) acc).1.swapPaths.paths =
          acc.1.swapPaths.paths ++ taken ∧ ∀ path ∈ taken, path ∈ paths := by
    intro paths
    induction paths with
    | nil => exact fun acc => ⟨[], (List.append_nil _).symm, fun _ h => h⟩
    | cons path paths ih =>
        intro acc
        obtain ⟨taken, heq, hmem⟩ := ih ({ acc.1 with swapPaths := (acc.1.swapPaths.add path).1 },
          acc.2 ++ (acc.1.swapPaths.add path).2.toList)
        have hadd : (acc.1.swapPaths.add path).1.paths = acc.1.swapPaths.paths ∨
            (acc.1.swapPaths.add path).1.paths = acc.1.swapPaths.paths ++ [path] := by
          unfold SwapPaths.add
          split
          · exact Or.inl rfl
          · exact Or.inr rfl
        rcases hadd with hadd | hadd
        · exact ⟨taken, heq.trans (congrArg (· ++ taken) hadd), fun p hp =>
            List.mem_cons_of_mem path (hmem p hp)⟩
        · refine ⟨path :: taken, (heq.trans (congrArg (· ++ taken) hadd)).trans (by simp), ?_⟩
          exact fun p hp => (List.mem_cons.mp hp).elim (fun h => h ▸ List.mem_cons_self)
            fun h => List.mem_cons_of_mem path (hmem p h)
  obtain ⟨taken, heq, hmem⟩ := hloop paths (market, [])
  have htaken : market.takenPaths paths = taken := by
    unfold takenPaths
    rw [show (market.addPaths paths).1.swapPaths.paths = _ from heq, List.drop_left]
  rw [htaken]
  exact ⟨heq, hmem⟩

lemma indexed_pathRun {calls : List PathCall} (h : GivesWellFormed calls) :
    (pathRun calls).swapPaths.Indexed := by
  induction calls using List.reverseRecOn with
  | nil => exact SwapPaths.Indexed.new
  | append_singleton calls call ih =>
      have hold := ih h.of_concat
      rw [pathRun_concat]
      cases call with
      | addPaths paths =>
          exact addPaths_indexed _ hold fun path hpath =>
            (h paths (List.mem_append_right _ List.mem_cons_self) path hpath).distinct
      | setPoolDisabled id a b disabled => 
          exact hold.of_keeps (SwapPaths.disablePoolPaths_keeps _ id a b disabled)

/-- **One path through a run.**  A stored path was taken by some call, and then went through the
calls after it. -/
lemma mem_paths_pathRun {calls : List PathCall} (h : GivesWellFormed calls) (stored : SwapPath) :
    stored ∈ (pathRun calls).swapPaths.paths ↔ ∃ past call rest, calls = past ++ call :: rest ∧
      ∃ paths, call = .addPaths paths ∧ ∃ path ∈ (pathRun past).takenPaths paths,
        stored = rest.foldl SwapPath.onCall path := by
  induction calls using List.reverseRecOn generalizing stored with
  | nil =>
      refine ⟨fun hmem => absurd hmem List.not_mem_nil, ?_⟩
      rintro ⟨past, call, rest, heq, -⟩
      simp at heq
  | append_singleton calls call ih =>
      have hold := ih h.of_concat
      rw [Runs.exists_split_concat, pathRun_concat]
      simp only [List.foldl_append, List.foldl_cons, List.foldl_nil]
      cases call with
      | addPaths paths =>
          show stored ∈ ((pathRun calls).addPaths paths).1.swapPaths.paths ↔ _
          rw [(paths_addPaths _ _).1, List.mem_append, or_comm, hold]
          refine or_congr ?_ Iff.rfl
          constructor
          · exact fun hmem => ⟨paths, rfl, stored, hmem, rfl⟩
          · rintro ⟨paths', heq, path, hmem, rfl⟩
            exact PathCall.addPaths.inj heq ▸ hmem
      | setPoolDisabled id a b disabled =>
          have hpaths := SwapPaths.paths_disablePoolPaths
            (indexed_pathRun h.of_concat).positions.lists id a b disabled
          show stored ∈ ((pathRun calls).swapPaths.disablePoolPaths id a b disabled).paths ↔ _
          rw [hpaths, List.mem_map]
          constructor
          · rintro ⟨before, hmem, rfl⟩
            obtain ⟨past, call, rest, heq, paths, hcall, path, hpath, rfl⟩ := (hold before).mp hmem
            exact Or.inr ⟨past, call, rest, heq, paths, hcall, path, hpath, rfl⟩
          · rintro (⟨paths, heq, -⟩ | ⟨past, call, rest, heq, paths, hcall, path, hpath, rfl⟩)
            · simp at heq
            · exact ⟨_, (hold _).mpr ⟨past, call, rest, heq, paths, hcall, path, hpath, rfl⟩, rfl⟩

end PathMarket

/-! ## When the right paths are handed out -/

lemma ifEmpty_inj {A : Type*} {l l' : List A} :
    (if l.isEmpty then none else some l) = (if l'.isEmpty then none else some l') ↔ l = l' := by
  cases l <;> cases l' <;> simp

lemma filter_eq_filter_iff {A : Type*} {p q : A → Bool} {l : List A} :
    l.filter p = l.filter q ↔ ∀ x ∈ l, p x = q x := by
  refine ⟨fun h x hx => ?_, List.filter_congr⟩
  have hp : x ∈ l.filter p ↔ x ∈ l.filter q := by rw [h]
  rw [List.mem_filter, List.mem_filter] at hp
  have hiff : p x = true ↔ q x = true := by simpa [hx] using hp
  exact Bool.eq_iff_iff.mpr hiff

open PathMarket

section Exact

variable [DefaultHasher] {calls : List PathCall} (hcalls : GivesWellFormed calls)

include hcalls

/-- The right paths are handed out if what decides is right for each stored path. -/
lemma getPoolPaths_exact_iff_stored :
    (∀ poolId, (pathRun calls).getPoolPaths poolId = enabledPaths calls poolId) ↔
      ∀ stored ∈ (pathRun calls).swapPaths.paths, ∀ poolId ∈ stored.ids,
        (stored.enabledFor poolId = true ↔ ¬ stored.blockedFor calls poolId = true) := by
  have hone : ∀ poolId, (pathRun calls).getPoolPaths poolId = enabledPaths calls poolId ↔
      ∀ stored ∈ (pathRun calls).swapPaths.paths,
        (decide (poolId ∈ stored.ids) && stored.enabledFor poolId) =
          (decide (poolId ∈ stored.ids) && !stored.blockedFor calls poolId) := by
    intro poolId
    unfold PathMarket.getPoolPaths
    rw [SwapPaths.getPoolPathsEnabledVec_eq (indexed_pathRun hcalls).positions]
    exact ifEmpty_inj.trans filter_eq_filter_iff
  simp only [hone]
  constructor
  · intro h stored hstored poolId hid
    have heq := h poolId stored hstored
    rw [decide_eq_true hid, Bool.true_and, Bool.true_and] at heq
    rw [heq]
    simp
  · intro h poolId stored hstored
    by_cases hid : poolId ∈ stored.ids
    · have hiff := h stored hstored poolId hid
      rw [decide_eq_true hid, Bool.true_and, Bool.true_and, Bool.eq_iff_iff, hiff]
      simp
    · rw [decide_eq_false hid, Bool.false_and, Bool.false_and]

/-- What is asked of a stored path, asked of the path as it was given. -/
lemma enabledFor_iff_not_blockedFor_iff {past rest : List PathCall} {paths : List SwapPath}
    (heq : calls = past ++ .addPaths paths :: rest) {path : SwapPath}
    (hmem : path ∈ (pathRun past).takenPaths paths) :
    (∀ poolId ∈ (rest.foldl SwapPath.onCall path).ids,
      ((rest.foldl SwapPath.onCall path).enabledFor poolId = true ↔
        ¬ (rest.foldl SwapPath.onCall path).blockedFor calls poolId = true)) ↔
      ∀ poolId ∈ path.ids, (path.MarkedFor rest poolId ↔ path.blockedFor calls poolId = true) := by
  obtain ⟨hpools, htokens⟩ := path.foldl_onCall_fields rest
  have hwell : path.WellFormed := by
    rw [heq] at hcalls
    exact hcalls paths (by simp) path ((paths_addPaths _ _).2 path hmem)
  have hids : (rest.foldl SwapPath.onCall path).ids = path.ids :=
    congrArg (List.map Pool.getPoolId) hpools
  unfold SwapPath.blockedFor
  rw [hids, SwapPath.hops_congr hpools htokens]
  refine forall_congr' fun poolId => forall_congr' fun _ => ?_
  rw [hwell.enabledFor_foldl rest poolId]
  exact not_iff_not

end Exact

/-- **When disabling is exact.**  After calls that store well-formed paths and disable and enable
pools, the paths handed out for every pool are the stored ones through it with no disabled hop of
another pool exactly when, for each path that a call stored and each of its pools, the path being
marked for that pool since then comes to the same as its having a disabled hop of another pool
now. -/
theorem getPoolPaths_exact_iff [DefaultHasher] (calls : List PathCall)
    (hcalls : GivesWellFormed calls) :
    (∀ poolId, (pathRun calls).getPoolPaths poolId = enabledPaths calls poolId) ↔
      ∀ past paths rest, calls = past ++ .addPaths paths :: rest →
        ∀ path ∈ (pathRun past).takenPaths paths, ∀ poolId ∈ path.ids,
          (path.MarkedFor rest poolId ↔ path.blockedFor calls poolId = true) := by
  rw [getPoolPaths_exact_iff_stored hcalls]
  constructor
  · intro h past paths rest heq path hmem
    refine (enabledFor_iff_not_blockedFor_iff hcalls heq hmem).mp (h _ ?_)
    exact (mem_paths_pathRun hcalls _).mpr ⟨past, _, rest, heq, paths, rfl, path, hmem, rfl⟩
  · intro h stored hstored
    obtain ⟨past, call, rest, heq, paths, rfl, path, hmem, rfl⟩ :=
      (mem_paths_pathRun hcalls stored).mp hstored
    exact (enabledFor_iff_not_blockedFor_iff hcalls heq hmem).mpr (h past paths rest heq path hmem)

/-! ### One path through two pools -/

section Loop

def loopPath : SwapPath :=
  ⟨[Token.newWithData 1 true, Token.new 2, Token.newWithData 1 true],
    [pairPool 10 1 2, pairPool 20 1 2], false, []⟩

lemma loopPath_wellFormed : loopPath.WellFormed := ⟨rfl, by decide⟩

/-- Store the path, then disable its first hop. -/
def disableCalls : List PathCall :=
  [.addPaths [loopPath], .setPoolDisabled (.address 10) 1 2 true]

/-- Enable it again. -/
def enableCalls : List PathCall := disableCalls ++ [.setPoolDisabled (.address 10) 1 2 false]

lemma enableCalls_givesWellFormed : GivesWellFormed enableCalls := by
  intro paths hmem path hpath
  simp only [enableCalls, disableCalls, List.cons_append, List.nil_append, List.mem_cons,
    PathCall.addPaths.injEq, reduceCtorEq, List.not_mem_nil, or_false] at hmem
  rw [hmem] at hpath
  rw [List.mem_singleton.mp hpath]
  exact loopPath_wellFormed

/-- While the hop is disabled the path is handed out for its own pool alone, as it should be. -/
theorem disabled_hop_hides_path :
    letI := firstPoolHasher
    ((pathRun disableCalls).getPoolPaths (.address 20)).isSome = false ∧
      ∀ poolId, (pathRun disableCalls).getPoolPaths poolId = enabledPaths disableCalls poolId := by
  refine ⟨by decide +kernel, (@getPoolPaths_exact_iff firstPoolHasher disableCalls
    enableCalls_givesWellFormed.of_concat).mpr fun past paths rest heq path hpath => ?_⟩
  obtain ⟨rfl, rfl, rfl⟩ : past = [] ∧ paths = [loopPath] ∧
      rest = [.setPoolDisabled (.address 10) 1 2 true] := by
    rcases past with - | ⟨call, past⟩
    · obtain ⟨hcall, hrest⟩ := List.cons.inj heq
      exact ⟨rfl, (PathCall.addPaths.inj hcall).symm, hrest.symm⟩
    · have htail := (List.cons.inj heq).2
      rcases past with - | ⟨call', past⟩
      · exact absurd (List.cons.inj htail).1 (by simp)
      · exact absurd (List.cons.inj htail).2 (by simp)
  obtain rfl : path = loopPath := List.mem_singleton.mp hpath
  have hhops : loopPath.hops = [(pairPool 10 1 2, ⟨1, 2⟩), (pairPool 20 1 2, ⟨2, 1⟩)] := rfl
  intro poolId hid
  have hcases : poolId = .address 10 ∨ poolId = .address 20 := List.mem_pair.mp hid
  unfold SwapPath.MarkedFor SwapPath.Named
  rw [hhops]
  rcases hcases with rfl | rfl
  · have hfree : loopPath.blockedFor disableCalls (.address 10) = false := by decide +kernel
    rw [hfree]
    decide
  · have hblocked : loopPath.blockedFor disableCalls (.address 20) = true := by decide +kernel
    rw [hblocked]
    decide

/-- **A hop that stays hidden.**  Enabling the hop again does not bring the path back for the other
pool, although no hop is disabled any more. -/
theorem enabled_hop_stays_hidden :
    letI := firstPoolHasher
    GivesWellFormed enableCalls ∧
      ((pathRun enableCalls).getPoolPaths (.address 20)).isSome = false ∧
      (enabledPaths enableCalls (.address 20)).isSome = true ∧
      ¬ ∀ poolId, (pathRun enableCalls).getPoolPaths poolId = enabledPaths enableCalls poolId := by
  have hhidden : ((@pathRun firstPoolHasher enableCalls).getPoolPaths (.address 20)).isSome =
      false := by decide +kernel
  have hshould : (@enabledPaths firstPoolHasher enableCalls (.address 20)).isSome = true := by
    decide +kernel
  refine ⟨enableCalls_givesWellFormed, hhidden, hshould, fun h => ?_⟩
  rw [h, hshould] at hhidden
  exact absurd hhidden (by decide)

end Loop

end Kabu
