import Kabu.Framework.LastWrite
import Kabu.Framework.Runs
import Kabu.Properties.PathIndex

/-!
# Disabled paths

A path that was disabled should not be handed out for any pool, until it is enabled again.

Disabling a path sets its flag, but what decides is the list of pools that it carries, which only
the disabling of pools enters anything in.  So a disabled path is still handed out for a pool,
unless some call since it was stored named its hop through another pool
(`disabledPaths_hidden_iff`).

There is no assumption about the paths here.  They may go through a pool twice, have too few tokens
or share a hash, and they may come with pools in their lists.
-/

namespace Kabu

open PositionIndex LastWrite SwapPaths

/-- What the call says about the flag of the path with the key. -/
def StoreCall.pathFlag (key : List Address × List PoolId) : StoreCall → Option Bool
  | .disablePath swapPath disable => if swapPath.key = key then some disable else none
  | _ => none

/-- The pool that the call enters in the list of the path. -/
def StoreCall.marks (path : SwapPath) : StoreCall → Option PoolId
  | .disablePoolPaths poolId tokenFrom tokenTo _ =>
      if path.poolHop poolId = some (some ⟨tokenFrom, tokenTo⟩) then some poolId else none
  | _ => none

/-- The path was given with a list of disabled pools that keeps it from being handed out for the
pool, or one of the calls names its hop through another pool. -/
def SwapPath.HiddenFor (calls : List StoreCall) (poolId : PoolId) (path : SwapPath) : Prop :=
  (¬ path.disabledPool.Nodup ∨ ∃ id ∈ path.disabledPool, id ≠ poolId) ∨
    ∃ call ∈ calls, ∃ id, call.marks path = some id ∧ id ≠ poolId

namespace SwapPaths

variable [DefaultHasher]

/-- The last call to disable or enable the path disabled it, and was answered with success. -/
def LastDisabled (calls : List StoreCall) (path : SwapPath) : Prop :=
  ∃ past swapPath rest, calls = past ++ .disablePath swapPath true :: rest ∧
    swapPath.key = path.key ∧ ((run past).disablePath swapPath true).2 = true ∧
      ∀ later disable, .disablePath later disable ∈ rest → later.key ≠ path.key

/-- The path is among those handed out for the pool. -/
def HandsOut (store : SwapPaths) (poolId : PoolId) (path : SwapPath) : Prop :=
  ∃ paths, store.getPoolPathsEnabledVec poolId = some paths ∧ path.key ∈ paths.map SwapPath.key

end SwapPaths

lemma StoreCall.pathFlag_eq_none_iff (key : List Address × List PoolId) (calls : List StoreCall) :
    (∀ call ∈ calls, call.pathFlag key = none) ↔
      ∀ later disable, .disablePath later disable ∈ calls → later.key ≠ key := by
  constructor
  · intro h later disable hmem hkey
    have hnone := h _ hmem
    rw [StoreCall.pathFlag, if_pos hkey] at hnone
    simp at hnone
  · intro h call hmem
    cases call with
    | add added => rfl
    | disablePath later disable => exact if_neg (h later disable hmem)
    | disablePoolPaths poolId tokenFrom tokenTo disabled => rfl

/-! ## One stored path -/

namespace SwapPath

lemma key_of_route {path path' : SwapPath} (h : path'.route = path.route) :
    path'.key = path.key :=
  congrArg (fun route => (route.1.map Token.address, route.2.map Pool.getPoolId)) h

variable [DefaultHasher]

/-- What a call does to a path that is already stored. -/
def onStoreCall (path : SwapPath) : StoreCall → SwapPath
  | .add _ => path
  | .disablePath swapPath disable =>
      if swapPath.getHash = path.getHash then { path with disabled := disable } else path
  | .disablePoolPaths poolId tokenFrom tokenTo disabled =>
      if poolId ∈ path.ids then path.disablePool poolId ⟨tokenFrom, tokenTo⟩ disabled else path

lemma route_onStoreCall (path : SwapPath) (call : StoreCall) :
    (path.onStoreCall call).route = path.route := by
  cases call with
  | add added => rfl
  | disablePath swapPath disable =>
      unfold onStoreCall
      dsimp only
      split <;> rfl
  | disablePoolPaths poolId tokenFrom tokenTo disabled =>
      unfold onStoreCall
      dsimp only
      split
      · simp [route]
      · rfl

lemma enters_onStoreCall : Enters onStoreCall fun path call => call.marks path := by
  refine ⟨route_onStoreCall, fun path path' call hroute => ?_, fun path call => ?_⟩
  · unfold StoreCall.marks
    simp only [poolHop_of_route hroute]
  · cases call with
    | add added => simp [onStoreCall, StoreCall.marks]
    | disablePath swapPath disable =>
        have hkept : (path.onStoreCall (.disablePath swapPath disable)).disabledPool =
            path.disabledPool := by
          unfold onStoreCall
          dsimp only
          split <;> rfl
        simp [hkept, StoreCall.marks]
    | disablePoolPaths poolId tokenFrom tokenTo disabled =>
        obtain ⟨hmem, hnodup⟩ := disabledPool_disablePool poolId ⟨tokenFrom, tokenTo⟩ disabled path
        refine ⟨fun x => (hmem x).trans (or_congr_right ?_), hnodup⟩
        simp [StoreCall.marks, and_comm, eq_comm]

lemma enabledFor_foldl_onStoreCall (path : SwapPath) (calls : List StoreCall) (poolId : PoolId) :
    (calls.foldl onStoreCall path).enabledFor poolId = true ↔ ¬ path.HiddenFor calls poolId :=
  enters_onStoreCall.enabledFor_foldl path calls poolId

end SwapPath

/-! ## The stored paths of a run -/

namespace SwapPaths

lemma handsOut_iff {store : SwapPaths} (h : Lists SwapPath.ids store.poolPaths store.paths)
    (poolId : PoolId) (path : SwapPath) :
    store.HandsOut poolId path ↔ ∃ stored ∈ store.paths,
      stored.key = path.key ∧ poolId ∈ stored.ids ∧ stored.enabledFor poolId = true := by
  have hmem : ∀ stored, (∃ paths, store.getPoolPathsEnabledVec poolId = some paths ∧
      stored ∈ paths) ↔
      stored ∈ store.paths ∧ poolId ∈ stored.ids ∧ stored.enabledFor poolId = true := by
    intro stored
    have hread : stored ∈ (store.poolPaths.listAt poolId).filterMap
        (fun idx => store.paths[idx]?.filter (SwapPath.enabledFor poolId)) ↔
        stored ∈ store.paths ∧ poolId ∈ stored.ids ∧ stored.enabledFor poolId = true := by
      rw [List.mem_filterMap, List.mem_iff_getElem?]
      simp only [h poolId, Option.filter_eq_some_iff]
      constructor
      · rintro ⟨idx, ⟨found, hfound, hid⟩, hget, henabled⟩
        obtain rfl := Option.some.inj (hfound.symm.trans hget)
        exact ⟨⟨idx, hget⟩, hid, henabled⟩
      · rintro ⟨⟨idx, hget⟩, hid, henabled⟩
        exact ⟨idx, ⟨stored, hget, hid⟩, hget, henabled⟩
    rw [← hread]
    unfold getPoolPathsEnabledVec AssocMap.listAt
    cases store.poolPaths.lookup poolId with
    | none => simp
    | some positions =>
        dsimp only [Option.bind_some, Option.getD_some]
        generalize positions.filterMap _ = found
        cases found <;> simp
  unfold HandsOut
  simp only [List.mem_map]
  constructor
  · rintro ⟨paths, hpaths, stored, hstored, hkey⟩
    obtain ⟨hin, hid, henabled⟩ := (hmem stored).mp ⟨paths, hpaths, hstored⟩
    exact ⟨stored, hin, hkey, hid, henabled⟩
  · rintro ⟨stored, hin, hkey, hid, henabled⟩
    obtain ⟨paths, hpaths, hstored⟩ := (hmem stored).mpr ⟨hin, hid, henabled⟩
    exact ⟨paths, hpaths, stored, hstored, hkey⟩

variable [DefaultHasher] {store : SwapPaths}

lemma Located.disablePath_answer (h : store.Located) (swapPath : SwapPath) (disable : Bool) :
    (store.disablePath swapPath disable).2 = true ↔
      (store.pathHashMap.lookup swapPath.getHash).isSome := by
  unfold disablePath
  cases hlookup : store.pathHashMap.lookup swapPath.getHash with
  | none => simp
  | some swapPathIdx =>
      obtain ⟨stored, hget, -⟩ := (h.hashes _ _).mp hlookup
      have hlt := (List.getElem?_eq_some_iff.mp hget).1
      simp [hlt]

/-- **The stored paths after a call** are those from before, each as the call leaves it, and a path
with a new hash that the call adds. -/
lemma Located.mem_paths_call (h : store.Located) (call : StoreCall) (stored : SwapPath) :
    stored ∈ (store.call call).paths ↔
      (∃ path ∈ store.paths, path.onStoreCall call = stored) ∨
        ∃ path, call = .add path ∧ store.pathHashMap.lookup path.getHash = none ∧
          stored = path := by
  cases call with
  | add path =>
      have hkept : (∃ p ∈ store.paths, p.onStoreCall (.add path) = stored) ↔
          stored ∈ store.paths := by simp [SwapPath.onStoreCall]
      rw [hkept, SwapPaths.call]
      cases hlookup : store.pathHashMap.lookup path.getHash with
      | none =>
          rw [add_of_new hlookup]
          dsimp only
          rw [List.mem_append, List.mem_singleton]
          refine or_congr_right ⟨fun heq => ⟨path, rfl, hlookup, heq⟩, ?_⟩
          rintro ⟨added, hadded, -, rfl⟩
          exact (StoreCall.add.inj hadded).symm
      | some pathIdx =>
          rw [add_of_known hlookup]
          refine (or_iff_left ?_).symm
          rintro ⟨added, hadded, hnone, -⟩
          rw [← StoreCall.add.inj hadded, hlookup] at hnone
          simp at hnone
  | disablePath swapPath disable =>
      have hpaths : (store.disablePath swapPath disable).1.paths =
          store.paths.map (·.onStoreCall (.disablePath swapPath disable)) := by
        unfold disablePath
        cases hlookup : store.pathHashMap.lookup swapPath.getHash with
        | none =>
            have hother : ∀ path ∈ store.paths,
                path.onStoreCall (.disablePath swapPath disable) = id path := by
              intro path hpath
              refine if_neg fun hhash => ?_
              have hsome := (h.hashes.isSome_iff _).mpr ⟨path, hpath, hhash.symm⟩
              rw [hlookup] at hsome
              exact absurd hsome Bool.false_ne_true
            rw [List.map_congr_left hother, List.map_id]
        | some swapPathIdx =>
            obtain ⟨found, hget, -⟩ := (h.hashes _ _).mp hlookup
            dsimp only
            rw [if_pos (List.getElem?_eq_some_iff.mp hget).1, h.hashes.modify hlookup]
            simp only [SwapPath.onStoreCall, eq_comm]
      rw [SwapPaths.call, hpaths]
      simp
  | disablePoolPaths poolId tokenFrom tokenTo disabled =>
      rw [SwapPaths.call, paths_disablePoolPaths h.positions]
      simp [SwapPath.onStoreCall]

lemma isSome_lookup_run_iff (calls : List StoreCall) (hash : UInt64) :
    ((run calls).pathHashMap.lookup hash).isSome ↔
      ∃ path, .add path ∈ calls ∧ path.getHash = hash := by
  constructor
  · intro hsome
    obtain ⟨stored, hmem, hhash⟩ := ((located_run calls).hashes.isSome_iff hash).mp hsome
    obtain ⟨path, hadded, hroute⟩ := added_of_mem_run hmem
    have hsame := congrArg DefaultHasher.swapPath (SwapPath.key_of_route hroute)
    exact ⟨path, hadded, hsame.trans hhash⟩
  · rintro ⟨path, hadded, rfl⟩
    induction calls using List.reverseRecOn with
    | nil => exact absurd hadded List.not_mem_nil
    | append_singleton calls call ih =>
        rw [run_concat]
        rcases List.mem_append.mp hadded with hold | hlast
        · have hknown := ih hold
          rcases (run calls).call_cases call with ⟨added, rfl, hnew⟩ | hkeeps
          · rw [SwapPaths.call, add_of_new hnew]
            dsimp only
            rw [AssocMap.lookup_insert_eq]
            split
            · rfl
            · exact hknown
          · rw [hkeeps.pathHashMap]
            exact hknown
        · obtain rfl := List.mem_singleton.mp hlast
          rw [SwapPaths.call]
          cases hlookup : (run calls).pathHashMap.lookup path.getHash with
          | none =>
              rw [add_of_new hlookup]
              dsimp only
              rw [AssocMap.lookup_insert_eq, if_pos rfl]
              rfl
          | some pathIdx =>
              rw [add_of_known hlookup, hlookup]
              rfl

/-- The hash of the path is new after the calls. -/
def HashNew (calls : List StoreCall) (path : SwapPath) : Prop :=
  ∀ earlier, .add earlier ∈ calls → earlier.getHash ≠ path.getHash

lemma hashNew_iff (calls : List StoreCall) (path : SwapPath) :
    HashNew calls path ↔ (run calls).pathHashMap.lookup path.getHash = none := by
  rw [← Option.not_isSome_iff_eq_none, isSome_lookup_run_iff]
  simp [HashNew]

/-- **One path through a run.**  A stored path was added when its hash was new, and then went
through the calls after that. -/
lemma mem_paths_run (calls : List StoreCall) (stored : SwapPath) :
    stored ∈ (run calls).paths ↔ ∃ past call rest, calls = past ++ call :: rest ∧
      ∃ path, call = .add path ∧ HashNew past path ∧
        stored = rest.foldl SwapPath.onStoreCall path := by
  induction calls using List.reverseRecOn generalizing stored with
  | nil =>
      refine ⟨fun hmem => absurd hmem List.not_mem_nil, ?_⟩
      rintro ⟨past, call, rest, heq, -⟩
      simp at heq
  | append_singleton calls call ih =>
      rw [Runs.exists_split_concat, run_concat, (located_run calls).mem_paths_call, or_comm]
      simp only [← hashNew_iff, List.foldl_append, List.foldl_cons, List.foldl_nil]
      refine or_congr Iff.rfl ?_
      constructor
      · rintro ⟨before, hmem, rfl⟩
        obtain ⟨past, x, rest, heq, path, hx, hnew, rfl⟩ := (ih before).mp hmem
        exact ⟨past, x, rest, heq, path, hx, hnew, rfl⟩
      · rintro ⟨past, x, rest, heq, path, hx, hnew, rfl⟩
        exact ⟨_, (ih _).mpr ⟨past, x, rest, heq, path, hx, hnew, rfl⟩, rfl⟩

lemma handsOut_run_iff (calls : List StoreCall) (poolId : PoolId) (path : SwapPath) :
    (run calls).HandsOut poolId path ↔ ∃ past added rest, calls = past ++ .add added :: rest ∧
      HashNew past added ∧ added.key = path.key ∧ poolId ∈ added.ids ∧
        ¬ added.HiddenFor rest poolId := by
  rw [handsOut_iff (located_run calls).positions]
  have hsame : ∀ (added : SwapPath) (rest : List StoreCall),
      (rest.foldl SwapPath.onStoreCall added).key = added.key := fun added rest =>
    SwapPath.key_of_route (SwapPath.enters_onStoreCall.route_foldl added rest)
  constructor
  · rintro ⟨stored, hstored, hkey, hid, henabled⟩
    obtain ⟨past, call, rest, heq, added, rfl, hnew, rfl⟩ := (mem_paths_run calls stored).mp hstored
    have hids : (rest.foldl SwapPath.onStoreCall added).ids = added.ids :=
      congrArg Prod.snd (hsame added rest)
    exact ⟨past, added, rest, heq, hnew, (hsame added rest).symm.trans hkey, hids ▸ hid,
      (added.enabledFor_foldl_onStoreCall rest poolId).mp henabled⟩
  · rintro ⟨past, added, rest, heq, hnew, hkey, hid, hshown⟩
    have hids : (rest.foldl SwapPath.onStoreCall added).ids = added.ids :=
      congrArg Prod.snd (hsame added rest)
    exact ⟨_, (mem_paths_run calls _).mpr ⟨past, _, rest, heq, added, rfl, hnew, rfl⟩,
      (hsame added rest).trans hkey, hids.symm ▸ hid,
      (added.enabledFor_foldl_onStoreCall rest poolId).mpr hshown⟩

/-! ## When disabled paths are hidden -/

/-- For a stored path, the last call to disable it is one since it was stored, and succeeds. -/
lemma lastDisabled_iff {past rest : List StoreCall} {added path : SwapPath}
    (hnew : HashNew past added) (hkey : added.key = path.key) :
    LastDisabled (past ++ .add added :: rest) path ↔
      lastWrite (StoreCall.pathFlag path.key) rest = some true := by
  rw [lastWrite_eq_some_iff]
  constructor
  · rintro ⟨before, swapPath, after, heq, hswap, hanswer, hlater⟩
    have hflag : (StoreCall.disablePath swapPath true).pathFlag path.key = some true := if_pos hswap
    rcases List.append_eq_append_iff.mp heq with ⟨mid, hbefore, hrest⟩ | ⟨mid, hpast, hrest⟩
    · rcases mid with - | ⟨call, mid⟩
      · exact absurd (List.cons.inj hrest).1 (by simp)
      · obtain ⟨-, rfl⟩ := List.cons.inj hrest
        exact ⟨mid, _, after, rfl, hflag, (StoreCall.pathFlag_eq_none_iff _ _).mpr hlater⟩
    · -- before the path was stored its hash was not known
      obtain ⟨earlier, hearlier, hhash⟩ := (isSome_lookup_run_iff _ _).mp
        (((located_run before).disablePath_answer _ _).mp hanswer)
      refine absurd ?_ (hnew earlier (hpast ▸ List.mem_append_left _ hearlier))
      exact hhash.trans (congrArg DefaultHasher.swapPath (hswap.trans hkey.symm))
  · rintro ⟨mid, call, after, rfl, hflag, hlater⟩
    cases call with
    | add added => simp [StoreCall.pathFlag] at hflag
    | disablePoolPaths poolId tokenFrom tokenTo disabled =>
        simp [StoreCall.pathFlag] at hflag
    | disablePath swapPath disable =>
        obtain ⟨hswap, rfl⟩ : swapPath.key = path.key ∧ disable = true := by
          simpa [StoreCall.pathFlag] using hflag
        refine ⟨past ++ .add added :: mid, swapPath, after, by simp, hswap, ?_,
          (StoreCall.pathFlag_eq_none_iff _ _).mp hlater⟩
        rw [(located_run _).disablePath_answer, isSome_lookup_run_iff]
        exact ⟨added, by simp, congrArg DefaultHasher.swapPath (hkey.trans hswap.symm)⟩

end SwapPaths

/-- **When disabled paths are hidden.**  After any calls that add and disable paths and disable
pools, no path that was last disabled is handed out for any pool exactly when every path that a call
stored and that was last disabled since then is hidden, for each of its pools, by the pools entered
in its list. -/
theorem disabledPaths_hidden_iff [DefaultHasher] (calls : List StoreCall) :
    (∀ path, LastDisabled calls path → ∀ poolId, ¬ (run calls).HandsOut poolId path) ↔
      ∀ past path rest, calls = past ++ .add path :: rest → HashNew past path →
        lastWrite (StoreCall.pathFlag path.key) rest = some true →
          ∀ poolId ∈ path.ids, path.HiddenFor rest poolId := by
  constructor
  · rintro h past path rest rfl hnew hflag poolId hid
    refine not_not.mp fun hshown => h path ((lastDisabled_iff hnew rfl).mpr hflag) poolId ?_
    exact (handsOut_run_iff _ _ _).mpr ⟨past, path, rest, rfl, hnew, rfl, hid, hshown⟩
  · intro h path hdisabled poolId hout
    obtain ⟨past, added, rest, rfl, hnew, hkey, hid, hshown⟩ := (handsOut_run_iff _ _ _).mp hout
    have hflag := (lastDisabled_iff hnew hkey).mp hdisabled
    exact hshown (h past added rest rfl hnew (hkey ▸ hflag) poolId hid)

/-- **No way back.**  Once a path is stored and is not handed out for a pool, no calls that follow
make it handed out for the pool, those that enable the path or its pools again included. -/
theorem hidden_path_stays_hidden [DefaultHasher] (calls more : List StoreCall)
    {added path : SwapPath} {poolId : PoolId} (hadded : .add added ∈ calls)
    (hkey : added.key = path.key) (hhidden : ¬ (run calls).HandsOut poolId path) :
    ¬ (run (calls ++ more)).HandsOut poolId path := by
  intro hout
  obtain ⟨past, stored, rest, heq, hnew, hstored, hid, hshown⟩ := (handsOut_run_iff _ _ _).mp hout
  -- the path that is handed out is the one stored during the first calls
  have hlater : .add added ∉ past := fun hmem =>
    hnew added hmem (congrArg DefaultHasher.swapPath (hkey.trans hstored.symm))
  obtain ⟨mid, rfl, -⟩ | ⟨mid, rfl, hrest⟩ := List.append_eq_append_iff.mp heq
  · exact hlater (List.mem_append_left _ hadded)
  · rcases mid with - | ⟨call, mid⟩
    · exact hlater (List.append_nil past ▸ hadded)
    · obtain ⟨rfl, rfl⟩ := List.cons.inj hrest
      refine hhidden ((handsOut_run_iff _ _ _).mpr
        ⟨past, stored, mid, rfl, hnew, hstored, hid, fun hmid => hshown ?_⟩)
      exact hmid.imp_right fun ⟨call, hmem, hmarks⟩ => ⟨call, List.mem_append_left _ hmem, hmarks⟩

/-- A pool is disabled, and then enabled again with the path through it. -/
theorem hidden_path_stays_hidden_enabled :
    letI := firstPoolHasher
    ¬ (run [.add (roundPath 10 20), .disablePoolPaths (.address 20) 2 1 true,
      .disablePoolPaths (.address 20) 2 1 false, .disablePath (roundPath 10 20) false]).HandsOut
        (.address 10) (roundPath 10 20) := by
  let _ := firstPoolHasher
  refine hidden_path_stays_hidden [_, _] [_, _] List.mem_cons_self rfl ?_
  rintro ⟨paths, hpaths, -⟩
  exact nomatch hpaths

/-- Store a path and disable it. -/
def disablePathCalls : List StoreCall :=
  [.add (roundPath 10 20), .disablePath (roundPath 10 20) true]

/-- **A disabled path that is searched.** -/
theorem disabled_path_handed_out :
    letI := firstPoolHasher
    LastDisabled disablePathCalls (roundPath 10 20) ∧
      (run disablePathCalls).HandsOut (.address 10) (roundPath 10 20) := by
  let _ := firstPoolHasher
  refine ⟨⟨[.add (roundPath 10 20)], roundPath 10 20, [], rfl, rfl, by decide +kernel,
    fun _ _ h => absurd h List.not_mem_nil⟩, ?_⟩
  refine ⟨[{ roundPath 10 20 with disabled := true }], rfl, ?_⟩
  exact List.mem_singleton_self _

end Kabu
