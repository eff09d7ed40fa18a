import Kabu.Entities.AddHeader

/-!
# What the replay of blocks computes

`getParentState` walks down from a block to the nearest ancestor whose database is stored and
replays the blocks it passed.  `ReplayPath` is that walk as a relation: the blocks passed, from
the oldest to the newest, and the database they start from.  A block has at most one such path
(`ReplayPath.unique`), and the function returns exactly when it has one, with the updates of the
path applied to the database in order, and with the database of each block of the path stored
(`getParentState_ok`, `exists_fuel_getParentState`).

The check against the first block number plays no part.  The first number is the smallest of
those the entries have, so no entry is below it.
-/

namespace Kabu

open BlockHistoryManager BlockHistory

variable {S Block : Type*}

/-- The blocks from the nearest ancestor with a stored database down to the block itself, and
that database. -/
inductive ReplayPath (history : BlockHistory S Block) :
    BlockHash → List (BlockHistoryEntry Block) → S → Prop
  | stored {p : BlockHash} {entry : BlockHistoryEntry Block} {db : S} :
      history.getBlockHistoryEntry p = some entry → history.blockStates.lookup p = some db →
      ReplayPath history p [] db
  | missed {p : BlockHash} {entry : BlockHistoryEntry Block}
      {path : List (BlockHistoryEntry Block)} {db : S} :
      history.getBlockHistoryEntry p = some entry → history.blockStates.lookup p = none →
      ReplayPath history entry.parentHash path db → ReplayPath history p (path ++ [entry]) db

/-- The block the path starts from, which is the one whose database is stored. -/
def pathStart (p : BlockHash) : List (BlockHistoryEntry Block) → BlockHash
  | [] => p
  | entry :: _ => entry.parentHash

lemma pathStart_append (p : BlockHash) (path : List (BlockHistoryEntry Block))
    (entry : BlockHistoryEntry Block) :
    pathStart p (path ++ [entry]) = pathStart entry.parentHash path := by
  cases path <;> rfl

namespace ReplayPath

variable {history : BlockHistory S Block} {p : BlockHash}
  {path path' : List (BlockHistoryEntry Block)} {db db' : S}

variable (h : ReplayPath history p path db)

include h

lemma unique (h' : ReplayPath history p path' db') : path' = path ∧ db' = db := by
  induction h generalizing path' with
  | stored hentry hstate =>
      cases h' with
      | stored _ hstate' => exact ⟨rfl, Option.some.inj (hstate'.symm.trans hstate)⟩
      | missed _ hstate' _ => cases hstate'.symm.trans hstate
  | missed hentry hstate _ ih =>
      cases h' with
      | stored _ hstate' => cases hstate.symm.trans hstate'
      | missed hentry' _ hpath' =>
          obtain rfl := Option.some.inj (hentry'.symm.trans hentry)
          obtain ⟨rfl, rfl⟩ := ih hpath'
          exact ⟨rfl, rfl⟩

lemma start_stored : history.blockStates.lookup (pathStart p path) = some db := by
  induction h with
  | stored _ hstate => exact hstate
  | missed _ _ _ ih => rwa [pathStart_append]

lemma entry_of_mem : ∀ entry ∈ path, history.getBlockHistoryEntry entry.hash = some entry := by
  induction h with
  | stored _ _ => simp
  | @missed p entry path db hentry _ _ ih =>
      intro e he
      rcases List.mem_append.mp he with he | he
      · exact ih e he
      · obtain rfl := List.mem_singleton.mp he
        rw [history.keyed p e hentry]
        exact hentry

end ReplayPath

/-! ## The walk down -/

variable {fuel : ℕ}

section Find

variable {history : BlockHistory S Block} {p : BlockHash}

lemma exists_first_le_number {entry : BlockHistoryEntry Block}
    (h : history.getBlockHistoryEntry p = some entry) :
    ∃ first, history.getFirstBlockNumber = some first ∧ ¬ entry.number < first := by
  cases hfirst : history.getFirstBlockNumber with
  | none =>
      have hnone := getFirstBlockNumber_eq_none_iff.mp hfirst p
      cases hnone.symm.trans h
  | some first => exact ⟨first, rfl, not_lt.mpr (le_of_getFirstBlockNumber hfirst h)⟩

lemma findParentDb_succ (fuel : ℕ) (missedBlocks : List BlockHash)
    {entry : BlockHistoryEntry Block} (h : history.getBlockHistoryEntry p = some entry) :
    findParentDb history history.getFirstBlockNumber (fuel + 1) p missedBlocks =
      match history.blockStates.lookup p with
      | some db => .ok (.ok (some db, missedBlocks))
      | none => findParentDb history history.getFirstBlockNumber fuel entry.parentHash
          (missedBlocks ++ [entry.hash]) := by
  obtain ⟨first, hfirst, hnot⟩ := exists_first_le_number h
  rw [findParentDb, h, hfirst]
  exact if_neg hnot

lemma replayPath_of_findParentDb {missedBlocks found : List BlockHash} {answer : Option S}
    (h : findParentDb history history.getFirstBlockNumber fuel p missedBlocks =
      .ok (.ok (answer, found))) :
    ∃ path db, answer = some db ∧ ReplayPath history p path db ∧
      found = missedBlocks ++ path.reverse.map (·.hash) := by
  induction fuel generalizing p missedBlocks with
  | zero => simp [findParentDb] at h
  | succ fuel ih =>
      cases hentry : history.getBlockHistoryEntry p with
      | none =>
          rw [findParentDb, hentry] at h
          simp at h
      | some entry =>
          rw [findParentDb_succ fuel missedBlocks hentry] at h
          cases hstate : history.blockStates.lookup p with
          | some db =>
              rw [hstate] at h
              obtain ⟨rfl, rfl⟩ := Prod.mk.inj (Except.ok.inj (Except.ok.inj h))
              exact ⟨[], db, rfl, .stored hentry hstate, by simp⟩
          | none =>
              rw [hstate] at h
              obtain ⟨path, db, rfl, hpath, rfl⟩ := ih h
              exact ⟨path ++ [entry], db, rfl, .missed hentry hstate hpath, by simp⟩

lemma findParentDb_of_replayPath {path : List (BlockHistoryEntry Block)} {db : S}
    (h : ReplayPath history p path db) :
    ∃ fuel, ∀ missedBlocks, findParentDb history history.getFirstBlockNumber fuel p missedBlocks =
      .ok (.ok (some db, missedBlocks ++ path.reverse.map (·.hash))) := by
  induction h with
  | stored hentry hstate =>
      refine ⟨1, fun missedBlocks => ?_⟩
      rw [findParentDb_succ 0 missedBlocks hentry, hstate]
      simp
  | missed hentry hstate _ ih =>
      obtain ⟨fuel, hfind⟩ := ih
      refine ⟨fuel + 1, fun missedBlocks => ?_⟩
      rw [findParentDb_succ fuel missedBlocks hentry, hstate]
      simp only [hfind]
      simp

lemma findParentDb_ne_error {path : List (BlockHistoryEntry Block)} {db : S}
    (h : ReplayPath history p path db) (fuel : ℕ) (missedBlocks : List BlockHash) (e : Report) :
    findParentDb history history.getFirstBlockNumber fuel p missedBlocks ≠ .ok (.error e) := by
  induction h generalizing fuel missedBlocks with
  | stored hentry hstate =>
      cases fuel with
      | zero => simp [findParentDb]
      | succ fuel => simp [findParentDb_succ fuel missedBlocks hentry, hstate]
  | missed hentry hstate _ ih =>
      cases fuel with
      | zero => simp [findParentDb]
      | succ fuel =>
          rw [findParentDb_succ fuel missedBlocks hentry, hstate]
          exact ih fuel _

lemma findParentDb_ne_panic (history : BlockHistory S Block) (first : Option ℕ) (fuel : ℕ)
    (p : BlockHash) (missedBlocks : List BlockHash) :
    findParentDb history first fuel p missedBlocks ≠ .error .panic := by
  induction fuel generalizing p missedBlocks with
  | zero => simp [findParentDb]
  | succ fuel ih =>
      rw [findParentDb]
      split
      · simp
      · split
        · exact ih p missedBlocks
        · split
          · simp
          · split
            · simp
            · exact ih _ _

end Find

/-! ## The replay -/

section Replay

variable [BlockHistoryState S Block] {history : BlockHistory S Block}

/-- Apply the update of a block and store the result as its database. -/
def replayStep (config : MarketStateConfig) (state : S × BlockHistory S Block)
    (entry : BlockHistoryEntry Block) : S × BlockHistory S Block :=
  let db := BlockHistoryState.applyUpdate state.1 entry config
  (db, state.2.addDb entry.hash db)

lemma replayStep_foldl_fst (config : MarketStateConfig) (path : List (BlockHistoryEntry Block))
    (state : S × BlockHistory S Block) :
    (path.foldl (replayStep config) state).1 =
      path.foldl (fun db entry => BlockHistoryState.applyUpdate db entry config) state.1 := by
  induction path generalizing state with
  | nil => rfl
  | cons entry path ih => exact ih (replayStep config state entry)

lemma replayStep_foldl_blockEntries (config : MarketStateConfig)
    (path : List (BlockHistoryEntry Block)) (state : S × BlockHistory S Block) :
    (path.foldl (replayStep config) state).2.blockEntries = state.2.blockEntries := by
  induction path generalizing state with
  | nil => rfl
  | cons entry path ih => exact ih (replayStep config state entry)

variable {path : List (BlockHistoryEntry Block)}

lemma replay_eq_foldl (config : MarketStateConfig)
    (hpath : ∀ entry ∈ path, history.getBlockHistoryEntry entry.hash = some entry) (db : S) :
    replay config (path.map (·.hash)) db history =
      (.ok (path.foldl (replayStep config) (db, history)).1,
        (path.foldl (replayStep config) (db, history)).2) := by
  induction path generalizing history db with
  | nil => rfl
  | cons entry path ih =>
      have hentry := hpath entry List.mem_cons_self
      rw [List.map_cons, replay, hentry]
      refine ih (fun e he => ?_) _
      exact hpath e (List.mem_cons_of_mem entry he)

variable {config : MarketStateConfig} {p : BlockHash}

/-- **Invariants of the replay.**  What holds of the database the path starts from, and is passed
on by each block of the path from its parent's database to its own, holds of the result and of
every database that the replay adds. -/
lemma ReplayPath.invariant {base : S} {Good : BlockHash → S → Prop}
    (hpath : ReplayPath history p path base) (hbase : Good (pathStart p path) base)
    (hstep : ∀ entry ∈ path, ∀ db, Good entry.parentHash db →
      Good entry.hash (BlockHistoryState.applyUpdate db entry config)) :
    Good p (path.foldl (replayStep config) (base, history)).1 ∧
      ∀ h db, (path.foldl (replayStep config) (base, history)).2.blockStates.lookup h = some db →
        history.blockStates.lookup h = some db ∨ Good h db := by
  induction hpath with
  | stored _ _ => exact ⟨hbase, fun h db hlookup => Or.inl hlookup⟩
  | @missed p entry path base hentry hnone _ ih =>
      rw [pathStart_append] at hbase
      obtain ⟨hdb, hold⟩ := ih hbase fun e he => hstep e (List.mem_append_left _ he)
      have hown := hstep entry (List.mem_append_right _ (List.mem_singleton_self entry)) _ hdb
      rw [List.foldl_append, List.foldl_cons, List.foldl_nil]
      generalize path.foldl (replayStep config) (base, history) = replayed at hdb hold hown
      refine ⟨?_, fun h db hlookup => ?_⟩
      · rw [history.keyed p entry hentry] at hown
        exact hown
      · -- the last block's database is the only one added
        have hinsert := (AssocMap.lookup_insert_eq replayed.2.blockStates entry.hash h
          (BlockHistoryState.applyUpdate replayed.1 entry config)).symm.trans hlookup
        by_cases hh : h = entry.hash
        · rw [if_pos hh] at hinsert
          rw [← Option.some.inj hinsert, hh]
          exact Or.inr hown
        · rw [if_neg hh] at hinsert
          exact hold h db hinsert

variable {history' : BlockHistory S Block}

/-- **The answer.**  What `getParentState` returns is the replay of the path. -/
lemma getParentState_ok {db : S}
    (h : getParentState fuel history config p = .ok (.ok db, history')) :
    ∃ path base, ReplayPath history p path base ∧
      path.foldl (replayStep config) (base, history) = (db, history') := by
  unfold getParentState at h
  obtain ⟨found, hfind, hanswer⟩ := exceptMap_eq_ok h
  cases found with
  | error e => exact absurd (Prod.mk.inj hanswer).1 (by simp)
  | ok found =>
      obtain ⟨answer, missedBlocks⟩ := found
      obtain ⟨path, base, rfl, hpath, rfl⟩ := replayPath_of_findParentDb hfind
      have hreplay := replay_eq_foldl config hpath.entry_of_mem base
      simp only [List.nil_append, List.map_reverse, List.reverse_reverse, hreplay,
        Except.ok.injEq, Prod.mk.injEq] at hanswer
      exact ⟨path, base, hpath, Prod.ext hanswer.1 hanswer.2⟩

lemma findParentDb_of_getParentState_error {e : Report}
    (h : getParentState fuel history config p = .ok (.error e, history')) :
    findParentDb history history.getFirstBlockNumber fuel p [] = .ok (.error e) ∧
      history' = history := by
  unfold getParentState at h
  obtain ⟨found, hfind, hanswer⟩ := exceptMap_eq_ok h
  cases found with
  | error e' =>
      obtain ⟨he, hhistory⟩ := Prod.mk.inj hanswer
      rw [hfind, Except.error.inj he]
      exact ⟨rfl, hhistory.symm⟩
  | ok found =>
      obtain ⟨answer, missedBlocks⟩ := found
      obtain ⟨path, base, rfl, hpath, rfl⟩ := replayPath_of_findParentDb hfind
      have hreplay := replay_eq_foldl config hpath.entry_of_mem base
      simp only [List.nil_append, List.map_reverse, List.reverse_reverse, hreplay,
        Prod.mk.injEq] at hanswer
      exact absurd hanswer.1 (by simp)

lemma not_replayPath_of_error {e : Report}
    (h : getParentState fuel history config p = .ok (.error e, history'))
    (path : List (BlockHistoryEntry Block)) (base : S) : ¬ ReplayPath history p path base :=
  fun hpath => findParentDb_ne_error hpath fuel [] e (findParentDb_of_getParentState_error h).1

lemma exists_fuel_getParentState (config : MarketStateConfig) {base : S}
    (h : ReplayPath history p path base) :
    ∃ fuel, getParentState fuel history config p =
      .ok (.ok (path.foldl (replayStep config) (base, history)).1,
        (path.foldl (replayStep config) (base, history)).2) := by
  obtain ⟨fuel, hfind⟩ := findParentDb_of_replayPath h
  refine ⟨fuel, ?_⟩
  have hreplay := replay_eq_foldl config h.entry_of_mem base
  simp only [getParentState, hfind, Except.map, List.nil_append, List.map_reverse,
    List.reverse_reverse, hreplay]

end Replay

end Kabu
