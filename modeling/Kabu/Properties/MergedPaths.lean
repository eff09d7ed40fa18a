import Kabu.Market.MergePaths

/-!
# When two lines merge

Two lines are merged into two steps.

**The check.**  It refuses lines with other ends, and lines with common hops on both sides, as the
merge does.  It lets everything else pass, but the merge goes on to refuse lines that have no hop in
common at either side, and lines that have a pool in common elsewhere.  So the check is exact only
for the pairs that it refuses and for those that are merged (`check_exact_iff`).

**The steps.**  Along the merged steps run the two lines and no other routes, through no pool twice
(`merges_well_iff`).  There are two exceptions.  The shares of two amounts are not defined if their
sum is zero, and the source panics on the division.  And if one line begins with the whole of the
other, the line that is left of the shorter one has no pool.
-/

namespace Kabu

open CommonEnds

namespace SwapStep

variable {line₀ line₁ : SwapLine} {multicaller : Address}

lemma shared_le_pools (h₀ : line₀.Shaped) (h₁ : line₁.Shaped) :
    sharedStart line₀.forwardHops line₁.forwardHops ≤ line₀.pools.length ∧
      sharedStart line₀.forwardHops line₁.forwardHops ≤ line₁.pools.length := by
  rw [← length_forwardHops h₀, ← length_forwardHops h₁]
  refine ⟨sharedStart_le_length _ _, ?_⟩
  rw [sharedStart_comm]
  exact sharedStart_le_length _ _

/-! ## The check -/

/-- **What is merged.** -/
lemma merges_iff (h₀ : line₀.Shaped) (h₁ : line₁.Shaped) :
    (∃ steps, mergeSwapPaths line₀ line₁ multicaller = .ok steps) ↔
      MergesAtStart line₀ line₁ ∧ SharesDefined line₀.amountOut line₁.amountOut ∨
        MergesAtEnd line₀ line₁ ∧ SharesDefined line₀.amountIn line₁.amountIn := by
  obtain ⟨hle₀, hle₁⟩ := shared_le_pools h₀ h₁
  rcases mergeSwapPaths_cases h₀ h₁ with ⟨hstart, heq⟩ | ⟨hstop, heq⟩ | ⟨hstart, hstop, e, heq⟩
  · have hstop : ¬ MergesAtEnd line₀ line₁ := fun h =>
      h.2.2 (sharedStart_pos_iff.mp (forks_iff.mp hstart.2.1).1)
    rw [heq]
    by_cases hshares : SharesDefined line₀.amountOut line₁.amountOut
    · obtain ⟨steps, hsteps, -⟩ := exists_mergeAtStart h₀ h₁ hstart.1 hle₀ hle₁
        (headKey_eq h₀ h₁ hstart.1) hshares
      exact iff_of_true ⟨steps, hsteps⟩ (Or.inl ⟨hstart, hshares⟩)
    · rw [mergeAtStart_of_not h₀ h₁ hle₀ hle₁ hshares]
      exact iff_of_false (by simp) (by simp [hshares, hstop])
  · have hstart : ¬ MergesAtStart line₀ line₁ := fun h =>
      h.2.2 (sharedStart_pos_iff.mp (forks_iff.mp hstop.2.1).1)
    rw [heq]
    by_cases hshares : SharesDefined line₀.amountIn line₁.amountIn
    · obtain ⟨steps, hsteps, -⟩ := exists_mergeAtEnd h₀ h₁ hstop.1
        (tailKey_eq h₀ h₁ hstop.1) hshares
      exact iff_of_true ⟨steps, hsteps⟩ (Or.inr ⟨hstop, hshares⟩)
    · rw [mergeAtEnd_of_not h₀ h₁ hshares]
      exact iff_of_false (by simp) (by simp [hshares, hstart])
  · rw [heq]
    exact iff_of_false (by simp) (by simp [hstart, hstop])

/-- The check says whether the lines will be merged. -/
def CheckExact (line₀ line₁ : SwapLine) (multicaller : Address) : Prop :=
  canMergeSwapPaths line₀ line₁ = some true ↔
    ∃ steps, mergeSwapPaths line₀ line₁ multicaller = .ok steps

/-- The pairs that the check refuses, and those that are merged. -/
def RefusedOrMerged (line₀ line₁ : SwapLine) : Prop :=
  ¬ line₀.path.SameEnds line₁.path ∨ SharesFirstHop line₀ line₁ ∧ SharesLastHop line₀ line₁ ∨
    MergesAtStart line₀ line₁ ∧ SharesDefined line₀.amountOut line₁.amountOut ∨
    MergesAtEnd line₀ line₁ ∧ SharesDefined line₀.amountIn line₁.amountIn

/-- **The check.** -/
theorem check_exact_iff (line₀ line₁ : SwapLine) (multicaller : Address) (h₀ : line₀.Shaped)
    (h₁ : line₁.Shaped) :
    CheckExact line₀ line₁ multicaller ↔ RefusedOrMerged line₀ line₁ := by
  unfold CheckExact RefusedOrMerged
  rw [canMergeSwapPaths_eq_true_iff h₀ h₁, merges_iff h₀ h₁]
  -- what is merged passes the check
  have hstart : MergesAtStart line₀ line₁ → line₀.path.SameEnds line₁.path ∧
      ¬ SharesLastHop line₀ line₁ := fun h => ⟨h.1, h.2.2⟩
  have hstop : MergesAtEnd line₀ line₁ → line₀.path.SameEnds line₁.path ∧
      ¬ SharesFirstHop line₀ line₁ := fun h => ⟨h.1, h.2.2⟩
  tauto

/-- A line through some pools, by the addresses of its tokens and pools. -/
def lineOf (tokens pools : List Address) (amountIn amountOut : SwapAmountType) : SwapLine where
  path := ⟨tokens.map Token.new, pools.map fun id =>
    ⟨.uniswapV2, .address id, .address id, [], [], [], .ok ⟨[], [], []⟩⟩, false, []⟩
  amountIn := amountIn
  amountOut := amountOut
  calculationResults := []
  swapTo := none
  gasUsed := none

/-- The check passes two lines through other pools, which the merge refuses. -/
theorem check_passes_unmergeable :
    canMergeSwapPaths (lineOf [1, 2, 1] [10, 11] .notSet .notSet)
        (lineOf [1, 2, 1] [12, 13] .notSet .notSet) = some true ∧
      mergeSwapPaths (lineOf [1, 2, 1] [10, 11] .notSet .notSet)
        (lineOf [1, 2, 1] [12, 13] .notSet .notSet) 99 = .error (.error "CANNOT_MERGE") :=
  ⟨rfl, rfl⟩

theorem check_exact_common_start :
    CheckExact (lineOf [1, 2, 1] [10, 11] .notSet .notSet)
      (lineOf [1, 2, 1] [10, 12] .notSet .notSet) 99 :=
  (check_exact_iff _ _ 99 (by decide) (by decide)).mpr
    (Or.inr (Or.inr (Or.inl ⟨by decide, fun _ _ h => absurd h (by simp [lineOf])⟩)))

/-! ## The steps -/

/-- A path that is followed by another, as the source compares paths. -/
def followedBy (line line' : SwapLine) : List Address × List PoolId :=
  (line.path.key.1 ++ line'.path.key.1.tail, line.path.key.2 ++ line'.path.key.2)

/-- Two steps that are the lines, merged. -/
structure WellMerged (line₀ line₁ : SwapLine) (steps : SwapStep × SwapStep) : Prop where
  /-- every line has a pool -/
  pools : ∀ line ∈ steps.1.swapLineVec ++ steps.2.swapLineVec, line.pools ≠ []
  /-- the lines of the first step have the same ends -/
  ends₀ : (steps.1.swapLineVec.map SwapLine.path).Pairwise SwapPath.SameEnds
  /-- the lines of the second step have the same ends -/
  ends₁ : (steps.2.swapLineVec.map SwapLine.path).Pairwise SwapPath.SameEnds
  /-- the first step ends where the second starts -/
  joined : ∀ line ∈ steps.1.swapLineVec, ∀ line' ∈ steps.2.swapLineVec,
    line.getLastToken.map Token.address = line'.getFirstToken.map Token.address
  /-- no pool occurs twice -/
  distinct : ((steps.1.swapLineVec ++ steps.2.swapLineVec).flatMap fun line =>
    line.pools.map Pool.getPoolId).Nodup
  /-- the routes are the two lines -/
  routes : (steps.1.swapLineVec.flatMap fun line => steps.2.swapLineVec.map (followedBy line)) =
    [line₀.path.key, line₁.path.key]

/-- The source does not panic, and what it returns is well merged. -/
def MergesWell (line₀ line₁ : SwapLine) (multicaller : Address) : Prop :=
  mergeSwapPaths line₀ line₁ multicaller ≠ .error .panic ∧
    ∀ steps, mergeSwapPaths line₀ line₁ multicaller = .ok steps → WellMerged line₀ line₁ steps

/-- Lines that are merged have amounts to take shares of, and neither begins, or ends, with the
whole of the other. -/
structure Mergeable (line₀ line₁ : SwapLine) : Prop where
  atStart : MergesAtStart line₀ line₁ → SharesDefined line₀.amountOut line₁.amountOut ∧
    ¬ line₀.forwardHops <+: line₁.forwardHops ∧ ¬ line₁.forwardHops <+: line₀.forwardHops
  atEnd : MergesAtEnd line₀ line₁ → SharesDefined line₀.amountIn line₁.amountIn ∧
    ¬ line₀.backwardHops <+: line₁.backwardHops ∧ ¬ line₁.backwardHops <+: line₀.backwardHops

lemma headKey_tailKey (key : List Address × List PoolId) (i : ℕ) :
    ((headKey key i).1 ++ (tailKey key i).1.tail, (headKey key i).2 ++ (tailKey key i).2) =
      key := by
  simp [headKey, tailKey, List.tail_drop]

lemma headKey_joins {key : List Address × List PoolId} {i : ℕ} (hi : i < key.1.length) :
    (headKey key i).1.getLast? = (tailKey key i).1.head? := by
  rw [headKey, tailKey, List.getLast?_take, if_neg (Nat.succ_ne_zero _), Nat.add_sub_cancel,
    List.head?_drop, List.getElem?_eq_getElem hi]
  rfl

lemma headKey_pools_iff {key : List Address × List PoolId} {i : ℕ} :
    (headKey key i).2 ≠ [] ↔ 0 < i ∧ 0 < key.2.length := by
  rw [← List.length_pos_iff, headKey, List.length_take]
  omega

lemma tailKey_pools_iff {key : List Address × List PoolId} {i : ℕ} :
    (tailKey key i).2 ≠ [] ↔ i < key.2.length := by
  rw [← List.length_pos_iff, tailKey, List.length_drop]
  omega

lemma nodup_of_parts {common rest₀ rest₁ : List PoolId} (h₀ : (common ++ rest₀).Nodup)
    (h₁ : (common ++ rest₁).Nodup) (h : ∀ id ∈ rest₀, id ∉ common ++ rest₁) :
    (common ++ (rest₀ ++ rest₁)).Nodup := by
  obtain ⟨hcommon, hrest₀, hdisjoint₀⟩ := List.nodup_append.mp h₀
  obtain ⟨-, hrest₁, hdisjoint₁⟩ := List.nodup_append.mp h₁
  refine List.nodup_append.mpr ⟨hcommon, List.nodup_append.mpr ⟨hrest₀, hrest₁, ?_⟩, ?_⟩
  · rintro id hid _ hid' rfl
    exact h id hid (List.mem_append_right _ hid')
  · intro id hid id' hid'
    rcases List.mem_append.mp hid' with hid' | hid'
    · exact hdisjoint₀ id hid id' hid'
    · exact hdisjoint₁ id hid id' hid'

lemma length_ids (line : SwapLine) : line.path.key.2.length = line.pools.length :=
  List.length_map _

lemma rest_of_forks_forward (h₀ : line₀.Shaped) (h₁ : line₁.Shaped)
    (hforks : Forks Prod.fst line₀.forwardHops line₁.forwardHops) :
    ∀ id ∈ line₀.path.key.2.drop (sharedStart line₀.forwardHops line₁.forwardHops),
      id ∉ line₁.path.key.2 := by
  have hrest := sharedStart_eq_commonNames_iff.mp (forks_iff.mp hforks).2
  have hids : ∀ id ∈ (line₀.forwardHops.map Prod.fst).drop
      (sharedStart line₀.forwardHops line₁.forwardHops), id ∉ line₁.forwardHops.map Prod.fst := by
    rw [← List.map_drop]
    exact List.forall_mem_map.mpr hrest
  rwa [map_fst_forwardHops h₀, map_fst_forwardHops h₁] at hids

lemma rest_of_forks_backward (h₀ : line₀.Shaped) (h₁ : line₁.Shaped)
    (hforks : Forks Prod.fst line₀.backwardHops line₁.backwardHops) :
    ∀ id ∈ line₀.path.key.2.take
        (line₀.pools.length - sharedStart line₀.backwardHops line₁.backwardHops),
      id ∉ line₁.path.key.2 := by
  have hrest := sharedStart_eq_commonNames_iff.mp (forks_iff.mp hforks).2
  have hids : ∀ id ∈ (line₀.backwardHops.map Prod.fst).drop
      (sharedStart line₀.backwardHops line₁.backwardHops),
      id ∉ line₁.backwardHops.map Prod.fst := by
    rw [← List.map_drop]
    exact List.forall_mem_map.mpr hrest
  rw [map_fst_backwardHops h₀, map_fst_backwardHops h₁, List.drop_reverse, List.length_map] at hids
  intro id hid hid'
  exact hids id (List.mem_reverse.mpr hid) (List.mem_reverse.mpr hid')

lemma proper_iff {hops₀ hops₁ : List Hop} {n₀ n₁ : ℕ} (h₀ : hops₀.length = n₀)
    (h₁ : hops₁.length = n₁) : ¬ hops₀ <+: hops₁ ∧ ¬ hops₁ <+: hops₀ ↔
      sharedStart hops₀ hops₁ < n₀ ∧ sharedStart hops₀ hops₁ < n₁ := by
  have hle₀ := sharedStart_le_length hops₀ hops₁
  have hle₁ := sharedStart_le_length hops₁ hops₀
  rw [← sharedStart_eq_length_iff, ← sharedStart_eq_length_iff, sharedStart_comm hops₁ hops₀]
  rw [sharedStart_comm] at hle₁
  omega

section Merged

variable {steps : SwapStep × SwapStep}

lemma WellMerged.keys_pools (h : WellMerged line₀ line₁ steps) :
    ∀ key ∈ steps.1.keys ++ steps.2.keys, key.2 ≠ [] := by
  rw [keys, keys, ← List.map_append]
  refine List.forall_mem_map.mpr fun line hline => ?_
  rw [SwapPath.key, Ne, List.map_eq_nil_iff]
  exact h.pools line hline

lemma mergesWell_iff_of_ok (heq : mergeSwapPaths line₀ line₁ multicaller = .ok steps) :
    MergesWell line₀ line₁ multicaller ↔ WellMerged line₀ line₁ steps := by
  rw [MergesWell, heq]
  refine ⟨fun h => h.2 steps rfl, fun h => ⟨by simp, fun steps' hsteps' => ?_⟩⟩
  rwa [← Except.ok.inj hsteps']

variable (h₀ : line₀.Shaped) (h₁ : line₁.Shaped)

include h₀ h₁

/-- **The steps are made of the parts of the lines.**  Each way through both steps is one of the
lines, which is cut somewhere inside. -/
lemma wellMerged_of_parts {i₀ i₁ : ℕ} (hpos₀ : 0 < i₀) (hpos₁ : 0 < i₁)
    (hi₀ : i₀ < line₀.pools.length) (hi₁ : i₁ < line₁.pools.length)
    (hparts : steps.1.keys.product steps.2.keys =
      [(headKey line₀.path.key i₀, tailKey line₀.path.key i₀),
        (headKey line₁.path.key i₁, tailKey line₁.path.key i₁)])
    (hdistinct : ((steps.1.keys ++ steps.2.keys).flatMap Prod.snd).Nodup) :
    WellMerged line₀ line₁ steps := by
  have hlen₀ := length_addresses h₀
  have hlen₁ := length_addresses h₁
  have hids₀ := length_ids line₀
  have hids₁ := length_ids line₁
  have hpart : ∀ key ∈ steps.1.keys, ∀ key' ∈ steps.2.keys,
      key.2 ≠ [] ∧ key'.2 ≠ [] ∧ key.1.getLast? = key'.1.head? := by
    intro key hkey key' hkey'
    have hmem := List.pair_mem_product.mpr ⟨hkey, hkey'⟩
    rw [hparts, List.mem_pair] at hmem
    rcases hmem with h | h
    all_goals
      obtain ⟨rfl, rfl⟩ := Prod.mk.inj h
      exact ⟨headKey_pools_iff.mpr (by omega), tailKey_pools_iff.mpr (by omega),
        headKey_joins (by omega)⟩
  obtain ⟨hkey, hkey'⟩ := List.pair_mem_product.mp (hparts ▸ List.mem_cons_self)
  refine ⟨List.forall_mem_append.mpr ⟨fun line hline hnil => ?_, fun line hline hnil => ?_⟩,
    steps.1.sameEnds, steps.2.sameEnds, fun line hline line' hline' => ?_, ?_, ?_⟩
  · exact (hpart _ (List.mem_map_of_mem hline) _ hkey').1 (List.map_eq_nil_iff.mpr hnil)
  · exact (hpart _ hkey _ (List.mem_map_of_mem hline)).2.1 (List.map_eq_nil_iff.mpr hnil)
  · have h := (hpart _ (List.mem_map_of_mem hline) _ (List.mem_map_of_mem hline')).2.2
    rwa [SwapPath.key, SwapPath.key, List.getLast?_map, List.head?_map] at h
  · rwa [keys, keys, ← List.map_append, List.flatMap_map] at hdistinct
  · have h := congrArg (List.map fun part => (part.1.1 ++ part.2.1.tail, part.1.2 ++ part.2.2))
      hparts
    simp only [List.product, List.map_flatMap, List.map_map, keys, List.flatMap_map,
      List.map_cons, List.map_nil, headKey_tailKey] at h
    exact h

variable (hnodup₀ : line₀.path.key.2.Nodup) (hnodup₁ : line₁.path.key.2.Nodup)

include hnodup₀ hnodup₁

lemma wellMerged_atStart {i : ℕ} (hi : 0 < i) (hi₀ : i < line₀.pools.length)
    (hi₁ : i < line₁.pools.length)
    (hhead : headKey line₀.path.key i = headKey line₁.path.key i)
    (hrest : ∀ id ∈ line₀.path.key.2.drop i, id ∉ line₁.path.key.2)
    (hkeys₀ : steps.1.keys = [headKey line₀.path.key i])
    (hkeys₁ : steps.2.keys = [tailKey line₀.path.key i, tailKey line₁.path.key i]) :
    WellMerged line₀ line₁ steps := by
  refine wellMerged_of_parts h₀ h₁ hi hi hi₀ hi₁ (by simp [hkeys₀, hkeys₁, hhead, List.product]) ?_
  have hshared : line₀.path.key.2.take i = line₁.path.key.2.take i := congrArg Prod.snd hhead
  have hnodup : (line₀.path.key.2.take i ++ (line₀.path.key.2.drop i ++
      line₁.path.key.2.drop i)).Nodup := by
    refine nodup_of_parts ?_ ?_ ?_
    · rwa [List.take_append_drop]
    · rwa [hshared, List.take_append_drop]
    · rwa [hshared, List.take_append_drop]
  simpa [hkeys₀, hkeys₁, headKey, tailKey] using hnodup

lemma wellMerged_atEnd {i₀ i₁ : ℕ} (hpos₀ : 0 < i₀) (hpos₁ : 0 < i₁)
    (hi₀ : i₀ < line₀.pools.length) (hi₁ : i₁ < line₁.pools.length)
    (htail : tailKey line₀.path.key i₀ = tailKey line₁.path.key i₁)
    (hrest : ∀ id ∈ line₀.path.key.2.take i₀, id ∉ line₁.path.key.2)
    (hkeys₀ : steps.1.keys = [headKey line₀.path.key i₀, headKey line₁.path.key i₁])
    (hkeys₁ : steps.2.keys = [tailKey line₀.path.key i₀]) : WellMerged line₀ line₁ steps := by
  refine wellMerged_of_parts h₀ h₁ hpos₀ hpos₁ hi₀ hi₁
    (by simp [hkeys₀, hkeys₁, htail, List.product]) ?_
  have hshared : line₀.path.key.2.drop i₀ = line₁.path.key.2.drop i₁ := congrArg Prod.snd htail
  have hmem : ∀ id, id ∈ line₁.path.key.2.drop i₁ ++ line₁.path.key.2.take i₁ ↔
      id ∈ line₁.path.key.2 := fun id => by
    rw [List.mem_append, or_comm, ← List.mem_append, List.take_append_drop]
  have hnodup : (line₀.path.key.2.drop i₀ ++ (line₀.path.key.2.take i₀ ++
      line₁.path.key.2.take i₁)).Nodup := by
    refine nodup_of_parts ?_ ?_ fun id hid => ?_
    · rwa [List.nodup_append_comm, List.take_append_drop]
    · rwa [hshared, List.nodup_append_comm, List.take_append_drop]
    · rw [hshared, hmem]
      exact hrest id hid
  rw [List.nodup_append_comm] at hnodup
  simpa [hkeys₀, hkeys₁, headKey, tailKey] using hnodup

lemma mergesWell_atStart_iff (hstart : MergesAtStart line₀ line₁)
    (heq : mergeSwapPaths line₀ line₁ multicaller =
      mergeAtStart line₀ line₁ (sharedStart line₀.forwardHops line₁.forwardHops) multicaller) :
    MergesWell line₀ line₁ multicaller ↔ SharesDefined line₀.amountOut line₁.amountOut ∧
      ¬ line₀.forwardHops <+: line₁.forwardHops ∧
      ¬ line₁.forwardHops <+: line₀.forwardHops := by
  obtain ⟨hle₀, hle₁⟩ := shared_le_pools h₀ h₁
  rw [proper_iff (length_forwardHops h₀) (length_forwardHops h₁)]
  by_cases hshares : SharesDefined line₀.amountOut line₁.amountOut
  · obtain ⟨steps, hsteps, hkeys₀, hkeys₁⟩ := exists_mergeAtStart h₀ h₁ hstart.1 hle₀ hle₁
      (headKey_eq h₀ h₁ hstart.1) hshares
    rw [mergesWell_iff_of_ok (heq.trans hsteps)]
    constructor
    · intro hwell
      have hpools := hwell.keys_pools
      rw [hkeys₀, hkeys₁, List.singleton_append, List.forall_mem_cons, List.forall_mem_cons,
        List.forall_mem_cons, tailKey_pools_iff, tailKey_pools_iff, length_ids,
        length_ids] at hpools
      exact ⟨hshares, hpools.2.1, hpools.2.2.1⟩
    · rintro ⟨-, hlt₀, hlt₁⟩
      exact wellMerged_atStart h₀ h₁ hnodup₀ hnodup₁ (forks_iff.mp hstart.2.1).1 hlt₀ hlt₁
        (headKey_eq h₀ h₁ hstart.1) (rest_of_forks_forward h₀ h₁ hstart.2.1) hkeys₀ hkeys₁
  · rw [MergesWell, heq, mergeAtStart_of_not h₀ h₁ hle₀ hle₁ hshares]
    exact iff_of_false (fun h => h.1 rfl) (fun h => hshares h.1)

lemma mergesWell_atEnd_iff (hstop : MergesAtEnd line₀ line₁)
    (heq : mergeSwapPaths line₀ line₁ multicaller =
      mergeAtEnd line₀ line₁ (sharedStart line₀.backwardHops line₁.backwardHops) multicaller) :
    MergesWell line₀ line₁ multicaller ↔ SharesDefined line₀.amountIn line₁.amountIn ∧
      ¬ line₀.backwardHops <+: line₁.backwardHops ∧
      ¬ line₁.backwardHops <+: line₀.backwardHops := by
  have hpos := (forks_iff.mp hstop.2.1).1
  rw [proper_iff (length_backwardHops h₀) (length_backwardHops h₁)]
  by_cases hshares : SharesDefined line₀.amountIn line₁.amountIn
  · obtain ⟨steps, hsteps, hkeys₀, hkeys₁⟩ := exists_mergeAtEnd h₀ h₁ hstop.1
      (tailKey_eq h₀ h₁ hstop.1) hshares
    rw [mergesWell_iff_of_ok (heq.trans hsteps)]
    constructor
    · intro hwell
      have hpools := hwell.keys_pools
      rw [hkeys₀, hkeys₁, List.cons_append, List.cons_append, List.forall_mem_cons,
        List.forall_mem_cons, headKey_pools_iff, headKey_pools_iff] at hpools
      obtain ⟨hhead₀, hhead₁, -⟩ := hpools
      exact ⟨hshares, by omega, by omega⟩
    · rintro ⟨-, hlt₀, hlt₁⟩
      exact wellMerged_atEnd h₀ h₁ hnodup₀ hnodup₁ (by omega) (by omega) (by omega) (by omega)
        (tailKey_eq h₀ h₁ hstop.1) (rest_of_forks_backward h₀ h₁ hstop.2.1) hkeys₀ hkeys₁
  · rw [MergesWell, heq, mergeAtEnd_of_not h₀ h₁ hshares]
    exact iff_of_false (fun h => h.1 rfl) (fun h => hshares h.1)

end Merged

/-- **The steps.** -/
theorem merges_well_iff (line₀ line₁ : SwapLine) (multicaller : Address) (h₀ : line₀.Shaped)
    (h₁ : line₁.Shaped) (hnodup₀ : (line₀.pools.map Pool.getPoolId).Nodup)
    (hnodup₁ : (line₁.pools.map Pool.getPoolId).Nodup) :
    MergesWell line₀ line₁ multicaller ↔ Mergeable line₀ line₁ := by
  rcases mergeSwapPaths_cases h₀ h₁ with ⟨hstart, heq⟩ | ⟨hstop, heq⟩ | ⟨hstart, hstop, e, heq⟩
  · have hstop : ¬ MergesAtEnd line₀ line₁ := fun h =>
      h.2.2 (sharedStart_pos_iff.mp (forks_iff.mp hstart.2.1).1)
    rw [mergesWell_atStart_iff h₀ h₁ hnodup₀ hnodup₁ hstart heq]
    exact ⟨fun h => ⟨fun _ => h, fun h' => absurd h' hstop⟩, fun h => h.atStart hstart⟩
  · have hstart : ¬ MergesAtStart line₀ line₁ := fun h =>
      h.2.2 (sharedStart_pos_iff.mp (forks_iff.mp hstop.2.1).1)
    rw [mergesWell_atEnd_iff h₀ h₁ hnodup₀ hnodup₁ hstop heq]
    exact ⟨fun h => ⟨fun h' => absurd h' hstart, fun _ => h⟩, fun h => h.atEnd hstop⟩
  · refine iff_of_true ⟨?_, fun steps hsteps => ?_⟩
      ⟨fun h => absurd h hstart, fun h => absurd h hstop⟩
    · rw [heq]
      simp
    · rw [heq] at hsteps
      simp at hsteps

/-- Two closed lines with a common first hop and nothing to come out: the shares are taken of zero.
And a closed line that goes on where another ends: a line without pools is left of the other. -/
theorem merge_panics_or_leaves_nothing :
    mergeSwapPaths (lineOf [1, 2, 1] [10, 11] .notSet (.set 0))
        (lineOf [1, 2, 1] [10, 12] .notSet (.set 0)) 99 = .error .panic ∧
      ∃ steps line, mergeSwapPaths (lineOf [1, 2, 1] [10, 11] .notSet .notSet)
          (lineOf [1, 2, 1, 3, 1] [10, 11, 12, 13] .notSet .notSet) 99 = .ok steps ∧
        line ∈ steps.2.swapLineVec ∧ line.pools = [] :=
  ⟨rfl, _, _, rfl, List.mem_cons_self, rfl⟩

theorem merges_well_common_start :
    MergesWell (lineOf [1, 2, 1] [10, 11] (.set 5) (.set 7))
      (lineOf [1, 2, 1] [10, 12] (.set 6) (.set 8)) 99 :=
  (merges_well_iff _ _ 99 (by decide) (by decide) (by decide) (by decide)).mpr
    ⟨fun _ => ⟨by rintro a₀ a₁ ⟨⟩ ⟨⟩; decide, by decide, by decide⟩,
      fun h => absurd h (by decide)⟩

end SwapStep

end Kabu
