import Kabu.Framework.CommonEnds
import Kabu.Market.SwapStep

/-!
# Merging two swap lines

Two lines from one token to another may begin with the same hops, or end with them.  If they do so
on one side, and have no pool in common otherwise, the source merges them into two steps: the common
part becomes a step of one line, and the two parts that differ a step of two lines side by side.
What goes in is half of the larger amount, and the step of two lines is given shares of it in
proportion to the amounts that the two lines had.

`can_merge_swap_paths` of the source is a check to be made before.

The scans over the hops index into the tokens.  For a line with one token more than pools they find
what the lists of hops have in common (`commonStart_eq`, `commonEnd_eq`), and the merge does one of
three things (`mergeSwapPaths_cases`).
-/

namespace Kabu

open CommonEnds

/-- A pool and the token it leads to, as the source compares them. -/
abbrev Hop := PoolId × Address

namespace SwapLine

/-- One token more than pools. -/
def Shaped (line : SwapLine) : Prop := line.tokens.length = line.pools.length + 1

instance (line : SwapLine) : Decidable line.Shaped :=
  inferInstanceAs (Decidable (_ = _))

/-- The pools with the tokens they lead to. -/
def hopsOf (pools : List Pool) (tokens : List Token) : List Hop :=
  (pools.map Pool.getPoolId).zip (tokens.map Token.address)

def forwardHops (line : SwapLine) : List Hop := hopsOf line.pools line.tokens.tail

/-- The hops from the end, each with the token it comes from. -/
def backwardHops (line : SwapLine) : List Hop := hopsOf line.pools.reverse line.tokens.reverse.tail

end SwapLine

namespace SwapStep

/-! ## The source -/

/-- The loop over the pools of two lines, with the tokens next to them.  `none` is the panic on a
line that has not enough tokens. -/
def countCommon : List Pool → List Token → List Pool → List Token → Option ℕ
  | pool₀ :: pools₀, token₀ :: tokens₀, pool₁ :: pools₁, token₁ :: tokens₁ =>
      if pool₀.getPoolId = pool₁.getPoolId ∧ token₀.address = token₁.address then
        (countCommon pools₀ tokens₀ pools₁ tokens₁).map (· + 1)
      else some 0
  | _ :: _, _, _ :: _, _ => none
  | _, _, _, _ => some 0

/-- `split_index_start` of the source. -/
def commonStart (line₀ line₁ : SwapLine) : Option ℕ :=
  countCommon line₀.pools line₀.tokens.tail line₁.pools line₁.tokens.tail

/-- `split_index_end` of the source. -/
def commonEnd (line₀ line₁ : SwapLine) : Option ℕ :=
  countCommon line₀.pools.reverse line₀.tokens.reverse.tail
    line₁.pools.reverse line₁.tokens.reverse.tail

def commonPools (line₀ line₁ : SwapLine) : ℕ :=
  line₀.pools.countP fun pool => line₁.path.containsPool pool

/-- `none` is a panic. -/
def canMergeSwapPaths (line₀ line₁ : SwapLine) : Option Bool := do
  let same ← line₀.path.sameEnds? line₁.path
  if same then
    let start ← commonStart line₀ line₁
    let stop ← commonEnd line₀ line₁
    return !(decide (0 < start) && decide (0 < stop))
  else return false

def maxOf (a₀ a₁ : U256) : U256 := if a₀ < a₁ then a₁ else a₀

/-- Half of the larger amount, if both are set. -/
def halfMax : SwapAmountType → SwapAmountType → SwapAmountType → SwapAmountType
  | .set a₀, .set a₁, _ => .set (maxOf a₀ a₁ >>> 1)
  | _, _, own => own

/-- The shares of the larger amount, if both are set.  The division panics on a sum of zero. -/
def shares : SwapAmountType → SwapAmountType → SwapAmountType × SwapAmountType →
    Except (Failure Report) (SwapAmountType × SwapAmountType)
  | .set a₀, .set a₁, _ =>
      if a₀ + a₁ = 0 then .error .panic
      else .ok (.set ((maxOf a₀ a₁ * a₀ / (a₀ + a₁)) >>> 1),
        .set ((maxOf a₀ a₁ * a₁ / (a₀ + a₁)) >>> 1))
  | _, _, own => .ok own

def mergeAtStart (line₀ line₁ : SwapLine) (start : ℕ) (multicaller : Address) :
    Except (Failure Report) (SwapStep × SwapStep) := do
  let split₀ ← line₀.split start
  let split₁ ← line₁.split start
  let outs ← shares line₀.amountOut line₁.amountOut (split₀.2.amountOut, split₁.2.amountOut)
  let step₀ ← Failure.ofOption ((new multicaller).add { split₀.1 with
    amountIn := halfMax line₀.amountIn line₁.amountIn split₀.1.amountIn })
  let step₁ ← Failure.ofOption ((new multicaller).add { split₀.2 with amountOut := outs.1 })
  let step₁ ← Failure.ofOption (step₁.add { split₁.2 with amountOut := outs.2 })
  return (step₀, step₁)

def mergeAtEnd (line₀ line₁ : SwapLine) (stop : ℕ) (multicaller : Address) :
    Except (Failure Report) (SwapStep × SwapStep) := do
  let split₀ ← line₀.split (line₀.pools.length - stop)
  let split₁ ← line₁.split (line₁.pools.length - stop)
  let ins ← shares line₀.amountIn line₁.amountIn (split₀.1.amountIn, split₁.1.amountIn)
  let step₀ ← Failure.ofOption ((new multicaller).add { split₀.1 with amountIn := ins.1 })
  let step₀ ← Failure.ofOption (step₀.add { split₁.1 with amountIn := ins.2 })
  let step₁ ← Failure.ofOption ((new multicaller).add { split₀.2 with
    amountOut := halfMax line₀.amountOut line₁.amountOut split₀.2.amountOut })
  return (step₀, step₁)

def mergeSwapPaths (line₀ line₁ : SwapLine) (multicaller : Address) :
    Except (Failure Report) (SwapStep × SwapStep) := do
  let same ← Failure.ofOption (line₀.path.sameEnds? line₁.path)
  if same then
    let start ← Failure.ofOption (commonStart line₀ line₁)
    let stop ← Failure.ofOption (commonEnd line₀ line₁)
    if 0 < start ∧ 0 < stop then .error (.error "CANNOT_MERGE_BOTH_SIDES")
    else if 0 < start ∧ start ≠ commonPools line₀ line₁ ∨
        0 < stop ∧ stop ≠ commonPools line₀ line₁ then .error (.error "MORE_COMMON_POOLS")
    else if 0 < start then mergeAtStart line₀ line₁ start multicaller
    else if 0 < stop then mergeAtEnd line₀ line₁ stop multicaller
    else .error (.error "CANNOT_MERGE")
  else .error (.error "CANNOT_MERGE_DIFFERENT_TOKENS")

/-! ## The scans -/

variable {pools₀ pools₁ : List Pool} {tokens₀ tokens₁ : List Token}

section Scans

open SwapLine

lemma countCommon_eq (h₀ : tokens₀.length = pools₀.length) (h₁ : tokens₁.length = pools₁.length) :
    countCommon pools₀ tokens₀ pools₁ tokens₁ =
      some (sharedStart (hopsOf pools₀ tokens₀) (hopsOf pools₁ tokens₁)) := by
  induction pools₀ generalizing tokens₀ pools₁ tokens₁ with
  | nil => simp [countCommon, hopsOf, sharedStart]
  | cons pool₀ pools₀ ih =>
      obtain ⟨token₀, tokens₀, rfl⟩ := List.exists_cons_of_length_eq_add_one h₀
      cases pools₁ with
      | nil => simp [countCommon, hopsOf, sharedStart]
      | cons pool₁ pools₁ =>
          obtain ⟨token₁, tokens₁, rfl⟩ := List.exists_cons_of_length_eq_add_one h₁
          have hrest := ih (Nat.succ.inj h₀) (Nat.succ.inj h₁)
          unfold hopsOf at hrest ⊢
          simp only [countCommon, List.map_cons, List.zip_cons_cons, sharedStart, Prod.mk.injEq]
          split
          · rw [hrest]
            rfl
          · rfl

variable {line line₀ line₁ : SwapLine}

lemma length_tail_tokens (h : line.Shaped) : line.tokens.tail.length = line.pools.length := by
  have hshape : line.tokens.length = line.pools.length + 1 := h
  rw [List.length_tail]
  omega

lemma length_tail_reverse_tokens (h : line.Shaped) :
    line.tokens.reverse.tail.length = line.pools.reverse.length := by
  have hshape : line.tokens.length = line.pools.length + 1 := h
  rw [List.length_tail, List.length_reverse, List.length_reverse]
  omega

lemma commonStart_eq (h₀ : line₀.Shaped) (h₁ : line₁.Shaped) :
    commonStart line₀ line₁ = some (sharedStart line₀.forwardHops line₁.forwardHops) :=
  countCommon_eq (length_tail_tokens h₀) (length_tail_tokens h₁)

lemma commonEnd_eq (h₀ : line₀.Shaped) (h₁ : line₁.Shaped) :
    commonEnd line₀ line₁ = some (sharedStart line₀.backwardHops line₁.backwardHops) :=
  countCommon_eq (length_tail_reverse_tokens h₀) (length_tail_reverse_tokens h₁)

lemma map_fst_hopsOf {pools : List Pool} {tokens : List Token}
    (h : tokens.length = pools.length) : (hopsOf pools tokens).map Prod.fst =
      pools.map Pool.getPoolId := by
  unfold hopsOf
  refine List.map_fst_zip ?_
  rw [List.length_map, List.length_map, h]

lemma map_snd_hopsOf {pools : List Pool} {tokens : List Token}
    (h : tokens.length = pools.length) : (hopsOf pools tokens).map Prod.snd =
      tokens.map Token.address := by
  unfold hopsOf
  refine List.map_snd_zip ?_
  rw [List.length_map, List.length_map, h]

lemma map_fst_forwardHops (h : line.Shaped) :
    line.forwardHops.map Prod.fst = line.pools.map Pool.getPoolId :=
  map_fst_hopsOf (length_tail_tokens h)

lemma map_fst_backwardHops (h : line.Shaped) :
    line.backwardHops.map Prod.fst = (line.pools.map Pool.getPoolId).reverse := by
  rw [← List.map_reverse]
  exact map_fst_hopsOf (length_tail_reverse_tokens h)

lemma length_forwardHops (h : line.Shaped) : line.forwardHops.length = line.pools.length := by
  have hmap := congrArg List.length (map_fst_forwardHops h)
  rwa [List.length_map, List.length_map] at hmap

lemma length_backwardHops (h : line.Shaped) : line.backwardHops.length = line.pools.length := by
  have hmap := congrArg List.length (map_fst_backwardHops h)
  rwa [List.length_map, List.length_reverse, List.length_map] at hmap

lemma commonPools_eq_countP (line₀ line₁ : SwapLine) : commonPools line₀ line₁ =
    (line₀.pools.map Pool.getPoolId).countP
      fun id => decide (id ∈ line₁.pools.map Pool.getPoolId) := by
  unfold commonPools SwapPath.containsPool
  rw [List.countP_map]
  refine List.countP_congr fun pool _ => ?_
  simp [SwapLine.pools]

/-- The pools are counted by their names in the hops, in either direction. -/
lemma commonNames_forwardHops (h₀ : line₀.Shaped) (h₁ : line₁.Shaped) :
    commonNames Prod.fst line₀.forwardHops line₁.forwardHops = commonPools line₀ line₁ := by
  rw [commonPools_eq_countP, ← map_fst_forwardHops h₀, List.countP_map, ← map_fst_forwardHops h₁]
  rfl

lemma commonNames_backwardHops (h₀ : line₀.Shaped) (h₁ : line₁.Shaped) :
    commonNames Prod.fst line₀.backwardHops line₁.backwardHops = commonPools line₀ line₁ := by
  rw [commonPools_eq_countP, ← List.countP_reverse, ← map_fst_backwardHops h₀, List.countP_map]
  refine List.countP_congr fun hop _ => ?_
  rw [map_fst_backwardHops h₁]
  simp

end Scans

/-! ## What is merged -/

section Cases

variable {line₀ line₁ : SwapLine} {multicaller : Address}

/-- The lines begin with the same pool, which leads them to the same token. -/
def SharesFirstHop (line₀ line₁ : SwapLine) : Prop :=
  ∃ hop, line₀.forwardHops.head? = some hop ∧ line₁.forwardHops.head? = some hop

/-- The lines end with the same pool, coming from the same token. -/
def SharesLastHop (line₀ line₁ : SwapLine) : Prop :=
  ∃ hop, line₀.backwardHops.head? = some hop ∧ line₁.backwardHops.head? = some hop

/-- The lines begin with the same hops, and have no pool in common after them. -/
def MergesAtStart (line₀ line₁ : SwapLine) : Prop :=
  line₀.path.SameEnds line₁.path ∧ Forks Prod.fst line₀.forwardHops line₁.forwardHops ∧
    ¬ SharesLastHop line₀ line₁

/-- The lines end with the same hops, and have no pool in common before them. -/
def MergesAtEnd (line₀ line₁ : SwapLine) : Prop :=
  line₀.path.SameEnds line₁.path ∧ Forks Prod.fst line₀.backwardHops line₁.backwardHops ∧
    ¬ SharesFirstHop line₀ line₁

/-- Two amounts have a sum to take shares of, if both are set. -/
def SharesDefined (amount₀ amount₁ : SwapAmountType) : Prop :=
  ∀ a₀ a₁, amount₀ = .set a₀ → amount₁ = .set a₁ → a₀ + a₁ ≠ 0

instance (line₀ line₁ : SwapLine) : Decidable (SharesFirstHop line₀ line₁) :=
  decidable_of_iff _ sharedStart_pos_iff

instance (line₀ line₁ : SwapLine) : Decidable (SharesLastHop line₀ line₁) :=
  decidable_of_iff _ sharedStart_pos_iff

instance (line₀ line₁ : SwapLine) : Decidable (MergesAtStart line₀ line₁) :=
  decidable_of_iff (_ ∧ _ ∧ _) (and_congr Iff.rfl (and_congr forks_iff.symm Iff.rfl))

instance (line₀ line₁ : SwapLine) : Decidable (MergesAtEnd line₀ line₁) :=
  decidable_of_iff (_ ∧ _ ∧ _) (and_congr Iff.rfl (and_congr forks_iff.symm Iff.rfl))

lemma exists_sameEnds? (h₀ : line₀.Shaped) (h₁ : line₁.Shaped) :
    ∃ same, line₀.path.sameEnds? line₁.path = some same ∧
      (same = true ↔ line₀.path.SameEnds line₁.path) := by
  have hne₀ : line₀.path.tokens ≠ [] :=
    List.ne_nil_of_length_pos (h₀.symm ▸ Nat.succ_pos _)
  have hne₁ : line₁.path.tokens ≠ [] :=
    List.ne_nil_of_length_pos (h₁.symm ▸ Nat.succ_pos _)
  unfold SwapPath.SameEnds SwapPath.sameEnds?
  rw [List.head?_eq_some_head hne₀, List.head?_eq_some_head hne₁,
    List.getLast?_eq_some_getLast hne₀, List.getLast?_eq_some_getLast hne₁]
  exact ⟨_, rfl, (Option.some.injEq _ _).symm.to_iff⟩

lemma canMergeSwapPaths_eq_true_iff (h₀ : line₀.Shaped) (h₁ : line₁.Shaped) :
    canMergeSwapPaths line₀ line₁ = some true ↔ line₀.path.SameEnds line₁.path ∧
      ¬ (SharesFirstHop line₀ line₁ ∧ SharesLastHop line₀ line₁) := by
  obtain ⟨same, hsame, hends⟩ := exists_sameEnds? h₀ h₁
  unfold canMergeSwapPaths SharesFirstHop SharesLastHop
  rw [hsame, commonStart_eq h₀ h₁, commonEnd_eq h₀ h₁, ← sharedStart_pos_iff,
    ← sharedStart_pos_iff, ← hends]
  cases same with
  | false => simp
  | true =>
      simp
      omega

/-- **What a merge does.**  It merges the lines at their start, or at their end, or refuses. -/
lemma mergeSwapPaths_cases (h₀ : line₀.Shaped) (h₁ : line₁.Shaped) :
    MergesAtStart line₀ line₁ ∧ mergeSwapPaths line₀ line₁ multicaller =
        mergeAtStart line₀ line₁ (sharedStart line₀.forwardHops line₁.forwardHops) multicaller ∨
      MergesAtEnd line₀ line₁ ∧ mergeSwapPaths line₀ line₁ multicaller =
        mergeAtEnd line₀ line₁ (sharedStart line₀.backwardHops line₁.backwardHops) multicaller ∨
      ¬ MergesAtStart line₀ line₁ ∧ ¬ MergesAtEnd line₀ line₁ ∧
        ∃ message, mergeSwapPaths line₀ line₁ multicaller = .error (.error message) := by
  obtain ⟨same, hsame, hends⟩ := exists_sameEnds? h₀ h₁
  unfold MergesAtStart MergesAtEnd SharesFirstHop SharesLastHop mergeSwapPaths
  rw [hsame, ← hends, commonStart_eq h₀ h₁, commonEnd_eq h₀ h₁, ← sharedStart_pos_iff,
    ← sharedStart_pos_iff, forks_iff, forks_iff, commonNames_forwardHops h₀ h₁,
    commonNames_backwardHops h₀ h₁]
  generalize sharedStart line₀.forwardHops line₁.forwardHops = start
  generalize sharedStart line₀.backwardHops line₁.backwardHops = stop
  generalize commonPools line₀ line₁ = common
  simp only [Failure.ofOption, bind, Except.bind]
  cases same with
  | false => exact Or.inr (Or.inr ⟨fun h => absurd h.1 (by simp), fun h => absurd h.1 (by simp),
      _, rfl⟩)
  | true =>
    simp only [if_true, true_and]
    by_cases hboth : 0 < start ∧ 0 < stop
    · rw [if_pos hboth]
      exact Or.inr (Or.inr ⟨fun h => h.2 hboth.2, fun h => h.2 hboth.1, _, rfl⟩)
    · rw [if_neg hboth]
      by_cases hmore : 0 < start ∧ start ≠ common ∨ 0 < stop ∧ stop ≠ common
      · rw [if_pos hmore]
        refine Or.inr (Or.inr ⟨fun h => ?_, fun h => ?_, _, rfl⟩) <;> omega
      · rw [if_neg hmore]
        by_cases hstart : 0 < start
        · rw [if_pos hstart]
          exact Or.inl ⟨by omega, rfl⟩
        · rw [if_neg hstart]
          by_cases hstop : 0 < stop
          · rw [if_pos hstop]
            exact Or.inr (Or.inl ⟨by omega, rfl⟩)
          · rw [if_neg hstop]
            exact Or.inr (Or.inr ⟨by omega, by omega, _, rfl⟩)

end Cases

/-! ## The paths of the steps -/

section Paths

/-- What the paths of the lines are compared by. -/
def keys (step : SwapStep) : List (List Address × List PoolId) :=
  step.swapLineVec.map fun line => line.path.key

/-- A path up to a pool. -/
def headKey (key : List Address × List PoolId) (i : ℕ) : List Address × List PoolId :=
  (key.1.take (i + 1), key.2.take i)

/-- A path from a pool on. -/
def tailKey (key : List Address × List PoolId) (i : ℕ) : List Address × List PoolId :=
  (key.1.drop i, key.2.drop i)

variable {line line₀ line₁ : SwapLine} {multicaller : Address}

lemma exists_split (h : line.Shaped) {i : ℕ} (hi : i ≤ line.pools.length) :
    ∃ head tail, line.split i = .ok (head, tail) ∧ head.path.key = headKey line.path.key i ∧
      tail.path.key = tailKey line.path.key i := by
  have hshape : line.tokens.length = line.pools.length + 1 := h
  have hbounds : i + 1 ≤ line.tokens.length ∧ i ≤ line.pools.length := ⟨by omega, hi⟩
  refine ⟨_, _, if_pos hbounds, ?_, ?_⟩
  · simp [SwapPath.key, headKey, SwapLine.tokens, SwapLine.pools, List.map_take]
  · simp [SwapPath.key, tailKey, SwapLine.tokens, SwapLine.pools, List.map_drop]

lemma sameEnds_of_key {path path' : SwapPath} (hne : path.key.1 ≠ [])
    (hhead : path.key.1.head? = path'.key.1.head?)
    (hlast : path.key.1.getLast? = path'.key.1.getLast?) : path.SameEnds path' := by
  have hne' : path'.key.1 ≠ [] := by
    rwa [Ne, ← List.head?_eq_none_iff, ← hhead, List.head?_eq_none_iff]
  have htokens : path.tokens ≠ [] := fun h => hne (by simp [SwapPath.key, h])
  have htokens' : path'.tokens ≠ [] := fun h => hne' (by simp [SwapPath.key, h])
  simp only [SwapPath.key, List.head?_map, List.getLast?_map, List.head?_eq_some_head htokens,
    List.head?_eq_some_head htokens', List.getLast?_eq_some_getLast htokens,
    List.getLast?_eq_some_getLast htokens', Option.map_some, Option.some.injEq] at hhead hlast
  exact SwapPath.sameEnds_iff.mpr ⟨_, _, _, _, List.head?_eq_some_head htokens,
    List.head?_eq_some_head htokens', List.getLast?_eq_some_getLast htokens,
    List.getLast?_eq_some_getLast htokens', hhead, hlast⟩

lemma take_addresses_eq (h₀ : tokens₀.tail.length = pools₀.length)
    (h₁ : tokens₁.tail.length = pools₁.length)
    (hhead : (tokens₀.map Token.address).head? = (tokens₁.map Token.address).head?) {n : ℕ}
    (hhops : (SwapLine.hopsOf pools₀ tokens₀.tail).take n =
      (SwapLine.hopsOf pools₁ tokens₁.tail).take n) :
    (tokens₀.map Token.address).take (n + 1) = (tokens₁.map Token.address).take (n + 1) := by
  have htail := congrArg (List.map Prod.snd) hhops
  rw [List.map_take, List.map_take, map_snd_hopsOf h₀, map_snd_hopsOf h₁] at htail
  cases tokens₀ with
  | nil =>
      cases tokens₁ with
      | nil => rfl
      | cons token₁ tokens₁ => simp at hhead
  | cons token₀ tokens₀ =>
      cases tokens₁ with
      | nil => simp at hhead
      | cons token₁ tokens₁ =>
          rw [List.map_cons, List.map_cons, List.take_succ_cons, List.take_succ_cons]
          exact congrArg₂ List.cons (Option.some.inj hhead) htail

lemma take_ids_eq (h₀ : tokens₀.length = pools₀.length) (h₁ : tokens₁.length = pools₁.length)
    {n : ℕ}
    (hhops : (SwapLine.hopsOf pools₀ tokens₀).take n = (SwapLine.hopsOf pools₁ tokens₁).take n) :
    (pools₀.map Pool.getPoolId).take n = (pools₁.map Pool.getPoolId).take n := by
  have hmap := congrArg (List.map Prod.fst) hhops
  rwa [List.map_take, List.map_take, map_fst_hopsOf h₀, map_fst_hopsOf h₁] at hmap

lemma ends_of_sameEnds {path path' : SwapPath} (h : path.SameEnds path') :
    path.key.1.head? = path'.key.1.head? ∧ path.key.1.getLast? = path'.key.1.getLast? := by
  obtain ⟨first, first', last, last', hfirst, hfirst', hlast, hlast', hf, hl⟩ :=
    SwapPath.sameEnds_iff.mp h
  simp [SwapPath.key, hfirst, hfirst', hlast, hlast', hf, hl]

lemma length_addresses (h : line.Shaped) : line.path.key.1.length = line.pools.length + 1 := by
  rw [SwapPath.key, List.length_map]
  exact h

lemma shares_of_not {amount₀ amount₁ : SwapAmountType} (h : ¬ SharesDefined amount₀ amount₁)
    (own : SwapAmountType × SwapAmountType) : shares amount₀ amount₁ own = .error .panic := by
  unfold SharesDefined at h
  push Not at h
  obtain ⟨a₀, a₁, rfl, rfl, hsum⟩ := h
  exact if_pos hsum

lemma exists_shares {amount₀ amount₁ : SwapAmountType} (h : SharesDefined amount₀ amount₁)
    (own : SwapAmountType × SwapAmountType) :
    ∃ amounts, shares amount₀ amount₁ own = .ok amounts := by
  unfold shares
  split
  · rename_i a₀ a₁
    rw [if_neg (h a₀ a₁ rfl rfl)]
    exact ⟨_, rfl⟩
  · exact ⟨_, rfl⟩

lemma exists_add_new (multicaller : Address) (line : SwapLine) :
    ∃ step, (new multicaller).add line = some step ∧ step.swapLineVec = [line] :=
  exists_add (fun _ hpath => absurd hpath List.not_mem_nil) (show 0 + 1 < 2 ^ 64 by decide)

lemma exists_add_two (multicaller : Address) (line line' : SwapLine)
    (h : line.path.SameEnds line'.path) :
    ∃ step step', (new multicaller).add line = some step ∧ step.add line' = some step' ∧
      step'.swapLineVec = [line, line'] := by
  obtain ⟨step, hstep, hlines⟩ := exists_add_new multicaller line
  have hends : ∀ path ∈ step.swapLineVec.map SwapLine.path, path.SameEnds line'.path := by
    rw [hlines, List.map_singleton]
    exact List.forall_mem_singleton.mpr h
  have hlen : step.swapLineVec.length + 1 < 2 ^ 64 := by
    rw [hlines]
    show 1 + 1 < 2 ^ 64
    decide
  obtain ⟨step', hstep', hlines'⟩ := exists_add hends hlen
  exact ⟨step, step', hstep, hstep', by rw [hlines', hlines]; rfl⟩

variable (h₀ : line₀.Shaped) (h₁ : line₁.Shaped)

include h₀ h₁

lemma mergeAtStart_of_not {i : ℕ} (hi₀ : i ≤ line₀.pools.length) (hi₁ : i ≤ line₁.pools.length)
    (hshares : ¬ SharesDefined line₀.amountOut line₁.amountOut) :
    mergeAtStart line₀ line₁ i multicaller = .error .panic := by
  obtain ⟨head₀, tail₀, hsplit₀, -, -⟩ := exists_split h₀ hi₀
  obtain ⟨head₁, tail₁, hsplit₁, -, -⟩ := exists_split h₁ hi₁
  simp only [mergeAtStart, hsplit₀, hsplit₁, shares_of_not hshares, bind, Except.bind]

lemma mergeAtEnd_of_not {stop : ℕ} (hshares : ¬ SharesDefined line₀.amountIn line₁.amountIn) :
    mergeAtEnd line₀ line₁ stop multicaller = .error .panic := by
  obtain ⟨head₀, tail₀, hsplit₀, -, -⟩ := exists_split h₀ (Nat.sub_le _ stop)
  obtain ⟨head₁, tail₁, hsplit₁, -, -⟩ := exists_split h₁ (Nat.sub_le _ stop)
  simp only [mergeAtEnd, hsplit₀, hsplit₁, shares_of_not hshares, bind, Except.bind]

variable (hends : line₀.path.SameEnds line₁.path)

include hends

lemma headKey_eq :
    headKey line₀.path.key (sharedStart line₀.forwardHops line₁.forwardHops) =
      headKey line₁.path.key (sharedStart line₀.forwardHops line₁.forwardHops) := by
  have hhops := take_sharedStart line₀.forwardHops line₁.forwardHops
  exact Prod.ext (take_addresses_eq (length_tail_tokens h₀) (length_tail_tokens h₁)
    (ends_of_sameEnds hends).1 hhops)
    (take_ids_eq (length_tail_tokens h₀) (length_tail_tokens h₁) hhops)

lemma tailKey_eq :
    tailKey line₀.path.key
        (line₀.pools.length - sharedStart line₀.backwardHops line₁.backwardHops) =
      tailKey line₁.path.key
        (line₁.pools.length - sharedStart line₀.backwardHops line₁.backwardHops) := by
  have hhops := take_sharedStart line₀.backwardHops line₁.backwardHops
  have hlast : (line₀.tokens.reverse.map Token.address).head? =
      (line₁.tokens.reverse.map Token.address).head? := by
    rw [List.map_reverse, List.map_reverse, List.head?_reverse, List.head?_reverse]
    exact (ends_of_sameEnds hends).2
  have haddresses := take_addresses_eq
    (length_tail_reverse_tokens h₀) (length_tail_reverse_tokens h₁) hlast hhops
  have hids := take_ids_eq (length_tail_reverse_tokens h₀) (length_tail_reverse_tokens h₁) hhops
  have hshape₀ : line₀.tokens.length = line₀.pools.length + 1 := h₀
  have hshape₁ : line₁.tokens.length = line₁.pools.length + 1 := h₁
  simp only [List.map_reverse, List.take_reverse, List.reverse_inj, List.length_map, hshape₀,
    hshape₁, Nat.add_sub_add_right] at haddresses hids
  exact Prod.ext haddresses hids

lemma sameEnds_tails {i : ℕ} (hi₀ : i ≤ line₀.pools.length) (hi₁ : i ≤ line₁.pools.length)
    (hhead : headKey line₀.path.key i = headKey line₁.path.key i)
    {tail₀ tail₁ : SwapPath} (htail₀ : tail₀.key = tailKey line₀.path.key i)
    (htail₁ : tail₁.key = tailKey line₁.path.key i) : tail₀.SameEnds tail₁ := by
  have hlen₀ := length_addresses h₀
  have hlen₁ := length_addresses h₁
  have hat : line₀.path.key.1[i]? = line₁.path.key.1[i]? := by
    have htake := congrArg (fun key => key.1[i]?) hhead
    simpa [headKey, List.getElem?_take] using htake
  refine sameEnds_of_key ?_ ?_ ?_
  · rw [htail₀, tailKey, Ne, List.drop_eq_nil_iff]
    omega
  · rw [htail₀, htail₁, tailKey, tailKey, List.head?_drop, List.head?_drop]
    exact hat
  · rw [htail₀, htail₁, tailKey, tailKey, List.getLast?_drop, List.getLast?_drop,
      if_neg (by omega), if_neg (by omega)]
    exact (ends_of_sameEnds hends).2

lemma sameEnds_heads {i₀ i₁ : ℕ} (hi₀ : i₀ ≤ line₀.pools.length)
    (hi₁ : i₁ ≤ line₁.pools.length) (htail : tailKey line₀.path.key i₀ = tailKey line₁.path.key i₁)
    {head₀ head₁ : SwapPath} (hhead₀ : head₀.key = headKey line₀.path.key i₀)
    (hhead₁ : head₁.key = headKey line₁.path.key i₁) : head₀.SameEnds head₁ := by
  have hlen₀ := length_addresses h₀
  have hlen₁ := length_addresses h₁
  have hat : line₀.path.key.1[i₀]? = line₁.path.key.1[i₁]? := by
    have hdrop := congrArg (fun key => key.1.head?) htail
    simpa [tailKey, List.head?_drop] using hdrop
  have hfirst : (head₀.key.1).head? = line₀.path.key.1.head? := by
    rw [hhead₀, headKey, List.head?_take, if_neg (Nat.succ_ne_zero _)]
  have hfirst' : (head₁.key.1).head? = line₁.path.key.1.head? := by
    rw [hhead₁, headKey, List.head?_take, if_neg (Nat.succ_ne_zero _)]
  refine sameEnds_of_key ?_ ?_ ?_
  · rw [Ne, ← List.length_eq_zero_iff, hhead₀, headKey, List.length_take]
    omega
  · rw [hfirst, hfirst']
    exact (ends_of_sameEnds hends).1
  · rw [hhead₀, hhead₁, headKey, headKey, List.getLast?_take, List.getLast?_take,
      if_neg (Nat.succ_ne_zero _), if_neg (Nat.succ_ne_zero _), Nat.add_sub_cancel,
      Nat.add_sub_cancel, List.getElem?_eq_getElem (by omega), List.getElem?_eq_getElem (by omega)]
    simpa [List.getElem?_eq_getElem, hlen₀, hlen₁, hi₀, hi₁, Nat.lt_succ_iff] using hat

lemma exists_mergeAtStart {i : ℕ} (hi₀ : i ≤ line₀.pools.length) (hi₁ : i ≤ line₁.pools.length)
    (hhead : headKey line₀.path.key i = headKey line₁.path.key i)
    (hshares : SharesDefined line₀.amountOut line₁.amountOut) :
    ∃ steps, mergeAtStart line₀ line₁ i multicaller = .ok steps ∧
      steps.1.keys = [headKey line₀.path.key i] ∧
      steps.2.keys = [tailKey line₀.path.key i, tailKey line₁.path.key i] := by
  obtain ⟨head₀, tail₀, hsplit₀, hhead₀, htail₀⟩ := exists_split h₀ hi₀
  obtain ⟨head₁, tail₁, hsplit₁, -, htail₁⟩ := exists_split h₁ hi₁
  obtain ⟨outs, houts⟩ := exists_shares hshares (tail₀.amountOut, tail₁.amountOut)
  obtain ⟨step₀, hstep₀, hlines₀⟩ := exists_add_new multicaller { head₀ with
    amountIn := halfMax line₀.amountIn line₁.amountIn head₀.amountIn }
  obtain ⟨step₁, step₁', hstep₁, hstep₁', hlines₁⟩ := exists_add_two multicaller
    { tail₀ with amountOut := outs.1 } { tail₁ with amountOut := outs.2 }
    (sameEnds_tails h₀ h₁ hends hi₀ hi₁ hhead htail₀ htail₁)
  refine ⟨(step₀, step₁'), ?_, ?_, ?_⟩
  · simp only [mergeAtStart, hsplit₀, hsplit₁, houts, hstep₀, hstep₁, hstep₁', Failure.ofOption,
      bind, Except.bind]
    rfl
  · simp only [keys, hlines₀, List.map_singleton, hhead₀]
  · simp only [keys, hlines₁, List.map_cons, List.map_nil, htail₀, htail₁]

lemma exists_mergeAtEnd {stop : ℕ}
    (htail : tailKey line₀.path.key (line₀.pools.length - stop) =
      tailKey line₁.path.key (line₁.pools.length - stop))
    (hshares : SharesDefined line₀.amountIn line₁.amountIn) :
    ∃ steps, mergeAtEnd line₀ line₁ stop multicaller = .ok steps ∧
      steps.1.keys = [headKey line₀.path.key (line₀.pools.length - stop),
        headKey line₁.path.key (line₁.pools.length - stop)] ∧
      steps.2.keys = [tailKey line₀.path.key (line₀.pools.length - stop)] := by
  obtain ⟨head₀, tail₀, hsplit₀, hhead₀, htail₀⟩ := exists_split h₀ (Nat.sub_le _ stop)
  obtain ⟨head₁, tail₁, hsplit₁, hhead₁, -⟩ := exists_split h₁ (Nat.sub_le _ stop)
  obtain ⟨ins, hins⟩ := exists_shares hshares (head₀.amountIn, head₁.amountIn)
  obtain ⟨step₀, step₀', hstep₀, hstep₀', hlines₀⟩ := exists_add_two multicaller
    { head₀ with amountIn := ins.1 } { head₁ with amountIn := ins.2 }
    (sameEnds_heads h₀ h₁ hends (Nat.sub_le _ _) (Nat.sub_le _ _) htail hhead₀ hhead₁)
  obtain ⟨step₁, hstep₁, hlines₁⟩ := exists_add_new multicaller { tail₀ with
    amountOut := halfMax line₀.amountOut line₁.amountOut tail₀.amountOut }
  refine ⟨(step₀', step₁), ?_, ?_, ?_⟩
  · simp only [mergeAtEnd, hsplit₀, hsplit₁, hins, hstep₀, hstep₀', hstep₁, Failure.ofOption,
      bind, Except.bind]
    rfl
  · simp only [keys, hlines₀, List.map_cons, List.map_nil, hhead₀, hhead₁]
  · simp only [keys, hlines₁, List.map_singleton, htail₀]

end Paths

end SwapStep

end Kabu
