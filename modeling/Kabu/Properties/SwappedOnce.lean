import Kabu.Execution.CallTree
import Kabu.Execution.SwapEncoder

/-!
# Each pool is swapped once

In the tree of the calls that carry out two steps there should be one swap for each pool of each
line.  Flash swaps should be inside one another, along each line and line inside line, with the
calls of the other step inside the innermost one (`SwappedOnce`).

A line that is flash swapped for an amount that comes out is encoded like this, whatever its length.
A line that is flash swapped for an amount that goes in is so only if it has one pool: the calls for
the pools already done are in the payload of the next swap, but they also stay in front of it, and
are made twice.  A line without pools, on the other hand, loses the calls that it is put around.
`swappedOnce_iff` says that nothing else goes wrong.
-/

namespace Kabu

open Nesting Rounds

def SwapLine.ids (line : SwapLine) : List PoolId := line.pools.map Pool.getAddress

def SwapStep.ids (step : SwapStep) : List PoolId := step.swapLineVec.flatMap SwapLine.ids

/-- One swap for each pool of each line, with flash swaps inside one another. -/
structure SwappedOnce (encoder : SwapStepEncoder) (sp₀ sp₁ : SwapStep) (calls : SwapCalls) :
    Prop where
  once : (swapsOf calls).Perm (sp₀.ids ++ sp₁.ids)
  nestedIn : sp₀.canFlashSwap encoder.swapLineEncoder.pools = true →
    ∃ inside, encoder.insideInAmount sp₀ sp₁ = .ok inside ∧
      Nested DataCall.kind inside (sp₀.swapLineVec.flatMap SwapLine.ids) calls
  nestedOut : sp₀.canFlashSwap encoder.swapLineEncoder.pools = false →
    sp₁.canFlashSwap encoder.swapLineEncoder.pools = true →
    ∃ inside, encoder.insideOutAmount sp₀ sp₁ = .ok inside ∧
      Nested DataCall.kind inside (sp₁.swapLineVec.flatMap fun line => line.ids.reverse) calls

/-! ## Lines -/

namespace SwapLineEncoder

open ProtocolSwapOpcodesEncoderV2

variable {encoder : SwapLineEncoder} {amount : SwapAmountType} {pools : List Pool}
  {tokens : List Token} {start inside calls : SwapCalls} {other : Option Pool}

lemma swapLoop_ok (h : encoder.swapLoop other pools tokens amount start = .ok calls) :
    swapsOf calls = swapsOf start ++ pools.map Pool.getAddress ∧
      (nodes DataCall.kind calls).length = (nodes DataCall.kind start).length + pools.length := by
  induction pools generalizing tokens amount start with
  | nil =>
      cases Except.ok.inj h
      simp
  | cons pool pools ih =>
      rcases tokens with _ | ⟨tokenFrom, _ | ⟨tokenTo, tokens⟩⟩
      · cases h
      · cases h
      · obtain ⟨added, hadded, h⟩ := bind_ok h
        have hone := oneSwap_of_encodeSwapInAmountProvided hadded
        obtain ⟨hswaps, hnodes⟩ := ih h
        rw [swapsOf_append, hone.swapsOf_eq] at hswaps
        rw [nodes_append, List.length_append, hone.length_nodes] at hnodes
        refine ⟨by rw [hswaps, List.append_assoc]; rfl, ?_⟩
        rw [hnodes, List.length_cons]
        omega

/-- A line of one pool wraps; every further pool leaves one more swap beside the others. -/
lemma flashInLoop_ok (h : encoder.flashInLoop amount pools tokens start inside other = .ok calls) :
    (nodes DataCall.kind calls).length = (nodes DataCall.kind start).length + pools.length ∧
      ∀ pool, pools = [pool] →
        ∃ added, calls = start ++ added ∧ Nested DataCall.kind inside [pool.getAddress] added := by
  induction pools generalizing tokens start inside other with
  | nil =>
      cases Except.ok.inj h
      exact ⟨rfl, by simp⟩
  | cons pool pools ih =>
      rcases tokens with _ | ⟨tokenTo, _ | ⟨tokenFrom, tokens⟩⟩
      · cases h
      · cases h
      · obtain ⟨added, hadded, h⟩ := bind_ok h
        have hnested := nested_of_encodeFlashSwapInAmountProvided hadded
        obtain ⟨hnodes, -⟩ := ih h
        rw [nodes_append, List.length_append, hnested.shape.length_nodes] at hnodes
        refine ⟨by rw [hnodes, List.length_cons]; omega, ?_⟩
        intro pool' hpool'
        obtain ⟨rfl, rfl⟩ := List.cons.inj hpool'
        cases Except.ok.inj h
        exact ⟨added, rfl, hnested⟩

lemma flashOutLoop_ok (h : encoder.flashOutLoop amount pools tokens start inside = .ok calls) :
    pools = [] ∧ calls = start ∨
      pools ≠ [] ∧ Nested DataCall.kind inside (pools.map Pool.getAddress).reverse calls := by
  induction pools generalizing tokens start inside with
  | nil =>
      cases Except.ok.inj h
      exact Or.inl ⟨rfl, rfl⟩
  | cons pool pools ih =>
      rcases tokens with _ | ⟨tokenFrom, _ | ⟨tokenTo, tokens⟩⟩
      · cases h
      · cases h
      · obtain ⟨added, hadded, h⟩ := bind_ok h
        have hnested := nested_of_encodeFlashSwapOutAmountProvided hadded
        refine Or.inr ⟨List.cons_ne_nil _ _, ?_⟩
        rw [List.map_cons, List.reverse_cons]
        rcases ih h with ⟨rfl, rfl⟩ | ⟨-, hrest⟩
        · exact hnested
        · exact hnested.trans hrest

variable {line : SwapLine}

lemma encodeFlashSwapLineInAmount_ok
    (h : encoder.encodeFlashSwapLineInAmount line inside other = .ok calls) :
    (line.pools.length = 1 → Nested DataCall.kind inside line.ids calls) ∧
      (nodes DataCall.kind calls).length = line.pools.length ∧ (line.pools = [] → calls = []) := by
  obtain ⟨hnodes, hone⟩ := flashInLoop_ok h
  rw [List.length_reverse] at hnodes
  refine ⟨?_, by simpa using hnodes, ?_⟩
  · intro hlength
    obtain ⟨pool, hpool⟩ := List.length_eq_one_iff.mp hlength
    obtain ⟨added, rfl, hnested⟩ := hone pool (by rw [hpool]; rfl)
    rw [SwapLine.ids, hpool]
    exact hnested
  · intro hpools
    unfold encodeFlashSwapLineInAmount at h
    rw [hpools] at h
    exact (Except.ok.inj h).symm

lemma encodeFlashSwapLineOutAmount_ok
    (h : encoder.encodeFlashSwapLineOutAmount line inside = .ok calls) :
    (line.pools ≠ [] → Nested DataCall.kind inside line.ids.reverse calls) ∧
      (line.pools = [] → calls = []) := by
  rcases flashOutLoop_ok h with ⟨hnil, rfl⟩ | ⟨hne, hnested⟩
  · exact ⟨fun hne => absurd hnil hne, fun _ => rfl⟩
  · exact ⟨fun _ => hnested, fun hnil => absurd hnil hne⟩

end SwapLineEncoder

/-! ## Steps -/

/-- Every line wraps what is inside it, or it has no pools and there is nothing inside it. -/
def WrapsAll (Wraps : SwapLine → Prop) (Nothing : Prop) : List SwapLine → Prop
  | [] => True
  | line :: lines => Wraps line ∧ WrapsAll Wraps Nothing lines ∨
      line.pools = [] ∧ Nothing ∧ ∀ line' ∈ lines, line'.pools = []

section Lines

variable {encode : SwapCalls → SwapLine → Except (Failure Report) SwapCalls}
  {ids : SwapLine → List PoolId} {Wraps : SwapLine → Prop} {Nothing : Prop}
  {lines : List SwapLine} {inside calls : SwapCalls}

/-- The last line that is encoded is the first one of the step. -/
lemma foldlM_reverse_cons {line : SwapLine}
    (h : (line :: lines).reverse.foldlM encode inside = .ok calls) :
    ∃ inner, lines.reverse.foldlM encode inside = .ok inner ∧ encode inner line = .ok calls := by
  rw [List.reverse_cons, List.foldlM_append] at h
  obtain ⟨inner, hinner, h⟩ := bind_ok h
  obtain ⟨last, hlast, h⟩ := bind_ok h
  cases Except.ok.inj h
  exact ⟨inner, hinner, hlast⟩

lemma nested_of_wrapsAll
    (hwraps : ∀ line inner calls, encode inner line = .ok calls → Wraps line →
      Nested DataCall.kind inner (ids line) calls)
    (hempty : ∀ line inner calls, encode inner line = .ok calls → line.pools = [] → calls = [])
    (hids : ∀ line, ids line = [] ↔ line.pools = []) (hnothing : Nothing → inside = [])
    (h : lines.reverse.foldlM encode inside = .ok calls) (hlines : WrapsAll Wraps Nothing lines) :
    Nested DataCall.kind inside (lines.flatMap ids) calls := by
  induction lines generalizing calls with
  | nil =>
      cases Except.ok.inj h
      exact nested_self
  | cons line lines ih =>
      obtain ⟨inner, hinner, hline⟩ := foldlM_reverse_cons h
      rcases hlines with ⟨hwrapsLine, hlines⟩ | ⟨hpools, hnone, hrest⟩
      · exact (ih hinner hlines).trans (hwraps line inner calls hline hwrapsLine)
      · have hlabels : (line :: lines).flatMap ids = [] :=
          List.flatMap_eq_nil_iff.mpr (List.forall_mem_cons.mpr
            ⟨(hids line).mpr hpools, fun line' hline' => (hids line').mpr (hrest line' hline')⟩)
        rw [hlabels, hempty line inner calls hline hpools, hnothing hnone]
        exact nested_self

/-- Looking at the calls from the outside, the lines must have wrapped, one after the other. -/
lemma wrapsAll_of_shape
    (hwraps : ∀ line inner calls, encode inner line = .ok calls → Wraps line →
      Nested DataCall.kind inner (ids line) calls)
    (hempty : ∀ line inner calls, encode inner line = .ok calls → line.pools = [] → calls = [])
    (hids : ∀ line, ids line = [] ↔ line.pools = [])
    (hone : ∀ line inner calls, encode inner line = .ok calls → line.pools ≠ [] →
      (nodes DataCall.kind calls).length = 1 → Wraps line)
    (hnothing : nodes DataCall.kind inside = [] → Nothing)
    (h : lines.reverse.foldlM encode inside = .ok calls)
    (hshape : Shape DataCall.kind inside (lines.flatMap ids) calls) :
    WrapsAll Wraps Nothing lines := by
  induction lines generalizing calls with
  | nil => trivial
  | cons line lines ih =>
      obtain ⟨inner, hinner, hline⟩ := foldlM_reverse_cons h
      rw [List.flatMap_cons] at hshape
      by_cases hpools : line.pools = []
      · -- the calls inside an empty line are lost, so there must not have been any
        rw [hempty line inner calls hline hpools, (hids line).mpr hpools] at hshape
        cases hlabels : lines.flatMap ids with
        | nil =>
            rw [hlabels] at hshape
            have hnodes : nodes DataCall.kind ([] : SwapCalls) = nodes DataCall.kind inside :=
              hshape
            refine Or.inr ⟨hpools, hnothing hnodes.symm, fun line' hline' => ?_⟩
            exact (hids line').mp (List.flatMap_eq_nil_iff.mp hlabels line' hline')
        | cons label labels =>
            rw [hlabels] at hshape
            exact absurd hshape.length_nodes (by simp)
      · have hnodes : (nodes DataCall.kind calls).length = 1 := by
          cases hlabels : ids line with
          | nil => exact absurd ((hids line).mp hlabels) hpools
          | cons label labels =>
              rw [hlabels] at hshape
              exact hshape.length_nodes
        have hwrapsLine := hone line inner calls hline hpools hnodes
        have hinnerShape := (hwraps line inner calls hline hwrapsLine).shape_append_iff.mp hshape
        exact Or.inl ⟨hwrapsLine, ih hinner hinnerShape⟩

end Lines

/-- There is at most one line, and no pool. -/
def NothingToSwap (lines : List SwapLine) : Prop :=
  lines.length ≤ 1 ∧ ∀ line ∈ lines, line.pools = []

namespace SwapStepEncoder

variable {encoder : SwapStepEncoder} {lines lines' : List SwapLine} {start calls : SwapCalls}
  {fundsTo : Option Pool}

lemma foldlM_packLine_ok (h : lines.foldlM encoder.packLine start = .ok calls) :
    swapsOf calls = swapsOf start ++ lines.flatMap SwapLine.ids ∧
      (nodes DataCall.kind calls).length = (nodes DataCall.kind start).length + lines.length := by
  induction lines generalizing start with
  | nil =>
      cases Except.ok.inj h
      simp
  | cons line lines ih =>
      rw [List.foldlM_cons] at h
      obtain ⟨next, hnext, h⟩ := bind_ok h
      obtain ⟨opcodes, hopcodes, rfl⟩ := exceptMap_eq_ok hnext
      obtain ⟨hswaps, hnodes⟩ := ih h
      have hline : swapsOf opcodes = line.ids := (SwapLineEncoder.swapLoop_ok hopcodes).1
      rw [swapsOf_append] at hswaps
      rw [nodes_append, List.length_append] at hnodes
      refine ⟨?_, ?_⟩
      · rw [hswaps, List.flatMap_cons, ← hline, List.append_assoc]
        exact congrArg (swapsOf start ++ ·) (congrArg (· ++ _) (List.append_nil _))
      · rw [hnodes, List.length_cons]
        change _ + 1 + _ = _
        omega

/-- A step as plain swaps swaps each of its pools, and it makes no calls only if it has none. -/
lemma encodeSwapLines_ok (h : encoder.encodeSwapLines lines fundsTo = .ok calls) :
    swapsOf calls = lines.flatMap SwapLine.ids ∧ (NothingToSwap lines → calls = []) ∧
      (nodes DataCall.kind calls = [] → NothingToSwap lines) := by
  rcases lines with _ | ⟨line, _ | ⟨line', lines⟩⟩
  · cases Except.ok.inj h
    exact ⟨rfl, fun _ => rfl, fun _ => ⟨by simp, by simp⟩⟩
  · obtain ⟨hswaps, hnodes⟩ := SwapLineEncoder.swapLoop_ok h
    refine ⟨?_, ?_, ?_⟩
    · rw [hswaps, List.flatMap_singleton]
      rfl
    · rintro ⟨-, hpools⟩
      have hline : line.pools = [] := hpools line List.mem_cons_self
      unfold encodeSwapLines SwapLineEncoder.encodeSwapLineInAmount at h
      dsimp only at h
      rw [hline] at h
      exact (Except.ok.inj h).symm
    · intro hnone
      rw [hnone] at hnodes
      refine ⟨le_rfl, fun line' hline' => ?_⟩
      rw [List.mem_singleton.mp hline']
      exact List.eq_nil_of_length_eq_zero (by simpa using hnodes.symm)
  · obtain ⟨hswaps, hnodes⟩ := foldlM_packLine_ok h
    refine ⟨hswaps, fun hnothing => absurd hnothing.1 (by simp), fun hnone => ?_⟩
    rw [hnone] at hnodes
    simp at hnodes

lemma pools_of_spendBalance (h : encoder.spendBalance lines = .ok lines') :
    lines'.map SwapLine.pools = lines.map SwapLine.pools := by
  cases lines with
  | nil => cases h
  | cons line lines =>
      cases Except.ok.inj h
      refine List.ext_getElem? fun i => ?_
      rw [List.getElem?_map, List.getElem?_map, List.getElem?_modify]
      cases (line :: lines)[i]? with
      | none => rfl
      | some old =>
          split
          · rfl
          · rfl

lemma ids_congr (h : lines'.map SwapLine.pools = lines.map SwapLine.pools) :
    lines'.flatMap SwapLine.ids = lines.flatMap SwapLine.ids := by
  have hids : ∀ lines : List SwapLine, lines.flatMap SwapLine.ids =
      (lines.map SwapLine.pools).flatMap (List.map Pool.getAddress) :=
    fun lines => (List.flatMap_map SwapLine.pools (List.map Pool.getAddress) lines).symm
  rw [hids, hids, h]

lemma nothingToSwap_congr (h : lines'.map SwapLine.pools = lines.map SwapLine.pools) :
    NothingToSwap lines' ↔ NothingToSwap lines := by
  have hnothing : ∀ lines : List SwapLine, NothingToSwap lines ↔
      (lines.map SwapLine.pools).length ≤ 1 ∧ ∀ pools ∈ lines.map SwapLine.pools, pools = [] := by
    intro lines
    rw [List.length_map, List.forall_mem_map]
    rfl
  rw [hnothing, hnothing, h]

variable {sp₀ sp₁ : SwapStep}

lemma insideInAmount_ok (h : encoder.insideInAmount sp₀ sp₁ = .ok calls) :
    swapsOf calls = sp₁.ids ∧ (NothingToSwap sp₁.swapLineVec → calls = []) ∧
      (nodes DataCall.kind calls = [] → NothingToSwap sp₁.swapLineVec) := by
  obtain ⟨lines, hlines, h⟩ := bind_ok h
  have hpools : lines.map SwapLine.pools = sp₁.swapLineVec.map SwapLine.pools := by
    unfold linesInAmount at hlines
    split at hlines
    · exact pools_of_spendBalance hlines
    · rw [Except.ok.inj hlines]
  obtain ⟨hswaps, hnothing, hnodes⟩ := encodeSwapLines_ok h
  rw [nothingToSwap_congr hpools] at hnothing hnodes
  exact ⟨hswaps.trans (ids_congr hpools), hnothing, hnodes⟩

lemma insideOutAmount_ok (h : encoder.insideOutAmount sp₀ sp₁ = .ok calls) :
    swapsOf calls = sp₀.ids ∧ (NothingToSwap sp₀.swapLineVec → calls = []) ∧
      (nodes DataCall.kind calls = [] → NothingToSwap sp₀.swapLineVec) :=
  encodeSwapLines_ok h

lemma ids_eq_nil_iff (line : SwapLine) : line.ids = [] ↔ line.pools = [] := List.map_eq_nil_iff

/-- **The first step as loan.** -/
lemma encodeInAmount_ok (h : encoder.encodeInAmount sp₀ sp₁ = .ok calls) :
    ∃ inside, encoder.insideInAmount sp₀ sp₁ = .ok inside ∧
      (Nested DataCall.kind inside (sp₀.swapLineVec.flatMap SwapLine.ids) calls ↔
        WrapsAll (fun line => line.pools.length = 1) (NothingToSwap sp₁.swapLineVec)
          sp₀.swapLineVec) := by
  obtain ⟨inside, hinside, h⟩ := bind_ok h
  obtain ⟨-, hnothing, hnodes⟩ := insideInAmount_ok hinside
  refine ⟨inside, hinside, fun hnested => ?_, fun hwraps => ?_⟩
  · exact wrapsAll_of_shape
      (fun _ _ _ hline => (SwapLineEncoder.encodeFlashSwapLineInAmount_ok hline).1)
      (fun _ _ _ hline => (SwapLineEncoder.encodeFlashSwapLineInAmount_ok hline).2.2)
      ids_eq_nil_iff
      (fun _ _ _ hline _ hone =>
        (SwapLineEncoder.encodeFlashSwapLineInAmount_ok hline).2.1.symm.trans hone)
      hnodes h hnested.shape
  · exact nested_of_wrapsAll
      (fun _ _ _ hline => (SwapLineEncoder.encodeFlashSwapLineInAmount_ok hline).1)
      (fun _ _ _ hline => (SwapLineEncoder.encodeFlashSwapLineInAmount_ok hline).2.2)
      ids_eq_nil_iff hnothing h hwraps

/-- **The second step as loan.** -/
lemma encodeOutAmount_ok (h : encoder.encodeOutAmount sp₀ sp₁ = .ok calls) :
    ∃ inside, encoder.insideOutAmount sp₀ sp₁ = .ok inside ∧
      (Nested DataCall.kind inside (sp₁.swapLineVec.flatMap fun line => line.ids.reverse) calls ↔
        WrapsAll (fun line => line.pools ≠ []) (NothingToSwap sp₀.swapLineVec)
          sp₁.swapLineVec) := by
  obtain ⟨inside, hinside, h⟩ := bind_ok h
  obtain ⟨-, hnothing, hnodes⟩ := insideOutAmount_ok hinside
  have hids : ∀ line : SwapLine, line.ids.reverse = [] ↔ line.pools = [] :=
    fun line => List.reverse_eq_nil_iff.trans (ids_eq_nil_iff line)
  refine ⟨inside, hinside, fun hnested => ?_, fun hwraps => ?_⟩
  · exact wrapsAll_of_shape
      (fun _ _ _ hline => (SwapLineEncoder.encodeFlashSwapLineOutAmount_ok hline).1)
      (fun _ _ _ hline => (SwapLineEncoder.encodeFlashSwapLineOutAmount_ok hline).2)
      hids (fun _ _ _ _ hne _ => hne) hnodes h hnested.shape
  · exact nested_of_wrapsAll
      (fun _ _ _ hline => (SwapLineEncoder.encodeFlashSwapLineOutAmount_ok hline).1)
      (fun _ _ _ hline => (SwapLineEncoder.encodeFlashSwapLineOutAmount_ok hline).2)
      hids hnothing h hwraps

/-- **The loan from the vault.** -/
lemma encodeBalancerFlashLoan_ok (h : encoder.encodeBalancerFlashLoan [sp₀, sp₁] = .ok calls) :
    swapsOf calls = sp₀.ids ++ sp₁.ids := by
  obtain ⟨token, -, h⟩ := bind_ok h
  obtain ⟨inAmount, -, h⟩ := bind_ok h
  obtain ⟨firstOpcodes, hfirst, h⟩ := bind_ok h
  obtain ⟨swapOpcodes, hlater, h⟩ := bind_ok h
  cases Except.ok.inj h
  obtain ⟨_, hlater, hlast⟩ := bind_ok hlater
  cases Except.ok.inj hlast
  obtain ⟨lines, hlines, hlater⟩ := bind_ok hlater
  obtain ⟨opcodes, hopcodes, hlast⟩ := bind_ok hlater
  cases Except.ok.inj hlast
  have hsecond := (encodeSwapLines_ok hopcodes).1.trans (ids_congr (pools_of_spendBalance hlines))
  have hloan : swapsOf (firstOpcodes ++ opcodes) = sp₀.ids ++ sp₁.ids := by
    rw [swapsOf_append, (encodeSwapLines_ok hfirst).1, hsecond]
    rfl
  exact (List.append_nil _).trans hloan

end SwapStepEncoder

/-! ## Both steps -/

/-- What the encoder needs of the lines of the step that is taken as loan. -/
def EncodesOnce (pools : PoolEncoding) (sp₀ sp₁ : SwapStep) : Prop :=
  (sp₀.canFlashSwap pools = true →
    WrapsAll (fun line => line.pools.length = 1) (NothingToSwap sp₁.swapLineVec)
      sp₀.swapLineVec) ∧
    (sp₀.canFlashSwap pools = false → sp₁.canFlashSwap pools = true →
      ∀ line ∈ sp₁.swapLineVec, line.pools ≠ [])

lemma not_nothingToSwap {pools : PoolEncoding} {step : SwapStep}
    (h : step.canFlashSwap pools = false) : ¬ NothingToSwap step.swapLineVec := by
  rintro ⟨-, hpools⟩
  have hcan : step.canFlashSwap pools = true := by
    refine List.all_eq_true.mpr fun line hline => ?_
    rw [hpools line hline]
    rfl
  rw [hcan] at h
  cases h

lemma wrapsAll_iff_of_not {Wraps : SwapLine → Prop} {Nothing : Prop} (h : ¬ Nothing)
    {lines : List SwapLine} : WrapsAll Wraps Nothing lines ↔ ∀ line ∈ lines, Wraps line := by
  induction lines with
  | nil => exact ⟨fun _ => by simp, fun _ => trivial⟩
  | cons line lines ih =>
      rw [WrapsAll, ih, List.forall_mem_cons]
      exact or_iff_left fun hempty => h hempty.2.1

lemma flatMap_reverse_ids_perm (lines : List SwapLine) :
    (lines.flatMap fun line => line.ids.reverse).Perm (lines.flatMap SwapLine.ids) :=
  List.Perm.flatMap_left _ fun line _ => line.ids.reverse_perm

/-- **Each pool once.**  The calls of two steps swap each pool of each line once, with the flash
swaps inside one another, just if the lines of the step that is taken as loan have the length that
its encoder can handle: one pool, if it is the first step, and at least one, if it is the second. -/
theorem swappedOnce_iff (encoder : SwapStepEncoder) (sp₀ sp₁ : SwapStep) (calls : SwapCalls)
    (h : encoder.encodeSwapSteps sp₀ sp₁ = .ok calls) :
    SwappedOnce encoder sp₀ sp₁ calls ↔ EncodesOnce encoder.swapLineEncoder.pools sp₀ sp₁ := by
  unfold SwapStepEncoder.encodeSwapSteps at h
  split at h
  · rename_i hcan
    obtain ⟨inside, hinside, hiff⟩ := SwapStepEncoder.encodeInAmount_ok h
    constructor
    · intro honce
      obtain ⟨inside', hinside', hnested⟩ := honce.nestedIn hcan
      cases Except.ok.inj (hinside.symm.trans hinside')
      exact ⟨fun _ => hiff.mp hnested, fun hnot => absurd (hnot.symm.trans hcan) (by simp)⟩
    · rintro ⟨hwraps, -⟩
      have hnested := hiff.mpr (hwraps hcan)
      refine ⟨?_, fun _ => ⟨inside, hinside, hnested⟩,
        fun hnot => absurd (hnot.symm.trans hcan) (by simp)⟩
      rw [swapsOf_of_nested hnested, (SwapStepEncoder.insideInAmount_ok hinside).1]
      exact List.Perm.refl _
  · rename_i hnot
    have hnot : sp₀.canFlashSwap encoder.swapLineEncoder.pools = false := by simpa using hnot
    split at h
    · rename_i hcan
      obtain ⟨inside, hinside, hiff⟩ := SwapStepEncoder.encodeOutAmount_ok h
      rw [wrapsAll_iff_of_not (not_nothingToSwap hnot)] at hiff
      constructor
      · intro honce
        obtain ⟨inside', hinside', hnested⟩ := honce.nestedOut hnot hcan
        cases Except.ok.inj (hinside.symm.trans hinside')
        exact ⟨fun hcan => absurd (hnot.symm.trans hcan) (by simp), fun _ _ => hiff.mp hnested⟩
      · rintro ⟨-, hwraps⟩
        have hnested := hiff.mpr (hwraps hnot hcan)
        refine ⟨?_, fun hcan => absurd (hnot.symm.trans hcan) (by simp),
          fun _ _ => ⟨inside, hinside, hnested⟩⟩
        rw [swapsOf_of_nested hnested, (SwapStepEncoder.insideOutAmount_ok hinside).1]
        exact ((flatMap_reverse_ids_perm _).append_right _).trans List.perm_append_comm
    · rename_i hnot'
      have hnot' : sp₁.canFlashSwap encoder.swapLineEncoder.pools = false := by simpa using hnot'
      constructor
      · exact fun _ => ⟨fun hcan => absurd (hnot.symm.trans hcan) (by simp),
          fun _ hcan => absurd (hnot'.symm.trans hcan) (by simp)⟩
      · intro _
        refine ⟨?_, fun hcan => absurd (hnot.symm.trans hcan) (by simp),
          fun _ hcan => absurd (hnot'.symm.trans hcan) (by simp)⟩
        rw [SwapStepEncoder.encodeBalancerFlashLoan_ok h]

/-! ### Steps of one line -/

def sampleV3Pool (address : Address) : Pool where
  getClass := .uniswapV3
  getAddress := .address address
  getPoolId := .address address
  getTokens := []
  getSwapDirections := []
  getReadOnlyCellVec := []
  getStateRequired := .ok ⟨[], [], []⟩

/-- Pools that can be flash swapped, and that call back to be paid. -/
def flashPools : PoolEncoding where
  getFee _ := 0
  canFlashSwap _ := true
  isNative _ := false
  preswapRequirement _ := .callback
  getAbiEncoder _ := none

def sampleEncoder : SwapStepEncoder := ⟨100, ⟨100, flashPools⟩⟩

/-- A step of one line along some tokens. -/
def sampleSwapStep (tokens pools : List Address) : SwapStep :=
  .single 100
    { path := ⟨tokens.map Token.new, pools.map sampleV3Pool, false, []⟩
      amountIn := .set 1000
      amountOut := .set 1000
      calculationResults := []
      swapTo := none
      gasUsed := none }

theorem onePoolEach_swappedOnce :
    ∃ calls, sampleEncoder.encodeSwapSteps (sampleSwapStep [1, 2] [7]) (sampleSwapStep [2, 1] [8]) =
        .ok calls ∧
      SwappedOnce sampleEncoder (sampleSwapStep [1, 2] [7]) (sampleSwapStep [2, 1] [8]) calls :=
  ⟨_, rfl, (swappedOnce_iff _ _ _ _ rfl).mpr ⟨fun _ => Or.inl ⟨rfl, trivial⟩,
    fun hnot => absurd hnot (by decide)⟩⟩

/-- **Swapped twice.**  The first step is a loan from two pools.  The second of them is swapped in
the payload of the first, and once more before it. -/
theorem pool_swapped_twice :
    ∃ calls, sampleEncoder.encodeSwapSteps (sampleSwapStep [1, 2, 3] [7, 8])
        (sampleSwapStep [3, 1] [9]) = .ok calls ∧
      swapsOf calls = [.address 8, .address 9, .address 7, .address 8, .address 9] ∧
      ¬ SwappedOnce sampleEncoder (sampleSwapStep [1, 2, 3] [7, 8]) (sampleSwapStep [3, 1] [9])
        calls := by
  refine ⟨_, rfl, by decide, fun honce => ?_⟩
  have hlength := honce.once.length_eq
  exact absurd hlength (by decide)

end Kabu
