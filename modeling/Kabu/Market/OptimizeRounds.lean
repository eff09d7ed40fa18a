import Kabu.Market.OptimizeSteps

/-!
# What a round of the searches does

A round that goes on has replaced one line of each step by its working copy.  `mergeAt_some` is the
reason: the lines of a working copy have the paths of the lines they belong to, so `add` never
refuses one, and the merged step is the old one with a single line set.  `middleRound_go` and
`inRound_go` say which lines the two searches can choose, and `priceAll_rel` is the rule for what
the loops over the working copies establish line by line.
-/

namespace Kabu

open Rounds

namespace SwapStep

/-! ## Working copies -/

variable {lines calcLines priced : List SwapLine}

/-- A relation between a line and its working copy that the pricing establishes holds of all. -/
lemma priceAll_rel {E : Type} {outOfBounds : E} {price : SwapLine → SwapLine → Except E SwapLine}
    {R R' : SwapLine → SwapLine → Prop}
    (hprice : ∀ line calcLine priced, R line calcLine → price line calcLine = .ok priced →
      R' line priced) (h : List.Forall₂ R lines calcLines)
    (hpriced : priceAll outOfBounds price lines calcLines = .ok priced) :
    List.Forall₂ R' lines priced := by
  induction h generalizing priced with
  | nil =>
      cases Except.ok.inj hpriced
      exact .nil
  | cons hline _ ih =>
      obtain ⟨first, hfirst, hpriced⟩ := bind_ok hpriced
      obtain ⟨rest, hrest, hpriced⟩ := bind_ok hpriced
      cases Except.ok.inj hpriced
      exact .cons (hprice _ _ _ hline hfirst) (ih hrest)

/-- The working copy of a line is along the same path. -/
def SamePath (line calcLine : SwapLine) : Prop := calcLine.path = line.path

lemma forall₂_samePath_iff :
    List.Forall₂ SamePath lines calcLines ↔
      calcLines.map SwapLine.path = lines.map SwapLine.path := by
  rw [← List.forall₂_eq_eq_eq, List.forall₂_map_left_iff, List.forall₂_map_right_iff]
  exact ⟨List.Forall₂.flip, List.Forall₂.flip⟩

lemma samePath_refl (lines : List SwapLine) : List.Forall₂ SamePath lines lines :=
  List.forall₂_same.mpr fun _ _ => rfl

/-- A property of the working copies that the pricing keeps, on lines with another. -/
lemma priceAll_forall {E : Type} {outOfBounds : E}
    {price : SwapLine → SwapLine → Except E SwapLine} {P Q : SwapLine → Prop}
    (hprice : ∀ line calcLine priced, P line → Q calcLine → price line calcLine = .ok priced →
      SamePath calcLine priced ∧ Q priced)
    (hcopies : List.Forall₂ SamePath lines calcLines) (hlines : ∀ line ∈ lines, P line)
    (hcalc : ∀ line ∈ calcLines, Q line)
    (h : priceAll outOfBounds price lines calcLines = .ok priced) :
    List.Forall₂ SamePath lines priced ∧ ∀ line ∈ priced, Q line := by
  induction hcopies generalizing priced with
  | nil =>
      cases Except.ok.inj h
      exact ⟨.nil, by simp⟩
  | cons hpath _ ih =>
      obtain ⟨hline, hlines⟩ := List.forall_mem_cons.mp hlines
      obtain ⟨hcalcLine, hcalc⟩ := List.forall_mem_cons.mp hcalc
      obtain ⟨first, hfirst, h⟩ := bind_ok h
      obtain ⟨rest, hrest, h⟩ := bind_ok h
      cases Except.ok.inj h
      obtain ⟨hsame, hQ⟩ := hprice _ _ _ hline hcalcLine hfirst
      obtain ⟨hcopies, hrestQ⟩ := ih hlines hcalc hrest
      exact ⟨.cons (hsame.trans hpath) hcopies, List.forall_mem_cons.mpr ⟨hQ, hrestQ⟩⟩

/-! ## Prices -/

lemma Exit.lift_ok {α : Type} {x : Except (Failure Report) α} {a : α} (h : Exit.lift x = .ok a) :
    x = .ok a := by
  cases x with
  | error e => simp [Exit.lift] at h
  | ok b => exact congrArg Except.ok (Except.ok.inj h)

lemma ofOption_unwrap_ok {E : Type} {amount : SwapAmountType} {x : U256}
    (h : (Failure.ofOption amount.unwrap : Except (Failure E) U256) = .ok x) : amount = .set x := by
  cases amount with
  | set y => rw [Except.ok.inj h]
  | _ => simp [SwapAmountType.unwrap, Failure.ofOption] at h

/-- The amount of a calculation, or the placeholder where it fails. -/
def QuotedOr (placeholder : U256) (answer : Except (Failure SwapError) Calculation) (x : U256) :
    Prop :=
  (∃ result, answer = .ok result ∧ result.amount = x) ∨
    (∃ e, answer = .error (.error e)) ∧ x = placeholder

lemma unwrapOr_ok {E : Type} {placeholder : U256} {answer : Except (Failure SwapError) Calculation}
    {result : Calculation}
    (h : (Failure.unwrapOr ⟨placeholder, 0, []⟩ answer : Except (Failure E) Calculation) =
      .ok result) : QuotedOr placeholder answer result.amount := by
  cases answer with
  | ok a =>
      cases Except.ok.inj h
      exact Or.inl ⟨_, rfl, rfl⟩
  | error e =>
      cases e with
      | error e =>
          cases Except.ok.inj h
          exact Or.inr ⟨⟨e, rfl⟩, rfl⟩
      | panic => simp [Failure.unwrapOr] at h

section Prices

variable {quotes : PoolQuotes} {increase : U256} {line calcLine priced : SwapLine}

/-- The working copy has an amount of the line with the increase, and for its other amount a quote
or a placeholder, unless it had the larger amount before.  About a line whose amount would be too
large nothing is said. -/
def PricedFor (known wanted : SwapLine → SwapAmountType)
    (quote : SwapLine → U256 → Except (Failure SwapError) Calculation) (placeholder increase : U256)
    (line calcLine priced : SwapLine) : Prop :=
  SamePath calcLine priced ∧ ∃ amount, known line = .set amount ∧
    ((∃ larger, checkedAdd amount increase = some larger ∧ known priced = .set larger ∧
      (priced = calcLine ∨ ∃ x, wanted priced = .set x ∧
        QuotedOr placeholder (quote calcLine larger) x)) ∨
      checkedAdd amount increase = none)

lemma priceOut_ok (h : priceOut quotes increase line calcLine = .ok priced) :
    PricedFor SwapLine.amountOut SwapLine.amountIn (SwapLine.calculateWithOutAmount quotes)
      maxAmount increase line calcLine priced := by
  obtain ⟨amountOut, hout, h⟩ := bind_ok h
  have hline := ofOption_unwrap_ok (Exit.lift_ok hout)
  split at h
  · simp [throw, throwThe, MonadExceptOf.throw] at h
  · split at h
    · rename_i newAmountOut hnew
      obtain ⟨calcOut, hcalc, h⟩ := bind_ok h
      have hcalcLine := ofOption_unwrap_ok (Exit.lift_ok hcalc)
      split at h
      · obtain ⟨result, hresult, h⟩ := bind_ok h
        cases Except.ok.inj h
        exact ⟨rfl, amountOut, hline, Or.inl ⟨newAmountOut, hnew, rfl, Or.inr ⟨result.amount, rfl,
          unwrapOr_ok (Exit.lift_ok hresult)⟩⟩⟩
      · rename_i hsame
        cases Except.ok.inj h
        refine ⟨rfl, amountOut, hline, Or.inl ⟨newAmountOut, hnew, ?_, Or.inl rfl⟩⟩
        rw [hcalcLine, not_not.mp hsame]
    · rename_i hnone
      cases Except.ok.inj h
      exact ⟨rfl, amountOut, hline, Or.inr hnone⟩

lemma priceIn_ok (h : priceIn quotes increase line calcLine = .ok priced) :
    PricedFor SwapLine.amountIn SwapLine.amountOut (SwapLine.calculateWithInAmount quotes)
      0 increase line calcLine priced := by
  obtain ⟨amountIn, hin, h⟩ := bind_ok h
  have hline := ofOption_unwrap_ok (Exit.lift_ok hin)
  split at h
  · simp [throw, throwThe, MonadExceptOf.throw] at h
  · split at h
    · rename_i newAmountIn hnew
      obtain ⟨calcIn, hcalc, h⟩ := bind_ok h
      have hcalcLine := ofOption_unwrap_ok (Exit.lift_ok hcalc)
      split at h
      · obtain ⟨result, hresult, h⟩ := bind_ok h
        cases Except.ok.inj h
        exact ⟨rfl, amountIn, hline, Or.inl ⟨newAmountIn, hnew, rfl, Or.inr ⟨result.amount, rfl,
          unwrapOr_ok (Exit.lift_ok hresult)⟩⟩⟩
      · rename_i hsame
        cases Except.ok.inj h
        refine ⟨rfl, amountIn, hline, Or.inl ⟨newAmountIn, hnew, ?_, Or.inl rfl⟩⟩
        rw [hcalcLine, not_not.mp hsame]
    · rename_i hnone
      cases Except.ok.inj h
      exact ⟨rfl, amountIn, hline, Or.inr hnone⟩

lemma priceMore_ok (h : priceMore quotes increase line calcLine = .ok priced) :
    priced = calcLine ∨ priced.path = calcLine.path ∧ ∃ amountIn amountOut,
      line.amountIn = .set amountIn ∧ increase < amountIn ∧
      priced.amountIn = .set (amountIn + increase) ∧ priced.amountOut = .set amountOut ∧
      QuotedOr 0 (calcLine.calculateWithInAmount quotes (amountIn + increase)) amountOut := by
  obtain ⟨amountIn, hin, h⟩ := bind_ok h
  split at h
  · rename_i hless
    obtain ⟨calcIn, -, h⟩ := bind_ok h
    split at h
    · obtain ⟨result, hresult, h⟩ := bind_ok h
      cases Except.ok.inj h
      exact Or.inr ⟨rfl, amountIn, result.amount, ofOption_unwrap_ok hin, hless, rfl, rfl,
        unwrapOr_ok hresult⟩
    · exact Or.inl (Except.ok.inj h).symm
  · exact Or.inl (Except.ok.inj h).symm

end Prices

/-! ## Merged steps -/

variable {R : SwapLine → SwapLine → Prop} {i : ℕ}

lemma forall₂_set (h : List.Forall₂ R lines calcLines) {line : SwapLine}
    (hline : calcLines[i]? = some line) (hself : R line line) :
    List.Forall₂ R (lines.set i line) calcLines := by
  induction h generalizing i with
  | nil => exact .nil
  | cons hfirst hrest ih =>
      cases i with
      | zero =>
          cases Option.some.inj hline
          exact .cons hself hrest
      | succ i => exact .cons hfirst (ih hline)

lemma map_path_set (h : List.Forall₂ SamePath lines calcLines) {line : SwapLine}
    (hline : calcLines[i]? = some line) :
    (lines.set i line).map SwapLine.path = lines.map SwapLine.path :=
  (forall₂_samePath_iff.mp (forall₂_set h hline rfl)).symm.trans (forall₂_samePath_iff.mp h)

/-- **Merging.**  The merged step is the old one with one line set. -/
lemma mergeAt_some {step merged : SwapStep} {line : SwapLine}
    (hpaths : List.Forall₂ SamePath step.swapLineVec calcLines) (hline : calcLines[i]? = some line)
    (h : step.mergeAt calcLines i = some merged) :
    merged.swapLineVec = step.swapLineVec.set i line := by
  have hends : ((step.swapLineVec.set i line).map SwapLine.path).Pairwise SwapPath.SameEnds :=
    map_path_set hpaths hline ▸ step.sameEnds
  -- after some of the lines, the merged step has just these
  have hprefix : ∀ (k : ℕ) (merged : SwapStep), k ≤ step.len →
      (List.range k).foldlM (step.mergeLine calcLines i) (SwapStep.new step.swapTo) = some merged →
      merged.swapLineVec = (step.swapLineVec.set i line).take k := by
    intro k
    induction k with
    | zero =>
        intro merged _ h
        cases Option.some.inj h
        rfl
    | succ k ih =>
        intro merged hk h
        rw [List.range_succ, List.foldlM_append] at h
        obtain ⟨before, hbefore, h⟩ := Option.bind_eq_some_iff.mp h
        obtain ⟨_, hadd, hlast⟩ := Option.bind_eq_some_iff.mp h
        cases Option.some.inj hlast
        obtain ⟨added, hadded, hadd⟩ := Option.bind_eq_some_iff.mp hadd
        have hget : (step.swapLineVec.set i line)[k]? = some added := by
          rw [List.getElem?_set]
          split at hadded
          · rename_i hki
            subst hki
            have hlen : k < step.swapLineVec.length := hk
            rw [if_pos rfl, if_pos hlen, ← hline, hadded]
          · rename_i hki
            rw [if_neg (Ne.symm hki), hadded]
        have hbefore := ih before (Nat.le_of_succ_le hk) hbefore
        have hahead : added ∈ (step.swapLineVec.set i line).drop k :=
          List.mem_of_getElem? (i := 0) (by rw [List.getElem?_drop]; exact hget)
        rw [swapLineVec_of_add ?_ hadd, hbefore, List.take_add_one, hget]
        · rfl
        · rw [hbefore]
          intro path hpath
          rw [← List.take_append_drop k (step.swapLineVec.set i line), List.map_append,
            List.pairwise_append] at hends
          exact hends.2.2 path hpath _ (List.mem_map_of_mem hahead)
  have hall := hprefix step.len merged le_rfl h
  rwa [List.take_of_length_le (by rw [List.length_set]; exact le_rfl)] at hall

/-- A merged step that is admitted. -/
def Candidate (step : SwapStep) (calcLines : List SwapLine)
    (accept : SwapStep → Except (Failure Report) Bool) (merged : SwapStep) : Prop :=
  ∃ i < step.len, step.mergeAt calcLines i = some merged ∧ accept merged = .ok true

section Best

variable {step : SwapStep} {accept : SwapStep → Except (Failure Report) Bool}
  {better : SwapStep → SwapStep → Except (Failure Report) Bool}

lemma keepBest_ok {best best' : Option SwapStep} (hi : i < step.len)
    (hbest : ∀ merged ∈ best, Candidate step calcLines accept merged)
    (h : step.keepBest calcLines accept better best i = .ok best') :
    ∀ merged ∈ best', Candidate step calcLines accept merged := by
  obtain ⟨merged, hmerged, h⟩ := bind_ok h
  obtain ⟨admitted, hadmitted, h⟩ := bind_ok h
  have hmergeAt : step.mergeAt calcLines i = some merged := by
    cases hmerge : step.mergeAt calcLines i with
    | none =>
        rw [hmerge] at hmerged
        simp [Failure.ofOption] at hmerged
    | some _ =>
        rw [hmerge] at hmerged
        rw [Except.ok.inj hmerged]
  cases admitted with
  | false =>
      cases Except.ok.inj h
      exact hbest
  | true =>
      have hnew : Candidate step calcLines accept merged := ⟨i, hi, hmergeAt, hadmitted⟩
      cases best with
      | none =>
          cases Except.ok.inj h
          simpa using hnew
      | some current =>
          obtain ⟨improves, -, h⟩ := bind_ok h
          cases Except.ok.inj h
          cases improves
          · exact hbest
          · simpa using hnew

lemma candidate_of_bestMerged {best : SwapStep}
    (h : step.bestMerged calcLines accept better = .ok (some best)) :
    Candidate step calcLines accept best := by
  have hstep : ∀ found : Option SwapStep, ∀ i ∈ List.range step.len, ∀ found' : Option SwapStep,
      (∀ merged ∈ found, Candidate step calcLines accept merged) →
      step.keepBest calcLines accept better found i = .ok found' →
      ∀ merged ∈ found', Candidate step calcLines accept merged :=
    fun found i hi found' hfound hkeep => keepBest_ok (List.mem_range.mp hi) hfound hkeep
  exact foldlM_ok hstep (by simp) h best rfl

end Best

lemma forall₂_getElem? (h : List.Forall₂ R lines calcLines)
    (hi : i < lines.length) :
    ∃ old line, lines[i]? = some old ∧ calcLines[i]? = some line ∧ R old line := by
  have hi' : i < calcLines.length := h.length_eq ▸ hi
  exact ⟨lines[i], calcLines[i], List.getElem?_eq_getElem hi, List.getElem?_eq_getElem hi',
    (List.forall₂_iff_get.mp h).2 i hi hi'⟩

section Candidates

variable {step merged : SwapStep} {accept : SwapStep → Except (Failure Report) Bool}
  (h : Candidate step calcLines accept merged)

include h

/-- **Candidates** have one line of the working copy in the place of a line of the step. -/
lemma Candidate.exists_set (hR : List.Forall₂ R step.swapLineVec calcLines)
    (hpath : ∀ line calcLine, R line calcLine → SamePath line calcLine) :
    ∃ i old line, step.swapLineVec[i]? = some old ∧ calcLines[i]? = some line ∧ R old line ∧
      merged.swapLineVec = step.swapLineVec.set i line := by
  obtain ⟨i, hi, hmerge, -⟩ := h
  obtain ⟨old, line, hold, hline, hrel⟩ := forall₂_getElem? hR hi
  exact ⟨i, old, line, hold, hline, hrel, mergeAt_some (hR.imp hpath) hline hmerge⟩

/-- The lines of a candidate come from the step or from the working copy. -/
lemma Candidate.forall_line {P : SwapLine → Prop}
    (hcopies : List.Forall₂ SamePath step.swapLineVec calcLines)
    (hstep : ∀ line ∈ step.swapLineVec, P line)
    (hcalc : ∀ line ∈ calcLines, P line) : ∀ line ∈ merged.swapLineVec, P line := by
  obtain ⟨i, old, line, -, hline, -, hset⟩ := h.exists_set hcopies fun _ _ hrel => hrel
  rw [hset]
  intro line' hline'
  rcases List.mem_or_eq_of_mem_set hline' with hmem | rfl
  · exact hstep line' hmem
  · exact hcalc line' (List.mem_of_getElem? hline)

lemma Candidate.copies (hcopies : List.Forall₂ SamePath step.swapLineVec calcLines) :
    List.Forall₂ SamePath merged.swapLineVec calcLines := by
  obtain ⟨i, old, line, -, hline, -, hset⟩ := h.exists_set hcopies fun _ _ hrel => hrel
  rw [hset]
  exact forall₂_set hcopies hline rfl

end Candidates

/-! ## Rounds that go on -/

variable {quotes : PoolQuotes} {increase : U256} {climb next : Climb}

lemma Climb.checked_ok {message : Report} {steps : SwapStep × SwapStep}
    (h : climb.checked message = .ok steps) :
    climb.steps = steps ∧ 0 < arbResult climb.step₀ climb.step₁ := by
  unfold checked at h
  split at h
  · rename_i hpos
    exact ⟨Except.ok.inj h, hpos⟩
  · simp at h

lemma Climb.take_go {calc₀ calc₁ : List SwapLine} {best₀ best₁ : SwapStep}
    (h : climb.take calc₀ calc₁ best₀ best₁ = .go next) :
    next.step₀ = best₀ ∧ next.step₁ = best₁ ∧ next.calc₀ = calc₀ ∧ next.calc₁ = calc₁ := by
  unfold take at h
  split at h
  · cases h
    exact ⟨rfl, rfl, rfl, rfl⟩
  · simp at h

lemma Exit.verdict_go {x : Except Exit (Verdict Climb Report)}
    (h : Exit.verdict x = .ok (.go next)) : x = .ok (.go next) := by
  cases x with
  | error e => cases e <;> exact absurd h (by simp [Exit.verdict])
  | ok verdict => exact congrArg Except.ok (Except.ok.inj h)

/-- **The search from the middle.**  A round that goes on has priced all lines and replaced one of
each step. -/
lemma middleRound_go (h : middleRound quotes increase climb = .ok (.go next)) :
    priceAll (.fail .panic) (priceOut quotes increase) climb.step₀.swapLineVec climb.calc₀ =
        .ok next.calc₀ ∧
      priceAll (.fail .panic) (priceIn quotes increase) climb.step₁.swapLineVec climb.calc₁ =
        .ok next.calc₁ ∧
      Candidate climb.step₀ next.calc₀ (fun _ => .ok true) next.step₀ ∧
      Candidate climb.step₁ next.calc₁ (fun _ => .ok true) next.step₁ := by
  have h := Exit.verdict_go h
  obtain ⟨_, -, h⟩ := bind_ok h
  obtain ⟨_, -, h⟩ := bind_ok h
  obtain ⟨_, -, h⟩ := bind_ok h
  obtain ⟨_, -, h⟩ := bind_ok h
  obtain ⟨calc₀, hcalc₀, h⟩ := bind_ok h
  obtain ⟨calc₁, hcalc₁, h⟩ := bind_ok h
  obtain ⟨best₀, hbest₀, h⟩ := bind_ok h
  obtain ⟨best₁, hbest₁, h⟩ := bind_ok h
  cases best₀ with
  | none => simp [pure, Except.pure] at h
  | some best₀ =>
      cases best₁ with
      | none => simp [pure, Except.pure] at h
      | some best₁ =>
          obtain ⟨rfl, rfl, rfl, rfl⟩ := Climb.take_go (Except.ok.inj h)
          exact ⟨hcalc₀, hcalc₁, candidate_of_bestMerged (Exit.lift_ok hbest₀),
            candidate_of_bestMerged (Exit.lift_ok hbest₁)⟩

/-- **The search from the start.**  A round stops to be checked, or it has chosen a first step that
takes the increase and a second one that spends what that one delivers. -/
lemma inRound_cases {verdict : Verdict Climb Report}
    (h : inRound quotes increase climb = .ok verdict) :
    (∃ message, verdict = .check message) ∨
      ∃ calc₀ calc₁ best₀ best₁ inAmount₁ outAmount₀,
        verdict = climb.take calc₀ calc₁ best₀ best₁ ∧ climb.step₁.getInAmount = .ok inAmount₁ ∧
        best₀.getOutAmount = .ok outAmount₀ ∧
        priceAll .panic (priceMore quotes increase) climb.step₀.swapLineVec climb.calc₀ =
          .ok calc₀ ∧
        priceAll .panic (priceMore quotes (outAmount₀ - inAmount₁)) climb.step₁.swapLineVec
          climb.calc₁ = .ok calc₁ ∧
        Candidate climb.step₀ calc₀ (takesMore climb.step₀ increase) best₀ ∧
        Candidate climb.step₁ calc₁ (spends best₀) best₁ := by
  obtain ⟨_, -, h⟩ := bind_ok h
  obtain ⟨_, -, h⟩ := bind_ok h
  obtain ⟨inAmount₁, hinAmount₁, h⟩ := bind_ok h
  obtain ⟨_, -, h⟩ := bind_ok h
  obtain ⟨calc₀, hcalc₀, h⟩ := bind_ok h
  obtain ⟨best₀, hbest₀, h⟩ := bind_ok h
  cases best₀ with
  | none => exact Or.inl ⟨_, (Except.ok.inj h).symm⟩
  | some best₀ =>
      obtain ⟨outAmount₀, houtAmount₀, h⟩ := bind_ok h
      obtain ⟨calc₁, hcalc₁, h⟩ := bind_ok h
      obtain ⟨best₁, hbest₁, h⟩ := bind_ok h
      cases best₁ with
      | none => exact Or.inl ⟨_, (Except.ok.inj h).symm⟩
      | some best₁ =>
          exact Or.inr ⟨calc₀, calc₁, best₀, best₁, inAmount₁, outAmount₀, (Except.ok.inj h).symm,
            Failure.lift_ok hinAmount₁, Failure.lift_ok houtAmount₀, hcalc₀, hcalc₁,
            candidate_of_bestMerged hbest₀, candidate_of_bestMerged hbest₁⟩

lemma inRound_go (h : inRound quotes increase climb = .ok (.go next)) :
    ∃ inAmount₁ outAmount₀, climb.step₁.getInAmount = .ok inAmount₁ ∧
      next.step₀.getOutAmount = .ok outAmount₀ ∧
      priceAll .panic (priceMore quotes increase) climb.step₀.swapLineVec climb.calc₀ =
        .ok next.calc₀ ∧
      priceAll .panic (priceMore quotes (outAmount₀ - inAmount₁)) climb.step₁.swapLineVec
        climb.calc₁ = .ok next.calc₁ ∧
      Candidate climb.step₀ next.calc₀ (takesMore climb.step₀ increase) next.step₀ ∧
      Candidate climb.step₁ next.calc₁ (spends next.step₀) next.step₁ := by
  rcases inRound_cases h with ⟨message, hcheck⟩ |
    ⟨calc₀, calc₁, best₀, best₁, inAmount₁, outAmount₀, htake, hround⟩
  · simp at hcheck
  · obtain ⟨rfl, rfl, rfl, rfl⟩ := Climb.take_go htake.symm
    exact ⟨inAmount₁, outAmount₀, hround⟩

/-! ## The start -/

lemma splitIn_ok {step split : SwapStep} {outAmount₀ outAmount₁ : U256}
    (h : step.splitIn outAmount₀ outAmount₁ = .ok split) :
    List.Forall₂ (fun line line' : SwapLine => ∃ outAmount, line.amountOut = .set outAmount ∧
      line' = { line with amountIn := .set (outAmount₀ * outAmount / outAmount₁) })
      step.swapLineVec split.swapLineVec := by
  unfold splitIn at h
  split at h
  · simp at h
  · rename_i lines hlines
    cases Except.ok.inj h
    exact (forall₂_of_mapM hlines).imp fun _ _ => splitLine_some

lemma middleStart_ok {step₀ step₁ : SwapStep} {amount : Option U256}
    (h : middleStart quotes step₀ step₁ amount = .ok (increase, climb)) :
    ∃ middle outAmount₀ outAmount₁ split,
      (step₀.calculateWithInAmount quotes amount).1 = .ok middle ∧
      (step₀.calculateWithInAmount quotes amount).2.getOutAmount = .ok outAmount₀ ∧
      step₁.getOutAmount = .ok outAmount₁ ∧ step₁.splitIn outAmount₀ outAmount₁ = .ok split ∧
      increase = climbStep middle.1 ∧ climb = .start (step₀.calculateWithInAmount quotes amount).2
        (split.calculateWithInAmount quotes none).2 := by
  obtain ⟨middle, hmiddle, h⟩ := bind_ok h
  obtain ⟨outAmount₀, hout₀, h⟩ := bind_ok h
  obtain ⟨outAmount₁, hout₁, h⟩ := bind_ok h
  obtain ⟨split, hsplit, h⟩ := bind_ok h
  obtain ⟨_, -, h⟩ := bind_ok h
  obtain ⟨hincrease, hclimb⟩ := Prod.mk.inj (Except.ok.inj h)
  exact ⟨middle, outAmount₀, outAmount₁, split, hmiddle, Failure.lift_ok hout₀,
    Failure.lift_ok hout₁, hsplit, hincrease.symm, hclimb.symm⟩

lemma inStart_ok {step₀ step₁ : SwapStep} {amount : Option U256}
    (h : inStart quotes step₀ step₁ amount = .ok (increase, climb)) :
    ∃ answer₀ outAmount₀ outAmount₁ split answer₁,
      (step₀.calculateWithInAmount quotes amount).1 = .ok answer₀ ∧
      (step₀.calculateWithInAmount quotes amount).2.getOutAmount = .ok outAmount₀ ∧
      step₁.getOutAmount = .ok outAmount₁ ∧ step₁.splitIn outAmount₀ outAmount₁ = .ok split ∧
      (split.calculateWithInAmount quotes none).1 = .ok answer₁ ∧
      climb = .start (step₀.calculateWithInAmount quotes amount).2
        (split.calculateWithInAmount quotes none).2 := by
  obtain ⟨answer₀, hanswer₀, h⟩ := bind_ok h
  obtain ⟨_, -, h⟩ := bind_ok h
  obtain ⟨outAmount₀, hout₀, h⟩ := bind_ok h
  obtain ⟨outAmount₁, hout₁, h⟩ := bind_ok h
  obtain ⟨split, hsplit, h⟩ := bind_ok h
  obtain ⟨answer₁, hanswer₁, h⟩ := bind_ok h
  obtain ⟨-, hclimb⟩ := Prod.mk.inj (Except.ok.inj h)
  exact ⟨answer₀, outAmount₀, outAmount₁, split, answer₁, hanswer₀, Failure.lift_ok hout₀,
    Failure.lift_ok hout₁, hsplit, hanswer₁, hclimb.symm⟩

end SwapStep

end Kabu
