import Kabu.Framework.Rounds
import Kabu.Market.SwapStep

/-!
# Optimising two swap steps

Of two steps, the second spends what the first delivers.  Given an amount to start with, the
amounts of the two are moved up together, a twentieth at a time, for as long as the profit grows.

There are two searches.  One fixes how much more the first step is to deliver and asks its pools
what they want for it; the other fixes how much more goes in and asks what is delivered.  In both a
round prices every line of a step with the larger amount in a working copy, tries the step with each
single line replaced by its copy, and keeps the best of them (`bestMerged`).  The new pair of steps
is taken if it is better than the best so far, or if there is no best yet.

Both searches are loops of at most 30 rounds (`Rounds.run`) over a `Climb`.  The working copies live
from round to round, and an amount whose calculation fails is replaced by a placeholder: the largest
word for what a line wants, zero for what it gives.
-/

namespace Kabu

open Rounds

namespace SwapStep

/-- The state of a search: the steps, the lines of their working copies, and the best profit. -/
structure Climb where
  step₀ : SwapStep
  step₁ : SwapStep
  calc₀ : List SwapLine
  calc₁ : List SwapLine
  bestProfit : Option ℤ

namespace Climb

/-- The working copies start as the steps, and a profit counts if it is positive. -/
def start (step₀ step₁ : SwapStep) : Climb where
  step₀ := step₀
  step₁ := step₁
  calc₀ := step₀.swapLineVec
  calc₁ := step₁.swapLineVec
  bestProfit := if 0 < arbResult step₀ step₁ then some (arbResult step₀ step₁) else none

def steps (climb : Climb) : SwapStep × SwapStep := (climb.step₀, climb.step₁)

/-- Return the steps if there is a profit. -/
def checked (message : Report) (climb : Climb) : Except (Failure Report) (SwapStep × SwapStep) :=
  if 0 < arbResult climb.step₀ climb.step₁ then .ok climb.steps else .error (.error message)

/-- Go on with two new steps if they are better. -/
def take (climb : Climb) (calc₀ calc₁ : List SwapLine) (best₀ best₁ : SwapStep) :
    Verdict Climb Report :=
  if climb.bestProfit.all fun profit => decide (profit < arbResult best₀ best₁) then
    .go ⟨best₀, best₁, calc₀, calc₁, some (arbResult best₀ best₁)⟩
  else .check "CANNOT_OPTIMIZE_SWAP_STEP"

end Climb

/-! ## Candidates -/

/-- The loop over a working copy, beside the lines of the step it belongs to. -/
def priceAll {E : Type} (outOfBounds : E) (price : SwapLine → SwapLine → Except E SwapLine) :
    List SwapLine → List SwapLine → Except E (List SwapLine)
  | _, [] => .ok []
  | [], _ :: _ => .error outOfBounds
  | line :: lines, calcLine :: calcLines => do
      let priced ← price line calcLine
      let rest ← priceAll outOfBounds price lines calcLines
      return priced :: rest

/-- Add the line at an index, from the working copy at the index that is replaced. -/
def mergeLine (step : SwapStep) (calcLines : List SwapLine) (i : ℕ) (merged : SwapStep) (ci : ℕ) :
    Option SwapStep :=
  (if ci = i then calcLines[ci]? else step.swapLineVec[ci]?).bind merged.add

def mergeAt (step : SwapStep) (calcLines : List SwapLine) (i : ℕ) : Option SwapStep :=
  (List.range step.len).foldlM (step.mergeLine calcLines i) (SwapStep.new step.swapTo)

/-- Keep the merged step if it is admitted, and the first or better than the best so far. -/
def keepBest (step : SwapStep) (calcLines : List SwapLine)
    (accept : SwapStep → Except (Failure Report) Bool)
    (better : SwapStep → SwapStep → Except (Failure Report) Bool) (best : Option SwapStep) (i : ℕ) :
    Except (Failure Report) (Option SwapStep) := do
  let merged ← Failure.ofOption (step.mergeAt calcLines i)
  let admitted ← accept merged
  match admitted, best with
  | false, best => return best
  | true, none => return some merged
  | true, some current =>
      let improves ← better current merged
      return if improves then some merged else some current

/-- The best of the merged steps. -/
def bestMerged (step : SwapStep) (calcLines : List SwapLine)
    (accept : SwapStep → Except (Failure Report) Bool)
    (better : SwapStep → SwapStep → Except (Failure Report) Bool) :
    Except (Failure Report) (Option SwapStep) :=
  (List.range step.len).foldlM (step.keepBest calcLines accept better) none

def needsLess (best merged : SwapStep) : Except (Failure Report) Bool := do
  let bestIn ← Failure.lift best.getInAmount
  let mergedIn ← Failure.lift merged.getInAmount
  return decide (mergedIn < bestIn)

def deliversMore (best merged : SwapStep) : Except (Failure Report) Bool := do
  let bestOut ← Failure.lift best.getOutAmount
  let mergedOut ← Failure.lift merged.getOutAmount
  return decide (bestOut < mergedOut)

/-! ## The start -/

def splitLine (outAmount₀ outAmount₁ : U256) (line : SwapLine) : Option SwapLine := do
  let outAmount ← line.amountOut.unwrap
  if outAmount₁ = 0 then none
  else some { line with amountIn := .set (outAmount₀ * outAmount / outAmount₁) }

lemma splitLine_some {outAmount₀ outAmount₁ : U256} {line line' : SwapLine}
    (h : splitLine outAmount₀ outAmount₁ line = some line') :
    ∃ outAmount, line.amountOut = .set outAmount ∧
      line' = { line with amountIn := .set (outAmount₀ * outAmount / outAmount₁) } := by
  obtain ⟨outAmount, hout, hline⟩ := Option.bind_eq_some_iff.mp h
  refine ⟨outAmount, SwapAmountType.unwrap_eq_some_iff.mp hout, ?_⟩
  split at hline
  · simp at hline
  · exact (Option.some.inj hline).symm

lemma path_mapM_splitLine {outAmount₀ outAmount₁ : U256} {lines lines' : List SwapLine}
    (h : lines.mapM (splitLine outAmount₀ outAmount₁) = some lines') :
    lines'.map SwapLine.path = lines.map SwapLine.path := by
  have hlines := forall₂_of_mapM h
  clear h
  induction hlines with
  | nil => rfl
  | cons hline _ ih =>
      obtain ⟨outAmount, -, rfl⟩ := splitLine_some hline
      rw [List.map_cons, List.map_cons, ih]

/-- Spend what the first step delivers in the proportions of what the lines delivered before.  It
panics if that was nothing. -/
def splitIn (step : SwapStep) (outAmount₀ outAmount₁ : U256) : Except (Failure Report) SwapStep :=
  match h : step.swapLineVec.mapM (splitLine outAmount₀ outAmount₁) with
  | none => .error .panic
  | some lines => .ok (step.withLines lines (path_mapM_splitLine h))

/-- A twentieth. -/
def climbStep (amount : U256) : U256 := amount * 500 / 10000

def checkedAdd (x y : U256) : Option U256 :=
  if x.toNat + y.toNat < 2 ^ 256 then some (x + y) else none

/-- The placeholder for what a line wants. -/
def maxAmount : U256 := BitVec.allOnes 256

/-! ## The search from the amount between the steps -/

/-- How a round of this search ends before its end: by a return of the steps from inside a loop, or
because something fails. -/
inductive Exit
  | leave
  | fail (failure : Failure Report)

namespace Exit

def lift {α : Type} : Except (Failure Report) α → Except Exit α
  | .ok a => .ok a
  | .error failure => .error (.fail failure)

def verdict : Except Exit (Verdict Climb Report) → Except (Failure Report) (Verdict Climb Report)
  | .ok verdict => .ok verdict
  | .error .leave => .ok .leave
  | .error (.fail failure) => .error failure

end Exit

/-- Price a line of the first step for more that it is to deliver.  A line that delivers no more
than the increase ends the search. -/
def priceOut (quotes : PoolQuotes) (increase : U256) (line calcLine : SwapLine) :
    Except Exit SwapLine := do
  let amountOut ← Exit.lift (Failure.ofOption line.amountOut.unwrap)
  if amountOut ≤ increase then throw .leave
  else
    match checkedAdd amountOut increase with
    | some newAmountOut =>
        let calcOut ← Exit.lift (Failure.ofOption calcLine.amountOut.unwrap)
        if calcOut ≠ newAmountOut then
          let result ← Exit.lift (Failure.unwrapOr ⟨maxAmount, 0, []⟩
            (calcLine.calculateWithOutAmount quotes newAmountOut))
          return { calcLine with
            amountIn := .set result.amount
            amountOut := .set newAmountOut
            gasUsed := some result.gasUsed
            calculationResults := result.calculationResults }
        else return calcLine
    | none => return { calcLine with amountIn := .set maxAmount }

/-- Price a line of the second step for more that it is to spend. -/
def priceIn (quotes : PoolQuotes) (increase : U256) (line calcLine : SwapLine) :
    Except Exit SwapLine := do
  let amountIn ← Exit.lift (Failure.ofOption line.amountIn.unwrap)
  if amountIn ≤ increase ∨ amountIn = maxAmount then throw .leave
  else
    match checkedAdd amountIn increase with
    | some newAmountIn =>
        let calcIn ← Exit.lift (Failure.ofOption calcLine.amountIn.unwrap)
        if calcIn ≠ newAmountIn then
          let result ← Exit.lift (Failure.unwrapOr ⟨0, 0, []⟩
            (calcLine.calculateWithInAmount quotes newAmountIn))
          return { calcLine with
            amountIn := .set newAmountIn
            amountOut := .set result.amount
            gasUsed := some result.gasUsed }
        else return calcLine
    | none => return { calcLine with amountOut := .set 0 }

def middleRound (quotes : PoolQuotes) (increase : U256) (climb : Climb) :
    Except (Failure Report) (Verdict Climb Report) :=
  Exit.verdict do
    let _ ← Exit.lift (Failure.lift climb.step₀.getInAmount)
    let _ ← Exit.lift (Failure.lift climb.step₀.getOutAmount)
    let _ ← Exit.lift (Failure.lift climb.step₁.getInAmount)
    let _ ← Exit.lift (Failure.lift climb.step₁.getOutAmount)
    let calc₀ ← priceAll (.fail .panic) (priceOut quotes increase) climb.step₀.swapLineVec
      climb.calc₀
    let calc₁ ← priceAll (.fail .panic) (priceIn quotes increase) climb.step₁.swapLineVec
      climb.calc₁
    let best₀ ← Exit.lift (bestMerged climb.step₀ calc₀ (fun _ => .ok true) needsLess)
    let best₁ ← Exit.lift (bestMerged climb.step₁ calc₁ (fun _ => .ok true) deliversMore)
    match best₀, best₁ with
    | some best₀, some best₁ => return climb.take calc₀ calc₁ best₀ best₁
    | _, _ => return .check "CANNOT_OPTIMIZE_SWAP_STEP"

/-- The increase and the first state.  That the second step cannot be calculated is ignored. -/
def middleStart (quotes : PoolQuotes) (step₀ step₁ : SwapStep) (middleAmount : Option U256) :
    Except (Failure Report) (U256 × Climb) := do
  let middle ← (step₀.calculateWithInAmount quotes middleAmount).1
  let step₀ := (step₀.calculateWithInAmount quotes middleAmount).2
  let outAmount₀ ← Failure.lift step₀.getOutAmount
  let outAmount₁ ← Failure.lift step₁.getOutAmount
  let split ← step₁.splitIn outAmount₀ outAmount₁
  let _ ← (Failure.unwrapOr (0, 0) (split.calculateWithInAmount quotes none).1 :
    Except (Failure Report) (U256 × UInt64))
  return (climbStep middle.1, .start step₀ (split.calculateWithInAmount quotes none).2)

def optimizeWithMiddleAmount (quotes : PoolQuotes) (step₀ step₁ : SwapStep)
    (middleAmount : Option U256) : Except (Failure Report) (SwapStep × SwapStep) := do
  let start ← middleStart quotes step₀ step₁ middleAmount
  run (middleRound quotes start.1) Climb.steps Climb.checked "TOO_MANY_STEPS" 30 start.2

/-! ## The search from the amount that goes in -/

/-- Price a line for more that goes in, unless what goes in is no more than the increase. -/
def priceMore (quotes : PoolQuotes) (increase : U256) (line calcLine : SwapLine) :
    Except (Failure Report) SwapLine := do
  let amountIn ← Failure.ofOption line.amountIn.unwrap
  if increase < amountIn then
    let calcIn ← Failure.ofOption calcLine.amountIn.unwrap
    if calcIn ≠ amountIn - increase then
      let result ← Failure.unwrapOr ⟨0, 0, []⟩
        (calcLine.calculateWithInAmount quotes (amountIn + increase))
      return { calcLine with
        amountIn := .set (amountIn + increase)
        amountOut := .set result.amount
        gasUsed := some result.gasUsed
        calculationResults := result.calculationResults }
    else return calcLine
  else return calcLine

/-- The merged step takes just the increase more. -/
def takesMore (step : SwapStep) (increase : U256) (merged : SwapStep) :
    Except (Failure Report) Bool := do
  let inAmount ← Failure.lift step.getInAmount
  if inAmount < increase then return false
  else
    let mergedIn ← Failure.lift merged.getInAmount
    return decide (mergedIn = inAmount + increase)

/-- The merged step spends just what the other delivers. -/
def spends (best₀ merged : SwapStep) : Except (Failure Report) Bool := do
  let mergedIn ← Failure.lift merged.getInAmount
  let outAmount ← Failure.lift best₀.getOutAmount
  return decide (mergedIn = outAmount)

def inRound (quotes : PoolQuotes) (increase : U256) (climb : Climb) :
    Except (Failure Report) (Verdict Climb Report) := do
  let _ ← Failure.lift climb.step₀.getInAmount
  let _ ← Failure.lift climb.step₀.getOutAmount
  let inAmount₁ ← Failure.lift climb.step₁.getInAmount
  let _ ← Failure.lift climb.step₁.getOutAmount
  let calc₀ ← priceAll .panic (priceMore quotes increase) climb.step₀.swapLineVec climb.calc₀
  let best₀ ← bestMerged climb.step₀ calc₀ (takesMore climb.step₀ increase) deliversMore
  match best₀ with
  | none => return .check "OPTIMIZATION_FAILED"
  | some best₀ =>
      let outAmount₀ ← Failure.lift best₀.getOutAmount
      let calc₁ ← priceAll .panic (priceMore quotes (outAmount₀ - inAmount₁))
        climb.step₁.swapLineVec climb.calc₁
      let best₁ ← bestMerged climb.step₁ calc₁ (spends best₀) deliversMore
      match best₁ with
      | none => return .check "CANNOT_OPTIMIZE_SWAP_STEP"
      | some best₁ => return climb.take calc₀ calc₁ best₀ best₁

def inStart (quotes : PoolQuotes) (step₀ step₁ : SwapStep) (inAmount : Option U256) :
    Except (Failure Report) (U256 × Climb) := do
  let _ ← (step₀.calculateWithInAmount quotes inAmount).1
  let step₀ := (step₀.calculateWithInAmount quotes inAmount).2
  let inAmount ← Failure.lift step₀.getInAmount
  let outAmount₀ ← Failure.lift step₀.getOutAmount
  let outAmount₁ ← Failure.lift step₁.getOutAmount
  let split ← step₁.splitIn outAmount₀ outAmount₁
  let _ ← (split.calculateWithInAmount quotes none).1
  return (climbStep inAmount, .start step₀ (split.calculateWithInAmount quotes none).2)

def optimizeWithInAmount (quotes : PoolQuotes) (step₀ step₁ : SwapStep) (inAmount : Option U256) :
    Except (Failure Report) (SwapStep × SwapStep) := do
  let start ← inStart quotes step₀ step₁ inAmount
  run (inRound quotes start.1) Climb.steps Climb.checked "TOO_MANY_STEPS" 30 start.2

def optimizeSwapSteps (quotes : PoolQuotes) (step₀ step₁ : SwapStep) (middleAmount : Option U256) :
    Except (Failure Report) (SwapStep × SwapStep) :=
  if step₀.canCalculateInAmount quotes then
    optimizeWithMiddleAmount quotes step₀ step₁ middleAmount
  else optimizeWithInAmount quotes step₀ step₁ middleAmount

end SwapStep

end Kabu
