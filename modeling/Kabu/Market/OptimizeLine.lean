import Kabu.Framework.Turns
import Kabu.Market.SwapLine

/-!
# Optimising one swap line

The amount that goes into a line is moved, for at most 30 rounds, for as long as the profit grows:
first up, tenfold and then by smaller and smaller shares of the amount, and near the end also down.
Each round calculates the line for the next amount and compares the profit with the best so far.  A
line that cannot be calculated is an error in the first round; later it counts as one that delivers
nothing.

A round whose profit is no worse is taken, and the line gets its four fields from it.  Of the rounds
that are not taken, most make the steps smaller or turn the direction.  The one that turns from down
to up also replaces the best profit by its own, although the line keeps its amounts.

Profits are signed words, as in the source, and are compared as such.
-/

namespace Kabu

open Turns

/-- The local variables of the search, with the line it writes to. -/
structure LineSearch where
  line : SwapLine
  currentInAmount : U256
  bestProfit : Option U256
  currentStep : U256
  incDirection : Bool
  firstStepChange : Bool
  nextAmount : U256
  prevInAmount : U256

namespace LineSearch

def start (line : SwapLine) (inAmount : U256) : LineSearch where
  line := line
  currentInAmount := inAmount
  bestProfit := none
  currentStep := 10000
  incDirection := true
  firstStepChange := false
  nextAmount := inAmount
  prevInAmount := 0

def denominator : U256 := 1000

/-- Calculate the line for the next amount.  Only the first round may fail. -/
def probe (quotes : PoolQuotes) (counter : ℕ) (search : LineSearch) :
    Except (Failure SwapError) Calculation :=
  match search.line.calculateWithInAmount quotes search.nextAmount with
  | .ok ret => .ok ret
  | .error (.error e) => if counter = 1 then .error (.error e) else .ok ⟨0, 0, []⟩
  | .error .panic => .error .panic

/-- The profit of the next amount, as a signed word. -/
def currentProfit (search : LineSearch) (probed : Calculation) : U256 :=
  probed.amount - search.nextAmount

def take (search : LineSearch) (probed : Calculation) : LineSearch :=
  { search with
    bestProfit := some (search.currentProfit probed)
    line := { search.line with
      amountIn := .set search.nextAmount
      amountOut := .set probed.amount
      gasUsed := some probed.gasUsed
      calculationResults := probed.calculationResults }
    currentInAmount := search.nextAmount }

/-- The end of a round: the next amount. -/
def advance (search : LineSearch) : LineSearch :=
  { search with
    prevInAmount := search.currentInAmount
    nextAmount :=
      if search.incDirection then
        search.currentInAmount + search.currentInAmount * search.currentStep / denominator
      else search.currentInAmount - search.currentInAmount * search.currentStep / denominator }

/-- Smaller steps; with steps of a thousandth the search ends. -/
def refine (search : LineSearch) : Turn LineSearch :=
  let search := { search with
    currentStep := search.currentStep / 10
    firstStepChange := true }
  if search.currentStep = 1 then .stop search else .go search.advance

/-- A round that is not taken. -/
def reject (search : LineSearch) (probed : Calculation) : Turn LineSearch :=
  if search.firstStepChange && search.incDirection && decide (search.currentStep < denominator) then
    .go { search with
      incDirection := false
      currentInAmount := search.prevInAmount
      firstStepChange := true }.advance
  else if search.firstStepChange && !search.incDirection then
    { search with
      incDirection := true
      bestProfit := some (search.currentProfit probed) }.refine
  else search.refine

/-- What a round does with its calculation. -/
def decideOn (search : LineSearch) (probed : Calculation) : Turn LineSearch :=
  match search.bestProfit with
  | none =>
      if probed.amount = 0 ∨ (search.currentProfit probed).toInt < 0 then
        .stop (search.take probed)
      else .go (search.take probed).advance
  | some bestProfit =>
      if (search.currentProfit probed).toInt < bestProfit.toInt ∨ probed.amount = 0 then
        search.reject probed
      else .go { search.take probed with firstStepChange := false }.advance

def round (quotes : PoolQuotes) (counter : ℕ) (search : LineSearch) :
    Except (Failure SwapError) (Turn LineSearch) :=
  (search.probe quotes counter).map search.decideOn

/-! ## What a round can do -/

/-- The round is taken, which needs a profit that is not below the best. -/
structure Taken (search : LineSearch) (probed : Calculation) (next : LineSearch) : Prop where
  line : next.line = (search.take probed).line
  best : next.bestProfit = some (search.currentProfit probed)
  current : next.currentInAmount = search.nextAmount
  step : next.currentStep = search.currentStep
  direction : next.incDirection = search.incDirection
  notWorse : ∀ best, search.bestProfit = some best →
    best.toInt ≤ (search.currentProfit probed).toInt ∧ probed.amount ≠ 0

/-- The steps get smaller.  If the direction turns from down to up, the best profit becomes the
profit of the round. -/
def Refined (search : LineSearch) (probed : Calculation) (best : U256) (next : LineSearch) : Prop :=
  next.currentStep = search.currentStep / 10 ∧ next.currentInAmount = search.currentInAmount ∧
    (next.incDirection = search.incDirection ∧ next.bestProfit = some best ∨
      search.incDirection = false ∧ next.incDirection = true ∧
        next.bestProfit = some (search.currentProfit probed))

/-- The direction turns from up to down. -/
def TurnedDown (search : LineSearch) (best : U256) (next : LineSearch) : Prop :=
  search.currentStep < denominator ∧ next.currentStep = search.currentStep ∧
    next.currentInAmount = search.prevInAmount ∧ next.incDirection = false ∧
    next.bestProfit = some best

/-- The round is not taken. -/
structure Rejected (search : LineSearch) (probed : Calculation) (best : U256)
    (next : LineSearch) : Prop where
  had : search.bestProfit = some best
  worse : (search.currentProfit probed).toInt < best.toInt ∨ probed.amount = 0
  line : next.line = search.line
  move : TurnedDown search best next ∨ Refined search probed best next

/-- A turn that stops, or chooses the next amount with steps that are not yet a thousandth. -/
def Ends (search next : LineSearch) (turn : Turn LineSearch) : Prop :=
  turn = .stop next ∨
    turn = .go next.advance ∧ (next.currentStep = search.currentStep ∨ next.currentStep ≠ 1)

lemma refine_cases (search : LineSearch) :
    ∃ next : LineSearch, Ends search next search.refine ∧ next.line = search.line ∧
      next.bestProfit = search.bestProfit ∧ next.incDirection = search.incDirection ∧
      next.currentInAmount = search.currentInAmount ∧
      next.currentStep = search.currentStep / 10 := by
  unfold refine
  dsimp only
  split
  · exact ⟨_, Or.inl rfl, rfl, rfl, rfl, rfl, rfl⟩
  · rename_i hstep
    exact ⟨_, Or.inr ⟨rfl, Or.inr hstep⟩, rfl, rfl, rfl, rfl, rfl⟩

variable {probed : Calculation} {search : LineSearch}

lemma reject_cases {best : U256} (hbest : search.bestProfit = some best)
    (hworse : (search.currentProfit probed).toInt < best.toInt ∨ probed.amount = 0) :
    ∃ next : LineSearch, Ends search next (search.reject probed) ∧
      Rejected search probed best next := by
  unfold reject
  split
  · rename_i hturn
    simp only [Bool.and_eq_true, decide_eq_true_eq] at hturn
    exact ⟨_, Or.inr ⟨rfl, Or.inl rfl⟩, hbest, hworse, rfl, Or.inl ⟨hturn.2, rfl, rfl, rfl, hbest⟩⟩
  · split
    · rename_i hturn
      simp only [Bool.and_eq_true, Bool.not_eq_true'] at hturn
      obtain ⟨next, hends, hline, hlowered, hdirection, hcurrent, hstep⟩ := refine_cases
        { search with
          incDirection := true
          bestProfit := some (search.currentProfit probed) }
      exact ⟨next, hends, hbest, hworse, hline,
        Or.inr ⟨hstep, hcurrent, Or.inr ⟨hturn.2, hdirection, hlowered⟩⟩⟩
    · obtain ⟨next, hends, hline, hsame, hdirection, hcurrent, hstep⟩ := refine_cases search
      exact ⟨next, hends, hbest, hworse, hline,
        Or.inr ⟨hstep, hcurrent, Or.inl ⟨hdirection, hsame.trans hbest⟩⟩⟩

/-- **A round** is taken or not, and it stops or chooses the next amount. -/
lemma decideOn_cases (search : LineSearch) (probed : Calculation) :
    ∃ next : LineSearch, Ends search next (search.decideOn probed) ∧
      (Taken search probed next ∨ ∃ best, Rejected search probed best next) := by
  unfold decideOn
  cases hbest : search.bestProfit with
  | none =>
      have htaken : Taken search probed (search.take probed) :=
        ⟨rfl, rfl, rfl, rfl, rfl, fun best h => absurd (hbest.symm.trans h) (by simp)⟩
      dsimp only
      split
      · exact ⟨_, Or.inl rfl, Or.inl htaken⟩
      · exact ⟨_, Or.inr ⟨rfl, Or.inl rfl⟩, Or.inl htaken⟩
  | some best =>
      dsimp only
      split
      · rename_i hworse
        obtain ⟨next, hends, hrejected⟩ := reject_cases hbest hworse
        exact ⟨next, hends, Or.inr ⟨best, hrejected⟩⟩
      · rename_i hnot
        obtain ⟨hprofit, hamount⟩ := not_or.mp hnot
        refine ⟨_, Or.inr ⟨rfl, Or.inl rfl⟩, Or.inl ⟨rfl, rfl, rfl, rfl, rfl, fun best' h => ?_⟩⟩
        cases Option.some.inj (hbest.symm.trans h)
        exact ⟨Int.not_lt.mp hprofit, hamount⟩

lemma Rejected.bestProfit_ne_none {search next : LineSearch} {best : U256}
    (h : Rejected search probed best next) : next.bestProfit ≠ none := by
  rcases h.move with hdown | ⟨-, -, hsame | hlowered⟩
  · rw [hdown.2.2.2.2]
    simp
  · rw [hsame.2]
    simp
  · rw [hlowered.2.2]
    simp

lemma round_ok {quotes : PoolQuotes} {counter : ℕ} {turn : Turn LineSearch}
    (h : search.round quotes counter = .ok turn) :
    ∃ probed, search.probe quotes counter = .ok probed ∧ turn = search.decideOn probed := by
  unfold round at h
  cases hprobe : search.probe quotes counter with
  | error e =>
      rw [hprobe] at h
      cases h
  | ok probed =>
      rw [hprobe] at h
      exact ⟨probed, rfl, (Except.ok.inj h).symm⟩

lemma probe_ok {quotes : PoolQuotes} {counter : ℕ} (h : search.probe quotes counter = .ok probed) :
    search.line.calculateWithInAmount quotes search.nextAmount = .ok probed ∨
      probed = ⟨0, 0, []⟩ ∧ counter ≠ 1 ∧
        ∃ e, search.line.calculateWithInAmount quotes search.nextAmount = .error (.error e) := by
  unfold probe at h
  cases hquote : search.line.calculateWithInAmount quotes search.nextAmount with
  | ok ret =>
      rw [hquote] at h
      exact Or.inl h
  | error failure =>
      rw [hquote] at h
      cases failure with
      | panic => cases h
      | error e =>
          dsimp only at h
          split at h
          · cases h
          · rename_i hcounter
            exact Or.inr ⟨(Except.ok.inj h).symm, hcounter, e, rfl⟩

/-! ## The first round -/

section First

variable {quotes : PoolQuotes} {line : SwapLine} {inAmount : U256}

lemma runTurns_of_error {failure : Failure SwapError}
    (h : line.calculateWithInAmount quotes inAmount = .error failure) :
    runTurns (round quotes) 30 1 (start line inAmount) = (start line inAmount, .error failure) := by
  have hprobe : (start line inAmount).probe quotes 1 = .error failure := by
    unfold probe start
    dsimp only
    rw [h]
    cases failure <;> rfl
  have hround : round quotes 1 (start line inAmount) = .error failure := by
    unfold round
    rw [hprobe]
    rfl
  rw [runTurns, hround]

/-- A first calculation that succeeds is taken.  The search ends at once if it makes a loss. -/
lemma runTurns_of_ok (h : line.calculateWithInAmount quotes inAmount = .ok probed) :
    runTurns (round quotes) 30 1 (start line inAmount) =
          ((start line inAmount).take probed, .ok ()) ∧
        turnStates (round quotes) 30 1 (start line inAmount) = [start line inAmount] ∨
      probed.amount ≠ 0 ∧ 0 ≤ ((start line inAmount).currentProfit probed).toInt ∧
        runTurns (round quotes) 30 1 (start line inAmount) =
          runTurns (round quotes) 29 2 ((start line inAmount).take probed).advance ∧
        turnStates (round quotes) 30 1 (start line inAmount) = start line inAmount ::
          turnStates (round quotes) 29 2 ((start line inAmount).take probed).advance := by
  have hprobe : (start line inAmount).probe quotes 1 = .ok probed := by
    unfold probe start
    dsimp only
    rw [h]
  have hround : round quotes 1 (start line inAmount) =
      .ok ((start line inAmount).decideOn probed) := by
    unfold round
    rw [hprobe]
    rfl
  rw [runTurns, turnStates, hround]
  by_cases hstop : probed.amount = 0 ∨ ((start line inAmount).currentProfit probed).toInt < 0
  · left
    have hdecide : (start line inAmount).decideOn probed =
        .stop ((start line inAmount).take probed) := if_pos hstop
    rw [hdecide]
    exact ⟨rfl, rfl⟩
  · right
    have hdecide : (start line inAmount).decideOn probed =
        .go ((start line inAmount).take probed).advance := if_neg hstop
    rw [hdecide]
    obtain ⟨hamount, hprofit⟩ := not_or.mp hstop
    exact ⟨hamount, Int.not_lt.mp hprofit, rfl, rfl⟩

end First

end LineSearch

/-- The line after the search, and whether the search succeeds. -/
def SwapLine.optimizeWithInAmount (quotes : PoolQuotes) (line : SwapLine) (inAmount : U256) :
    SwapLine × Except (Failure SwapError) Unit :=
  let finished := runTurns (LineSearch.round quotes) 30 1 (LineSearch.start line inAmount)
  (finished.1.line, finished.2)

end Kabu
