import Kabu.Properties.Funding

/-!
# What a search may return

The steps that a search returns should be worth sending: the two amounts of every line should belong
together, so that a pool has answered one of them for the other, and the second step should deliver
more than the first takes (`SoundSteps`).  The code does not always see to it.  A calculation of the
second step that fails is ignored at the start of the search from the middle, and its lines keep the
amounts they had; a line whose price cannot be calculated gets a placeholder, and as sums of amounts
are sums of words, the largest word is a cheap price for a line beside others; and the search from
the middle has ways out on which the profit is not looked at.

`SoundSearch` says that a search meets none of this.  It speaks about the rounds of the search one
by one: where a round leaves, the check of the other ways out would have passed, and where a round
goes on, the calculations of the lines it has replaced have succeeded and the sums it compares have
not wrapped.  Then what is returned is sound (`soundSteps_of_optimizeSwapSteps`).
-/

namespace Kabu

open Rounds

/-- A pool has answered one of the amounts of the line for the other. -/
def SwapLine.Calculated (quotes : PoolQuotes) (line : SwapLine) : Prop :=
  ∃ amountIn amountOut, line.amountIn = .set amountIn ∧ line.amountOut = .set amountOut ∧
    ((∃ result, line.calculateWithInAmount quotes amountIn = .ok result ∧
        result.amount = amountOut) ∨
      ∃ result, line.calculateWithOutAmount quotes amountOut = .ok result ∧
        result.amount = amountIn)

namespace SwapLine

variable {quotes : PoolQuotes} {line line' : SwapLine}

lemma CalculatedIn.calculated (h : line.CalculatedIn quotes) : line.Calculated quotes := by
  obtain ⟨x, result, hin, hresult, hout⟩ := h
  exact ⟨x, result.amount, hin, hout, Or.inl ⟨result, hresult, rfl⟩⟩

/-- Whether the amounts belong together is a matter of the path and the amounts. -/
lemma Calculated.of_eq (h : line.Calculated quotes) (hpath : line'.path = line.path)
    (hin : line'.amountIn = line.amountIn) (hout : line'.amountOut = line.amountOut) :
    line'.Calculated quotes := by
  obtain ⟨x, y, hx, hy, hquoted⟩ := h
  refine ⟨x, y, hin.trans hx, hout.trans hy, ?_⟩
  rwa [calculateWithInAmount_congr hpath, calculateWithOutAmount_congr hpath]

end SwapLine

namespace SwapStep

/-- Steps worth sending. -/
structure SoundSteps (quotes : PoolQuotes) (step₀ step₁ : SwapStep) : Prop where
  lines₀ : ∀ line ∈ step₀.swapLineVec, line.Calculated quotes
  lines₁ : ∀ line ∈ step₁.swapLineVec, line.Calculated quotes
  profit : step₀.inTotal < step₁.outTotal

/-! ## The condition -/

/-- The sums that the profit is made of do not wrap. -/
def NoWrap (climb : Climb) : Prop :=
  climb.step₀.inTotal < 2 ^ 256 ∧ climb.step₁.outTotal < 2 ^ 256

instance (climb : Climb) : Decidable (NoWrap climb) := inferInstanceAs (Decidable (_ ∧ _))

/-- The line can be calculated with an amount that is larger by the increase, as a number. -/
def Answers (known : SwapLine → SwapAmountType)
    (quote : SwapLine → U256 → Except (Failure SwapError) Calculation) (increase : U256)
    (line : SwapLine) : Prop :=
  ∃ amount larger, known line = .set amount ∧ checkedAdd amount increase = some larger ∧
    (quote line larger).isOk = true

/-- The line can be calculated with an amount that is larger by the increase, as a word. -/
def AnswersMore (quotes : PoolQuotes) (increase : U256) (line : SwapLine) : Prop :=
  ∃ amountIn, line.amountIn = .set amountIn ∧
    (line.calculateWithInAmount quotes (amountIn + increase)).isOk = true

/-- The lines that have been replaced have the property. -/
def Replaced (P : SwapLine → Prop) (before after : SwapStep) : Prop :=
  List.Forall₂ (fun old line => line = old ∨ P old) before.swapLineVec after.swapLineVec

/-- What the search from the middle needs of the prices of a round. -/
def MiddlePrices (quotes : PoolQuotes) (increase : U256) (climb next : Climb) : Prop :=
  Replaced (Answers SwapLine.amountOut (SwapLine.calculateWithOutAmount quotes) increase)
      climb.step₀ next.step₀ ∧
    Replaced (Answers SwapLine.amountIn (SwapLine.calculateWithInAmount quotes) increase)
      climb.step₁ next.step₁

/-- What the search from the start needs of the prices of a round. -/
def InPrices (quotes : PoolQuotes) (increase : U256) (climb next : Climb) : Prop :=
  Replaced (AnswersMore quotes increase) climb.step₀ next.step₀ ∧
    ∀ inAmount₁ outAmount₀, climb.step₁.getInAmount = .ok inAmount₁ →
      next.step₀.getOutAmount = .ok outAmount₀ →
      Replaced (AnswersMore quotes (outAmount₀ - inAmount₁)) climb.step₁ next.step₁

/-- A round meets none of the defects. -/
structure SoundRound (round : Climb → Except (Failure Report) (Verdict Climb Report))
    (Prices : Climb → Climb → Prop) (climb : Climb) : Prop where
  leave : round climb = .ok .leave → 0 < arbResult climb.step₀ climb.step₁
  go : ∀ next, round climb = .ok (.go next) → Prices climb next ∧ NoWrap next

/-- No round of the search meets a defect. -/
def SoundRounds (round : Climb → Except (Failure Report) (Verdict Climb Report))
    (Prices : Climb → Climb → Prop) (climb : Climb) : Prop :=
  NoWrap climb ∧ EveryRound round (SoundRound round Prices) 30 climb

/-- The second step with its share of what the first delivers. -/
def middleSplit (quotes : PoolQuotes) (step₀ step₁ : SwapStep) (middleAmount : Option U256) :
    Except (Failure Report) SwapStep := do
  let outAmount₀ ← Failure.lift (step₀.calculateWithInAmount quotes middleAmount).2.getOutAmount
  let outAmount₁ ← Failure.lift step₁.getOutAmount
  step₁.splitIn outAmount₀ outAmount₁

/-- The search from the middle meets no defect: the calculation whose failure it would ignore
succeeds, and its rounds are sound. -/
def SoundMiddle (quotes : PoolQuotes) (step₀ step₁ : SwapStep) (amount : Option U256) : Prop :=
  (∀ split, middleSplit quotes step₀ step₁ amount = .ok split →
      (split.calculateWithInAmount quotes none).1.isOk = true) ∧
    ∀ increase climb, middleStart quotes step₀ step₁ amount = .ok (increase, climb) →
      SoundRounds (middleRound quotes increase) (MiddlePrices quotes increase) climb

def SoundIn (quotes : PoolQuotes) (step₀ step₁ : SwapStep) (amount : Option U256) : Prop :=
  ∀ increase climb, inStart quotes step₀ step₁ amount = .ok (increase, climb) →
    SoundRounds (inRound quotes increase) (InPrices quotes increase) climb

/-- The search that is made meets no defect. -/
def SoundSearch (quotes : PoolQuotes) (step₀ step₁ : SwapStep) (amount : Option U256) : Prop :=
  (step₀.canCalculateInAmount quotes = true → SoundMiddle quotes step₀ step₁ amount) ∧
    (step₀.canCalculateInAmount quotes = false → SoundIn quotes step₀ step₁ amount)

/-! ## Replaced lines -/

variable {calcLines : List SwapLine} {quotes : PoolQuotes} {step merged : SwapStep}

/-- A candidate has calculated lines if the line that it replaces makes for a calculated one. -/
lemma Candidate.calculated {accept : SwapStep → Except (Failure Report) Bool}
    {R : SwapLine → SwapLine → Prop} {P : SwapLine → Prop}
    (hcopies : List.Forall₂ R step.swapLineVec calcLines)
    (hpath : ∀ line calcLine, R line calcLine → SamePath line calcLine)
    (h : Candidate step calcLines accept merged) (hreplaced : Replaced P step merged)
    (hstep : ∀ line ∈ step.swapLineVec, line.Calculated quotes)
    (hnew : ∀ i old line, step.swapLineVec[i]? = some old → calcLines[i]? = some line →
      merged.swapLineVec = step.swapLineVec.set i line → old.Calculated quotes → R old line →
      P old → line.Calculated quotes) :
    ∀ line ∈ merged.swapLineVec, line.Calculated quotes := by
  obtain ⟨i, old, line, hold, hline, hrel, hset⟩ := h.exists_set hcopies hpath
  have hcalculated : line.Calculated quotes := by
    have hi : i < step.swapLineVec.length := (List.getElem?_eq_some_iff.mp hold).1
    obtain ⟨old', line', hold', hline', hcases⟩ := forall₂_getElem? hreplaced hi
    rw [hset, List.getElem?_set_self hi] at hline'
    cases Option.some.inj hline'
    cases Option.some.inj (hold.symm.trans hold')
    have holdCalculated := hstep old (List.mem_of_getElem? hold)
    rcases hcases with rfl | hP
    · exact holdCalculated
    · exact hnew i old line hold hline hset holdCalculated hrel hP
  rw [hset]
  intro line' hline'
  rcases List.mem_or_eq_of_mem_set hline' with hmem | rfl
  · exact hstep line' hmem
  · exact hcalculated

/-- A placeholder stands for a failure. -/
lemma exists_of_quotedOr {placeholder x : U256} {answer : Except (Failure SwapError) Calculation}
    (h : QuotedOr placeholder answer x) (hok : answer.isOk = true) :
    ∃ result, answer = .ok result ∧ result.amount = x := by
  rcases h with hresult | ⟨⟨e, rfl⟩, -⟩
  · exact hresult
  · obtain ⟨result, hresult⟩ := exists_of_isOk hok
    simp at hresult

/-! ## The search from the middle -/

/-- A working copy has the amounts of its line, or its line has no room for the increase, or it has
been priced for the increase. -/
def Copied (known wanted : SwapLine → SwapAmountType)
    (quote : SwapLine → U256 → Except (Failure SwapError) Calculation) (placeholder increase : U256)
    (line calcLine : SwapLine) : Prop :=
  SamePath line calcLine ∧
    (known calcLine = known line ∧ wanted calcLine = wanted line ∨
      (∃ amount, known line = .set amount ∧ checkedAdd amount increase = none) ∨
      ∃ amount larger x, known line = .set amount ∧ checkedAdd amount increase = some larger ∧
        known calcLine = .set larger ∧ wanted calcLine = .set x ∧
        QuotedOr placeholder (quote line larger) x)

section Copied

variable {known wanted : SwapLine → SwapAmountType}
  {quote : SwapLine → U256 → Except (Failure SwapError) Calculation} {placeholder increase : U256}
  {line calcLine priced : SwapLine}

lemma copied_self : Copied known wanted quote placeholder increase line line :=
  ⟨rfl, Or.inl ⟨rfl, rfl⟩⟩

/-- Pricing a line again changes nothing about its working copy. -/
lemma Copied.of_pricedFor
    (hquote : ∀ line line' : SwapLine, line'.path = line.path → ∀ x, quote line' x = quote line x)
    (hcopied : Copied known wanted quote placeholder increase line calcLine)
    (h : PricedFor known wanted quote placeholder increase line calcLine priced) :
    Copied known wanted quote placeholder increase line priced := by
  obtain ⟨hpath, hcases⟩ := hcopied
  obtain ⟨hpriced, amount, hamount, ⟨larger, hlarger, hknown, hsame⟩ | hnone⟩ := h
  · rcases hsame with rfl | ⟨x, hx, hquoted⟩
    · exact ⟨hpath, hcases⟩
    · rw [hquote line calcLine hpath] at hquoted
      exact ⟨hpriced.trans hpath, Or.inr (Or.inr
        ⟨amount, larger, x, hamount, hlarger, hknown, hx, hquoted⟩)⟩
  · exact ⟨hpriced.trans hpath, Or.inr (Or.inl ⟨amount, hamount, hnone⟩)⟩

/-- If its line answers, a working copy has the amounts of the line or an answer. -/
lemma Copied.of_answers (h : Copied known wanted quote placeholder increase line calcLine)
    (hanswers : Answers known quote increase line) :
    known calcLine = known line ∧ wanted calcLine = wanted line ∨
      ∃ amount x, known calcLine = .set amount ∧ wanted calcLine = .set x ∧
        ∃ result, quote line amount = .ok result ∧ result.amount = x := by
  obtain ⟨amount, larger, hamount, hlarger, hok⟩ := hanswers
  obtain ⟨-, hsame | ⟨amount', hamount', hnone⟩ | ⟨amount', larger', x, hamount', hlarger', hknown,
    hwanted, hquoted⟩⟩ := h
  · exact Or.inl hsame
  · cases hamount.symm.trans hamount'
    cases hlarger.symm.trans hnone
  · cases hamount.symm.trans hamount'
    cases Option.some.inj (hlarger.symm.trans hlarger')
    exact Or.inr ⟨larger, x, hknown, hwanted, exists_of_quotedOr hquoted hok⟩

end Copied

/-- Every line of the steps is calculated, and the working copies are in order. -/
structure QuotedMiddle (quotes : PoolQuotes) (increase : U256) (climb : Climb) : Prop where
  lines₀ : ∀ line ∈ climb.step₀.swapLineVec, line.Calculated quotes
  lines₁ : ∀ line ∈ climb.step₁.swapLineVec, line.Calculated quotes
  copies₀ : List.Forall₂ (Copied SwapLine.amountOut SwapLine.amountIn
    (SwapLine.calculateWithOutAmount quotes) maxAmount increase) climb.step₀.swapLineVec climb.calc₀
  copies₁ : List.Forall₂ (Copied SwapLine.amountIn SwapLine.amountOut
    (SwapLine.calculateWithInAmount quotes) 0 increase) climb.step₁.swapLineVec climb.calc₁
  noWrap : NoWrap climb

lemma Candidate.copied {known wanted : SwapLine → SwapAmountType}
    {quote : SwapLine → U256 → Except (Failure SwapError) Calculation} {placeholder increase : U256}
    {accept : SwapStep → Except (Failure Report) Bool}
    (hcopies : List.Forall₂ (Copied known wanted quote placeholder increase) step.swapLineVec
      calcLines)
    (h : Candidate step calcLines accept merged) :
    List.Forall₂ (Copied known wanted quote placeholder increase) merged.swapLineVec calcLines := by
  obtain ⟨i, old, line, -, hline, -, hset⟩ := h.exists_set hcopies fun _ _ hrel => hrel.1
  rw [hset]
  exact forall₂_set hcopies hline copied_self

/-- **One round** of the search from the middle. -/
lemma QuotedMiddle.go {increase : U256} {climb next : Climb}
    (h : QuotedMiddle quotes increase climb)
    (hsound : SoundRound (middleRound quotes increase) (MiddlePrices quotes increase) climb)
    (hround : middleRound quotes increase climb = .ok (.go next)) :
    QuotedMiddle quotes increase next := by
  obtain ⟨hcalc₀, hcalc₁, hbest₀, hbest₁⟩ := middleRound_go hround
  obtain ⟨⟨hreplaced₀, hreplaced₁⟩, hnoWrap⟩ := hsound.go next hround
  have hcopies₀ : List.Forall₂ (Copied SwapLine.amountOut SwapLine.amountIn
      (SwapLine.calculateWithOutAmount quotes) maxAmount increase) climb.step₀.swapLineVec
      next.calc₀ :=
    priceAll_rel (fun _ _ _ hcopied hprice =>
      hcopied.of_pricedFor (fun _ _ hpath => SwapLine.calculateWithOutAmount_congr hpath)
        (priceOut_ok hprice)) h.copies₀ hcalc₀
  have hcopies₁ : List.Forall₂ (Copied SwapLine.amountIn SwapLine.amountOut
      (SwapLine.calculateWithInAmount quotes) 0 increase) climb.step₁.swapLineVec next.calc₁ :=
    priceAll_rel (fun _ _ _ hcopied hprice =>
      hcopied.of_pricedFor (fun _ _ hpath => SwapLine.calculateWithInAmount_congr hpath)
        (priceIn_ok hprice)) h.copies₁ hcalc₁
  refine ⟨?_, ?_, hbest₀.copied hcopies₀, hbest₁.copied hcopies₁, hnoWrap⟩
  · refine hbest₀.calculated hcopies₀ (fun _ _ hrel => hrel.1) hreplaced₀ h.lines₀ ?_
    intro _ old line _ _ _ hold hcopied hanswers
    rcases hcopied.of_answers hanswers with ⟨hout, hin⟩ | ⟨y, x, hy, hx, hresult⟩
    · exact hold.of_eq hcopied.1 hin hout
    · rw [← SwapLine.calculateWithOutAmount_congr hcopied.1] at hresult
      exact ⟨x, y, hx, hy, Or.inr hresult⟩
  · refine hbest₁.calculated hcopies₁ (fun _ _ hrel => hrel.1) hreplaced₁ h.lines₁ ?_
    intro _ old line _ _ _ hold hcopied hanswers
    rcases hcopied.of_answers hanswers with ⟨hin, hout⟩ | ⟨x, y, hx, hy, hresult⟩
    · exact hold.of_eq hcopied.1 hin hout
    · rw [← SwapLine.calculateWithInAmount_congr hcopied.1] at hresult
      exact ⟨x, y, hx, hy, Or.inl hresult⟩

/-! ## The search from the start -/

/-- What a working copy gives is an answer for what goes in, or nothing. -/
def PricedIn (quotes : PoolQuotes) (calcLine : SwapLine) : Prop :=
  ∃ amountIn amountOut, calcLine.amountIn = .set amountIn ∧ calcLine.amountOut = .set amountOut ∧
    QuotedOr 0 (calcLine.calculateWithInAmount quotes amountIn) amountOut

lemma pricedIn_of_calculatedIn {line : SwapLine} (h : line.CalculatedIn quotes) :
    PricedIn quotes line := by
  obtain ⟨x, result, hin, hresult, hout⟩ := h
  exact ⟨x, result.amount, hin, hout, Or.inl ⟨result, hresult, rfl⟩⟩

lemma pricedIn_of_priceMore {increase : U256} {line calcLine priced : SwapLine}
    (hcalc : PricedIn quotes calcLine) (h : priceMore quotes increase line calcLine = .ok priced) :
    SamePath calcLine priced ∧ PricedIn quotes priced := by
  rcases priceMore_ok h with rfl | ⟨hpath, x, y, -, -, hin, hout, hquoted⟩
  · exact ⟨rfl, hcalc⟩
  · rw [← SwapLine.calculateWithInAmount_congr hpath] at hquoted
    exact ⟨hpath, _, _, hin, hout, hquoted⟩

structure QuotedIn (quotes : PoolQuotes) (climb : Climb) : Prop where
  lines₀ : ∀ line ∈ climb.step₀.swapLineVec, line.Calculated quotes
  lines₁ : ∀ line ∈ climb.step₁.swapLineVec, line.Calculated quotes
  copies₀ : List.Forall₂ SamePath climb.step₀.swapLineVec climb.calc₀
  copies₁ : List.Forall₂ SamePath climb.step₁.swapLineVec climb.calc₁
  calc₀ : ∀ line ∈ climb.calc₀, PricedIn quotes line
  calc₁ : ∀ line ∈ climb.calc₁, PricedIn quotes line
  noWrap : NoWrap climb

/-- The sums tell by how much a line was changed. -/
lemma amountIn_of_set {i : ℕ} {old line : SwapLine} {before after : U256}
    (hold : step.swapLineVec[i]? = some old)
    (hset : merged.swapLineVec = step.swapLineVec.set i line)
    (hbefore : step.getInAmount = .ok before) (hafter : merged.getInAmount = .ok after) :
    line.amountIn.unwrapOrDefault = old.amountIn.unwrapOrDefault + (after - before) := by
  obtain ⟨-, rfl⟩ := getInAmount_ok hbefore
  obtain ⟨-, rfl⟩ := getInAmount_ok hafter
  have htotal := total_set SwapLine.amountIn hold line
  rw [← hset] at htotal
  have hsum : merged.inTotal + old.amountIn.unwrapOrDefault.toNat =
    step.inTotal + line.amountIn.unwrapOrDefault.toNat := htotal
  have hwords : BitVec.ofNat 256 merged.inTotal + old.amountIn.unwrapOrDefault =
      BitVec.ofNat 256 step.inTotal + line.amountIn.unwrapOrDefault := by
    have hcongr := congrArg (BitVec.ofNat 256) hsum
    rwa [BitVec.ofNat_add, BitVec.ofNat_add, BitVec.ofNat_toNat, BitVec.ofNat_toNat,
      BitVec.setWidth_eq, BitVec.setWidth_eq] at hcongr
  bv_omega

/-- The replaced line is calculated if the line before it answers for the difference of the sums. -/
lemma calculated_of_answersMore {i : ℕ} {old line : SwapLine} {before after : U256}
    (hcalc : ∀ line ∈ calcLines, PricedIn quotes line) (hold : step.swapLineVec[i]? = some old)
    (hline : calcLines[i]? = some line) (hset : merged.swapLineVec = step.swapLineVec.set i line)
    (hbefore : step.getInAmount = .ok before) (hafter : merged.getInAmount = .ok after)
    (hpath : SamePath old line) (hanswers : AnswersMore quotes (after - before) old) :
    line.Calculated quotes := by
  obtain ⟨x, y, hx, hy, hquoted⟩ := hcalc line (List.mem_of_getElem? hline)
  obtain ⟨x', hx', hok⟩ := hanswers
  have hchange := amountIn_of_set hold hset hbefore hafter
  rw [hx, hx'] at hchange
  have hamount : x = x' + (after - before) := hchange
  rw [← hamount, ← SwapLine.calculateWithInAmount_congr hpath] at hok
  exact ⟨x, y, hx, hy, Or.inl (exists_of_quotedOr hquoted hok)⟩

lemma takesMore_ok {increase : U256} (h : takesMore step increase merged = .ok true) :
    ∃ before after, step.getInAmount = .ok before ∧ merged.getInAmount = .ok after ∧
      after - before = increase := by
  obtain ⟨before, hbefore, h⟩ := bind_ok h
  split at h
  · cases Except.ok.inj h
  · obtain ⟨after, hafter, h⟩ := bind_ok h
    obtain rfl := of_decide_eq_true (Except.ok.inj h)
    exact ⟨before, _, Failure.lift_ok hbefore, Failure.lift_ok hafter, by bv_omega⟩

/-- **One round** of the search from the start. -/
lemma QuotedIn.go {increase : U256} {climb next : Climb} (h : QuotedIn quotes climb)
    (hsound : SoundRound (inRound quotes increase) (InPrices quotes increase) climb)
    (hround : inRound quotes increase climb = .ok (.go next)) : QuotedIn quotes next := by
  obtain ⟨inAmount₁, outAmount₀, hin₁, hout₀, hprice₀, hprice₁, hbest₀, hbest₁⟩ :=
    inRound_go hround
  obtain ⟨⟨hreplaced₀, hreplaced₁⟩, hnoWrap⟩ := hsound.go next hround
  obtain ⟨hcopies₀, hcalc₀⟩ := priceAll_forall (P := fun _ => True)
    (fun _ _ _ _ hcalc hprice => pricedIn_of_priceMore hcalc hprice) h.copies₀
    (fun _ _ => trivial) h.calc₀ hprice₀
  obtain ⟨hcopies₁, hcalc₁⟩ := priceAll_forall (P := fun _ => True)
    (fun _ _ _ _ hcalc hprice => pricedIn_of_priceMore hcalc hprice) h.copies₁
    (fun _ _ => trivial) h.calc₁ hprice₁
  refine ⟨?_, ?_, hbest₀.copies hcopies₀, hbest₁.copies hcopies₁, hcalc₀, hcalc₁, hnoWrap⟩
  · obtain ⟨before, after, hbefore, hafter, rfl⟩ := takesMore_ok hbest₀.choose_spec.2.2
    exact hbest₀.calculated hcopies₀ (fun _ _ hrel => hrel) hreplaced₀ h.lines₀
      fun _ _ _ hold hline hset _ hpath hanswers =>
        calculated_of_answersMore hcalc₀ hold hline hset hbefore hafter hpath hanswers
  · obtain ⟨amount, hspent, hdelivered⟩ := spends_ok hbest₁.choose_spec.2.2
    cases Except.ok.inj (hout₀.symm.trans hdelivered)
    exact hbest₁.calculated hcopies₁ (fun _ _ hrel => hrel) (hreplaced₁ _ _ hin₁ hout₀) h.lines₁
      fun _ _ _ hold hline hset _ hpath hanswers =>
        calculated_of_answersMore hcalc₁ hold hline hset hin₁ hspent hpath hanswers

/-! ## Both searches -/

variable {steps : SwapStep × SwapStep}

lemma soundSteps_of_run (Inv : Climb → Prop)
    {round : Climb → Except (Failure Report) (Verdict Climb Report)} {Prices : Climb → Climb → Prop}
    (hlines : ∀ climb, Inv climb → (∀ line ∈ climb.step₀.swapLineVec, line.Calculated quotes) ∧
      (∀ line ∈ climb.step₁.swapLineVec, line.Calculated quotes) ∧ NoWrap climb)
    (hstep : ∀ climb next, Inv climb → SoundRound round Prices climb → round climb =
      .ok (.go next) → Inv next)
    {late : Report} {climb : Climb} (hrounds : SoundRounds round Prices climb) (hclimb : Inv climb)
    (h : run round Climb.steps Climb.checked late 30 climb = .ok steps) :
    SoundSteps quotes steps.1 steps.2 := by
  obtain ⟨_, last, hlast, hend⟩ := run_ok (I := fun _ => Inv) (fun _ => hstep) hrounds.2 hclimb h
  obtain ⟨hlines₀, hlines₁, hin, hout⟩ := hlines last hlast
  have hreturned : last.steps = steps ∧ 0 < arbResult last.step₀ last.step₁ := by
    rcases hend with ⟨hsound, hleave, hsteps⟩ | ⟨message, hchecked⟩
    · exact ⟨hsteps, hsound.leave hleave⟩
    · exact Climb.checked_ok hchecked
  obtain ⟨rfl, hpos⟩ := hreturned
  exact ⟨hlines₀, hlines₁, total_lt_total_of_arbResult_pos hpos hin hout⟩

lemma soundSteps_of_optimizeWithMiddleAmount {step₀ step₁ : SwapStep} {amount : Option U256}
    (hsound : SoundMiddle quotes step₀ step₁ amount)
    (h : optimizeWithMiddleAmount quotes step₀ step₁ amount = .ok steps) :
    SoundSteps quotes steps.1 steps.2 := by
  obtain ⟨⟨increase, climb⟩, hstart, hrun⟩ := bind_ok h
  have hrounds := hsound.2 increase climb hstart
  obtain ⟨middle, outAmount₀, outAmount₁, split, hmiddle, hout₀, hout₁, hsplit, -, rfl⟩ :=
    middleStart_ok hstart
  have hmiddleSplit : middleSplit quotes step₀ step₁ amount = .ok split := by
    rw [middleSplit, hout₀, hout₁]
    exact hsplit
  obtain ⟨answer₁, hanswer₁⟩ := exists_of_isOk (hsound.1 split hmiddleSplit)
  refine soundSteps_of_run (QuotedMiddle quotes increase)
    (fun _ hinv => ⟨hinv.lines₀, hinv.lines₁, hinv.noWrap⟩)
    (fun _ _ hinv hround => hinv.go hround) hrounds ?_ hrun
  exact ⟨fun line hline => ((calculateWithInAmount_ok hmiddle).1 line hline).calculated,
    fun line hline => ((calculateWithInAmount_ok hanswer₁).1 line hline).calculated,
    List.forall₂_same.mpr fun _ _ => copied_self, List.forall₂_same.mpr fun _ _ => copied_self,
    hrounds.1⟩

lemma soundSteps_of_optimizeWithInAmount {step₀ step₁ : SwapStep} {amount : Option U256}
    (hsound : SoundIn quotes step₀ step₁ amount)
    (h : optimizeWithInAmount quotes step₀ step₁ amount = .ok steps) :
    SoundSteps quotes steps.1 steps.2 := by
  obtain ⟨⟨increase, climb⟩, hstart, hrun⟩ := bind_ok h
  have hrounds := hsound increase climb hstart
  obtain ⟨answer₀, outAmount₀, outAmount₁, split, answer₁, hanswer₀, -, -, -, hanswer₁, rfl⟩ :=
    inStart_ok hstart
  have hlines₀ := (calculateWithInAmount_ok hanswer₀).1
  have hlines₁ := (calculateWithInAmount_ok hanswer₁).1
  refine soundSteps_of_run (QuotedIn quotes)
    (fun _ hinv => ⟨hinv.lines₀, hinv.lines₁, hinv.noWrap⟩)
    (fun _ _ hinv hround => hinv.go hround) hrounds ?_ hrun
  exact ⟨fun line hline => (hlines₀ line hline).calculated,
    fun line hline => (hlines₁ line hline).calculated, samePath_refl _, samePath_refl _,
    fun line hline => pricedIn_of_calculatedIn (hlines₀ line hline),
    fun line hline => pricedIn_of_calculatedIn (hlines₁ line hline), hrounds.1⟩

/-- Pools that give the same whatever goes in. -/
def fixedQuotes : PoolQuotes where
  canCalculateInAmount _ := true
  calculateOutAmount _ tokenFrom _ _ := .ok (if tokenFrom = 1 then 512 else 2048, 0)
  calculateInAmount _ _ _ _ := .ok (1500, 0)

/-- Asking for more is no improvement, and the first amounts are returned. -/
lemma soundSearch_fixedQuotes : SoundSearch fixedQuotes sampleStep₀ sampleStep₁ none := by
  refine ⟨fun _ => ⟨?_, ?_⟩, fun hcan => absurd hcan (by decide +kernel)⟩
  · intro split hsplit
    have hok : ((middleSplit fixedQuotes sampleStep₀ sampleStep₁ none).bind fun split =>
        (split.calculateWithInAmount fixedQuotes none).1).isOk = true := by decide +kernel
    rw [hsplit] at hok
    exact hok
  · intro increase climb hstart
    have hnoWrap : ((middleStart fixedQuotes sampleStep₀ sampleStep₁ none).map fun start =>
        decide (NoWrap start.2)).toOption = some true := by decide +kernel
    have hcheck : ((middleStart fixedQuotes sampleStep₀ sampleStep₁ none).bind fun start =>
        (middleRound fixedQuotes start.1 start.2).map Verdict.isCheck).toOption = some true := by
      decide +kernel
    rw [hstart] at hnoWrap hcheck
    have hstops : ((middleRound fixedQuotes increase climb).map Verdict.isCheck).toOption =
      some true := hcheck
    have hgo : ∀ next, middleRound fixedQuotes increase climb ≠ .ok (.go next) := by
      intro next hround
      rw [hround] at hstops
      exact Bool.false_ne_true (Option.some.inj hstops)
    refine ⟨of_decide_eq_true (Option.some.inj hnoWrap), ⟨fun hround => ?_, fun next hround =>
      absurd hround (hgo next)⟩, fun next hround => absurd hround (hgo next)⟩
    rw [hround] at hstops
    exact absurd (Option.some.inj hstops) Bool.false_ne_true

/-- Pools that give 1000 for the token 1, and fail for the token 2. -/
def failingQuotes : PoolQuotes where
  canCalculateInAmount _ := true
  calculateOutAmount _ tokenFrom _ _ :=
    if tokenFrom = 1 then .ok (1000, 0) else .error .zeroReserves
  calculateInAmount _ _ _ _ := .error .zeroReserves

/-- No amounts of a line for the token 2 belong together. -/
lemma not_calculated_failingQuotes {line : SwapLine}
    (hpath : line.path = .newSwap (.new 2) (.new 1) samplePool) :
    ¬ line.Calculated failingQuotes := by
  rintro ⟨x, y, -, -, ⟨result, hresult, -⟩ | ⟨result, hresult, -⟩⟩
  · rw [SwapLine.calculateWithInAmount, SwapLine.pools, SwapLine.tokens, hpath] at hresult
    cases hresult
  · rw [SwapLine.calculateWithOutAmount, SwapLine.pools, SwapLine.tokens, hpath] at hresult
    cases hresult

/-- A step of two lines, the first for a hundredth of the whole. -/
def unevenStep : SwapStep :=
  ⟨[sampleLine 2 1 .notSet (.set 1), sampleLine 2 1 .notSet (.set 99)], 9,
    by simp only [List.map_cons, List.map_nil, List.pairwise_pair]; decide +kernel,
    by rw [List.length_cons, List.length_singleton]; decide⟩

end SwapStep

end Kabu
