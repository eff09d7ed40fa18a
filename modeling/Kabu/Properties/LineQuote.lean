import Kabu.Market.OptimizeLine

/-!
# An optimised line is a real quote

After the search a line has the amounts, the gas and the calculations of one and the same
calculation, which has succeeded; if the search fails, the line is as it was
(`optimizeWithInAmount_quoted`).

A calculation that fails in a later round is replaced by one that delivers nothing.  This is no
quote, but a round that delivers nothing is not taken once there is a best profit, and after the
first round there always is one (`OnQuote`).
-/

namespace Kabu

open Turns

/-- The four fields of the line are those of one calculation along a path. -/
def SwapLine.QuotedBy (quotes : PoolQuotes) (path line : SwapLine) : Prop :=
  ∃ x result, path.calculateWithInAmount quotes x = .ok result ∧ line.amountIn = .set x ∧
    line.amountOut = .set result.amount ∧ line.gasUsed = some result.gasUsed ∧
    line.calculationResults = result.calculationResults

namespace LineSearch

variable {quotes : PoolQuotes} {line : SwapLine} {search next : LineSearch} {probed : Calculation}

/-- After the first round: there is a best profit, and the line is a quote along its path. -/
structure OnQuote (quotes : PoolQuotes) (line : SwapLine) (search : LineSearch) : Prop where
  best : search.bestProfit ≠ none
  path : search.line.path = line.path
  quoted : SwapLine.QuotedBy quotes line search.line

lemma onQuote_advance (h : OnQuote quotes line search) : OnQuote quotes line search.advance :=
  ⟨h.best, h.path, h.quoted⟩

lemma Taken.onQuote (h : Taken search probed next) (hpath : search.line.path = line.path)
    (hquote : line.calculateWithInAmount quotes search.nextAmount = .ok probed) :
    OnQuote quotes line next := by
  refine ⟨by rw [h.best]; simp, ?_, search.nextAmount, probed, hquote, ?_⟩
  · rw [h.line]
    exact hpath
  · rw [h.line]
    exact ⟨rfl, rfl, rfl, rfl⟩

/-- **One round.**  A calculation that fails is not taken, since it delivers nothing. -/
lemma OnQuote.decideOn (h : OnQuote quotes line search) {counter : ℕ}
    (hprobe : search.probe quotes counter = .ok probed)
    (hnext : Taken search probed next ∨ ∃ best, Rejected search probed best next) :
    OnQuote quotes line next := by
  rcases hnext with htaken | ⟨best, hrejected⟩
  · obtain ⟨best, hbest⟩ := Option.ne_none_iff_exists'.mp h.best
    have hamount := (htaken.notWorse best hbest).2
    rcases probe_ok hprobe with hquote | ⟨rfl, -, -⟩
    · rw [SwapLine.calculateWithInAmount_congr h.path] at hquote
      exact htaken.onQuote h.path hquote
    · exact absurd rfl hamount
  · refine ⟨hrejected.bestProfit_ne_none, ?_, ?_⟩
    · rw [hrejected.line]
      exact h.path
    · rw [hrejected.line]
      exact h.quoted

lemma OnQuote.go {counter : ℕ} (h : OnQuote quotes line search)
    (hround : search.round quotes counter = .ok (.go next)) : OnQuote quotes line next := by
  obtain ⟨probed, hprobe, hturn⟩ := round_ok hround
  obtain ⟨reached, hstop | ⟨hgo, -⟩, hcases⟩ := decideOn_cases search probed
  · exact absurd (hturn.trans hstop) (by simp)
  · cases hturn.trans hgo
    exact onQuote_advance (h.decideOn hprobe hcases)

lemma OnQuote.stop {counter : ℕ} (h : OnQuote quotes line search)
    (hround : search.round quotes counter = .ok (.stop next)) : OnQuote quotes line next := by
  obtain ⟨probed, hprobe, hturn⟩ := round_ok hround
  obtain ⟨reached, hstop | ⟨hgo, -⟩, hcases⟩ := decideOn_cases search probed
  · cases hturn.trans hstop
    exact h.decideOn hprobe hcases
  · exact absurd (hturn.trans hgo) (by simp)

/-- Only the first round can report an error. -/
lemma round_ne_error {counter : ℕ} (hcounter : counter ≠ 1) (e : SwapError) :
    search.round quotes counter ≠ .error (.error e) := by
  intro h
  unfold round probe at h
  cases hquote : search.line.calculateWithInAmount quotes search.nextAmount with
  | ok ret =>
      rw [hquote] at h
      cases h
  | error failure =>
      rw [hquote] at h
      cases failure with
      | panic => cases h
      | error e' =>
          dsimp only at h
          rw [if_neg hcounter] at h
          cases h

end LineSearch

open LineSearch in
/-- **A real quote.**  If the search succeeds, the four fields of the line are those of one
calculation that has succeeded; if it reports an error, the line is as before. -/
theorem optimizeWithInAmount_quoted (quotes : PoolQuotes) (line : SwapLine) (inAmount : U256) :
    ((line.optimizeWithInAmount quotes inAmount).2 = .ok () →
        SwapLine.QuotedBy quotes line (line.optimizeWithInAmount quotes inAmount).1) ∧
      ∀ e, (line.optimizeWithInAmount quotes inAmount).2 = .error (.error e) →
        (line.optimizeWithInAmount quotes inAmount).1 = line := by
  unfold SwapLine.optimizeWithInAmount
  dsimp only
  cases hfirst : line.calculateWithInAmount quotes inAmount with
  | error failure =>
      rw [runTurns_of_error hfirst]
      exact ⟨fun h => absurd h (by simp), fun e _ => rfl⟩
  | ok probed =>
      have htaken : OnQuote quotes line ((start line inAmount).take probed) :=
        ⟨by simp [take], rfl, inAmount, probed, hfirst, rfl, rfl, rfl, rfl⟩
      rcases runTurns_of_ok hfirst with ⟨hrun, -⟩ | ⟨-, -, hrun, -⟩
      · rw [hrun]
        exact ⟨fun _ => htaken.quoted, fun e h => absurd h (by simp)⟩
      · rw [hrun]
        have hstart : 2 ≤ 2 ∧ OnQuote quotes line ((start line inAmount).take probed).advance :=
          ⟨le_rfl, onQuote_advance htaken⟩
        have hgo : ∀ k s next, 2 ≤ k ∧ OnQuote quotes line s →
            round quotes k s = .ok (.go next) → 2 ≤ k + 1 ∧ OnQuote quotes line next :=
          fun k s next h hround => ⟨Nat.le_succ_of_le h.1, h.2.go hround⟩
        refine ⟨fun h => ?_, fun e h => ?_⟩
        · exact (runTurns_ok (J := OnQuote quotes line) hgo
            (fun k s next h hround => h.2.stop hround) (fun k s h => h.2) hstart h).quoted
        · obtain ⟨k, ⟨hk, -⟩, herror⟩ := runTurns_error hgo hstart h
          exact absurd herror (round_ne_error (by omega) e)

end Kabu
