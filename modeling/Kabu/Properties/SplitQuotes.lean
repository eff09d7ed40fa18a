import Kabu.Market.SwapLine

/-!
# Splitting a line does not change its price

A line can be split at a pool.  To calculate the whole line is to calculate one part and to go on
with the other from the amount that comes out of it, forward with the second part and backward with
the first; the gas adds up, the calculations of the single pools follow one another, and a failure
is the failure of the part it happens in (`calculate_split`).
-/

namespace Kabu

/-- A calculation that goes on where another has ended. -/
def Calculation.andThen (first next : Calculation) : Calculation :=
  ⟨next.amount, first.gasUsed + next.gasUsed, first.calculationResults ++ next.calculationResults⟩

namespace QuoteSide

variable (side : QuoteSide)

lemma calculate_andThen (first done : Calculation) (pools : List Pool) (tokens : List Token)
    (x : U256) :
    side.calculate pools tokens x (first.andThen done) =
      (side.calculate pools tokens x done).map first.andThen := by
  induction pools generalizing tokens x done with
  | nil => rfl
  | cons pool pools ih =>
      rcases tokens with _ | ⟨here, _ | ⟨next, tokens⟩⟩
      · rfl
      · rfl
      · rw [calculate, calculate]
        cases side.quote pool here.address next.address x with
        | error kind => rfl
        | ok answer =>
            dsimp only
            cases side.refuse answer.1 with
            | some kind => rfl
            | none =>
                dsimp only
                rw [← ih]
                simp only [Calculation.andThen, UInt64.add_assoc, List.append_assoc]

/-- The loop goes on from the amount that the last pool has answered. -/
lemma calculate_append (pools pools' : List Pool) (tokens : List Token) (x : U256)
    (done : Calculation) (hlength : pools.length < tokens.length)
    (hdone : pools = [] → x = done.amount) :
    side.calculate (pools ++ pools') tokens x done =
      (side.calculate pools (tokens.take (pools.length + 1)) x done).bind fun result =>
        side.calculate pools' (tokens.drop pools.length) result.amount result := by
  induction pools generalizing tokens x done with
  | nil =>
      rw [hdone rfl]
      rfl
  | cons pool pools ih =>
      rcases tokens with _ | ⟨here, _ | ⟨next, tokens⟩⟩
      · simp at hlength
      · simp at hlength
      · rw [List.length_cons, List.take_succ_cons, List.take_succ_cons, List.drop_succ_cons,
          List.cons_append, calculate, calculate]
        cases side.quote pool here.address next.address x with
        | error kind => rfl
        | ok answer =>
            dsimp only
            cases side.refuse answer.1 with
            | some kind => rfl
            | none => exact ih (next :: tokens) _ _ (Nat.lt_of_succ_lt_succ hlength) fun _ => rfl

/-- The amount the loop starts with is overwritten by its first pool. -/
lemma calculate_of_ne_nil {pools : List Pool} (hpools : pools ≠ []) (tokens : List Token)
    (x amount amount' : U256) (gasUsed : UInt64) (results : List CalculationResult) :
    side.calculate pools tokens x ⟨amount, gasUsed, results⟩ =
      side.calculate pools tokens x ⟨amount', gasUsed, results⟩ := by
  cases pools with
  | nil => exact absurd rfl hpools
  | cons pool pools => rcases tokens with _ | ⟨here, _ | ⟨next, tokens⟩⟩ <;> rfl

/-- **The loop in two parts**, each from the start. -/
lemma calculate_parts {pools pools' : List Pool} (hpools : pools ≠ []) (hpools' : pools' ≠ [])
    (tokens : List Token) (hlength : pools.length < tokens.length) (x : U256) :
    side.calculate (pools ++ pools') tokens x ⟨0, 0, []⟩ =
      (side.calculate pools (tokens.take (pools.length + 1)) x ⟨0, 0, []⟩).bind fun result =>
        (side.calculate pools' (tokens.drop pools.length) result.amount ⟨0, 0, []⟩).map
          result.andThen := by
  rw [calculate_append side pools pools' tokens x _ hlength fun h => absurd h hpools]
  congr 1
  funext result
  have hresult : result.andThen ⟨result.amount, 0, []⟩ = result := by
    simp [Calculation.andThen]
  rw [calculate_of_ne_nil side hpools' _ _ 0 result.amount, ← calculate_andThen, hresult]

end QuoteSide

/-- **Split lines.**  Calculating a line is calculating its parts one after the other: the amount is
that of the last part, the gas is the sum, the calculations of the pools are joined, and where a
part fails the line fails in the same way. -/
theorem calculate_split (quotes : PoolQuotes) (line : SwapLine) (i : ℕ) (hi : 1 ≤ i)
    (hlt : i < line.pools.length) (htokens : line.tokens.length = line.pools.length + 1) :
    ∃ first second, line.split i = .ok (first, second) ∧
      (∀ x, line.calculateWithInAmount quotes x =
        (first.calculateWithInAmount quotes x).bind fun result =>
          (second.calculateWithInAmount quotes result.amount).map result.andThen) ∧
      ∀ y, line.calculateWithOutAmount quotes y =
        (second.calculateWithOutAmount quotes y).bind fun result =>
          (first.calculateWithOutAmount quotes result.amount).map result.andThen := by
  have hfits : i + 1 ≤ line.tokens.length ∧ i ≤ line.pools.length := by omega
  have hfirst : line.pools.take i ≠ [] := by
    rw [Ne, List.take_eq_nil_iff]
    rintro (hzero | hnil)
    · omega
    · rw [hnil] at hlt
      simp at hlt
  have hsecond : line.pools.drop i ≠ [] := by
    rw [Ne, List.drop_eq_nil_iff]
    omega
  have htake : (line.pools.take i).length = i := List.length_take_of_le hfits.2
  have hdrop : line.tokens.length = i + 1 + (line.pools.drop i).length := by
    rw [List.length_drop]
    omega
  refine ⟨_, _, if_pos hfits, fun x => ?_, fun y => ?_⟩
  · have hparts := quotes.inSide.calculate_parts hfirst hsecond line.tokens (by omega) x
    rw [List.take_append_drop, htake] at hparts
    exact hparts
  · -- the loop runs over the reversed lists, so the second part comes first
    have hparts := quotes.outSide.calculate_parts (List.reverse_ne_nil_iff.mpr hsecond)
      (List.reverse_ne_nil_iff.mpr hfirst) line.tokens.reverse
      (by rw [List.length_reverse, List.length_reverse]; omega) y
    have hback : line.tokens.length - ((line.pools.drop i).length + 1) = i := by omega
    have hfront : line.tokens.length - (line.pools.drop i).length = i + 1 := by omega
    rw [← List.reverse_append, List.take_append_drop, List.length_reverse, List.take_reverse,
      List.drop_reverse, hback, hfront] at hparts
    exact hparts

/-- Pools that take one off what they get, and ask for one more. -/
def tollQuotes : PoolQuotes where
  canCalculateInAmount _ := true
  calculateOutAmount _ _ _ x := .ok (x - 1, 7)
  calculateInAmount _ _ _ x := .ok (x + 1, 7)

def tollPool : Pool where
  getClass := .uniswapV2
  getAddress := .address 9
  getPoolId := .address 9
  getTokens := [1]
  getSwapDirections := []
  getReadOnlyCellVec := []
  getStateRequired := .ok ⟨[], [], []⟩

/-- A line through so many pools. -/
def tollLine (n : ℕ) : SwapLine where
  path := ⟨List.replicate (n + 1) (Token.new 1), List.replicate n tollPool, false, []⟩
  amountIn := .notSet
  amountOut := .notSet
  calculationResults := []
  swapTo := none
  gasUsed := none

theorem calculate_split_tollLine :
    ∃ first second, (tollLine 3).split 2 = .ok (first, second) ∧
      (∀ x, (tollLine 3).calculateWithInAmount tollQuotes x =
        (first.calculateWithInAmount tollQuotes x).bind fun result =>
          (second.calculateWithInAmount tollQuotes result.amount).map result.andThen) ∧
      ∀ y, (tollLine 3).calculateWithOutAmount tollQuotes y =
        (second.calculateWithOutAmount tollQuotes y).bind fun result =>
          (first.calculateWithOutAmount tollQuotes result.amount).map result.andThen :=
  calculate_split tollQuotes (tollLine 3) 2 (by decide) (by decide) (by decide)

end Kabu
