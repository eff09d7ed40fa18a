import Mathlib.Algebra.Order.BigOperators.Group.List
import Mathlib.Algebra.Order.Group.Nat
import Mathlib.Data.Nat.Cast.Basic
import Kabu.Market.SwapLine

/-!
# Swap steps

A swap step is a number of lines that swap one token for another side by side.  `add` takes a line
only if it has the ends of the lines that are there, so in a step any two lines have the same first
and the same last token; `SwapStep` carries this, and with it that the lines fit into a vector.

The amounts of a step are the sums over its lines, in 256 bits.  `inTotal` and `outTotal` are the
sums as numbers, and `getInAmount_ok` and `getOutAmount_ok` say how the two are related.

`arb_result` of the source, the profit of one step followed by another, is a signed number.
`arbResult_pos_iff` reads it in terms of the amounts.
-/

namespace Kabu

/-- Two paths from one token to another.  `none` is the panic on a path without tokens. -/
def SwapPath.sameEnds? (path path' : SwapPath) : Option Bool := do
  let first ← path.tokens.head?
  let first' ← path'.tokens.head?
  let last ← path.tokens.getLast?
  let last' ← path'.tokens.getLast?
  return first.address = first'.address && last.address = last'.address

def SwapPath.SameEnds (path path' : SwapPath) : Prop := path.sameEnds? path' = some true

instance (path path' : SwapPath) : Decidable (path.SameEnds path') :=
  inferInstanceAs (Decidable (_ = some true))

lemma SwapPath.sameEnds_iff {path path' : SwapPath} : path.SameEnds path' ↔
    ∃ first first' last last', path.tokens.head? = some first ∧ path'.tokens.head? = some first' ∧
      path.tokens.getLast? = some last ∧ path'.tokens.getLast? = some last' ∧
      first.address = first'.address ∧ last.address = last'.address := by
  unfold SameEnds sameEnds?
  simp [Option.bind_eq_some_iff]

lemma SwapPath.SameEnds.of_left {path path' path'' : SwapPath} (h : path.SameEnds path')
    (h' : path.SameEnds path'') : path'.SameEnds path'' := by
  obtain ⟨first, first', last, last', hfirst, hfirst', hlast, hlast', hf, hl⟩ := sameEnds_iff.mp h
  obtain ⟨second, second', end', end'', hsecond, hsecond', hend, hend', hf', hl'⟩ :=
    sameEnds_iff.mp h'
  cases hfirst.symm.trans hsecond
  cases hlast.symm.trans hend
  exact sameEnds_iff.mpr ⟨first', second', last', end'', hfirst', hsecond', hlast', hend',
    hf.symm.trans hf', hl.symm.trans hl'⟩

structure SwapStep where
  swapLineVec : List SwapLine
  swapTo : Address
  sameEnds : (swapLineVec.map SwapLine.path).Pairwise SwapPath.SameEnds
  length_lt : swapLineVec.length < 2 ^ 64

namespace SwapStep

def new (swapTo : Address) : SwapStep := ⟨[], swapTo, List.Pairwise.nil, by decide⟩

def len (step : SwapStep) : ℕ := step.swapLineVec.length

/-- The step with other lines along the same paths. -/
def withLines (step : SwapStep) (lines : List SwapLine)
    (hpaths : lines.map SwapLine.path = step.swapLineVec.map SwapLine.path) : SwapStep where
  swapLineVec := lines
  swapTo := step.swapTo
  sameEnds := hpaths ▸ step.sameEnds
  length_lt := by
    have hlen := congrArg List.length hpaths
    rw [List.length_map, List.length_map] at hlen
    exact hlen ▸ step.length_lt

def single (swapTo : Address) (line : SwapLine) : SwapStep :=
  ⟨[line], swapTo, List.pairwise_singleton _ _, by rw [List.length_singleton]; decide⟩

/-! ## Adding lines -/

/-- `none` is the panic on a vector that is full. -/
def push (step : SwapStep) (line : SwapLine)
    (hends : ∀ path ∈ step.swapLineVec.map SwapLine.path, path.SameEnds line.path) :
    Option SwapStep :=
  if hlen : (step.swapLineVec ++ [line]).length < 2 ^ 64 then
    some ⟨step.swapLineVec ++ [line], step.swapTo, by
      rw [List.map_append]
      exact List.pairwise_append.mpr
        ⟨step.sameEnds, List.pairwise_singleton _ _, fun path hpath path' hpath' =>
          List.mem_singleton.mp hpath' ▸ hends path hpath⟩, hlen⟩
  else none

variable {step : SwapStep}

lemma sameEnds_of_head {head line : SwapLine} (hhead : step.swapLineVec.head? = some head)
    (hline : head.path.SameEnds line.path) :
    ∀ path ∈ step.swapLineVec.map SwapLine.path, path.SameEnds line.path := by
  obtain ⟨lines, hlines⟩ := List.head?_eq_some_iff.mp hhead
  have hpairs := step.sameEnds
  rw [hlines, List.map_cons, List.pairwise_cons] at hpairs
  rw [hlines]
  intro path hpath
  rcases List.mem_cons.mp hpath with rfl | hpath
  · exact hline
  · exact (hpairs.1 path hpath).of_left hline

/-- A line with other ends is not added.  `none` is a panic. -/
def add (step : SwapStep) (line : SwapLine) : Option SwapStep :=
  match hhead : step.swapLineVec.head? with
  | none => step.push line (by simp [List.head?_eq_none_iff.mp hhead])
  | some head =>
      if hends : head.path.SameEnds line.path then step.push line (sameEnds_of_head hhead hends)
      else (head.path.sameEnds? line.path).map fun _ => step

variable {line : SwapLine}

lemma swapLineVec_of_push {step' : SwapStep}
    {hends : ∀ path ∈ step.swapLineVec.map SwapLine.path, path.SameEnds line.path}
    (h : step.push line hends = some step') :
    step'.swapLineVec = step.swapLineVec ++ [line] := by
  unfold push at h
  split at h
  · cases Option.some.inj h
    rfl
  · simp at h

section Ends

variable (hends : ∀ path ∈ step.swapLineVec.map SwapLine.path, path.SameEnds line.path)

include hends

lemma add_eq_push : step.add line = step.push line hends := by
  unfold add
  split
  · rfl
  · rename_i head hhead
    exact dif_pos (hends _ (List.mem_map_of_mem (List.mem_of_mem_head? hhead)))

lemma swapLineVec_of_add {step' : SwapStep} (h : step.add line = some step') :
    step'.swapLineVec = step.swapLineVec ++ [line] :=
  swapLineVec_of_push ((add_eq_push hends).symm.trans h)

lemma exists_add (hlen : step.swapLineVec.length + 1 < 2 ^ 64) :
    ∃ step', step.add line = some step' ∧ step'.swapLineVec = step.swapLineVec ++ [line] := by
  have hroom : (step.swapLineVec ++ [line]).length < 2 ^ 64 := by
    rw [List.length_append, List.length_singleton]
    exact hlen
  rw [add_eq_push hends]
  exact ⟨_, dif_pos hroom, rfl⟩

end Ends

/-! ## Amounts -/

/-- The body of the loops over the amounts, which have to be set. -/
def addAmount (sum : U256) : SwapAmountType → Except Report U256
  | .set x => .ok (sum + x)
  | _ => .error "IN_AMOUNT_NOT_SET"

def sumAmounts (amounts : List SwapAmountType) : Except Report U256 := amounts.foldlM addAmount 0

def getInAmount (step : SwapStep) : Except Report U256 :=
  sumAmounts (step.swapLineVec.map SwapLine.amountIn)

def getOutAmount (step : SwapStep) : Except Report U256 :=
  sumAmounts (step.swapLineVec.map SwapLine.amountOut)

/-- The sum of the amounts as a number. -/
def total (amounts : List SwapAmountType) : ℕ :=
  (amounts.map fun amount => amount.unwrapOrDefault.toNat).sum

def inTotal (step : SwapStep) : ℕ := total (step.swapLineVec.map SwapLine.amountIn)

def outTotal (step : SwapStep) : ℕ := total (step.swapLineVec.map SwapLine.amountOut)

@[simp] lemma total_nil : total [] = 0 := rfl

@[simp] lemma total_cons (amount : SwapAmountType) (amounts : List SwapAmountType) :
    total (amount :: amounts) = amount.unwrapOrDefault.toNat + total amounts := rfl

variable {amounts : List SwapAmountType}

lemma le_total_of_mem {amount : SwapAmountType} (h : amount ∈ amounts) :
    amount.unwrapOrDefault.toNat ≤ total amounts :=
  List.le_sum_of_mem (List.mem_map_of_mem h)

lemma total_le_length_mul {bound : ℕ}
    (h : ∀ amount ∈ amounts, amount.unwrapOrDefault.toNat ≤ bound) :
    total amounts ≤ amounts.length * bound := by
  have hsum := List.sum_le_card_nsmul (amounts.map fun amount => amount.unwrapOrDefault.toNat) bound
    (List.forall_mem_map.mpr h)
  rwa [List.length_map, nsmul_eq_mul, Nat.cast_id] at hsum

lemma total_set (f : SwapLine → SwapAmountType) {lines : List SwapLine} {i : ℕ} {old : SwapLine}
    (hold : lines[i]? = some old) (line : SwapLine) :
    total ((lines.set i line).map f) + (f old).unwrapOrDefault.toNat =
      total (lines.map f) + (f line).unwrapOrDefault.toNat := by
  induction lines generalizing i with
  | nil => simp at hold
  | cons first lines ih =>
      cases i with
      | zero =>
          cases Option.some.inj hold
          rw [List.set_cons_zero, List.map_cons, List.map_cons, total_cons, total_cons]
          omega
      | succ i =>
          have hrest := ih hold
          rw [List.set_cons_succ, List.map_cons, List.map_cons, total_cons, total_cons]
          omega

lemma addAmount_ok {sum sum' : U256} {amount : SwapAmountType}
    (h : addAmount sum amount = .ok sum') :
    amount.isSet = true ∧ sum' = sum + amount.unwrapOrDefault := by
  cases amount with
  | set x => exact ⟨rfl, (Except.ok.inj h).symm⟩
  | _ => simp [addAmount] at h

lemma foldlM_addAmount_ok {start sum : U256} (h : amounts.foldlM addAmount start = .ok sum) :
    (∀ amount ∈ amounts, amount.isSet = true) ∧
      sum = start + BitVec.ofNat 256 (total amounts) := by
  induction amounts generalizing start with
  | nil =>
      cases Except.ok.inj h
      simp
  | cons amount amounts ih =>
      rw [List.foldlM_cons] at h
      cases hnext : addAmount start amount with
      | error e =>
          rw [hnext] at h
          simp [bind, Except.bind] at h
      | ok next =>
          rw [hnext] at h
          obtain ⟨hset, rfl⟩ := addAmount_ok hnext
          obtain ⟨hrest, rfl⟩ := ih h
          refine ⟨List.forall_mem_cons.mpr ⟨hset, hrest⟩, ?_⟩
          rw [total_cons, BitVec.ofNat_add, BitVec.ofNat_toNat, BitVec.setWidth_eq,
            BitVec.add_assoc]

/-- **Sums.**  The sum is the number in 256 bits. -/
lemma sumAmounts_ok {sum : U256} (h : sumAmounts amounts = .ok sum) :
    (∀ amount ∈ amounts, amount.isSet = true) ∧ sum = BitVec.ofNat 256 (total amounts) := by
  obtain ⟨hset, hsum⟩ := foldlM_addAmount_ok h
  exact ⟨hset, hsum.trans (BitVec.zero_add _)⟩

lemma getInAmount_ok {sum : U256} (h : step.getInAmount = .ok sum) :
    (∀ line ∈ step.swapLineVec, line.amountIn.isSet = true) ∧
      sum = BitVec.ofNat 256 step.inTotal := by
  obtain ⟨hset, hsum⟩ := sumAmounts_ok h
  exact ⟨List.forall_mem_map.mp hset, hsum⟩

lemma getOutAmount_ok {sum : U256} (h : step.getOutAmount = .ok sum) :
    (∀ line ∈ step.swapLineVec, line.amountOut.isSet = true) ∧
      sum = BitVec.ofNat 256 step.outTotal := by
  obtain ⟨hset, hsum⟩ := sumAmounts_ok h
  exact ⟨List.forall_mem_map.mp hset, hsum⟩

/-! ## Profit -/

/-- A signed number of 256 bits, if the word is one. -/
def i256TryFrom (x : U256) : Option ℤ := if x.toNat < 2 ^ 255 then some x.toNat else none

def i256Max : ℤ := 2 ^ 255 - 1

def i256Min : ℤ := -2 ^ 255

def arbResult (step₀ step₁ : SwapStep) : ℤ :=
  let inAmount := (i256TryFrom (unwrapOr (BitVec.allOnes 256) step₀.getInAmount)).getD i256Max
  let outAmount := (i256TryFrom (unwrapOr 0 step₁.getOutAmount)).getD 0
  if inAmount < 0 then i256Min else outAmount - inAmount

lemma arbResult_pos_iff_of_words (step₀ step₁ : SwapStep) : 0 < arbResult step₀ step₁ ↔
    unwrapOr (BitVec.allOnes 256) step₀.getInAmount < unwrapOr 0 step₁.getOutAmount ∧
      (unwrapOr 0 step₁.getOutAmount).toNat < 2 ^ 255 := by
  unfold arbResult i256TryFrom i256Max i256Min
  rw [BitVec.lt_def]
  generalize (unwrapOr (BitVec.allOnes 256) step₀.getInAmount).toNat = x
  generalize (unwrapOr 0 step₁.getOutAmount).toNat = y
  by_cases hx : x < 2 ^ 255
  · rw [if_pos hx, Option.getD_some, if_neg (by omega)]
    by_cases hy : y < 2 ^ 255
    · rw [if_pos hy, Option.getD_some]
      omega
    · rw [if_neg hy, Option.getD_none]
      omega
  · rw [if_neg hx, Option.getD_none, if_neg (by decide)]
    by_cases hy : y < 2 ^ 255
    · rw [if_pos hy, Option.getD_some]
      omega
    · rw [if_neg hy, Option.getD_none]
      omega

/-- **Profit.**  It is positive if the amounts are set, and what comes out is more than what goes in
and fits into a signed number. -/
lemma arbResult_pos_iff (step₀ step₁ : SwapStep) : 0 < arbResult step₀ step₁ ↔
    ∃ inAmount outAmount, step₀.getInAmount = .ok inAmount ∧ step₁.getOutAmount = .ok outAmount ∧
      inAmount < outAmount ∧ outAmount.toNat < 2 ^ 255 := by
  rw [arbResult_pos_iff_of_words]
  cases hin : step₀.getInAmount with
  | error e =>
      -- the largest word is below none
      refine iff_of_false (fun h => ?_) (by simp)
      have hlt := (unwrapOr 0 step₁.getOutAmount).isLt
      have hmax := BitVec.lt_def.mp h.1
      rw [unwrapOr_error, BitVec.toNat_allOnes] at hmax
      omega
  | ok inAmount =>
      cases hout : step₁.getOutAmount with
      | error e => exact iff_of_false (fun h => absurd h.1 (by simp)) (by simp)
      | ok outAmount => simp

lemma total_lt_total_of_arbResult_pos {step₀ step₁ : SwapStep} (h : 0 < arbResult step₀ step₁)
    (hin : step₀.inTotal < 2 ^ 256) (hout : step₁.outTotal < 2 ^ 256) :
    step₀.inTotal < step₁.outTotal := by
  obtain ⟨inAmount, outAmount, hinAmount, houtAmount, hlt, -⟩ := (arbResult_pos_iff _ _).mp h
  obtain ⟨-, rfl⟩ := getInAmount_ok hinAmount
  obtain ⟨-, rfl⟩ := getOutAmount_ok houtAmount
  rw [BitVec.lt_def, BitVec.toNat_ofNat, BitVec.toNat_ofNat] at hlt
  rwa [Nat.mod_eq_of_lt hin, Nat.mod_eq_of_lt hout] at hlt

/-! ## Calculating the amounts -/

/-- The loop over the lines.  The lines before one that fails keep what was calculated for them, and
that one keeps its new amount in. -/
def calculateLines (quotes : PoolQuotes) (inAmount : Option U256) :
    List SwapLine → U256 → UInt64 → Except (Failure Report) (U256 × UInt64) × List SwapLine
  | [], outAmount, gasUsed => (.ok (outAmount, gasUsed), [])
  | line :: lines, outAmount, gasUsed =>
      match inAmount.or line.amountIn.unwrap with
      | none => (.error (.error "IN_AMOUNT_NOT_SET"), line :: lines)
      | some current =>
          match line.calculateWithInAmount quotes current with
          | .ok result =>
              let rest := calculateLines quotes inAmount lines (outAmount + result.amount)
                (gasUsed + result.gasUsed)
              (rest.1, { line with amountIn := .set current, amountOut := .set result.amount } ::
                rest.2)
          | .error (.error _) => (.error (.error "ERROR_CALCULATING_OUT_AMOUNT"),
              { line with amountIn := .set current } :: lines)
          | .error .panic => (.error .panic, { line with amountIn := .set current } :: lines)

lemma path_calculateLines (quotes : PoolQuotes) (inAmount : Option U256) (lines : List SwapLine)
    (outAmount : U256) (gasUsed : UInt64) :
    (calculateLines quotes inAmount lines outAmount gasUsed).2.map SwapLine.path =
      lines.map SwapLine.path := by
  induction lines generalizing outAmount gasUsed with
  | nil => rfl
  | cons line lines ih =>
      unfold calculateLines
      split
      · rfl
      · split
        · rw [List.map_cons, List.map_cons, ih]
        · rfl
        · rfl

lemma calculateLines_ok {quotes : PoolQuotes} {inAmount : Option U256} {lines : List SwapLine}
    {outAmount : U256} {gasUsed : UInt64} {answer : U256 × UInt64}
    (h : (calculateLines quotes inAmount lines outAmount gasUsed).1 = .ok answer) :
    (∀ line ∈ (calculateLines quotes inAmount lines outAmount gasUsed).2,
      line.CalculatedIn quotes) ∧
      answer.1 = outAmount + BitVec.ofNat 256
        (total ((calculateLines quotes inAmount lines outAmount gasUsed).2.map
          SwapLine.amountOut)) := by
  induction lines generalizing outAmount gasUsed with
  | nil =>
      cases Except.ok.inj h
      simp [calculateLines]
  | cons line lines ih =>
      cases hcurrent : inAmount.or line.amountIn.unwrap with
      | none =>
          rw [calculateLines, hcurrent] at h
          simp at h
      | some current =>
          rw [calculateLines, hcurrent] at h ⊢
          dsimp only at h ⊢
          cases hresult : line.calculateWithInAmount quotes current with
          | error e =>
              rw [hresult] at h
              cases e <;> exact absurd h (by simp)
          | ok result =>
              rw [hresult] at h
              obtain ⟨hrest, hsum⟩ := ih h
              refine ⟨List.forall_mem_cons.mpr ⟨⟨current, result, rfl, hresult, rfl⟩, hrest⟩, ?_⟩
              have hamount : BitVec.ofNat 256 result.amount.toNat = result.amount := by simp
              rw [hsum, List.map_cons, total_cons, BitVec.ofNat_add, ← BitVec.add_assoc]
              exact congrArg (outAmount + · + _) hamount.symm

lemma amountIn_calculateLines (quotes : PoolQuotes) (lines : List SwapLine) (outAmount : U256)
    (gasUsed : UInt64) :
    (calculateLines quotes none lines outAmount gasUsed).2.map SwapLine.amountIn =
      lines.map SwapLine.amountIn := by
  induction lines generalizing outAmount gasUsed with
  | nil => rfl
  | cons line lines ih =>
      unfold calculateLines
      split
      · rfl
      · rename_i current hcurrent
        have hset : line.amountIn = .set current :=
          SwapAmountType.unwrap_eq_some_iff.mp hcurrent
        split
        · rw [List.map_cons, List.map_cons, ih, hset]
        · rw [List.map_cons, List.map_cons, hset]
        · rw [List.map_cons, List.map_cons, hset]

/-- The answer, and the step after it. -/
def calculateWithInAmount (quotes : PoolQuotes) (step : SwapStep) (inAmount : Option U256) :
    Except (Failure Report) (U256 × UInt64) × SwapStep :=
  ((calculateLines quotes inAmount step.swapLineVec 0 0).1,
    step.withLines (calculateLines quotes inAmount step.swapLineVec 0 0).2
      (path_calculateLines _ _ _ _ _))

lemma calculateWithInAmount_ok {quotes : PoolQuotes} {inAmount : Option U256}
    {answer : U256 × UInt64} (h : (step.calculateWithInAmount quotes inAmount).1 = .ok answer) :
    (∀ line ∈ (step.calculateWithInAmount quotes inAmount).2.swapLineVec,
      line.CalculatedIn quotes) ∧
      answer.1 = BitVec.ofNat 256 (step.calculateWithInAmount quotes inAmount).2.outTotal := by
  obtain ⟨hlines, hsum⟩ := calculateLines_ok h
  exact ⟨hlines, hsum.trans (BitVec.zero_add _)⟩

def canCalculateInAmount (quotes : PoolQuotes) (step : SwapStep) : Bool :=
  step.swapLineVec.all fun line => line.pools.all quotes.canCalculateInAmount

end SwapStep

end Kabu
