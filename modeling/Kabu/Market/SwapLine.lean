import Kabu.Market.SwapPath

/-!
# Swap lines and their prices

A swap line is a path with the amounts that go in and come out of it.  The amounts are calculated
by asking the pools of the path one after another: forward, each for what it gives for the amount
the one before it has given, or backward, each for what it wants.

The pools are a parameter of the model.  `PoolQuotes` is how they answer on a fixed database, and
nothing is assumed about the answers: any of them may be a failure, or any amount.

A calculation can fail, and it panics where a path has fewer tokens than its pools need.
`Failure` keeps the two apart, since the callers replace a failure by a default but not a panic.
-/

namespace Kabu

/-- How a function does not return. -/
inductive Failure (E : Type*)
  | error (error : E)
  | panic
  deriving DecidableEq, Repr

namespace Failure

variable {E E' α : Type*}

/-- The source's `unwrap_or`: a failure becomes the default, a panic stays. -/
def unwrapOr (default : α) : Except (Failure E) α → Except (Failure E') α
  | .ok a => .ok a
  | .error (.error _) => .ok default
  | .error .panic => .error .panic

/-- The source's `?` on a function that does not panic. -/
def lift : Except E α → Except (Failure E) α
  | .ok a => .ok a
  | .error e => .error (.error e)

/-- The source's `unwrap`. -/
def ofOption : Option α → Except (Failure E) α
  | some a => .ok a
  | none => .error .panic

lemma lift_ok {x : Except E α} {a : α} (h : lift x = .ok a) : x = .ok a := by
  cases x with
  | error e => simp [lift] at h
  | ok b => exact congrArg Except.ok (Except.ok.inj h)

end Failure

inductive SwapAmountType
  | notSet
  | set (amount : U256)
  | stack0
  | relativeStack (offset : UInt32)
  | balance (address : Address)
  deriving DecidableEq, Repr

namespace SwapAmountType

/-- `none` is the panic on an amount that is not set. -/
def unwrap : SwapAmountType → Option U256
  | .set x => some x
  | _ => none

def unwrapOrDefault (amount : SwapAmountType) : U256 := amount.unwrap.getD 0

def isSet (amount : SwapAmountType) : Bool := amount.unwrap.isSome

lemma unwrap_eq_some_iff {amount : SwapAmountType} {x : U256} :
    amount.unwrap = some x ↔ amount = .set x := by
  cases amount <;> simp [unwrap]

end SwapAmountType

structure CalculationResult where
  amountIn : U256
  amountOut : U256
  deriving DecidableEq, Repr

/-! ## Prices -/

inductive AbiError
  | bufferOverrun
  | invalidReturnDataSize (expected actual : ℕ)
  | invalidSelector
  | missingReturnData
  | invalidUtf8
  | other
  deriving DecidableEq, Repr

inductive SwapErrorKind
  | zeroOutAmount | almostZeroOutAmount | zeroInAmount | maxInAmount | insufficientLiquidity
  | uninitializedPool | zeroReserves | invalidReserves | poolNotFound
  | abiEncodingFailed
  | abiDecodingFailed (method : String) (reason : AbiError)
  | contractCallFailed (method : String) (revertReason : Option Bytes)
  | overflowInCalculation | underflowInCalculation | invalidK | invalidSqrtPrice
  | invalidTokenOrder | tokenNotInPool | sameTokenSwap
  | invalidTickRange | noLiquidityInRange | priceSlippageExceeded
  | invalidAmplificationParameter | convergenceFailure | invalidPoolType
  | unsupportedPoolType | invalidSwapPath
  | calculationError (message : String)
  deriving DecidableEq, Repr

structure SwapError where
  kind : SwapErrorKind
  pool : PoolId
  tokenFrom : Address
  tokenTo : Address
  isInAmount : Bool
  amount : U256
  deriving DecidableEq, Repr

/-- How the pools answer: an amount and the gas it takes, or a failure, of which the kind is
kept. -/
structure PoolQuotes where
  canCalculateInAmount : Pool → Bool
  calculateOutAmount : Pool → Address → Address → U256 → Except SwapErrorKind (U256 × UInt64)
  calculateInAmount : Pool → Address → Address → U256 → Except SwapErrorKind (U256 × UInt64)

/-- What a calculation returns. -/
structure Calculation where
  amount : U256
  gasUsed : UInt64
  calculationResults : List CalculationResult
  deriving DecidableEq, Repr

/-- One of the two directions of a calculation: how a pool between two tokens is asked, in the
order in which the tokens are passed, which answers are refused, and the side of the amount that
an error reports. -/
structure QuoteSide where
  quote : Pool → Address → Address → U256 → Except SwapErrorKind (U256 × UInt64)
  refuse : U256 → Option SwapErrorKind
  swapError : SwapErrorKind → Pool → Address → Address → U256 → SwapError

namespace QuoteSide

/-- The loop over the pools, with the tokens still ahead and the amount the last pool has
answered. -/
def calculate (side : QuoteSide) :
    List Pool → List Token → U256 → Calculation → Except (Failure SwapError) Calculation
  | [], _, _, done => .ok done
  | pool :: pools, here :: next :: tokens, current, done =>
      match side.quote pool here.address next.address current with
      | .error kind =>
          .error (.error (side.swapError kind pool here.address next.address current))
      | .ok answer =>
          match side.refuse answer.1 with
          | some kind =>
              .error (.error (side.swapError kind pool here.address next.address current))
          | none =>
              side.calculate pools (next :: tokens) answer.1
                ⟨answer.1, done.gasUsed + answer.2,
                  done.calculationResults ++ [⟨current, answer.1⟩]⟩
  | _ :: _, _, _, _ => .error .panic

end QuoteSide

def minValidOutAmount : U256 := 0x100

/-- Forward, refusing amounts that are zero or almost. -/
def PoolQuotes.inSide (quotes : PoolQuotes) : QuoteSide where
  quote := quotes.calculateOutAmount
  refuse out :=
    if out = 0 then some .zeroOutAmount
    else if out < minValidOutAmount then some .almostZeroOutAmount
    else none
  swapError kind pool here next amount := ⟨kind, pool.getPoolId, here, next, true, amount⟩

/-- Backward, so the token that is passed first is the one the pool swaps to. -/
def PoolQuotes.outSide (quotes : PoolQuotes) : QuoteSide where
  quote pool here next := quotes.calculateInAmount pool next here
  refuse input :=
    if input = BitVec.allOnes 256 then some .maxInAmount
    else if input = 0 then some .zeroInAmount
    else none
  swapError kind pool here next amount := ⟨kind, pool.getPoolId, next, here, false, amount⟩

/-! ## Swap lines -/

structure SwapLine where
  path : SwapPath
  amountIn : SwapAmountType
  amountOut : SwapAmountType
  calculationResults : List CalculationResult
  swapTo : Option Address
  gasUsed : Option UInt64

namespace SwapLine

def pools (line : SwapLine) : List Pool := line.path.pools

def tokens (line : SwapLine) : List Token := line.path.tokens

def getFirstToken (line : SwapLine) : Option Token := line.tokens.head?

def getLastToken (line : SwapLine) : Option Token := line.tokens.getLast?

def calculateWithInAmount (quotes : PoolQuotes) (line : SwapLine) (inAmount : U256) :
    Except (Failure SwapError) Calculation :=
  quotes.inSide.calculate line.pools line.tokens inAmount ⟨0, 0, []⟩

def calculateWithOutAmount (quotes : PoolQuotes) (line : SwapLine) (outAmount : U256) :
    Except (Failure SwapError) Calculation :=
  quotes.outSide.calculate line.pools.reverse line.tokens.reverse outAmount ⟨0, 0, []⟩

/-- Two lines, one up to the pool and one from it on.  The slices panic where the line is too
short. -/
def split (line : SwapLine) (poolIndex : ℕ) : Except (Failure Report) (SwapLine × SwapLine) :=
  if poolIndex + 1 ≤ line.tokens.length ∧ poolIndex ≤ line.pools.length then
    .ok ({ path := ⟨line.tokens.take (poolIndex + 1), line.pools.take poolIndex, false, []⟩
           amountIn := line.amountIn
           amountOut := .notSet
           calculationResults := []
           swapTo := none
           gasUsed := none },
         { path := ⟨line.tokens.drop poolIndex, line.pools.drop poolIndex, false, []⟩
           amountIn := .notSet
           amountOut := line.amountOut
           calculationResults := []
           swapTo := none
           gasUsed := none })
  else .error .panic

/-- The amounts of the line are those of a calculation from what goes in. -/
def CalculatedIn (quotes : PoolQuotes) (line : SwapLine) : Prop :=
  ∃ inAmount result, line.amountIn = .set inAmount ∧
    line.calculateWithInAmount quotes inAmount = .ok result ∧ line.amountOut = .set result.amount

section Congr

variable {quotes : PoolQuotes} {line line' : SwapLine}

lemma calculateWithInAmount_congr (hpath : line'.path = line.path) (x : U256) :
    line'.calculateWithInAmount quotes x = line.calculateWithInAmount quotes x := by
  unfold calculateWithInAmount pools tokens
  rw [hpath]

lemma calculateWithOutAmount_congr (hpath : line'.path = line.path) (x : U256) :
    line'.calculateWithOutAmount quotes x = line.calculateWithOutAmount quotes x := by
  unfold calculateWithOutAmount pools tokens
  rw [hpath]

end Congr

end SwapLine

/-- The last pool has answered what a calculation returns, and it was not refused. -/
lemma QuoteSide.last_answer {side : QuoteSide} {pools : List Pool} {tokens : List Token} {x : U256}
    {done result : Calculation} (hpools : pools ≠ [])
    (h : side.calculate pools tokens x done = .ok result) : side.refuse result.amount = none ∧
      ∃ pool here next x answer, side.quote pool here next x = .ok answer ∧
        answer.1 = result.amount := by
  induction pools generalizing tokens x done with
  | nil => exact absurd rfl hpools
  | cons pool pools ih =>
      rcases tokens with _ | ⟨here, _ | ⟨next, tokens⟩⟩
      · simp [calculate] at h
      · simp [calculate] at h
      · unfold calculate at h
        split at h
        · simp at h
        · rename_i answer hanswer
          split at h
          · simp at h
          · rename_i hrefuse
            by_cases hlast : pools = []
            · rw [hlast] at h
              cases Except.ok.inj h
              exact ⟨hrefuse, _, _, _, _, answer, hanswer, rfl⟩
            · exact ih hlast h

/-- What the pools answer for what they give is below the bound. -/
def PoolQuotes.GivesBelow (quotes : PoolQuotes) (bound : ℕ) : Prop :=
  ∀ pool tokenFrom tokenTo x answer,
    quotes.calculateOutAmount pool tokenFrom tokenTo x = .ok answer → answer.1.toNat < bound

lemma SwapLine.amount_lt_of_calculate {quotes : PoolQuotes} {bound : ℕ}
    (hquotes : quotes.GivesBelow bound) (hbound : 0 < bound) {line : SwapLine} {x : U256}
    {result : Calculation} (h : line.calculateWithInAmount quotes x = .ok result) :
    result.amount.toNat < bound := by
  by_cases hpools : line.pools = []
  · rw [calculateWithInAmount, hpools] at h
    cases Except.ok.inj h
    exact hbound
  · obtain ⟨-, pool, here, next, x, answer, hanswer, hamount⟩ := QuoteSide.last_answer hpools h
    exact hamount ▸ hquotes pool here next x answer hanswer

end Kabu
