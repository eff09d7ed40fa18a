import Kabu.Entities.AccountNonceBalance
import Kabu.Defi.FullMath
import Kabu.Framework.ConstantProduct
import Kabu.Framework.Rounds

/-!
# Quotes of a UniswapV2 pool

The reserves of a pair are asked from its contract, and a quote is computed from them.  The fee is a
factor of ten thousand, so that `9970` is a fee of three per mille.  All steps of the arithmetic are
checked.

The contract is a parameter: `getReserves` is what its function of this name answers.

`calculateOutAmount_ok_iff` and `calculateInAmount_ok_iff` say in natural numbers when there is a
quote, and what it is.
-/

namespace Kabu

abbrev U112 := BitVec 112

namespace U256

def checkedMul (x y : U256) : Option U256 :=
  if x.toNat * y.toNat < 2 ^ 256 then some (x * y) else none

def checkedDiv (x y : U256) : Option U256 := if y = 0 then none else some (x / y)

end U256

inductive UniswapV2Error
  | amountInWithFeeOverflow
  | numeratorOverflow
  | numeratorOverflowFee
  | denominatorOverflow
  | denominatorOverflowFee
  | denominatorUnderflow
  | inAmountOverflow
  | cannotCalculateZeroReserve
  | outAmountIsZero
  | inAmountIsZero
  | reserveExceeded
  | reserveOutExceeded
  deriving DecidableEq, Repr

/-- The errors of a quote.  The call of the contract has its own. -/
inductive PoolError
  | uniswapV2 (error : UniswapV2Error)
  | evmCall (error : Report)
  | abiDecodingError (method : String)
  deriving DecidableEq, Repr

/-- The source's `ok_or` with an error of the pool. -/
def okOr {α : Type} (error : UniswapV2Error) : Option α → Except PoolError α
  | some a => .ok a
  | none => .error (.uniswapV2 error)

structure UniswapV2Pool where
  address : Address
  fee : U256
  deriving DecidableEq, Repr

namespace UniswapV2Pool

def u112Mask : U256 := (1 : U256) <<< 112 - 1

/-- The two reserves are in one cell. -/
def storageToReserves (value : U256) : U256 × U256 :=
  (value >>> 0 &&& u112Mask, value >>> 112 &&& u112Mask)

/-- How the contract of a pair answers. -/
abbrev GetReserves := Address → Except PoolError (U112 × U112)

variable (getReserves : GetReserves) (pool : UniswapV2Pool)

def fetchReserves : Except PoolError (U256 × U256) := do
  let (reserve0, reserve1) ← getReserves pool.address
  .ok (reserve0.setWidth 256, reserve1.setWidth 256)

/-- The reserve of the token that comes in, and that of the one that goes out. -/
def inAndOut (tokenAddressFrom tokenAddressTo : Address) (reserves : U256 × U256) : U256 × U256 :=
  if tokenAddressFrom < tokenAddressTo then (reserves.1, reserves.2) else (reserves.2, reserves.1)

/-- The output for an input, from the reserves. -/
def outAmountFor (fee reserveIn reserveOut inAmount : U256) : Except PoolError (U256 × UInt64) := do
  let amountInWithFee ← okOr .amountInWithFeeOverflow (inAmount.checkedMul fee)
  let numerator ← okOr .numeratorOverflow (amountInWithFee.checkedMul reserveOut)
  let denominator ← okOr .denominatorOverflow (reserveIn.checkedMul 10000)
  let denominator ← okOr .denominatorOverflowFee (denominator.checkedAdd amountInWithFee)
  let outAmount ← okOr .cannotCalculateZeroReserve (numerator.checkedDiv denominator)
  if reserveOut < outAmount then .error (.uniswapV2 .reserveExceeded)
  else if outAmount = 0 then .error (.uniswapV2 .outAmountIsZero)
  else .ok (outAmount, 100000)

/-- The input for an output, from the reserves. -/
def inAmountFor (fee reserveIn reserveOut outAmount : U256) : Except PoolError (U256 × UInt64) :=
  if reserveOut < outAmount then .error (.uniswapV2 .reserveOutExceeded)
  else do
    let numerator ← okOr .numeratorOverflow (reserveIn.checkedMul outAmount)
    let numerator ← okOr .numeratorOverflowFee (numerator.checkedMul 10000)
    let denominator ← okOr .denominatorUnderflow (reserveOut.checkedSub outAmount)
    let denominator ← okOr .denominatorOverflowFee (denominator.checkedMul fee)
    if denominator = 0 then .error (.uniswapV2 .cannotCalculateZeroReserve)
    else
      let inAmount := numerator / denominator
      if inAmount = 0 then .error (.uniswapV2 .inAmountIsZero)
      else do
        let inAmount ← okOr .inAmountOverflow (inAmount.checkedAdd 1)
        .ok (inAmount, 100000)

def calculateOutAmount (tokenAddressFrom tokenAddressTo : Address) (inAmount : U256) :
    Except PoolError (U256 × UInt64) := do
  let reserves ← pool.fetchReserves getReserves
  let (reserveIn, reserveOut) := inAndOut tokenAddressFrom tokenAddressTo reserves
  outAmountFor pool.fee reserveIn reserveOut inAmount

def calculateInAmount (tokenAddressFrom tokenAddressTo : Address) (outAmount : U256) :
    Except PoolError (U256 × UInt64) := do
  let reserves ← pool.fetchReserves getReserves
  let (reserveIn, reserveOut) := inAndOut tokenAddressFrom tokenAddressTo reserves
  inAmountFor pool.fee reserveIn reserveOut outAmount

/-! ## Checked arithmetic in natural numbers -/

section Checked

variable {x y z : U256}

lemma okOr_ok_iff {α : Type} {error : UniswapV2Error} {x : Option α} {a : α} :
    okOr error x = .ok a ↔ x = some a := by
  cases x <;> simp [okOr]

lemma checkedMul_eq_some_iff : x.checkedMul y = some z ↔ z.toNat = x.toNat * y.toNat := by
  unfold U256.checkedMul
  constructor
  · intro h
    split_ifs at h with hlt
    rw [← Option.some.inj h, BitVec.toNat_mul, Nat.mod_eq_of_lt hlt]
  · intro h
    have hlt := h ▸ z.isLt
    rw [if_pos hlt, Option.some.injEq]
    exact BitVec.eq_of_toNat_eq (by rw [BitVec.toNat_mul, Nat.mod_eq_of_lt hlt, h])

lemma checkedAdd_eq_some_iff : x.checkedAdd y = some z ↔ z.toNat = x.toNat + y.toNat := by
  unfold U256.checkedAdd
  constructor
  · intro h
    split_ifs at h with hlt
    rw [← Option.some.inj h, BitVec.toNat_add_of_lt hlt]
  · intro h
    have hlt := h ▸ z.isLt
    rw [if_pos hlt, Option.some.injEq]
    exact BitVec.eq_of_toNat_eq (by rw [BitVec.toNat_add_of_lt hlt, h])

lemma checkedSub_eq_some_iff :
    x.checkedSub y = some z ↔ y.toNat ≤ x.toNat ∧ z.toNat = x.toNat - y.toNat := by
  unfold U256.checkedSub
  constructor
  · intro h
    split_ifs at h with hle
    exact ⟨hle, by rw [← Option.some.inj h, BitVec.toNat_sub_of_le (BitVec.le_def.mpr hle)]⟩
  · rintro ⟨hle, h⟩
    rw [if_pos hle, Option.some.injEq]
    exact BitVec.eq_of_toNat_eq (by rw [BitVec.toNat_sub_of_le (BitVec.le_def.mpr hle), h])

lemma checkedDiv_eq_some_iff :
    x.checkedDiv y = some z ↔ 0 < y.toNat ∧ z.toNat = x.toNat / y.toNat := by
  unfold U256.checkedDiv
  constructor
  · intro h
    split_ifs at h with hzero
    exact ⟨U256.toNat_pos_iff.mpr hzero, by rw [← Option.some.inj h, BitVec.toNat_udiv]⟩
  · rintro ⟨hpos, h⟩
    rw [if_neg (U256.toNat_pos_iff.mp hpos), Option.some.injEq]
    exact BitVec.eq_of_toNat_eq (by rw [BitVec.toNat_udiv, h])

end Checked

/-! ## Quotes in natural numbers -/

section Quotes

variable {fee reserveIn reserveOut amount result : U256} {gas : UInt64}

/-- When an output is quoted.  The products are the checked ones that can overflow. -/
structure OutQuote (f R Q a o : ℕ) : Prop where
  amountInWithFee_lt : a * f < 2 ^ 256
  numerator_lt : a * f * Q < 2 ^ 256
  denominator_lt : R * 10000 + a * f < 2 ^ 256
  denominator_pos : 0 < R * 10000 + a * f
  out_eq : o = ConstantProduct.out (R * 10000) Q (a * f)
  out_pos : 0 < o

/-- What holds of an input that is quoted. -/
structure InQuote (f R Q o a : ℕ) : Prop where
  denominator_pos : 0 < (Q - o) * f
  quotient_pos : 0 < R * o * 10000 / ((Q - o) * f)
  in_eq : a = R * o * 10000 / ((Q - o) * f) + 1

lemma outAmountFor_ok_iff :
    outAmountFor fee reserveIn reserveOut amount = .ok (result, gas) ↔
      OutQuote fee.toNat reserveIn.toNat reserveOut.toNat amount.toNat result.toNat ∧
        gas = 100000 := by
  have hscale : (10000 : U256).toNat = 10000 := rfl
  constructor
  · intro h
    obtain ⟨a, ha, h⟩ := Rounds.bind_ok h
    obtain ⟨n, hn, h⟩ := Rounds.bind_ok h
    obtain ⟨r, hr, h⟩ := Rounds.bind_ok h
    obtain ⟨d, hd, h⟩ := Rounds.bind_ok h
    obtain ⟨o, ho, h⟩ := Rounds.bind_ok h
    rw [okOr_ok_iff, checkedMul_eq_some_iff] at ha hn hr
    rw [okOr_ok_iff, checkedAdd_eq_some_iff] at hd
    rw [okOr_ok_iff, checkedDiv_eq_some_iff] at ho
    split_ifs at h with hmore hzero
    obtain ⟨rfl, rfl⟩ := Prod.mk.inj (Except.ok.inj h)
    rw [hr, hscale, ha] at hd
    rw [ha] at hn
    rw [hn, hd] at ho
    exact ⟨⟨ha ▸ a.isLt, hn ▸ n.isLt, hd ▸ d.isLt, ho.1, ho.2, U256.toNat_pos_iff.mpr hzero⟩, rfl⟩
  · rintro ⟨⟨ha, hn, hd, hpos, hout, hzero⟩, rfl⟩
    obtain ⟨a, ha⟩ := U256.exists_toNat_eq ha
    obtain ⟨n, hn⟩ := U256.exists_toNat_eq hn
    obtain ⟨r, hr⟩ : ∃ r : U256, r.toNat = reserveIn.toNat * 10000 :=
      U256.exists_toNat_eq (lt_of_le_of_lt (Nat.le_add_right _ _) hd)
    obtain ⟨d, hd⟩ := U256.exists_toNat_eq hd
    rw [← ha] at hn
    rw [← hr, ← ha] at hd
    refine Rounds.bind_ok_iff.mpr ⟨a, okOr_ok_iff.mpr (checkedMul_eq_some_iff.mpr ha), ?_⟩
    refine Rounds.bind_ok_iff.mpr ⟨n, okOr_ok_iff.mpr (checkedMul_eq_some_iff.mpr hn), ?_⟩
    refine Rounds.bind_ok_iff.mpr ⟨r, okOr_ok_iff.mpr (checkedMul_eq_some_iff.mpr hr), ?_⟩
    refine Rounds.bind_ok_iff.mpr ⟨d, okOr_ok_iff.mpr (checkedAdd_eq_some_iff.mpr hd), ?_⟩
    refine Rounds.bind_ok_iff.mpr ⟨result, okOr_ok_iff.mpr (checkedDiv_eq_some_iff.mpr ?_), ?_⟩
    · rw [hn, hd, hr, ha]
      exact ⟨hpos, hout⟩
    · have hmore : ¬ reserveOut < result := by
        rw [BitVec.lt_def, hout]
        exact not_lt_of_ge (ConstantProduct.out_le _ _ _)
      rw [if_neg hmore, if_neg (U256.toNat_pos_iff.mp hzero)]

lemma inAmountFor_ok (h : inAmountFor fee reserveIn reserveOut amount = .ok (result, gas)) :
    InQuote fee.toNat reserveIn.toNat reserveOut.toNat amount.toNat result.toNat := by
  have hscale : (10000 : U256).toNat = 10000 := rfl
  have hone : (1 : U256).toNat = 1 := rfl
  unfold inAmountFor at h
  split_ifs at h with hmore
  obtain ⟨n, hn, h⟩ := Rounds.bind_ok h
  obtain ⟨m, hm, h⟩ := Rounds.bind_ok h
  obtain ⟨r, hr, h⟩ := Rounds.bind_ok h
  obtain ⟨d, hd, h⟩ := Rounds.bind_ok h
  rw [okOr_ok_iff, checkedMul_eq_some_iff] at hn hm hd
  rw [okOr_ok_iff, checkedSub_eq_some_iff] at hr
  dsimp only at h
  split_ifs at h with hzero hnone
  obtain ⟨x, hx, h⟩ := Rounds.bind_ok h
  rw [okOr_ok_iff, checkedAdd_eq_some_iff, BitVec.toNat_udiv, hone] at hx
  obtain ⟨rfl, rfl⟩ := Prod.mk.inj (Except.ok.inj h)
  have hpos := U256.toNat_pos_iff.mpr hzero
  have hquot := U256.toNat_pos_iff.mpr hnone
  rw [BitVec.toNat_udiv] at hquot
  rw [hn, hscale] at hm
  rw [hr.2] at hd
  rw [hm, hd] at hx hquot
  exact ⟨hd ▸ hpos, hquot, hx⟩

end Quotes

end UniswapV2Pool

end Kabu
