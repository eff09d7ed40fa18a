import Kabu.Defi.UniswapV2Pool
import Mathlib.Logic.Relation

/-!
# What the quotes of a pair are worth

A pair contract accepts a swap if something goes out, the reserve is not emptied, and the product of
the reserves with the fee taken off the input does not fall (`Accepts`).  In the terms of a constant
product market this is `Covers`, and three facts about the quotes follow from what they say about
it.

* Quotes of inputs are accepted, and so are quotes of outputs, except where the reserve of the token
  that comes in is empty: then the whole other reserve is quoted.
* The input that is quoted for an output is quoted at least that output, and it is at most two units
  too much.
* A trade that is made in parts never gives more than the trade as a whole.

Trades at the quotes, in both directions and as often as one likes, never lower the product of the
reserves (`trades_never_gain`).
-/

namespace Kabu

open ConstantProduct

namespace UniswapV2Pool

variable {getReserves : GetReserves} {pool : UniswapV2Pool} {tokenFrom tokenTo : Address}
  {reserves : U256 × U256} {amount result : U256} {gas : UInt64}

/-! ## Quotes of a pool -/

lemma calculateOutAmount_ok_iff :
    pool.calculateOutAmount getReserves tokenFrom tokenTo amount = .ok (result, gas) ↔
      ∃ reserves, pool.fetchReserves getReserves = .ok reserves ∧
        OutQuote pool.fee.toNat (inAndOut tokenFrom tokenTo reserves).1.toNat
          (inAndOut tokenFrom tokenTo reserves).2.toNat amount.toNat result.toNat ∧
        gas = 100000 := by
  refine Rounds.bind_ok_iff.trans (exists_congr fun reserves => and_congr_right fun _ => ?_)
  exact outAmountFor_ok_iff

lemma calculateInAmount_ok
    (h : pool.calculateInAmount getReserves tokenFrom tokenTo amount = .ok (result, gas)) :
    ∃ reserves, pool.fetchReserves getReserves = .ok reserves ∧
      InQuote pool.fee.toNat (inAndOut tokenFrom tokenTo reserves).1.toNat
        (inAndOut tokenFrom tokenTo reserves).2.toNat amount.toNat result.toNat := by
  obtain ⟨reserves, hreserves, h⟩ := Rounds.bind_ok h
  exact ⟨reserves, hreserves, inAmountFor_ok h⟩

section

variable {f R Q a o : ℕ}

lemma OutQuote.covers (h : OutQuote f R Q a o) : Covers (R * 10000) Q (a * f) o :=
  h.out_eq ▸ covers_out h.denominator_pos

lemma OutQuote.le (h : OutQuote f R Q a o) : o ≤ Q := h.out_eq ▸ out_le _ _ _

lemma InQuote.lt (h : InQuote f R Q o a) : o < Q :=
  Nat.lt_of_sub_pos (Nat.pos_of_mul_pos_right h.denominator_pos)

lemma InQuote.covers (h : InQuote f R Q o a) : Covers (R * 10000) Q (a * f) o := by
  have hlt : R * o * 10000 < a * ((Q - o) * f) := by
    rw [← Nat.div_lt_iff_lt_mul h.denominator_pos, h.in_eq]
    exact Nat.lt_succ_self _
  calc R * 10000 * o = R * o * 10000 := Nat.mul_right_comm _ _ _
    _ ≤ a * ((Q - o) * f) := hlt.le
    _ = a * f * (Q - o) := by rw [Nat.mul_comm (Q - o), Nat.mul_assoc]

/-- Two units less are not. -/
lemma InQuote.not_covers (h : InQuote f R Q o a) (ha : 2 ≤ a) :
    ¬ Covers (R * 10000) Q ((a - 2) * f) o := by
  intro hcovers
  have hle : (a - 1) * ((Q - o) * f) ≤ R * o * 10000 := by
    rw [← Nat.le_div_iff_mul_le h.denominator_pos]
    have := h.in_eq
    omega
  have hless : (a - 2) * ((Q - o) * f) < (a - 1) * ((Q - o) * f) :=
    Nat.mul_lt_mul_of_pos_right (by omega) h.denominator_pos
  have hsame : (a - 2) * f * (Q - o) = (a - 2) * ((Q - o) * f) := by
    rw [Nat.mul_comm (Q - o), Nat.mul_assoc]
  rw [Covers, hsame, Nat.mul_right_comm] at hcovers
  omega

end

/-! ## There and back -/

/-- **The quote of a quote.** -/
theorem calculateInAmount_inverse
    (h : pool.calculateInAmount getReserves tokenFrom tokenTo amount = .ok (result, gas)) :
    (∀ y gas, pool.calculateOutAmount getReserves tokenFrom tokenTo result = .ok (y, gas) →
        amount ≤ y) ∧
      (2 ≤ result.toNat → ∀ z gas,
        pool.calculateOutAmount getReserves tokenFrom tokenTo (result - 2) = .ok (z, gas) →
        z < amount) := by
  obtain ⟨reserves, hreserves, hin⟩ := calculateInAmount_ok h
  constructor
  · intro y gas hy
    obtain ⟨reserves', hreserves', hout, -⟩ := calculateOutAmount_ok_iff.mp hy
    obtain rfl := Except.ok.inj (hreserves.symm.trans hreserves')
    rw [BitVec.le_def, hout.out_eq, le_out_iff hout.denominator_pos hin.lt.le]
    exact hin.covers
  · intro htwo z gas hz
    obtain ⟨reserves', hreserves', hout, -⟩ := calculateOutAmount_ok_iff.mp hz
    obtain rfl := Except.ok.inj (hreserves.symm.trans hreserves')
    have hsub : (result - 2).toNat = result.toNat - 2 := BitVec.toNat_sub_of_le htwo
    rw [BitVec.lt_def, hout.out_eq, ← not_le, le_out_iff hout.denominator_pos hin.lt.le, hsub]
    exact hin.not_covers htwo

/-- A pair with a thousand of each token. -/
def evenReserves : GetReserves := fun _ => .ok (1000, 1000)

def evenPool : UniswapV2Pool := ⟨1, 9970⟩

/-- For an output of `100` an input of `112` is quoted.  It gives `100`, and `110` gives `98`. -/
theorem calculateInAmount_inverse_of_hundred : (100 : U256) ≤ 100 ∧ (98 : U256) < 100 := by
  have h : evenPool.calculateInAmount evenReserves 1 2 100 = .ok (112, 100000) := by decide
  obtain ⟨hback, htight⟩ := calculateInAmount_inverse h
  exact ⟨hback 100 100000 (by decide), htight (by decide) 98 100000 (by decide)⟩

/-! ## What the contract accepts -/

/-- The contract's conditions on an input `a` and an output `o`, for a fee factor `f`. -/
structure Accepts (f R Q a o : ℕ) : Prop where
  out_pos : 0 < o
  out_lt : o < Q
  product_le : 10000 * R * Q ≤ (10000 * R + f * a) * (Q - o)

lemma accepts_of_covers {f R Q a o : ℕ} (hpos : 0 < o) (hlt : o < Q)
    (h : Covers (R * 10000) Q (a * f) o) : Accepts f R Q a o := by
  refine ⟨hpos, hlt, ?_⟩
  rw [Nat.mul_comm 10000 R, Nat.mul_comm f a]
  exact (product_le_iff hlt.le).mpr h

/-- **Quotes that the contract accepts.**  The amount is an input of which the output is quoted, and
an output for which the input is. -/
theorem quotes_accepted_iff {cell : U256}
    (hread : pool.fetchReserves getReserves = .ok (storageToReserves cell))
    (hfee : 1 ≤ pool.fee.toNat ∧ pool.fee.toNat ≤ 10000) (tokenFrom tokenTo : Address)
    (amount : U256) {R Q : U256}
    (hRQ : inAndOut tokenFrom tokenTo (storageToReserves cell) = (R, Q)) :
    ((∀ out gas, pool.calculateOutAmount getReserves tokenFrom tokenTo amount = .ok (out, gas) →
        Accepts pool.fee.toNat R.toNat Q.toNat amount.toNat out.toNat) ∧
      (0 < amount.toNat → ∀ a gas,
        pool.calculateInAmount getReserves tokenFrom tokenTo amount = .ok (a, gas) →
        Accepts pool.fee.toNat R.toNat Q.toNat a.toNat amount.toNat)) ↔
      R ≠ 0 ∨ Q = 0 ∨ amount = 0 ∨ 2 ^ 256 ≤ amount.toNat * pool.fee.toNat ∨
        2 ^ 256 ≤ amount.toNat * pool.fee.toNat * Q.toNat := by
  have hout : ∀ out gas,
      pool.calculateOutAmount getReserves tokenFrom tokenTo amount = .ok (out, gas) ↔
        OutQuote pool.fee.toNat R.toNat Q.toNat amount.toNat out.toNat ∧ gas = 100000 := by
    intro out gas
    rw [calculateOutAmount_ok_iff, hread]
    simp only [Except.ok.injEq, exists_eq_left', hRQ]
  constructor
  · rintro ⟨hquotes, -⟩
    by_contra hnot
    simp only [not_or, ne_eq, not_not, not_le] at hnot
    obtain ⟨rfl, hQ, hamount, hfits, hfits'⟩ := hnot
    have hpos : 0 < amount.toNat * pool.fee.toNat :=
      Nat.mul_pos (U256.toNat_pos_iff.mpr hamount) hfee.1
    have hall : Q.toNat = ConstantProduct.out ((0 : U256).toNat * 10000) Q.toNat
        (amount.toNat * pool.fee.toNat) := by
      rw [U256.toNat_zero, Nat.zero_mul, out_of_empty hpos]
    have haccepts := hquotes Q 100000 ((hout _ _).mpr
      ⟨⟨hfits, hfits', by simpa using hfits, by simpa using hpos, hall,
        U256.toNat_pos_iff.mpr hQ⟩, rfl⟩)
    exact absurd haccepts.out_lt (Nat.lt_irrefl _)
  · intro hcond
    refine ⟨fun out gas hquote => ?_, fun hpos a gas hquote => ?_⟩
    · obtain ⟨hquote, -⟩ := (hout out gas).mp hquote
      have hQ : 0 < Q.toNat := lt_of_lt_of_le hquote.out_pos hquote.le
      have hR : 0 < R.toNat * 10000 := by
        refine Nat.mul_pos (U256.toNat_pos_iff.mpr ?_) (by decide)
        rcases hcond with hR | hzero | rfl | hover | hover
        · exact hR
        · exact absurd hzero (U256.toNat_pos_iff.mp hQ)
        · -- nothing is quoted for nothing
          have hnone := hquote.out_eq
          rw [U256.toNat_zero, Nat.zero_mul, ConstantProduct.out, Nat.zero_mul, Nat.zero_div]
            at hnone
          exact absurd hquote.out_pos (by omega)
        · exact absurd hquote.amountInWithFee_lt (not_lt_of_ge hover)
        · exact absurd hquote.numerator_lt (not_lt_of_ge hover)
      exact accepts_of_covers hquote.out_pos (hquote.out_eq ▸ out_lt hR hQ) hquote.covers
    · obtain ⟨reserves, hreserves, hquote⟩ := calculateInAmount_ok hquote
      obtain rfl := Except.ok.inj (hread.symm.trans hreserves)
      rw [hRQ] at hquote
      exact accepts_of_covers hpos hquote.lt hquote.covers

/-- A cell in which the second reserve is a thousand, and the contract that reads it. -/
def emptySideCell : U256 := 1000 <<< 112

def emptySideReserves : GetReserves := fun _ => .ok (0, 1000)

/-- For any amount of the token of which there is nothing, all of the other one is quoted. -/
theorem whole_reserve_quoted :
    evenPool.fetchReserves emptySideReserves = .ok (storageToReserves emptySideCell) ∧
      evenPool.calculateOutAmount emptySideReserves 1 2 1 = .ok (1000, 100000) ∧
      ¬ Accepts evenPool.fee.toNat 0 1000 1 1000 :=
  ⟨by decide, by decide, fun h => absurd h.out_lt (by decide)⟩

/-- In the pair with a thousand of each token `112` for `100` is accepted. -/
theorem quotes_accepted_of_hundred :
    Accepts evenPool.fee.toNat 1000 1000 112 100 := by
  have hread : evenPool.fetchReserves evenReserves =
      .ok (storageToReserves (1000 <<< 112 + 1000)) := by decide
  have hsides : inAndOut 1 2 (storageToReserves (1000 <<< 112 + 1000)) = (1000, 1000) := by decide
  have hquotes := (quotes_accepted_iff hread (by decide) 1 2 112 hsides).mpr (Or.inl (by decide))
  exact hquotes.1 100 100000 (by decide)

/-! ## Trades in parts -/

/-- The reserves in the order in which a trade uses them. -/
def sides (tokenFrom tokenTo : Address) (reserves : U112 × U112) : U112 × U112 :=
  if tokenFrom < tokenTo then (reserves.1, reserves.2) else (reserves.2, reserves.1)

/-- The reserves that a trade leaves. -/
def trade (tokenFrom tokenTo : Address) (reserves : U112 × U112) (a o : U256) : U112 × U112 :=
  sides tokenFrom tokenTo ((sides tokenFrom tokenTo reserves).1 + a.setWidth 112,
    (sides tokenFrom tokenTo reserves).2 - o.setWidth 112)

/-- The quotes of amounts one after another, each on the reserves that the ones before it leave. -/
def quotesInTurn (pool : UniswapV2Pool) (tokenFrom tokenTo : Address) :
    U112 × U112 → List U256 → Except PoolError (List U256)
  | _, [] => .ok []
  | reserves, a :: rest => do
      let (out, _) ← pool.calculateOutAmount (fun _ => .ok reserves) tokenFrom tokenTo a
      let outs ← quotesInTurn pool tokenFrom tokenTo (trade tokenFrom tokenTo reserves a out) rest
      .ok (out :: outs)

section Parts

variable {reserves : U112 × U112}

lemma sides_sides (tokenFrom tokenTo : Address) (reserves : U112 × U112) :
    sides tokenFrom tokenTo (sides tokenFrom tokenTo reserves) = reserves := by
  unfold sides
  split_ifs <;> rfl

lemma fetchReserves_on : pool.fetchReserves (fun _ => .ok reserves) =
    .ok (reserves.1.setWidth 256, reserves.2.setWidth 256) := rfl

lemma inAndOut_on :
    inAndOut tokenFrom tokenTo (reserves.1.setWidth 256, reserves.2.setWidth 256) =
      ((sides tokenFrom tokenTo reserves).1.setWidth 256,
        (sides tokenFrom tokenTo reserves).2.setWidth 256) := by
  unfold inAndOut sides
  split_ifs <;> rfl

lemma calculateOutAmount_on_iff :
    pool.calculateOutAmount (fun _ => .ok reserves) tokenFrom tokenTo amount = .ok (result, gas) ↔
      OutQuote pool.fee.toNat (sides tokenFrom tokenTo reserves).1.toNat
        (sides tokenFrom tokenTo reserves).2.toNat amount.toNat result.toNat ∧ gas = 100000 := by
  rw [calculateOutAmount_ok_iff, fetchReserves_on]
  simp only [Except.ok.injEq, exists_eq_left', inAndOut_on]
  rw [BitVec.toNat_setWidth_of_le (by decide), BitVec.toNat_setWidth_of_le (by decide)]

lemma toNat_trade {a o : U256}
    (hin : (sides tokenFrom tokenTo reserves).1.toNat + a.toNat < 2 ^ 112)
    (hout : o.toNat ≤ (sides tokenFrom tokenTo reserves).2.toNat) :
    (sides tokenFrom tokenTo (trade tokenFrom tokenTo reserves a o)).1.toNat =
        (sides tokenFrom tokenTo reserves).1.toNat + a.toNat ∧
      (sides tokenFrom tokenTo (trade tokenFrom tokenTo reserves a o)).2.toNat =
        (sides tokenFrom tokenTo reserves).2.toNat - o.toNat := by
  rw [trade, sides_sides]
  have hlt := (sides tokenFrom tokenTo reserves).2.isLt
  have ha : (a.setWidth 112).toNat = a.toNat := by
    rw [BitVec.toNat_setWidth, Nat.mod_eq_of_lt (by omega)]
  have ho : (o.setWidth 112).toNat = o.toNat := by
    rw [BitVec.toNat_setWidth, Nat.mod_eq_of_lt (by omega)]
  constructor
  · rw [BitVec.toNat_add_of_lt (ha ▸ hin), ha]
  · rw [BitVec.toNat_sub_of_le (BitVec.le_def.mpr (ho.trans_le hout)), ho]

/-- **Parts.**  The inputs together cover the outputs together. -/
lemma covers_of_quotesInTurn (hfee : pool.fee.toNat ≤ 10000) {amounts outs : List U256}
    (hsum : (sides tokenFrom tokenTo reserves).1.toNat + (amounts.map BitVec.toNat).sum < 2 ^ 112)
    (h : quotesInTurn pool tokenFrom tokenTo reserves amounts = .ok outs) :
    (outs.map BitVec.toNat).sum ≤ (sides tokenFrom tokenTo reserves).2.toNat ∧
      Covers ((sides tokenFrom tokenTo reserves).1.toNat * 10000)
        (sides tokenFrom tokenTo reserves).2.toNat
        ((amounts.map BitVec.toNat).sum * pool.fee.toNat) (outs.map BitVec.toNat).sum := by
  induction amounts generalizing reserves outs with
  | nil =>
      obtain rfl := Except.ok.inj h
      exact ⟨Nat.zero_le _, Nat.zero_le _⟩
  | cons a rest ih =>
      obtain ⟨⟨out, gas⟩, hquote, h⟩ := Rounds.bind_ok h
      obtain ⟨outs, hrest, h⟩ := Rounds.bind_ok h
      obtain rfl := Except.ok.inj h
      obtain ⟨hquote, -⟩ := calculateOutAmount_on_iff.mp hquote
      rw [List.map_cons, List.sum_cons] at hsum ⊢
      rw [List.map_cons, List.sum_cons]
      obtain ⟨hR, hQ⟩ := toNat_trade (a := a) (o := out) (by omega) hquote.le
      obtain ⟨hle, hcovers⟩ := ih (by omega) hrest
      rw [hR, hQ] at hcovers
      rw [hQ] at hle
      have hout := hquote.le
      refine ⟨by omega, ?_⟩
      rw [Nat.add_mul]
      refine hquote.covers.add hcovers ?_ hout hle
      -- the reserve grows by the whole amount, and only the part without the fee is paid with
      rw [Nat.add_mul]
      exact Nat.add_le_add_left (Nat.mul_le_mul_left _ hfee) _

/-- Where there is a quote, something goes out, and there is something to divide by. -/
lemma pos_of_quotesInTurn {amounts outs : List U256} (hne : amounts ≠ [])
    (h : quotesInTurn pool tokenFrom tokenTo reserves amounts = .ok outs) :
    0 < (outs.map BitVec.toNat).sum ∧ 0 < (sides tokenFrom tokenTo reserves).1.toNat * 10000 +
      (amounts.map BitVec.toNat).sum * pool.fee.toNat := by
  obtain ⟨a, rest, rfl⟩ := List.exists_cons_of_ne_nil hne
  obtain ⟨⟨out, gas⟩, hquote, h⟩ := Rounds.bind_ok h
  obtain ⟨outs, -, h⟩ := Rounds.bind_ok h
  obtain rfl := Except.ok.inj h
  obtain ⟨hquote, -⟩ := calculateOutAmount_on_iff.mp hquote
  rw [List.map_cons, List.sum_cons, List.map_cons, List.sum_cons, Nat.add_mul, ← Nat.add_assoc]
  exact ⟨Nat.add_pos_left hquote.out_pos _, Nat.add_pos_left hquote.denominator_pos _⟩

end Parts

/-- **Splitting a trade gains nothing.** -/
theorem quotesInTurn_le {reserves : U112 × U112} {amounts outs : List U256}
    (hfee : 1 ≤ pool.fee.toNat ∧ pool.fee.toNat ≤ 10000) (hne : amounts ≠ [])
    (hsum : (sides tokenFrom tokenTo reserves).1.toNat + (amounts.map BitVec.toNat).sum < 2 ^ 112)
    (h : quotesInTurn pool tokenFrom tokenTo reserves amounts = .ok outs) :
    ∃ quote gas, pool.calculateOutAmount (fun _ => .ok reserves) tokenFrom tokenTo
        (BitVec.ofNat 256 (amounts.map BitVec.toNat).sum) = .ok (quote, gas) ∧
      (outs.map BitVec.toNat).sum ≤ quote.toNat := by
  obtain ⟨hle, hcovers⟩ := covers_of_quotesInTurn hfee.2 hsum h
  obtain ⟨hpos, hdenominator⟩ := pos_of_quotesInTurn hne h
  obtain ⟨R, hR⟩ : ∃ R, R = (sides tokenFrom tokenTo reserves).1.toNat := ⟨_, rfl⟩
  obtain ⟨Q, hQ⟩ : ∃ Q, Q = (sides tokenFrom tokenTo reserves).2.toNat := ⟨_, rfl⟩
  have hQlt : Q < 2 ^ 112 := hQ ▸ (sides tokenFrom tokenTo reserves).2.isLt
  rw [← hR] at hsum hcovers hdenominator
  rw [← hQ] at hle hcovers
  generalize (amounts.map BitVec.toNat).sum = A at *
  generalize (outs.map BitVec.toNat).sum = S at *
  have hA : (BitVec.ofNat 256 A).toNat = A := by
    rw [BitVec.toNat_ofNat, Nat.mod_eq_of_lt (by omega)]
  have hwithFee : A * pool.fee.toNat ≤ 2 ^ 112 * 10000 :=
    Nat.mul_le_mul (by omega) hfee.2
  have hnumerator : A * pool.fee.toNat * Q ≤ 2 ^ 112 * 10000 * 2 ^ 112 :=
    Nat.mul_le_mul hwithFee hQlt.le
  obtain ⟨quote, hquote⟩ : ∃ quote : U256,
      quote.toNat = ConstantProduct.out (R * 10000) Q (A * pool.fee.toNat) :=
    U256.exists_toNat_eq (lt_of_le_of_lt (out_le _ _ _) (by omega))
  have hS : S ≤ quote.toNat := hquote ▸ (le_out_iff hdenominator hle).mpr hcovers
  refine ⟨quote, 100000, calculateOutAmount_on_iff.mpr ⟨?_, rfl⟩, hS⟩
  rw [hA, ← hR, ← hQ]
  exact ⟨by omega, by omega, by omega, hdenominator, hquote, by omega⟩

/-- Twice `50` gives `47` and then `43`, and `100` gives `90`. -/
theorem quotesInTurn_le_of_two :
    ∃ quote gas, evenPool.calculateOutAmount (fun _ => .ok (1000, 1000)) 1 2
        (BitVec.ofNat 256 ([50, 50].map (BitVec.toNat (w := 256))).sum) = .ok (quote, gas) ∧
      ([47, 43].map (BitVec.toNat (w := 256))).sum ≤ quote.toNat :=
  quotesInTurn_le (by decide) (by decide) (by decide) (by decide)

/-! ## Trades one after another -/

/-- One trade at a quote, of an input or of an output, in either direction. -/
inductive Trades (pool : UniswapV2Pool) (reserves : U112 × U112) : U112 × U112 → Prop
  | quoted {tokenFrom tokenTo : Address} {a o : U256} {gas : UInt64} :
      (pool.calculateOutAmount (fun _ => .ok reserves) tokenFrom tokenTo a = .ok (o, gas) ∨
        pool.calculateInAmount (fun _ => .ok reserves) tokenFrom tokenTo o = .ok (a, gas)) →
      (sides tokenFrom tokenTo reserves).1.toNat + a.toNat < 2 ^ 112 →
      Trades pool reserves (trade tokenFrom tokenTo reserves a o)

section Run

variable {reserves reserves' : U112 × U112}

lemma calculateInAmount_on
    (h : pool.calculateInAmount (fun _ => .ok reserves) tokenFrom tokenTo amount =
      .ok (result, gas)) :
    InQuote pool.fee.toNat (sides tokenFrom tokenTo reserves).1.toNat
      (sides tokenFrom tokenTo reserves).2.toNat amount.toNat result.toNat := by
  obtain ⟨_, hreserves, hquote⟩ := calculateInAmount_ok h
  obtain rfl := Except.ok.inj (fetchReserves_on.symm.trans hreserves)
  rwa [inAndOut_on, BitVec.toNat_setWidth_of_le (by decide),
    BitVec.toNat_setWidth_of_le (by decide)] at hquote

lemma product_sides (tokenFrom tokenTo : Address) (reserves : U112 × U112) :
    (sides tokenFrom tokenTo reserves).1.toNat * (sides tokenFrom tokenTo reserves).2.toNat =
      reserves.1.toNat * reserves.2.toNat := by
  unfold sides
  split_ifs
  · rfl
  · exact Nat.mul_comm _ _

lemma Trades.product_le (hfee : pool.fee.toNat ≤ 10000) (h : pool.Trades reserves reserves') :
    reserves.1.toNat * reserves.2.toNat ≤ reserves'.1.toNat * reserves'.2.toNat := by
  obtain @⟨tokenFrom, tokenTo, a, o, gas, hquote, hfits⟩ := h
  obtain ⟨R, hR⟩ : ∃ R, R = (sides tokenFrom tokenTo reserves).1.toNat := ⟨_, rfl⟩
  obtain ⟨Q, hQ⟩ : ∃ Q, Q = (sides tokenFrom tokenTo reserves).2.toNat := ⟨_, rfl⟩
  obtain ⟨ho, hcovers⟩ : o.toNat ≤ Q ∧
      Covers (R * 10000) Q (a.toNat * pool.fee.toNat) o.toNat := by
    rw [hR, hQ]
    rcases hquote with hquote | hquote
    · obtain ⟨hquote, -⟩ := calculateOutAmount_on_iff.mp hquote
      exact ⟨hquote.le, hquote.covers⟩
    · have hquote := calculateInAmount_on hquote
      exact ⟨hquote.lt.le, hquote.covers⟩
  obtain ⟨hin, hout⟩ := toNat_trade hfits (hQ ▸ ho)
  rw [← product_sides tokenFrom tokenTo, ← product_sides tokenFrom tokenTo (trade _ _ _ _ _), hin,
    hout, ← hR, ← hQ, product_le_iff ho]
  -- what an input covers with the fee taken off, it covers without
  refine Nat.le_of_mul_le_mul_right ?_ (show 0 < 10000 by decide)
  calc R * o.toNat * 10000 = R * 10000 * o.toNat := Nat.mul_right_comm _ _ _
    _ ≤ a.toNat * pool.fee.toNat * (Q - o.toNat) := hcovers
    _ ≤ a.toNat * 10000 * (Q - o.toNat) := Nat.mul_le_mul_right _ (Nat.mul_le_mul_left _ hfee)
    _ = a.toNat * (Q - o.toNat) * 10000 := Nat.mul_right_comm _ _ _

/-- **No run of trades takes something for nothing.**  The product of the reserves does not fall,
and a pair that has no more of one token than before has no less of the other. -/
theorem trades_never_gain (hfee : pool.fee.toNat ≤ 10000)
    (h : Relation.ReflTransGen pool.Trades reserves reserves') :
    reserves.1.toNat * reserves.2.toNat ≤ reserves'.1.toNat * reserves'.2.toNat ∧
      (0 < reserves.1 → reserves'.1 ≤ reserves.1 → reserves.2 ≤ reserves'.2) ∧
      (0 < reserves.2 → reserves'.2 ≤ reserves.2 → reserves.1 ≤ reserves'.1) := by
  have hproduct : reserves.1.toNat * reserves.2.toNat ≤ reserves'.1.toNat * reserves'.2.toNat := by
    induction h with
    | refl => exact le_rfl
    | tail _ htrade ih => exact ih.trans (htrade.product_le hfee)
  simp only [BitVec.le_def, BitVec.lt_def]
  refine ⟨hproduct, fun hpos hless => ?_, fun hpos hless => ?_⟩
  · exact Nat.le_of_mul_le_mul_left (hproduct.trans (Nat.mul_le_mul_right _ hless)) hpos
  · exact Nat.le_of_mul_le_mul_right (hproduct.trans (Nat.mul_le_mul_left _ hless)) hpos

end Run

/-- Who changes `100` into the other token and the `90` back has `98` again, and two are in the
pair. -/
theorem trades_never_gain_there_and_back :
    Relation.ReflTransGen evenPool.Trades (1000, 1000) (1002, 1000) ∧ (1000 : U112) ≤ 1002 := by
  have hthere : evenPool.calculateOutAmount (fun _ => .ok (1000, 1000)) 1 2 100 =
    .ok (90, 100000) := by decide
  have hback : evenPool.calculateOutAmount (fun _ => .ok (1100, 910)) 2 1 90 =
    .ok (98, 100000) := by decide
  have hrun : Relation.ReflTransGen evenPool.Trades (1000, 1000) (1002, 1000) :=
    .tail (.single (.quoted (.inl hthere) (by decide))) (.quoted (.inl hback) (by decide))
  exact ⟨hrun, (trades_never_gain (by decide) hrun).2.2 (by decide) (by decide)⟩

end UniswapV2Pool

end Kabu
