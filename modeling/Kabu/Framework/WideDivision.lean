import Mathlib.Data.BitVec
import Mathlib.Logic.Function.Iterate
import Mathlib.Tactic.Linarith
import Mathlib.Tactic.LinearCombination
import Mathlib.Tactic.Ring

/-!
# Dividing a product of two words by a word

The product of two words of `w` bits has `2 * w` bits, and its quotient by a third word may still
fit into one.  The well-known way to compute it with word operations alone has four parts, and each
of them is a lemma here, for words of any width.

* The high word of the product comes from its residues modulo `2 ^ w` and `2 ^ w - 1`
  (`toNat_highWord`).
* The remainder is taken off the product, so that the division is exact (`toNat_subWide`).
* The power of two in the divisor is found by `-d &&& d` (`neg_and_self`), and both sides are
  divided by it, where the bits of the high word move down (`shiftDown_eq`).
* The odd rest is inverted by Newton steps, each of which squares the error (`one_sub_mul_iterate`),
  from a seed that is right in four bits (`mul_seed`).
-/

namespace WideDivision

variable {w : ℕ}

/-! ## The high word -/

/-- The high word of a product, from its residues modulo `2 ^ w` and `2 ^ w - 1`. -/
def highWord (low residue : BitVec w) : BitVec w :=
  residue - low - if residue < low then 1 else 0

/-- A number of two digits modulo the base minus one is the sum of the digits, once reduced. -/
lemma residue_of_digits {B P : ℕ} (hB : 2 ≤ B) (hP : P ≤ (B - 1) * (B - 1)) :
    P / B < B - 1 ∧
      (P % (B - 1) = P / B + P % B ∨
        P % (B - 1) + (B - 1) = P / B + P % B ∧ P % (B - 1) < P % B) := by
  obtain ⟨C, rfl⟩ : ∃ C, B = C + 1 := ⟨B - 1, by omega⟩
  rw [Nat.add_sub_cancel] at hP ⊢
  have hsplit : P = (C + 1) * (P / (C + 1)) + P % (C + 1) := (Nat.div_add_mod P (C + 1)).symm
  have hlow : P % (C + 1) < C + 1 := Nat.mod_lt P (Nat.succ_pos C)
  have hhigh : P / (C + 1) < C := by
    rw [Nat.div_lt_iff_lt_mul (Nat.succ_pos C)]
    nlinarith
  have hmod : P % C = (P / (C + 1) + P % (C + 1)) % C := by
    conv_lhs => rw [hsplit]
    rw [show (C + 1) * (P / (C + 1)) + P % (C + 1) =
      P / (C + 1) + P % (C + 1) + C * (P / (C + 1)) by ring, Nat.add_mul_mod_self_left]
  refine ⟨hhigh, ?_⟩
  rcases lt_or_ge (P / (C + 1) + P % (C + 1)) C with hsmall | hlarge
  · exact Or.inl (by rw [hmod, Nat.mod_eq_of_lt hsmall])
  · right
    have hreduced : P % C = P / (C + 1) + P % (C + 1) - C := by
      rw [hmod, Nat.mod_eq_sub_mod hlarge, Nat.mod_eq_of_lt (by omega)]
    omega

lemma ofNat_pred (w : ℕ) : BitVec.ofNat w (2 ^ w - 1) = -1 := by
  rw [BitVec.ofNat_eq_ofNat, BitVec.neg_one_eq_allOnes]
  exact BitVec.eq_of_toNat_eq (by simp)

/-- **The high word of a product.** -/
lemma toNat_highWord {x y residue : BitVec w} (hw : 0 < w)
    (hresidue : residue.toNat = x.toNat * y.toNat % (2 ^ w - 1)) :
    (highWord (x * y) residue).toNat = x.toNat * y.toNat / 2 ^ w := by
  have hB : 2 ≤ 2 ^ w := Nat.le_self_pow hw.ne' 2
  have hP : x.toNat * y.toNat ≤ (2 ^ w - 1) * (2 ^ w - 1) :=
    Nat.mul_le_mul (Nat.le_pred_of_lt x.isLt) (Nat.le_pred_of_lt y.isLt)
  obtain ⟨hhigh, hdigits⟩ := residue_of_digits hB hP
  have hlow : (x * y).toNat = x.toNat * y.toNat % 2 ^ w := BitVec.toNat_mul x y
  suffices hword : highWord (x * y) residue = BitVec.ofNat w (x.toNat * y.toNat / 2 ^ w) by
    rw [hword, BitVec.toNat_ofNat, Nat.mod_eq_of_lt (hhigh.trans_le (Nat.sub_le _ _))]
  have hresidue' : residue = BitVec.ofNat w (x.toNat * y.toNat % (2 ^ w - 1)) := by
    rw [← hresidue, BitVec.ofNat_toNat, BitVec.setWidth_eq]
  have hlow' : x * y = BitVec.ofNat w (x.toNat * y.toNat % 2 ^ w) := by
    rw [← hlow, BitVec.ofNat_toNat, BitVec.setWidth_eq]
  unfold highWord
  rcases hdigits with hsum | ⟨hsum, hborrow⟩
  · have hnot : ¬ residue < x * y := by
      rw [BitVec.lt_def, hresidue, hlow, hsum]
      exact not_lt_of_ge (Nat.le_add_left _ _)
    rw [if_neg hnot, hresidue', hsum, hlow', BitVec.ofNat_add, sub_zero, add_sub_cancel_right]
  · rw [if_pos (by rw [BitVec.lt_def, hresidue, hlow]; exact hborrow)]
    have hwords := congrArg (BitVec.ofNat w) hsum
    rw [BitVec.ofNat_add, BitVec.ofNat_add, ofNat_pred, ← hresidue', ← hlow'] at hwords
    linear_combination hwords

/-! ## Taking off the remainder -/

/-- A word is taken off a number of two words, with the borrow. -/
lemma toNat_subWide {high low r : BitVec w} (h : r.toNat ≤ high.toNat * 2 ^ w + low.toNat) :
    (high - if low < r then 1 else 0).toNat * 2 ^ w + (low - r).toNat =
      high.toNat * 2 ^ w + low.toNat - r.toNat := by
  have hlow := low.isLt
  have hr := r.isLt
  by_cases hborrow : low < r
  · have hlt : low.toNat < r.toNat := hborrow
    have hpos : 1 ≤ high.toNat := by
      by_contra hzero
      have : high.toNat = 0 := by omega
      rw [this] at h
      omega
    obtain ⟨k, hk⟩ : ∃ k, high.toNat = k + 1 := ⟨high.toNat - 1, by omega⟩
    have hone : (1 : BitVec w).toNat = 1 := by
      have hlarge : 1 < 2 ^ w := lt_of_le_of_lt hpos high.isLt
      rw [BitVec.ofNat_eq_ofNat, BitVec.toNat_ofNat, Nat.mod_eq_of_lt hlarge]
    rw [if_pos hborrow, BitVec.toNat_sub_of_le (by rw [BitVec.le_def, hone]; exact hpos), hone,
      BitVec.toNat_sub_of_lt hborrow, hk, Nat.add_sub_cancel, Nat.add_mul]
    omega
  · have hle : r ≤ low := BitVec.not_lt.mp hborrow
    rw [if_neg hborrow, sub_zero, BitVec.toNat_sub_of_le hle,
      Nat.add_sub_assoc (BitVec.le_def.mp hle)]

/-! ## The power of two in a word -/

lemma neg_and_self {x : BitVec w} {t : ℕ} (hbit : x.getLsbD t = true)
    (hlow : ∀ j < t, x.getLsbD j = false) : -x &&& x = BitVec.twoPow w t := by
  have ht : t < w := BitVec.lt_of_getLsbD hbit
  refine BitVec.eq_of_getLsbD_eq fun i hi => ?_
  rw [BitVec.getLsbD_and, BitVec.getLsbD_neg, BitVec.getLsbD_twoPow]
  rcases lt_trichotomy i t with hit | rfl | hit
  · simp [hlow i hit, hit.ne']
  · have hnone : ¬ ∃ j < i, x.getLsbD j = true := by
      rintro ⟨j, hj, hjbit⟩
      simp [hlow j hj] at hjbit
    simp [hbit, hnone, ht]
  · have hsome : ∃ j < i, x.getLsbD j = true := ⟨t, hit, hbit⟩
    cases hx : x.getLsbD i with
    | false => simp [hit.ne]
    | true => simp [hsome, hi, hit.ne]

/-- A word that is not zero is an odd number times a power of two, which is its lowest bit. -/
lemma exists_lowestBit {x : BitVec w} (hx : x ≠ 0) :
    ∃ t m, t < w ∧ x.toNat = 2 ^ t * m ∧ m % 2 = 1 ∧ -x &&& x = BitVec.twoPow w t := by
  have hsome : ∃ t, x.getLsbD t = true := by
    by_contra hnone
    refine hx (BitVec.eq_of_getLsbD_eq fun i _ => ?_)
    rw [BitVec.ofNat_eq_ofNat, BitVec.getLsbD_zero]
    exact Bool.eq_false_iff.mpr fun h => hnone ⟨i, h⟩
  have hbit := Nat.find_spec hsome
  have hlow : ∀ j < Nat.find hsome, x.getLsbD j = false :=
    fun j hj => Bool.eq_false_iff.mpr (Nat.find_min hsome hj)
  generalize Nat.find hsome = t at hbit hlow
  have hdvd : x.toNat % 2 ^ t = 0 := by
    refine Nat.eq_of_testBit_eq fun i => ?_
    rw [Nat.testBit_mod_two_pow, Nat.zero_testBit]
    by_cases hi : i < t
    · have := hlow i hi
      rw [BitVec.getLsbD] at this
      simp [this]
    · simp [hi]
  refine ⟨t, x.toNat / 2 ^ t, BitVec.lt_of_getLsbD hbit, ?_, ?_, neg_and_self hbit hlow⟩
  · exact (Nat.mul_div_cancel' (Nat.dvd_of_mod_eq_zero hdvd)).symm
  · rw [BitVec.getLsbD, Nat.testBit_eq_decide_div_mod_eq] at hbit
    exact of_decide_eq_true hbit

/-- A word is divided by a power of two, with the bits that come down from the word above it.  The
power is turned into its cofactor by `-p / p + 1`, which is zero for the power `1`. -/
def shiftDown (high low p : BitVec w) : BitVec w :=
  low / p ||| high * (-p / p + 1)

lemma shiftDown_eq {t : ℕ} (ht : t < w) (high low : BitVec w) :
    shiftDown high low (BitVec.twoPow w t) =
      BitVec.ofNat w ((high.toNat * 2 ^ w + low.toNat) / 2 ^ t) := by
  obtain ⟨s, rfl⟩ : ∃ s, w = t + s := ⟨w - t, by omega⟩
  have hpow : 2 ^ (t + s) = 2 ^ t * 2 ^ s := pow_add 2 t s
  have ht' : 0 < 2 ^ t := Nat.two_pow_pos t
  have hs' : 0 < 2 ^ s := Nat.two_pow_pos s
  have hs : 1 < 2 ^ s := Nat.one_lt_two_pow (by omega)
  have hp : (BitVec.twoPow (t + s) t).toNat = 2 ^ t := by
    rw [BitVec.toNat_twoPow, Nat.mod_eq_of_lt (Nat.pow_lt_pow_right (by omega) ht)]
  have hneg : (-BitVec.twoPow (t + s) t).toNat = 2 ^ t * (2 ^ s - 1) := by
    have hlt : 2 ^ t * 2 ^ s - 2 ^ t < 2 ^ t * 2 ^ s := by
      have : 0 < 2 ^ t * 2 ^ s := Nat.mul_pos ht' hs'
      omega
    rw [BitVec.toNat_neg, hp, hpow, Nat.mod_eq_of_lt hlt, Nat.mul_sub, Nat.mul_one]
  have hflip : (-BitVec.twoPow (t + s) t / BitVec.twoPow (t + s) t + 1).toNat =
      2 ^ s % 2 ^ (t + s) := by
    rw [BitVec.toNat_add, BitVec.toNat_udiv, hneg, hp, Nat.mul_div_cancel_left _ ht',
      BitVec.ofNat_eq_ofNat, BitVec.toNat_ofNat, Nat.add_mod_mod, Nat.sub_add_cancel hs.le]
  refine BitVec.eq_of_toNat_eq ?_
  have hlow : low.toNat / 2 ^ t < 2 ^ s :=
    Nat.div_lt_of_lt_mul (by rw [← hpow]; exact low.isLt)
  rw [shiftDown, BitVec.toNat_or, BitVec.toNat_udiv, hp, BitVec.toNat_mul, hflip,
    Nat.mul_mod_mod, BitVec.toNat_ofNat, hpow, mul_comm (2 ^ t) (2 ^ s),
    mul_comm high.toNat (2 ^ s), Nat.mul_mod_mul_left, Nat.or_comm,
    ← Nat.two_pow_add_eq_or_of_lt hlow]
  have hdiv : (high.toNat * (2 ^ s * 2 ^ t) + low.toNat) / 2 ^ t =
      2 ^ s * high.toNat + low.toNat / 2 ^ t := by
    rw [show high.toNat * (2 ^ s * 2 ^ t) + low.toNat = low.toNat + 2 ^ t * (2 ^ s * high.toNat) by
      ring, Nat.add_mul_div_left _ _ ht', add_comm]
  rw [hdiv]
  have hhigh : high.toNat = 2 ^ t * (high.toNat / 2 ^ t) + high.toNat % 2 ^ t :=
    (Nat.div_add_mod _ _).symm
  have hbound : 2 ^ s * (high.toNat % 2 ^ t) + low.toNat / 2 ^ t < 2 ^ s * 2 ^ t := by
    have := Nat.mod_lt high.toNat ht'
    nlinarith
  conv_rhs => rw [hhigh]
  rw [show 2 ^ s * (2 ^ t * (high.toNat / 2 ^ t) + high.toNat % 2 ^ t) + low.toNat / 2 ^ t =
    2 ^ s * (high.toNat % 2 ^ t) + low.toNat / 2 ^ t + 2 ^ s * 2 ^ t * (high.toNat / 2 ^ t) by ring,
    Nat.add_mul_mod_self_left, Nat.mod_eq_of_lt hbound]

/-! ## Newton inverses -/

section Newton

variable {R : Type*} [CommRing R] (d x : R)

/-- One Newton step towards the inverse of `d`. -/
def newtonStep : R := x * (2 - d * x)

lemma one_sub_mul_newtonStep : 1 - d * newtonStep d x = (1 - d * x) ^ 2 := by
  rw [newtonStep]
  ring

lemma one_sub_mul_iterate (k : ℕ) :
    1 - d * (newtonStep d)^[k] x = (1 - d * x) ^ 2 ^ k := by
  induction k with
  | zero => rw [Function.iterate_zero_apply, pow_zero, pow_one]
  | succ k ih => rw [Function.iterate_succ_apply', one_sub_mul_newtonStep, ih, ← pow_mul, pow_succ]

/-- **Newton inverses.**  An error that vanishes when squared often enough has vanished. -/
lemma mul_iterate_newtonStep {d x : R} {k : ℕ} (h : (1 - d * x) ^ 2 ^ k = 0) :
    d * (newtonStep d)^[k] x = 1 :=
  (sub_eq_zero.mp ((one_sub_mul_iterate d x k).trans h)).symm

end Newton

/-- For an odd word, three times the word with its second bit turned is an inverse in four bits. -/
lemma mul_seed {d : BitVec w} (hw : 4 ≤ w) (hodd : d.toNat % 2 = 1) :
    ∃ c, 1 - d * (3 * d ^^^ 2) = 16 * c := by
  have hfour : ∀ e : BitVec 4, e.toNat % 2 = 1 → e * (3 * e ^^^ 2) = 1 := by decide
  have hlow : (d * (3 * d ^^^ 2)).setWidth 4 = 1 := by
    rw [BitVec.setWidth_mul _ _ hw, BitVec.setWidth_xor, BitVec.setWidth_mul _ _ hw,
      BitVec.ofNat_eq_ofNat, BitVec.ofNat_eq_ofNat, BitVec.setWidth_ofNat_of_le hw,
      BitVec.setWidth_ofNat_of_le hw]
    refine hfour _ ?_
    rw [BitVec.toNat_setWidth, Nat.mod_mod_of_dvd _ (by decide : 2 ∣ 2 ^ 4)]
    exact hodd
  have hmod : (d * (3 * d ^^^ 2)).toNat % 16 = 1 := by
    have := congrArg BitVec.toNat hlow
    rwa [BitVec.toNat_setWidth] at this
  generalize d * (3 * d ^^^ 2) = y at hmod
  have hy : y = 16 * BitVec.ofNat w (y.toNat / 16) + 1 := by
    have hsplit : y.toNat = 16 * (y.toNat / 16) + 1 := by omega
    have hword := congrArg (BitVec.ofNat w) hsplit
    rw [BitVec.ofNat_toNat, BitVec.setWidth_eq, BitVec.ofNat_add, BitVec.ofNat_mul] at hword
    exact hword
  exact ⟨-BitVec.ofNat w (y.toNat / 16), by linear_combination -hy⟩

/-- An exact quotient by an odd number is a product with its inverse. -/
lemma mul_inverse_eq {q m : ℕ} {inverse : BitVec w} (hinverse : BitVec.ofNat w m * inverse = 1) :
    BitVec.ofNat w (q * m) * inverse = BitVec.ofNat w q := by
  rw [BitVec.ofNat_mul, mul_assoc, hinverse, mul_one]

end WideDivision
