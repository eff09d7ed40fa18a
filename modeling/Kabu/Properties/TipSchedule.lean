import Kabu.Defi.UniswapV2Pool
import Kabu.Market.Tips

/-!
# The share of a tip

The share of the profit that is paid as a tip falls along the slopes, from 9900 to 5000 parts in ten
thousand.  `tipsPct_wellBehaved` says that none of the arithmetic wraps, that the share never rises
with the profit, and that what is left of the profit never falls, although the share falls in steps
of one part.

That nothing wraps is said with a second version of the loop in which every step of the arithmetic
is checked, `checkedTipsPctFrom`.
-/

namespace Kabu

namespace Tips

open SlopeTable

/-- The share on a slope, with every step checked. -/
def checkedSlope (pct y profit point x : U256) : Option U256 := do
  let height ← pct.checkedSub y
  let along ← profit.checkedSub point
  let width ← x.checkedSub point
  let product ← height.checkedMul along
  let fall ← product.checkedDiv width
  pct.checkedSub fall

/-- The loop over the slopes, with every step checked. -/
def checkedTipsPctFrom (profit : U256) : List (U256 × U256) → U256 → U256 → Option ℕ
  | [], _, pct => toU32 pct
  | (x, y) :: slopes, point, pct =>
      if profit < x then (checkedSlope pct y profit point x).bind toU32
      else checkedTipsPctFrom profit slopes x y

/-! ## Nothing wraps -/

section Checked

variable {profit point pct x y : U256} {slopes : List (U256 × U256)}

lemma checkedSlope_eq (hpct : pct.toNat < 2 ^ 32) (hx : x.toNat < 2 ^ 224) (hy : y ≤ pct)
    (hpoint : point ≤ profit) (hprofit : profit < x) :
    checkedSlope pct y profit point x =
      some (pct - (pct - y) * (profit - point) / (x - point)) := by
  have hle : point.toNat ≤ profit.toNat := BitVec.le_def.mp hpoint
  have hlt : profit.toNat < x.toNat := BitVec.lt_def.mp hprofit
  have hpositive : x - point ≠ 0 := by
    rw [← U256.toNat_pos_iff, BitVec.toNat_sub_of_le (BitVec.le_def.mpr (hle.trans hlt.le))]
    omega
  have hmul : (pct - y).toNat * (profit - point).toNat < 2 ^ 256 := by
    rw [BitVec.toNat_sub_of_le hy, BitVec.toNat_sub_of_le hpoint]
    exact slope_mul_lt hpct hx hlt
  have hfall : ((pct - y) * (profit - point) / (x - point)).toNat ≤ pct.toNat := by
    rw [(toNat_slope hpct hx hy hpoint hprofit).1]
    exact (fall_le _ _ _ hlt.le).trans (Nat.sub_le _ _)
  simp only [checkedSlope, U256.checkedSub, U256.checkedMul, U256.checkedDiv, bind,
    if_pos (BitVec.le_def.mp hy), if_pos hle, if_pos (hle.trans hlt.le), if_pos hmul,
    if_neg hpositive, if_pos hfall, Option.bind_some]

lemma checkedTipsPctFrom_eq (hfalls : Falls (slopeTable slopes) point.toNat pct.toNat)
    (hpoints : ∀ slope ∈ slopes, slope.1.toNat < 2 ^ 224) (hpct : pct.toNat < 2 ^ 32)
    (hpoint : point ≤ profit) :
    checkedTipsPctFrom profit slopes point pct = tipsPctFrom profit slopes point pct := by
  induction slopes generalizing point pct with
  | nil => rfl
  | cons slope slopes ih =>
      obtain ⟨x, y⟩ := slope
      obtain ⟨hx, hy, hrest⟩ := hfalls
      obtain ⟨hxlt, hpoints'⟩ := List.forall_mem_cons.mp hpoints
      rw [checkedTipsPctFrom, tipsPctFrom]
      split_ifs with hlt
      · rw [checkedSlope_eq hpct hxlt (BitVec.le_def.mpr hy) hpoint hlt, Option.bind_some]
      · exact ih hrest hpoints' (hy.trans_lt hpct) (BitVec.not_lt.mp hlt)

lemma checkedTipsPctFrom_slopes (profit : U256) :
    checkedTipsPctFrom profit Tips.slopes 0 startPct = some (tipsPctAt profit) :=
  (checkedTipsPctFrom_eq slopes_falls slopes_lt (by decide)
    (BitVec.le_def.mpr (Nat.zero_le _))).trans (tipsPctAdvanced_eq profit)

end Checked

/-! ## The schedule -/

lemma tipsPctAt_antitone {p q : U256} (h : p ≤ q) : tipsPctAt q ≤ tipsPctAt p :=
  valueAt_antitone slopes_falls (BitVec.le_def.mp h)

def retained (profit : U256) (pct : ℕ) : U256 := profit - profit * BitVec.ofNat 256 pct / 10000

lemma toNat_retained {profit : U256} {pct : ℕ} (hprofit : profit.toNat < 2 ^ 240)
    (hpct : pct ≤ 10000) :
    (retained profit pct).toNat = profit.toNat - profit.toNat * pct / 10000 := by
  have hword : (BitVec.ofNat 256 pct).toNat = pct := by
    rw [BitVec.toNat_ofNat, Nat.mod_eq_of_lt (by omega)]
  have hproduct : profit.toNat * pct < 2 ^ 256 :=
    calc profit.toNat * pct ≤ profit.toNat * 2 ^ 16 := Nat.mul_le_mul_left _ (by omega)
      _ < 2 ^ 240 * 2 ^ 16 := Nat.mul_lt_mul_of_pos_right hprofit (by decide)
      _ = 2 ^ 256 := by rw [← pow_add]
  have htip : (profit * BitVec.ofNat 256 pct / 10000).toNat = profit.toNat * pct / 10000 := by
    rw [toNat_mul_div _ (by rwa [hword]), hword]
    rfl
  have hle : profit.toNat * pct / 10000 ≤ profit.toNat :=
    Nat.div_le_of_le_mul (by rw [mul_comm]; exact Nat.mul_le_mul_right _ hpct)
  rw [retained, BitVec.toNat_sub_of_le (BitVec.le_def.mpr (htip ▸ hle)), htip]

/-- **The share is between 5000 and 9900 and never rises, and what is left never falls.** -/
theorem tipsPct_wellBehaved :
    (∀ profit, ∃ pct, tipsPctAdvanced profit = some pct ∧
        checkedTipsPctFrom profit slopes 0 startPct = some pct ∧ 5000 ≤ pct ∧ pct ≤ 9900) ∧
      (∀ p q pct pct', p ≤ q → tipsPctAdvanced p = some pct → tipsPctAdvanced q = some pct' →
        pct' ≤ pct) ∧
      ∀ p q pct pct', p ≤ q → q.toNat < 2 ^ 240 → tipsPctAdvanced p = some pct →
        tipsPctAdvanced q = some pct' → retained p pct ≤ retained q pct' := by
  refine ⟨fun profit => ?_, ?_, ?_⟩
  · exact ⟨_, tipsPctAdvanced_eq profit, checkedTipsPctFrom_slopes profit, tipsPctAt_bounds profit⟩
  · intro p q pct pct' hpq hp hq
    cases (tipsPctAdvanced_eq p).symm.trans hp
    cases (tipsPctAdvanced_eq q).symm.trans hq
    exact tipsPctAt_antitone hpq
  · intro p q pct pct' hpq hlt hp hq
    cases (tipsPctAdvanced_eq p).symm.trans hp
    cases (tipsPctAdvanced_eq q).symm.trans hq
    have hple : tipsPctAt p ≤ 10000 := (tipsPctAt_bounds p).2.trans (by decide)
    have hqle : tipsPctAt q ≤ 10000 := (tipsPctAt_bounds q).2.trans (by decide)
    rw [BitVec.le_def, toNat_retained ((BitVec.le_def.mp hpq).trans_lt hlt) hple,
      toNat_retained hlt hqle]
    exact sub_share_mono (by decide) hple (tipsPctAt_antitone hpq) (BitVec.le_def.mp hpq)

example : tipsPctAdvanced 5000000000000000000 = some 8450 := by decide

end Tips

end Kabu
