import Kabu.Framework.Runs
import Kabu.Events.BestTxCompose
import Kabu.Properties.SwapTips

/-!
# The records are the best answers

Each record should be the best of the requests so far that have its quantity, and a request should
pass if it is good by one of the quantities.  The second follows from the first.  But a request that
passes by one quantity is not looked at by the ones after it, so their records miss it.
`tracks_maxima_iff` says what this comes to: all is well exactly if, at each call, the records that
are passed over already cover the request (`Covered`).
-/

namespace Kabu

open Records Runs

namespace BestTxSwapCompose

variable (prices : TokenPrices)

/-- A call, with the requests so far. -/
def observe (run : BestTxSwapCompose × List SwapComposeData) (request : SwapComposeData) :
    BestTxSwapCompose × List SwapComposeData :=
  ((check prices run.1 request).1, run.2 ++ [request])

/-- Each record attains the maximum of its quantity. -/
def AttainsMaxima (run : BestTxSwapCompose × List SwapComposeData) : Prop :=
  ∀ metric : Metric,
    Attains (metric.amount prices) metric.Defined (run.1.record metric) run.2

/-- The request is a new maximum of the quantity, or above the share of the maximum. -/
def Notable (pct : ℕ) (metric : Metric) (seen : List SwapComposeData) (request : SwapComposeData) :
    Prop :=
  metric.Defined request ∧
    ((∀ r ∈ seen, metric.Defined r → metric.amount prices r < metric.amount prices request) ∨
      ∀ r ∈ seen, metric.Defined r →
        metric.amount prices r * pct < 10000 * metric.amount prices request)

/-- A call after which the records attain the maxima, and which has returned `true` exactly if the
request is notable for one of the quantities. -/
def TracksMaxima (pct : ℕ) (run : BestTxSwapCompose × List SwapComposeData)
    (request : SwapComposeData) (after : BestTxSwapCompose × List SwapComposeData) : Prop :=
  AttainsMaxima prices after ∧
    ((check prices run.1 request).2 = true ↔
      ∃ metric : Metric, Notable prices pct metric run.2 request)

/-- The records of quantities that the request has, but that come after one by which it passes, are
not less than the request. -/
def Covered (self : BestTxSwapCompose) (request : SwapComposeData) : Prop :=
  ∀ metric : Metric, metric.Defined request → ¬ Reaches prices metric self request →
    Covers (metric.amount prices) (self.record metric) request

variable {prices} {run : BestTxSwapCompose × List SwapComposeData} {request : SwapComposeData}
  {pct : U256}

/-- The share of a word below 2^240. -/
lemma share_lt_iff {x y : U256} (hpct : pct.toNat ≤ 10000) (hx : x.toNat < 2 ^ 240) :
    x * pct / 10000 < y ↔ x.toNat * pct.toNat < 10000 * y.toNat := by
  have hproduct : x.toNat * pct.toNat < 2 ^ 256 := by
    calc x.toNat * pct.toNat ≤ x.toNat * 10000 := Nat.mul_le_mul_left _ hpct
      _ < 2 ^ 256 := by omega
  have htenThousand : (10000 : U256).toNat = 10000 := rfl
  rw [BitVec.lt_def, BitVec.toNat_udiv, BitVec.toNat_mul_of_lt hproduct, htenThousand,
    Nat.div_lt_iff_lt_mul (by decide), Nat.mul_comm y.toNat]

/-- Where the record attains the maximum, passing is being notable. -/
lemma passes_iff {metric : Metric} (request : SwapComposeData)
    (hvalidity : run.1.validityPct = some pct) (hpct : pct.toNat ≤ 10000)
    (hseen : ∀ r ∈ run.2, metric.amount prices r < 2 ^ 240)
    (h : Attains (metric.amount prices) metric.Defined (run.1.record metric) run.2)
    (hdefined : metric.Defined request) :
    Passes prices metric run.1 request ↔ Notable prices pct.toNat metric run.2 request := by
  have hnew := h.forall_iff (P := fun v => v < metric.amount prices request)
    fun u v hle hv => hle.trans_lt hv
  have habove := h.forall_iff (P := fun v => v * pct.toNat < 10000 * metric.amount prices request)
    fun u v hle hv => (Nat.mul_le_mul_right _ hle).trans_lt hv
  unfold Passes Notable
  rw [hnew, habove, hvalidity]
  cases hrecord : run.1.record metric with
  | none => simp [hdefined]
  | some b =>
      have hb : (metric.quantity prices b).toNat < 2 ^ 240 := hseen b (h.mem b hrecord).1
      have hshare := share_lt_iff (y := metric.quantity prices request) hpct hb
      simp only [Option.some.injEq, forall_eq', exists_eq_left', hdefined, true_and]
      exact or_congr BitVec.lt_def hshare

/-- **One call.** -/
lemma tracksMaxima_iff (hvalidity : run.1.validityPct = some pct) (hpct : pct.toNat ≤ 10000)
    (hseen : ∀ r ∈ run.2, ∀ metric : Metric, metric.amount prices r < 2 ^ 240)
    (h : AttainsMaxima prices run) :
    TracksMaxima prices pct.toNat run request (observe prices run request) ↔
      Covered prices run.1 request := by
  have hanswer : (check prices run.1 request).2 = true ↔
      ∃ metric : Metric, Notable prices pct.toNat metric run.2 request := by
    rw [check_snd_iff]
    refine exists_congr fun metric => ?_
    have hpasses := passes_iff request hvalidity hpct
      (fun r hr => hseen r hr metric) (h metric)
    exact ⟨fun ⟨hdefined, hp⟩ => (hpasses hdefined).mp hp,
      fun hn => ⟨hn.1, (hpasses hn.1).mpr hn⟩⟩
  unfold TracksMaxima
  rw [and_iff_left hanswer]
  unfold AttainsMaxima Covered observe
  refine forall_congr' fun metric => ?_
  rw [record_check]
  by_cases hlooked : looked prices run.1 request metric = true
  · obtain ⟨hdefined, hreaches⟩ := (looked_eq_true_iff metric).mp hlooked
    rw [if_pos hlooked]
    exact ⟨fun _ _ hnot => absurd hreaches hnot, fun _ => (h metric).improve hdefined⟩
  · have hmissed : metric.Defined request → ¬ Reaches prices metric run.1 request :=
      fun hdefined hreaches => hlooked ((looked_eq_true_iff metric).mpr ⟨hdefined, hreaches⟩)
    rw [if_neg hlooked, attains_append_iff (h metric)]
    exact ⟨fun hcovers hdefined _ => hcovers hdefined,
      fun hcovers hdefined => hcovers hdefined (hmissed hdefined)⟩

/-- **The best answers.** -/
theorem tracks_maxima_iff (prices : TokenPrices) (pct : U256) (hpct : pct.toNat ≤ 10000)
    (requests : List SwapComposeData)
    (hrequests : ∀ r ∈ requests, ∀ metric : Metric, metric.amount prices r < 2 ^ 240) :
    EveryStep (observe prices) (TracksMaxima prices pct.toNat) (newWithPct pct, []) requests ↔
      EveryStep (observe prices) (fun run request _ => Covered prices run.1 request)
        (newWithPct pct, []) requests := by
  refine everyStep_congr_of_inv
    (I := fun run => run.1.validityPct = some pct ∧
      (∀ r ∈ run.2, ∀ metric : Metric, metric.amount prices r < 2 ^ 240) ∧ AttainsMaxima prices run)
    (P := fun r => ∀ metric : Metric, metric.amount prices r < 2 ^ 240)
    (fun run request hrun _ => tracksMaxima_iff hrun.1 hpct hrun.2.1 hrun.2.2)
    (fun run request hrun hrequest htracks => ⟨?_, ?_, htracks.1⟩) ⟨rfl, by simp, ?_⟩ hrequests
  · exact validityPct_check.trans hrun.1
  · intro r hr
    rcases List.mem_append.mp hr with hseen | hnew
    · exact hrun.2.1 r hseen
    · cases List.mem_singleton.mp hnew
      exact hrequest
  · intro metric
    cases metric <;> exact attains_nil

/-- A call that looks at every quantity the request has misses nothing. -/
lemma covered_of_looked {self : BestTxSwapCompose}
    (h : ∀ metric : Metric, metric.Defined request → looked prices self request metric = true) :
    Covered prices self request := fun metric hdefined hnot =>
  absurd ((looked_eq_true_iff metric).mp (h metric hdefined)).2 hnot

/-- The first request passes by its profit, so that its tips are not recorded.  The second one then
passes by tips that are a twentieth of those. -/
theorem record_misses_maximum :
    (observe Tips.flatPrices (newWithPct 5000, [])
        ⟨Tips.roundTrip 1 2 1000 2000, some 100, 0⟩).1.bestTipsSwap.isNone = true ∧
      (check Tips.flatPrices (observe Tips.flatPrices (newWithPct 5000, [])
        ⟨Tips.roundTrip 1 2 1000 2000, some 100, 0⟩).1
        ⟨Tips.roundTrip 3 4 500 600, some 5, 0⟩).2 = true ∧
      ¬ ∃ metric : Metric, Notable Tips.flatPrices 5000 metric
        [⟨Tips.roundTrip 1 2 1000 2000, some 100, 0⟩]
        ⟨Tips.roundTrip 3 4 500 600, some 5, 0⟩ := by
  refine ⟨rfl, rfl, ?_⟩
  rintro ⟨metric, hdefined, hnew | habove⟩
  · have h := hnew _ List.mem_cons_self
    cases metric with
    | profit => exact absurd (h trivial) (by decide)
    | tips => exact absurd (h rfl) (by decide)
    | tipsGas => exact hdefined rfl
    | profitGas => exact hdefined rfl
  · have h := habove _ List.mem_cons_self
    cases metric with
    | profit => exact absurd (h trivial) (by decide)
    | tips => exact absurd (h rfl) (by decide)
    | tipsGas => exact hdefined rfl
    | profitGas => exact hdefined rfl

/-- Requests by which every record is set in turn. -/
theorem three_requests_tracked :
    EveryStep (observe Tips.flatPrices) (TracksMaxima Tips.flatPrices 5000) (newWithPct 5000, [])
      [⟨Tips.roundTrip 1 2 1000 2000, none, 0⟩, ⟨Tips.roundTrip 3 4 500 600, some 5, 0⟩,
        ⟨Tips.roundTrip 3 4 500 510, none, 2⟩] := by
  refine (tracks_maxima_iff Tips.flatPrices 5000 (by decide) _ ?_).mpr ⟨?_, ?_, ?_, trivial⟩
  · simp only [List.forall_mem_cons]
    refine ⟨fun metric => ?_, fun metric => ?_, fun metric => ?_, fun _ h => absurd h (by simp)⟩ <;>
      cases metric <;> decide
  · refine covered_of_looked fun metric hdefined => ?_
    cases metric with
    | profit => rfl
    | tips => simp [Metric.Defined] at hdefined
    | _ => exact absurd rfl hdefined
  · refine covered_of_looked fun metric hdefined => ?_
    cases metric with
    | profit => rfl
    | tips => rfl
    | _ => exact absurd rfl hdefined
  · refine covered_of_looked fun metric hdefined => ?_
    cases metric with
    | tips => simp [Metric.Defined] at hdefined
    | _ => rfl

end BestTxSwapCompose

end Kabu
