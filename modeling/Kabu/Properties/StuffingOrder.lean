import Kabu.Strategy.SamePathMerger

/-!
# Moving stuffing transactions is safe

The order stays a list of different indices, each round that does not succeed changes it, and an
order that is accepted was executed to its end.  All this holds whatever the transactions do, as
long as no index goes below zero.  It does if the first transaction of the order fails after another
one was moved, to a place behind it: `reorder_safe_iff` says that this is the only way.
-/

namespace Kabu

namespace SamePathMerger

open Rounds

variable {n : ℕ} {fails : List ℕ → ℕ → Bool} {s next : TxOrder} {order : List ℕ} {idx : ℕ}

/-- Different indices of transactions. -/
structure Listed (n : ℕ) (order : List ℕ) : Prop where
  nodup : order.Nodup
  lt : ∀ i ∈ order, i < n

lemma listed_start (n : ℕ) : Listed n (start n).txOrder :=
  ⟨List.nodup_range, fun _ h => List.mem_range.mp h⟩

/-! ## One failure -/

lemma remove_changes (h : Listed n order) (hidx : idx < order.length) :
    ∃ order', remove order idx = .ok order' ∧ Listed n order' ∧ order' ≠ order := by
  refine ⟨order.eraseIdx idx, if_pos hidx, ⟨h.nodup.sublist (List.eraseIdx_sublist order idx),
    fun i hi => h.lt i (List.mem_of_mem_eraseIdx hi)⟩, fun heq => ?_⟩
  have hlength := congrArg List.length heq
  rw [List.length_eraseIdx_of_lt hidx] at hlength
  omega

lemma moveForward_changes (h : Listed n order) (hidx : idx < order.length) (hpos : 0 < idx) :
    ∃ next, moveForward order idx = .ok next ∧ Listed n next.txOrder ∧ next.txOrder ≠ order := by
  have hbefore : idx - 1 < order.length := by omega
  have hmoved : moveForward order idx = .ok
      ⟨(order.set idx order[idx - 1]).set (idx - 1) order[idx], some (idx - 1)⟩ := by
    unfold moveForward checkedSub
    rw [if_pos (by omega : 1 ≤ idx)]
    show (swap order idx (idx - 1)).bind _ = _
    unfold swap
    rw [dif_pos ⟨hidx, hbefore⟩]
    rfl
  have hperm := List.set_set_perm hidx hbefore
  refine ⟨_, hmoved, ⟨hperm.nodup_iff.mpr h.nodup, fun i hi => h.lt i (hperm.mem_iff.mp hi)⟩,
    fun heq => ?_⟩
  -- the place before holds another transaction now
  have hget : order[idx - 1] = order[idx] := by
    have hget' := congrArg (fun l => l[idx - 1]?) heq
    simpa [hbefore] using hget'.symm
  have := (h.nodup.getElem_inj_iff).mp hget
  omega

/-- The first transaction fails after another one was moved behind it. -/
def FailsBeforeMoved (s : TxOrder) (idx : ℕ) : Prop := idx = 0 ∧ ∃ c, s.changing = some (c + 1)

/-- **Failures.** -/
lemma onFailure_cases (h : Listed n s.txOrder) (hidx : idx < s.txOrder.length) :
    FailsBeforeMoved s idx ∧ onFailure s idx = .error .panic ∨
      ¬ FailsBeforeMoved s idx ∧
        ∃ next, onFailure s idx = .ok next ∧ Listed n next.txOrder ∧ next.txOrder ≠ s.txOrder := by
  unfold FailsBeforeMoved onFailure
  cases hchanging : s.changing with
  | none =>
      refine Or.inr ⟨by simp, ?_⟩
      by_cases hpos : 0 < idx
      · simp only [if_pos hpos]
        exact moveForward_changes h hidx hpos
      · obtain ⟨order', hremove, hchanges⟩ := remove_changes h (by omega : 0 < s.txOrder.length)
        simp only [if_neg hpos, hremove]
        exact ⟨_, rfl, hchanges⟩
  | some c =>
      by_cases hpos : 0 < idx
      · have hsub : checkedSub idx 1 = .ok (idx - 1) := if_pos hpos
        refine Or.inr ⟨by omega, ?_⟩
        simp only [if_neg (by omega : ¬ (c = idx ∧ idx = 0)), hsub]
        by_cases hmoved : c = idx - 1
        · subst hmoved
          obtain ⟨order', hremove, hchanges⟩ :=
            remove_changes h (by omega : idx - 1 < s.txOrder.length)
          refine ⟨⟨order', none⟩, ?_, hchanges⟩
          simp [Except.map, bind, Except.bind, hremove, pure, Except.pure]
        · obtain ⟨next, hmove, hchanges⟩ := moveForward_changes h hidx hpos
          refine ⟨next, ?_, hchanges⟩
          simp [Except.map, bind, Except.bind, hmoved, hidx, hpos, hmove]
      · obtain rfl : idx = 0 := by omega
        cases c with
        | zero =>
            obtain ⟨order', hremove, hchanges⟩ := remove_changes h hidx
            refine Or.inr ⟨by simp, ⟨order', none⟩, ?_, hchanges⟩
            simp [bind, Except.bind, hremove, pure, Except.pure]
        | succ c =>
            refine Or.inl ⟨⟨rfl, c, rfl⟩, ?_⟩
            simp [bind, Except.bind, Except.map, checkedSub]

/-! ## Rounds -/

lemma firstFailure_eq_none_iff {fails : ℕ → Bool} {length : ℕ} :
    firstFailure fails length = none ↔ ∀ idx < length, fails idx = false := by
  simp [firstFailure]

lemma lt_of_firstFailure {fails : ℕ → Bool} {length : ℕ}
    (h : firstFailure fails length = some idx) : idx < length :=
  List.mem_range.mp (List.mem_of_find?_eq_some h)

lemma firstFailure_eq_zero_iff {fails : ℕ → Bool} {length : ℕ} :
    firstFailure fails length = some 0 ↔ 0 < length ∧ fails 0 = true := by
  cases length with
  | zero => simp [firstFailure]
  | succ length =>
      unfold firstFailure
      rw [List.range_succ_eq_map, List.find?_cons]
      cases fails 0 <;> simp

/-- The first transaction does not fail after another one was moved behind it. -/
def FirstHolds (fails : List ℕ → ℕ → Bool) (s : TxOrder) : Prop :=
  ∀ c, s.changing = some (c + 1) → s.txOrder ≠ [] → fails s.txOrder 0 = false

/-- A round that goes on has another order. -/
def KeepsListed (n : ℕ) (fails : List ℕ → ℕ → Bool) (s : TxOrder) : Prop :=
  Listed n s.txOrder ∧ ∀ next, round n fails s = .ok (.go next) →
    Listed n next.txOrder ∧ next.txOrder ≠ s.txOrder

lemma round_of_none (h : Listed n s.txOrder)
    (hfirst : firstFailure (fails s.txOrder) s.txOrder.length = none) :
    round n fails s = .ok .leave := by
  unfold round
  rw [if_pos h.lt, hfirst]

lemma round_of_some (h : Listed n s.txOrder)
    (hfirst : firstFailure (fails s.txOrder) s.txOrder.length = some idx) :
    round n fails s = (onFailure s idx).map .go := by
  unfold round
  rw [if_pos h.lt, hfirst]

/-- **One round.** -/
lemma exists_round_iff (h : Listed n s.txOrder) :
    (∃ verdict, round n fails s = .ok verdict) ↔ FirstHolds fails s := by
  cases hfirst : firstFailure (fails s.txOrder) s.txOrder.length with
  | none =>
      refine iff_of_true ⟨_, round_of_none h hfirst⟩ fun c _ hne => ?_
      exact firstFailure_eq_none_iff.mp hfirst 0 (List.length_pos_of_ne_nil hne)
  | some idx =>
      rw [round_of_some h hfirst]
      rcases onFailure_cases h (lt_of_firstFailure hfirst) with
        ⟨⟨rfl, c, hchanging⟩, hpanic⟩ | ⟨hnot, next, hnext, -⟩
      · obtain ⟨hpos, hfails⟩ := firstFailure_eq_zero_iff.mp hfirst
        refine iff_of_false ?_ fun hholds => ?_
        · rw [hpanic]
          rintro ⟨verdict, hverdict⟩
          simp [Except.map] at hverdict
        · exact absurd ((hholds c hchanging (List.ne_nil_of_length_pos hpos)).symm.trans hfails)
            (by simp)
      · refine iff_of_true ⟨.go next, by rw [hnext]; rfl⟩ fun c hchanging hne => ?_
        refine Bool.eq_false_iff.mpr fun hfails => hnot ⟨?_, c, hchanging⟩
        have hzero := firstFailure_eq_zero_iff.mpr ⟨List.length_pos_of_ne_nil hne, hfails⟩
        exact Option.some.inj (hfirst.symm.trans hzero)

lemma keepsListed (h : Listed n s.txOrder) : KeepsListed n fails s := by
  refine ⟨h, fun next hnext => ?_⟩
  cases hfirst : firstFailure (fails s.txOrder) s.txOrder.length with
  | none =>
      rw [round_of_none h hfirst] at hnext
      simp at hnext
  | some idx =>
      rw [round_of_some h hfirst] at hnext
      rcases onFailure_cases h (lt_of_firstFailure hfirst) with
        ⟨-, hpanic⟩ | ⟨-, next', hnext', hchanges⟩
      · rw [hpanic] at hnext
        simp [Except.map] at hnext
      · rw [hnext'] at hnext
        cases Verdict.go.inj (Except.ok.inj hnext)
        exact hchanges

lemma executed_of_leave (h : round n fails s = .ok .leave) :
    ∀ idx < s.txOrder.length, fails s.txOrder idx = false := by
  unfold round at h
  split at h
  · cases hfirst : firstFailure (fails s.txOrder) s.txOrder.length with
    | none => exact firstFailure_eq_none_iff.mp hfirst
    | some idx =>
        rw [hfirst] at h
        cases hfailure : onFailure s idx <;> simp [hfailure, Except.map] at h
  · simp at h

/-! ## The loop -/

/-- The loop returns, its rounds keep the list and change it, and an order for which there is a
database was executed. -/
structure SafeReorder (n : ℕ) (fails : List ℕ → ℕ → Bool) : Prop where
  returns : ∃ result, reorder n fails = .ok result
  rounds : EveryRound (round n fails) (KeepsListed n fails) 10 (start n)
  executed : ∀ s, reorder n fails = .ok (s, true) →
    ∀ idx < s.txOrder.length, fails s.txOrder idx = false

/-- **Reordering.** -/
theorem reorder_safe_iff (n : ℕ) (fails : List ℕ → ℕ → Bool) :
    SafeReorder n fails ↔ EveryRound (round n fails) (FirstHolds fails) 10 (start n) := by
  have hkeeps : ∀ s next, Listed n s.txOrder → round n fails s = .ok (.go next) →
      Listed n next.txOrder := fun s next h hnext => ((keepsListed h).2 next hnext).1
  have hreturns : (∃ result, reorder n fails = .ok result) ↔
      EveryRound (round n fails) (FirstHolds fails) 10 (start n) :=
    (exists_run_iff (fun _ s => ⟨(s, false), rfl⟩) 10 (start n)).trans
      (everyRound_congr (fun _ => exists_round_iff) hkeeps 10 (listed_start n))
  refine ⟨fun h => hreturns.mp h.returns, fun h => ⟨hreturns.mpr h, ?_, fun s hs => ?_⟩⟩
  · exact everyRound_of_inv (fun _ => keepsListed) hkeeps 10 (listed_start n)
  · obtain ⟨-, s', -, ⟨-, hleave, heq⟩ | ⟨-, heq⟩⟩ := run_ok (P := fun _ => True)
      (I := fun _ _ => True) (fun _ _ _ _ _ _ => trivial)
      (everyRound_of_forall (fun _ => trivial) 10 _) trivial hs
    · cases heq
      exact executed_of_leave hleave
    · simp at heq

/-- The last of three transactions fails and is moved, and then the first one fails. -/
theorem reorder_panics :
    reorder 3 (fun order idx => decide (order = [0, 1, 2] ∧ idx = 2 ∨ order = [0, 2, 1])) =
      .error .panic := by
  decide +kernel

end SamePathMerger

end Kabu
