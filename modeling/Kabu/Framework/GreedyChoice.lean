import Mathlib.Data.List.Basic
import Mathlib.Data.List.Induction

/-!
# Greedy choices

Candidates are looked at one after another.  A candidate is taken if it does not clash with what has
been taken before, and left out otherwise; nothing that has been taken is given up again.  There is
something to begin with that is not a candidate, and with which those that are taken must not clash
either.

* `pairwise_choose`: nothing that is taken clashes.
* `exists_positions`: what is taken stands at ascending positions, and whatever is left out clashes
  with the beginning or with something taken at an earlier position.
-/

namespace GreedyChoice

variable {α : Type*} (clash : α → α → Prop) [DecidableRel clash] (first : α)

/-- The choice after one more candidate. -/
def step (chosen : List α) (x : α) : List α :=
  if ∃ y ∈ first :: chosen, clash y x then chosen else chosen ++ [x]

def choose (xs : List α) : List α := xs.foldl (step clash first) []

/-- The positions at which candidates have been taken. -/
structure TakenAt (xs : List α) (positions : List ℕ) : Prop where
  ascending : positions.Pairwise (· < ·)
  lt_length : ∀ i ∈ positions, i < xs.length
  left_out : ∀ j x, xs[j]? = some x → j ∉ positions →
    clash first x ∨ ∃ i ∈ positions, i < j ∧ ∃ y, xs[i]? = some y ∧ clash y x

variable {clash first} {xs : List α} {x : α}

lemma choose_append_singleton :
    choose clash first (xs ++ [x]) = step clash first (choose clash first xs) x := by
  rw [choose, List.foldl_append]
  rfl

/-- **Nothing that is taken is given up** for candidates that come later. -/
lemma choose_append (xs ys : List α) :
    ∃ more, choose clash first (xs ++ ys) = choose clash first xs ++ more ∧ more.Sublist ys := by
  induction ys using List.reverseRecOn with
  | nil => exact ⟨[], by rw [List.append_nil, List.append_nil], .slnil⟩
  | append_singleton ys y ih =>
      obtain ⟨more, hmore, hsub⟩ := ih
      rw [← List.append_assoc, choose_append_singleton, step, hmore]
      split_ifs
      · exact ⟨more, rfl, hsub.trans (List.sublist_append_left _ _)⟩
      · exact ⟨more ++ [y], List.append_assoc _ _ _, hsub.append (.refl _)⟩

/-- **Nothing that is taken clashes.** -/
lemma pairwise_choose (xs : List α) :
    (first :: choose clash first xs).Pairwise fun y x => ¬ clash y x := by
  induction xs using List.reverseRecOn with
  | nil => exact List.pairwise_singleton _ _
  | append_singleton xs x ih =>
      rw [choose_append_singleton, step]
      split_ifs with hclash
      · exact ih
      · rw [← List.cons_append, List.pairwise_append]
        refine ⟨ih, List.pairwise_singleton _ _, fun y hy z hz => ?_⟩
        obtain rfl := List.mem_singleton.mp hz
        exact fun h => hclash ⟨y, hy, h⟩

/-- **Whatever is left out clashes with something before it.** -/
lemma exists_positions (xs : List α) :
    ∃ positions, TakenAt clash first xs positions ∧
      choose clash first xs = positions.filterMap (xs[·]?) := by
  induction xs using List.reverseRecOn with
  | nil => exact ⟨[], ⟨.nil, by simp, by simp⟩, rfl⟩
  | append_singleton xs x ih =>
      obtain ⟨positions, ⟨hascending, hlt, hleft⟩, hchoose⟩ := ih
      -- the positions before the last candidate say the same in the longer list
      have hsame : ∀ i ∈ positions, (xs ++ [x])[i]? = xs[i]? := fun i hi =>
        List.getElem?_append_left (hlt i hi)
      have htaken : positions.filterMap ((xs ++ [x])[·]?) = choose clash first xs := by
        rw [hchoose]
        exact List.filterMap_congr hsame
      have hlast : (xs ++ [x])[xs.length]? = some x := by simp
      have hbefore : ∀ j z, j < xs.length → (xs ++ [x])[j]? = some z → j ∉ positions →
          clash first z ∨ ∃ i ∈ positions, i < j ∧ ∃ y, (xs ++ [x])[i]? = some y ∧ clash y z := by
        intro j z hj hz hnot
        rw [List.getElem?_append_left hj] at hz
        rcases hleft j z hz hnot with hclash | ⟨i, hi, hij, y, hy, hclash⟩
        · exact Or.inl hclash
        · exact Or.inr ⟨i, hi, hij, y, (hsame i hi).trans hy, hclash⟩
      have hcases : ∀ j z, (xs ++ [x])[j]? = some z → j < xs.length ∨ j = xs.length ∧ z = x := by
        intro j z hz
        have hj := (List.getElem?_eq_some_iff.mp hz).1
        rw [List.length_append, List.length_singleton] at hj
        rcases Nat.lt_succ_iff_lt_or_eq.mp hj with hj | rfl
        · exact Or.inl hj
        · exact Or.inr ⟨rfl, (Option.some.inj (hlast.symm.trans hz)).symm⟩
      rw [choose_append_singleton, step]
      split_ifs with hclash
      · refine ⟨positions, ⟨hascending, fun i hi => ?_, fun j z hz hnot => ?_⟩, htaken.symm⟩
        · exact Nat.lt_trans (hlt i hi) (by simp)
        · rcases hcases j z hz with hj | ⟨rfl, rfl⟩
          · exact hbefore j z hj hz hnot
          · obtain ⟨y, hy, hyz⟩ := hclash
            rcases List.mem_cons.mp hy with rfl | hy
            · exact Or.inl hyz
            · rw [← htaken, List.mem_filterMap] at hy
              obtain ⟨i, hi, hiy⟩ := hy
              exact Or.inr ⟨i, hi, hlt i hi, y, hiy, hyz⟩
      · refine ⟨positions ++ [xs.length], ⟨?_, fun i hi => ?_, fun j z hz hnot => ?_⟩, ?_⟩
        · rw [List.pairwise_append]
          refine ⟨hascending, List.pairwise_singleton _ _, fun i hi j hj => ?_⟩
          obtain rfl := List.mem_singleton.mp hj
          exact hlt i hi
        · rw [List.length_append, List.length_singleton]
          rcases List.mem_append.mp hi with hi | hi
          · exact Nat.lt_trans (hlt i hi) (Nat.lt_succ_self _)
          · rw [List.mem_singleton.mp hi]
            exact Nat.lt_succ_self _
        · have hnot' : j ∉ positions := fun h => hnot (List.mem_append_left _ h)
          rcases hcases j z hz with hj | ⟨rfl, -⟩
          · rcases hbefore j z hj hz hnot' with hclash | ⟨i, hi, hrest⟩
            · exact Or.inl hclash
            · exact Or.inr ⟨i, List.mem_append_left _ hi, hrest⟩
          · exact absurd (List.mem_append_right _ (List.mem_singleton_self _)) hnot
        · rw [List.filterMap_append, htaken, List.filterMap_cons, hlast, List.filterMap_nil]

end GreedyChoice
