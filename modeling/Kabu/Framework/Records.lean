import Mathlib.Order.Lattice

/-!
# Records of a quantity

A record keeps one of the requests that have come in so far, for which a quantity is largest.  Not
every request has the quantity.  `Attains` says that a record is what it should be, and there are
two things that can be done with a record when a request comes in.  It can be improved, which is
always right (`Attains.improve`), or be left alone, which is right if the request is covered by it
(`attains_append_iff`).
-/

namespace Records

variable {R V : Type*} [LinearOrder V] (quantity : R → V) (defined : R → Prop)

/-- The record is not less than the request. -/
def Covers (best : Option R) (request : R) : Prop :=
  ∃ b, best = some b ∧ quantity request ≤ quantity b

/-- The record is one of the requests with the quantity, and covers them all. -/
structure Attains (best : Option R) (seen : List R) : Prop where
  mem : ∀ b, best = some b → b ∈ seen ∧ defined b
  covers : ∀ r ∈ seen, defined r → Covers quantity best r

def improve (best : Option R) (request : R) : Option R :=
  match best with
  | none => some request
  | some b => if quantity b < quantity request then some request else some b

variable {quantity defined} {best : Option R} {seen : List R} {request : R}

lemma attains_nil : Attains quantity defined none [] :=
  ⟨fun _ h => absurd h (by simp), fun _ h => absurd h (by simp)⟩

lemma improve_eq (quantity : R → V) (best : Option R) (request : R) :
    improve quantity best request = some request ∨ improve quantity best request = best := by
  cases best with
  | none => exact Or.inl rfl
  | some b =>
      unfold improve
      exact ite_eq_or_eq _ _ _

lemma covers_improve : Covers quantity (improve quantity best request) request := by
  cases best with
  | none => exact ⟨request, rfl, le_rfl⟩
  | some b =>
      by_cases h : quantity b < quantity request
      · exact ⟨request, if_pos h, le_rfl⟩
      · exact ⟨b, if_neg h, le_of_not_gt h⟩

lemma Covers.improve {r : R} (h : Covers quantity best r) :
    Covers quantity (improve quantity best request) r := by
  obtain ⟨b, rfl, hle⟩ := h
  by_cases hless : quantity b < quantity request
  · exact ⟨request, if_pos hless, hle.trans hless.le⟩
  · exact ⟨b, if_neg hless, hle⟩

variable (h : Attains quantity defined best seen)

include h

/-- A record that is improved by every request attains the maximum. -/
lemma Attains.improve (hrequest : defined request) :
    Attains quantity defined (improve quantity best request) (seen ++ [request]) := by
  refine ⟨fun b hb => ?_, fun r hr hdefined => ?_⟩
  · rcases improve_eq quantity best request with heq | heq
    · cases Option.some.inj (hb.symm.trans heq)
      exact ⟨by simp, hrequest⟩
    · obtain ⟨hmem, hdefined⟩ := h.mem b (heq.symm.trans hb)
      exact ⟨List.mem_append_left _ hmem, hdefined⟩
  · rcases List.mem_append.mp hr with hseen | hnew
    · exact (h.covers r hseen hdefined).improve
    · cases List.mem_singleton.mp hnew
      exact covers_improve

/-- A record that a request leaves alone has to cover it. -/
lemma attains_append_iff :
    Attains quantity defined best (seen ++ [request]) ↔
      (defined request → Covers quantity best request) := by
  constructor
  · intro hafter hdefined
    exact hafter.covers request (by simp) hdefined
  · intro hcovers
    refine ⟨fun b hb => ?_, fun r hr hdefined => ?_⟩
    · obtain ⟨hmem, hdefined⟩ := h.mem b hb
      exact ⟨List.mem_append_left _ hmem, hdefined⟩
    · rcases List.mem_append.mp hr with hseen | hnew
      · exact h.covers r hseen hdefined
      · cases List.mem_singleton.mp hnew
        exact hcovers hdefined

/-- What holds below whatever it holds of holds of all requests if it holds of the record. -/
lemma Attains.forall_iff {P : V → Prop} (hP : ∀ u v, u ≤ v → P v → P u) :
    (∀ r ∈ seen, defined r → P (quantity r)) ↔ ∀ b, best = some b → P (quantity b) := by
  constructor
  · intro hall b hb
    exact hall b (h.mem b hb).1 (h.mem b hb).2
  · intro hbest r hr hdefined
    obtain ⟨b, hb, hle⟩ := h.covers r hr hdefined
    exact hP _ _ hle (hbest b hb)

end Records
