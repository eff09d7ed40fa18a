import Mathlib.Data.List.Nodup

/-!
# Sets of values that count as equal when their keys are

A hash set whose elements are compared by part of their data keeps the first of the values with
one key.  `KeyedSet key` is the list of its elements with the proof that no two have the same key.

A program that fills such a set in steps that may fail is described by `Adds`: the step succeeds,
and what it adds are the values with a property.  `Adds` composes: two steps add what either
adds, a conditional step adds under its condition, and a loop adds what its bodies add.  All of
it is relative to a domain `P` on which the key decides the value, since otherwise a value can be
missing because another one with its key came first.
-/

/-- The elements, in the order they came, no two with the same key. -/
structure KeyedSet {α κ : Type*} (key : α → κ) where
  elems : List α
  nodup : (elems.map key).Nodup

namespace KeyedSet

variable {α κ ε A : Type*} {key : α → κ}

def empty : KeyedSet key := ⟨[], List.nodup_nil⟩

variable [DecidableEq κ]

def insert (s : KeyedSet key) (x : α) : KeyedSet key :=
  if h : key x ∈ s.elems.map key then s
  else ⟨s.elems ++ [x], by
    rw [List.map_append, List.map_singleton]
    exact s.nodup.append (List.nodup_singleton _) (List.disjoint_singleton.mpr h)⟩

def extend (s : KeyedSet key) (xs : List α) : KeyedSet key := xs.foldl insert s

/-- Whether there is a value with the key of the given one. -/
def contains (s : KeyedSet key) (x : α) : Bool := decide (key x ∈ s.elems.map key)

/-! ## Membership -/

lemma filter_eq_singleton {l : List α} (hnodup : (l.map key).Nodup) {x : α} (hx : x ∈ l) :
    l.filter (fun y => decide (key y = key x)) = [x] := by
  induction l with
  | nil => simp at hx
  | cons y l ih =>
      rw [List.map_cons, List.nodup_cons] at hnodup
      rcases List.mem_cons.mp hx with rfl | hmem
      · rw [List.filter_cons_of_pos (by simp), List.filter_eq_nil_iff.mpr]
        intro z hz hkey
        exact hnodup.1 (of_decide_eq_true hkey ▸ List.mem_map_of_mem hz)
      · have hkey : key y ≠ key x := fun h => hnodup.1 (h ▸ List.mem_map_of_mem hmem)
        rw [List.filter_cons_of_neg (by simp [hkey]), ih hnodup.2 hmem]

lemma mem_keys_insert (s : KeyedSet key) (x : α) (k : κ) :
    k ∈ (s.insert x).elems.map key ↔ k ∈ s.elems.map key ∨ k = key x := by
  unfold insert
  split
  · rename_i hmem
    exact (or_iff_left_of_imp fun hk => hk ▸ hmem).symm
  · simp

lemma mem_keys_extend (s : KeyedSet key) (xs : List α) (k : κ) :
    k ∈ (s.extend xs).elems.map key ↔ k ∈ s.elems.map key ∨ k ∈ xs.map key := by
  induction xs generalizing s with
  | nil => simp [extend]
  | cons x xs ih =>
      refine (ih (s.insert x)).trans ?_
      rw [mem_keys_insert, List.map_cons, List.mem_cons, or_assoc]

lemma mem_extend_iff (s : KeyedSet key) (xs : List α) (y : α) :
    y ∈ (s.extend xs).elems ↔ y ∈ s.elems ∨
      key y ∉ s.elems.map key ∧ xs.find? (fun x => decide (key x = key y)) = some y := by
  induction xs generalizing s with
  | nil => simp [extend]
  | cons x xs ih =>
      rw [show s.extend (x :: xs) = (s.insert x).extend xs from rfl, ih, mem_keys_insert,
        List.find?_cons]
      by_cases hmem : key x ∈ s.elems.map key
      · have hsame : s.insert x = s := dif_pos hmem
        rw [hsame]
        by_cases hkey : key x = key y
        · have hy : key y ∈ s.elems.map key := hkey ▸ hmem
          simp [hy]
        · simp [hkey, Ne.symm hkey]
      · have hnew : (s.insert x).elems = s.elems ++ [x] := by
          unfold insert
          rw [dif_neg hmem]
        rw [hnew, List.mem_append, List.mem_singleton]
        by_cases hkey : key x = key y
        · have hy : key y ∉ s.elems.map key := fun h => hmem (hkey ▸ h)
          simp [hkey, hy, eq_comm]
        · have hne : y ≠ x := fun h => hkey (congrArg key h.symm)
          simp [hkey, Ne.symm hkey, hne]

lemma mem_extend_empty_iff (xs : List α) (y : α) :
    y ∈ ((empty : KeyedSet key).extend xs).elems ↔
      xs.find? (fun x => decide (key x = key y)) = some y := by
  rw [mem_extend_iff]
  simp [empty]

section Domain

variable {P : α → Prop} (hkey : ∀ x y, P x → P y → key x = key y → x = y)

include hkey

lemma mem_insert {s : KeyedSet key} {x : α} (hs : ∀ y ∈ s.elems, P y) (hx : P x) (y : α) :
    y ∈ (s.insert x).elems ↔ y ∈ s.elems ∨ y = x := by
  unfold insert
  split
  · rename_i hmem
    obtain ⟨z, hz, hzx⟩ := List.mem_map.mp hmem
    have hsame : z = x := hkey z x (hs z hz) hx hzx
    constructor
    · exact Or.inl
    · rintro (hy | rfl)
      · exact hy
      · exact hsame ▸ hz
  · rw [List.mem_append, List.mem_singleton]

lemma mem_extend {s : KeyedSet key} {xs : List α} (hs : ∀ y ∈ s.elems, P y)
    (hxs : ∀ y ∈ xs, P y) (y : α) : y ∈ (s.extend xs).elems ↔ y ∈ s.elems ∨ y ∈ xs := by
  induction xs generalizing s with
  | nil => simp [extend]
  | cons x xs ih =>
      have hx : P x := hxs x List.mem_cons_self
      have hmem := mem_insert hkey hs hx
      have hs' : ∀ y ∈ (s.insert x).elems, P y := by
        intro y hy
        rcases (hmem y).mp hy with hold | rfl
        · exact hs y hold
        · exact hx
      have hrest := ih hs' fun y hy => hxs y (List.mem_cons_of_mem x hy)
      rw [show s.extend (x :: xs) = (s.insert x).extend xs from rfl, hrest, hmem, List.mem_cons,
        or_assoc]

end Domain

/-! ## Steps that add -/

/-- The values with `R` are in `P`, and on a set of values in `P` the step succeeds and adds
them. -/
structure Adds (P R : α → Prop) (step : KeyedSet key → Except ε (KeyedSet key)) : Prop where
  within : ∀ x, R x → P x
  adds : ∀ s : KeyedSet key, (∀ x ∈ s.elems, P x) →
    ∃ s', step s = .ok s' ∧ ∀ x, x ∈ s'.elems ↔ x ∈ s.elems ∨ R x

namespace Adds

variable {P R R' : α → Prop} {step step' : KeyedSet key → Except ε (KeyedSet key)}

omit [DecidableEq κ]

lemma congr (h : Adds P R step) (hR : ∀ x, R x ↔ R' x) : Adds P R' step := by
  refine ⟨fun x hx => h.within x ((hR x).mpr hx), fun s hs => ?_⟩
  obtain ⟨s', hstep, hmem⟩ := h.adds s hs
  exact ⟨s', hstep, fun x => (hmem x).trans (or_congr_right (hR x))⟩

lemma bind (h : Adds P R step) (h' : Adds P R' step') :
    Adds P (fun x => R x ∨ R' x) fun s => (step s).bind step' := by
  refine ⟨fun x hx => hx.elim (h.within x) (h'.within x), fun s hs => ?_⟩
  obtain ⟨s₁, hstep, hmem⟩ := h.adds s hs
  have hs₁ : ∀ x ∈ s₁.elems, P x := fun x hx => ((hmem x).mp hx).elim (hs x) (h.within x)
  obtain ⟨s₂, hstep', hmem'⟩ := h'.adds s₁ hs₁
  refine ⟨s₂, ?_, fun x => ?_⟩
  · rw [hstep]
    exact hstep'
  · rw [hmem', hmem, or_assoc]

lemma foldlM {body : KeyedSet key → A → Except ε (KeyedSet key)} {Q : A → α → Prop}
    {l : List A} (h : ∀ a ∈ l, Adds P (Q a) fun s => body s a) :
    Adds P (fun x => ∃ a ∈ l, Q a x) fun s => l.foldlM body s := by
  induction l with
  | nil => exact ⟨by simp, fun s _ => ⟨s, rfl, by simp⟩⟩
  | cons a l ih =>
      have htail := ih fun b hb => h b (List.mem_cons_of_mem a hb)
      refine ((h a List.mem_cons_self).bind htail).congr fun x => ?_
      simp only [List.mem_cons, exists_eq_or_imp]

end Adds

/-- Adding what was built, if the condition holds. -/
def extendIf (condition : Bool) (built : Except ε (List α)) (s : KeyedSet key) :
    Except ε (KeyedSet key) :=
  if condition then built.map s.extend else .ok s

lemma adds_extendIf {P : α → Prop} (hkey : ∀ x y, P x → P y → key x = key y → x = y)
    (condition : Bool) {built : Except ε (List α)} {R : α → Prop}
    (hbuilt : ∃ xs, built = .ok xs ∧ ∀ x, x ∈ xs ↔ R x)
    (hR : condition = true → ∀ x, R x → P x) :
    Adds P (fun x => condition = true ∧ R x)
      (extendIf condition built : KeyedSet key → Except ε (KeyedSet key)) := by
  obtain ⟨xs, rfl, hxs⟩ := hbuilt
  refine ⟨fun x hx => hR hx.1 x hx.2, fun s hs => ?_⟩
  unfold extendIf
  cases condition with
  | false => exact ⟨s, rfl, by simp⟩
  | true =>
      refine ⟨s.extend xs, rfl, fun x => ?_⟩
      rw [mem_extend hkey hs (fun y hy => hR rfl y ((hxs y).mp hy)), hxs]
      simp

end KeyedSet
