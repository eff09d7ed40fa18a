import Mathlib.Data.List.Basic

/-!
# Lists that carry lists

The items of a list may carry lists of the same items in turn.  Some items are plain, and carry
nothing that matters; some are wrappers, with a label and a payload; the rest are other.

`Nested inside labels items` says that the items are wrappers around wrappers around the list
`inside`, with the labels from the outside to the inside, and with nothing but plain items beside
them on any level.  Such nestings compose (`Nested.trans`).

What is not plain in a list decides how it can be nested: `Shape` is a nesting up to plain items,
every nesting has its shape (`Nested.shape`), and the wrappers around a list can be taken off
(`Nested.shape_append_iff`).
-/

namespace Nesting

variable {A L : Type*}

/-- What an item is to a nesting. -/
inductive Kind (A L : Type*)
  | plain
  | wrapper (label : L) (payload : List A)
  | other

def Kind.isPlain : Kind A L → Bool
  | .plain => true
  | _ => false

lemma Kind.isPlain_iff {kind : Kind A L} : kind.isPlain = true ↔ kind = .plain := by
  cases kind <;> simp [isPlain]

variable (view : A → Kind A L)

def Plain (items : List A) : Prop := ∀ a ∈ items, view a = .plain

/-- The labels from the outside, down to the list inside. -/
def Nested (inside : List A) : List L → List A → Prop
  | [], items => ∃ before after, items = before ++ inside ++ after ∧ Plain view before ∧
      Plain view after
  | label :: labels, items => ∃ before a after payload, items = before ++ a :: after ∧
      Plain view before ∧ Plain view after ∧ view a = .wrapper label payload ∧
      Nested inside labels payload

/-- What is not plain. -/
def nodes (items : List A) : List A := items.filter fun a => !(view a).isPlain

/-- A nesting up to plain items. -/
def Shape (inside : List A) : List L → List A → Prop
  | [], items => nodes view items = nodes view inside
  | label :: labels, items => ∃ a payload, nodes view items = [a] ∧
      view a = .wrapper label payload ∧ Shape inside labels payload

variable {view}

section Plain

variable {items items' : List A}

lemma plain_nil : Plain view [] := by
  intro a ha
  exact absurd ha List.not_mem_nil

lemma Plain.append (h : Plain view items) (h' : Plain view items') : Plain view (items ++ items') :=
  fun a ha => (List.mem_append.mp ha).elim (h a) (h' a)

lemma plain_singleton {a : A} (h : view a = .plain) : Plain view [a] := by
  intro a' ha'
  rw [List.mem_singleton.mp ha']
  exact h

@[simp] lemma nodes_nil : nodes view [] = [] := rfl

@[simp] lemma nodes_append : nodes view (items ++ items') = nodes view items ++ nodes view items' :=
  List.filter_append _ _

lemma Plain.nodes_eq (h : Plain view items) : nodes view items = [] := by
  refine List.filter_eq_nil_iff.mpr fun a ha => ?_
  rw [h a ha]
  simp [Kind.isPlain]

lemma nodes_cons_of_ne {a : A} (h : view a ≠ .plain) :
    nodes view (a :: items) = a :: nodes view items := by
  refine List.filter_cons_of_pos ?_
  rw [Bool.not_eq_true', Bool.eq_false_iff]
  exact fun hplain => h (Kind.isPlain_iff.mp hplain)

end Plain

/-! ## Composing -/

section Compose

variable {inside middle items before after : List A} {labels outer : List L}

lemma nested_self : Nested view inside [] inside :=
  ⟨[], [], by simp, plain_nil, plain_nil⟩

lemma Nested.beside (h : Nested view inside labels items) (hbefore : Plain view before)
    (hafter : Plain view after) : Nested view inside labels (before ++ items ++ after) := by
  cases labels with
  | nil =>
      obtain ⟨before', after', rfl, hbefore', hafter'⟩ := h
      exact ⟨before ++ before', after' ++ after, by simp, hbefore.append hbefore',
        hafter'.append hafter⟩
  | cons label labels =>
      obtain ⟨before', a, after', payload, rfl, hbefore', hafter', hview, hpayload⟩ := h
      exact ⟨before ++ before', a, after' ++ after, payload, by simp, hbefore.append hbefore',
        hafter'.append hafter, hview, hpayload⟩

/-- **Nestings compose.** -/
lemma Nested.trans (h : Nested view inside labels middle) (h' : Nested view middle outer items) :
    Nested view inside (outer ++ labels) items := by
  induction outer generalizing items with
  | nil =>
      obtain ⟨before, after, rfl, hbefore, hafter⟩ := h'
      exact h.beside hbefore hafter
  | cons label outer ih =>
      obtain ⟨before, a, after, payload, rfl, hbefore, hafter, hview, hpayload⟩ := h'
      exact ⟨before, a, after, payload, rfl, hbefore, hafter, hview, ih hpayload⟩

end Compose

/-! ## Shapes -/

section Shapes

variable {inside core items : List A} {label : L} {labels : List L}

/-- A wrapper is the only thing on its level that is not plain. -/
lemma Nested.nodes_eq (h : Nested view inside (label :: labels) items) :
    ∃ a payload, nodes view items = [a] ∧ view a = .wrapper label payload ∧
      Nested view inside labels payload := by
  obtain ⟨before, a, after, payload, rfl, hbefore, hafter, hview, hpayload⟩ := h
  refine ⟨a, payload, ?_, hview, hpayload⟩
  rw [nodes_append, hbefore.nodes_eq, nodes_cons_of_ne (by rw [hview]; simp), hafter.nodes_eq]
  rfl

lemma Nested.shape (h : Nested view inside labels items) : Shape view inside labels items := by
  induction labels generalizing items with
  | nil =>
      obtain ⟨before, after, rfl, hbefore, hafter⟩ := h
      change nodes view _ = _
      rw [nodes_append, nodes_append, hbefore.nodes_eq, hafter.nodes_eq, List.nil_append,
        List.append_nil]
  | cons label labels ih =>
      obtain ⟨a, payload, hnodes, hview, hpayload⟩ := h.nodes_eq
      exact ⟨a, payload, hnodes, hview, ih hpayload⟩

/-- The shape is a matter of what is not plain. -/
lemma shape_congr {items' : List A} (h : nodes view items = nodes view items') :
    Shape view inside labels items ↔ Shape view inside labels items' := by
  cases labels with
  | nil => exact Iff.of_eq (congrArg (· = nodes view inside) h)
  | cons label labels => simp only [Shape, h]

lemma Shape.length_nodes (h : Shape view inside (label :: labels) items) :
    (nodes view items).length = 1 := by
  obtain ⟨a, payload, hnodes, -, -⟩ := h
  rw [hnodes]
  rfl

/-- **Taking off wrappers.**  What is inside a nesting has the rest of its shape. -/
lemma Nested.shape_append_iff {outer : List L} (h : Nested view core outer items) :
    Shape view inside (outer ++ labels) items ↔ Shape view inside labels core := by
  induction outer generalizing items with
  | nil => exact shape_congr h.shape
  | cons label outer ih =>
      obtain ⟨a, payload, hnodes, hview, hpayload⟩ := h.nodes_eq
      rw [← ih hpayload]
      constructor
      · rintro ⟨a', payload', hnodes', hview', hshape⟩
        rw [hnodes] at hnodes'
        cases hnodes'
        rw [hview] at hview'
        cases hview'
        exact hshape
      · exact fun hshape => ⟨a, payload, hnodes, hview, hshape⟩

end Shapes

end Nesting
