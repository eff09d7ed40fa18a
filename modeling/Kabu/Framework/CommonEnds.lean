import Mathlib.Data.List.Basic

/-!
# What two lists have in common at their start

`sharedStart` is the number of places at which two lists agree before the first at which they do
not.  What they have in common at their end is the same for the reversed lists.

The entries of a list may have names, and two lists may have names in common at other places than
at their start.  `Forks` says that they do not: the lists have a common start, and no name of the
first occurs in the second after it.  `forks_iff` is the test for this by counting, that as many
entries of the first list have a name of the second as there are shared places.
-/

namespace CommonEnds

variable {α β : Type*} [DecidableEq α]

def sharedStart : List α → List α → ℕ
  | a :: l, b :: l' => if a = b then sharedStart l l' + 1 else 0
  | _, _ => 0

lemma sharedStart_cons_self (a : α) (l l' : List α) :
    sharedStart (a :: l) (a :: l') = sharedStart l l' + 1 := if_pos rfl

lemma sharedStart_cons_of_ne {a b : α} (h : a ≠ b) (l l' : List α) :
    sharedStart (a :: l) (b :: l') = 0 := if_neg h

lemma sharedStart_comm (l l' : List α) : sharedStart l l' = sharedStart l' l := by
  induction l generalizing l' with
  | nil => cases l' <;> rfl
  | cons a l ih =>
      cases l' with
      | nil => rfl
      | cons b l' =>
          by_cases h : a = b
          · rw [h, sharedStart_cons_self, sharedStart_cons_self, ih]
          · rw [sharedStart_cons_of_ne h, sharedStart_cons_of_ne (Ne.symm h)]

lemma sharedStart_le_length (l l' : List α) : sharedStart l l' ≤ l.length := by
  induction l generalizing l' with
  | nil => exact Nat.le_refl 0
  | cons a l ih =>
      cases l' with
      | nil => exact Nat.zero_le _
      | cons b l' =>
          by_cases h : a = b
          · rw [h, sharedStart_cons_self]
            exact Nat.succ_le_succ (ih l')
          · rw [sharedStart_cons_of_ne h]
            exact Nat.zero_le _

lemma sharedStart_append (shared l l' : List α) :
    sharedStart (shared ++ l) (shared ++ l') = shared.length + sharedStart l l' := by
  induction shared with
  | nil => simp
  | cons a shared ih =>
      rw [List.cons_append, List.cons_append, sharedStart_cons_self, ih, List.length_cons]
      omega

lemma eq_take_append_drop (l l' : List α) :
    l' = l.take (sharedStart l l') ++ l'.drop (sharedStart l l') := by
  induction l generalizing l' with
  | nil => cases l' <;> rfl
  | cons a l ih =>
      cases l' with
      | nil => simp [sharedStart]
      | cons b l' =>
          by_cases h : a = b
          · rw [h, sharedStart_cons_self, List.take_succ_cons, List.drop_succ_cons,
              List.cons_append, ← ih l']
          · rw [sharedStart_cons_of_ne h]
            rfl

lemma take_sharedStart (l l' : List α) :
    l.take (sharedStart l l') = l'.take (sharedStart l l') := by
  have hlength : (l.take (sharedStart l l')).length = sharedStart l l' := by
    rw [List.length_take, Nat.min_eq_left (sharedStart_le_length l l')]
  have htake := congrArg (List.take (sharedStart l l')) (eq_take_append_drop l l')
  rw [List.take_left' hlength] at htake
  exact htake.symm

lemma sharedStart_pos_iff {l l' : List α} :
    0 < sharedStart l l' ↔ ∃ a, l.head? = some a ∧ l'.head? = some a := by
  cases l with
  | nil => simp [sharedStart]
  | cons a l =>
      cases l' with
      | nil => simp [sharedStart]
      | cons b l' =>
          by_cases h : a = b
          · simp [h, sharedStart_cons_self]
          · simp [sharedStart_cons_of_ne h, Ne.symm h]

lemma sharedStart_eq_length_iff {l l' : List α} : sharedStart l l' = l.length ↔ l <+: l' := by
  constructor
  · intro h
    have heq := eq_take_append_drop l l'
    rw [h, List.take_length] at heq
    exact ⟨_, heq.symm⟩
  · rintro ⟨rest, rfl⟩
    have happend := sharedStart_append l [] rest
    rw [List.append_nil] at happend
    exact happend

/-! ## Forks -/

section Forks

variable [DecidableEq β] (name : α → β)

/-- The lists have a common start, and no entry of the first after it has a name of the second. -/
def Forks (l l' : List α) : Prop :=
  ∃ shared rest rest', shared ≠ [] ∧ l = shared ++ rest ∧ l' = shared ++ rest' ∧
    ∀ a ∈ rest, name a ∉ l'.map name

/-- The number of entries with a name of the other list. -/
def commonNames (l l' : List α) : ℕ := l.countP fun a => decide (name a ∈ l'.map name)

variable {name} {l l' : List α}

/-- The entries of the shared start are counted, and then those after it. -/
lemma commonNames_eq (l l' : List α) : commonNames name l l' =
    sharedStart l l' +
      (l.drop (sharedStart l l')).countP fun a => decide (name a ∈ l'.map name) := by
  have hshared : (l.take (sharedStart l l')).countP (fun a => decide (name a ∈ l'.map name)) =
      sharedStart l l' := by
    rw [List.countP_eq_length.mpr fun a ha => ?_, List.length_take,
      Nat.min_eq_left (sharedStart_le_length l l')]
    refine decide_eq_true (List.mem_map_of_mem ?_)
    rw [eq_take_append_drop l l']
    exact List.mem_append_left _ ha
  have hall : commonNames name l l' = (l.take (sharedStart l l') ++
      l.drop (sharedStart l l')).countP fun a => decide (name a ∈ l'.map name) := by
    rw [List.take_append_drop]
    rfl
  rw [hall, List.countP_append, hshared]

/-- No name is in common after the shared start if there are as many in common as places in it. -/
lemma sharedStart_eq_commonNames_iff : sharedStart l l' = commonNames name l l' ↔
    ∀ a ∈ l.drop (sharedStart l l'), name a ∉ l'.map name := by
  rw [commonNames_eq, Nat.left_eq_add, List.countP_eq_zero]
  simp only [decide_eq_true_eq]

omit [DecidableEq β] in
lemma sharedStart_of_forks {shared rest rest' : List α} (hl : l = shared ++ rest)
    (hl' : l' = shared ++ rest') (hrest : ∀ a ∈ rest, name a ∉ l'.map name) :
    sharedStart l l' = shared.length := by
  have hzero : ¬ 0 < sharedStart rest rest' := by
    intro hpos
    obtain ⟨a, ha, ha'⟩ := sharedStart_pos_iff.mp hpos
    refine hrest a (List.mem_of_mem_head? ha) (List.mem_map_of_mem ?_)
    rw [hl']
    exact List.mem_append_right _ (List.mem_of_mem_head? ha')
  rw [hl, hl', sharedStart_append]
  omega

/-- **Forks, by counting.** -/
lemma forks_iff : Forks name l l' ↔
    0 < sharedStart l l' ∧ sharedStart l l' = commonNames name l l' := by
  constructor
  · rintro ⟨shared, rest, rest', hshared, hl, hl', hrest⟩
    have hstart := sharedStart_of_forks hl hl' hrest
    refine ⟨hstart ▸ List.length_pos_iff.mpr hshared, sharedStart_eq_commonNames_iff.mpr ?_⟩
    rw [hstart, hl, List.drop_left]
    exact hrest
  · rintro ⟨hpos, hcount⟩
    refine ⟨l.take (sharedStart l l'), l.drop (sharedStart l l'), l'.drop (sharedStart l l'), ?_,
      (List.take_append_drop _ _).symm, eq_take_append_drop l l',
      sharedStart_eq_commonNames_iff.mp hcount⟩
    rw [← List.length_pos_iff, List.length_take,
      Nat.min_eq_left (sharedStart_le_length l l')]
    exact hpos

end Forks

end CommonEnds
