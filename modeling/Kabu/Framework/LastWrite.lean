import Mathlib.Data.List.Induction

/-!
# The last write of a run

A run of records, each of which may or may not write a given cell, leaves in the cell the value
of the last record that writes it, and the value it started from when none does.  `lastWrite` is
that value, for a run written as a list and a cell written as a partial function on records.

`foldl_or` and `foldl_getD` are the two ways a loop computes it: into an optional cell, and into
a cell that always has a value.  Both are stated for an observation of the loop's state, so the
loop may carry whatever else it needs; `foldl_holds` is the second for a fact instead of an
observation.
-/

namespace LastWrite

variable {A B σ : Type*}

/-- The value the last writing record of the run writes. -/
def lastWrite (f : A → Option B) (l : List A) : Option B := (l.filterMap f).getLast?

variable (f : A → Option B)

@[simp] lemma lastWrite_nil : lastWrite f [] = none := rfl

@[simp] lemma lastWrite_append_singleton (l : List A) (x : A) :
    lastWrite f (l ++ [x]) = (f x).or (lastWrite f l) := by
  unfold lastWrite
  cases h : f x with
  | none => simp [List.filterMap_append, h]
  | some b => simp [List.filterMap_append, h]

lemma lastWrite_append (l l' : List A) :
    lastWrite f (l ++ l') = (lastWrite f l').or (lastWrite f l) := by
  induction l' using List.reverseRecOn with
  | nil => simp
  | append_singleton l' x ih =>
      rw [← List.append_assoc, lastWrite_append_singleton, lastWrite_append_singleton, ih,
        Option.or_assoc]

lemma lastWrite_append_cons (l l' : List A) (x : A) :
    lastWrite f (l ++ x :: l') = (lastWrite f l').or ((f x).or (lastWrite f l)) := by
  rw [List.append_cons, lastWrite_append, lastWrite_append_singleton]

lemma lastWrite_eq_none_iff (l : List A) : lastWrite f l = none ↔ ∀ x ∈ l, f x = none := by
  simp [lastWrite]

/-- What is left was written by a record after which none writes. -/
lemma lastWrite_eq_some_iff (l : List A) (b : B) :
    lastWrite f l = some b ↔
      ∃ past x rest, l = past ++ x :: rest ∧ f x = some b ∧ ∀ y ∈ rest, f y = none := by
  constructor
  · intro h
    induction l using List.reverseRecOn with
    | nil => simp at h
    | append_singleton l x ih =>
        rw [lastWrite_append_singleton] at h
        cases hx : f x with
        | some c =>
            rw [hx] at h
            exact ⟨l, x, [], rfl, hx.trans h, List.forall_mem_nil _⟩
        | none =>
            rw [hx, Option.none_or] at h
            obtain ⟨past, y, rest, rfl, hy, hrest⟩ := ih h
            refine ⟨past, y, rest ++ [x], by simp, hy, fun z hz => ?_⟩
            rcases List.mem_append.mp hz with hz | hz
            · exact hrest z hz
            · rw [List.mem_singleton.mp hz, hx]
  · rintro ⟨past, x, rest, rfl, hx, hrest⟩
    rw [lastWrite_append_cons, (lastWrite_eq_none_iff f rest).mpr hrest, hx]
    rfl

lemma lastWrite_isSome_iff (l : List A) :
    (lastWrite f l).isSome = true ↔ ∃ x ∈ l, (f x).isSome = true := by
  rw [Option.isSome_iff_ne_none, ne_eq, lastWrite_eq_none_iff]
  simp [Option.isSome_iff_ne_none]

lemma lastWrite_map {C : Type*} (g : B → C) (l : List A) :
    lastWrite (fun x => (f x).map g) l = (lastWrite f l).map g := by
  induction l using List.reverseRecOn with
  | nil => rfl
  | append_singleton l x ih =>
      rw [lastWrite_append_singleton, lastWrite_append_singleton, ih, Option.map_or]

@[simp] lemma lastWrite_none (l : List A) : lastWrite (fun _ => (none : Option B)) l = none := by
  simp [lastWrite]

lemma lastWrite_bind_of_none {C : Type*} {m : A → Option C} (g : C → Option B) {l : List A}
    (h : lastWrite m l = none) : lastWrite (fun x => (m x).bind g) l = none :=
  (lastWrite_eq_none_iff _ _).mpr fun y hy => by
    rw [(lastWrite_eq_none_iff m l).mp h y hy, Option.bind_none]

/-- Reading a field of the last record is reading what the last record with the field says, exactly
if the last record has the field whenever an earlier one does. -/
lemma bind_lastWrite_eq_iff {C : Type*} (m : A → Option C) (g : C → Option B) (l : List A) :
    (lastWrite m l).bind g = lastWrite (fun x => (m x).bind g) l ↔
      ∀ past x rest c, l = past ++ x :: rest → m x = some c → (∀ y ∈ rest, m y = none) →
        ∀ y ∈ past, ∀ c', m y = some c' → (g c').isSome → (g c).isSome := by
  -- the two sides at a record after which there is none
  have hsplit : ∀ past x rest c, l = past ++ x :: rest → m x = some c →
      (∀ y ∈ rest, m y = none) →
      ((lastWrite m l).bind g = lastWrite (fun x => (m x).bind g) l ↔
        ∀ y ∈ past, ∀ c', m y = some c' → (g c').isSome → (g c).isSome) := by
    rintro past x rest c rfl hx hrest
    have hlast := (lastWrite_eq_some_iff m _ c).mpr ⟨past, x, rest, rfl, hx, hrest⟩
    have hnone : lastWrite (fun x => (m x).bind g) rest = none :=
      (lastWrite_eq_none_iff _ _).mpr fun y hy => by rw [hrest y hy, Option.bind_none]
    rw [hlast, Option.bind_some, lastWrite_append_cons, hnone, hx, Option.bind_some,
      Option.none_or]
    cases hg : g c with
    | some b => simp
    | none =>
        rw [Option.none_or, eq_comm, lastWrite_eq_none_iff]
        refine forall₂_congr fun y hy => ?_
        cases m y <;> simp
  constructor
  · intro h past x rest c heq hx hrest
    exact (hsplit past x rest c heq hx hrest).mp h
  · intro h
    cases hlast : lastWrite m l with
    | none => exact (lastWrite_bind_of_none g hlast).symm
    | some c =>
        obtain ⟨past, x, rest, heq, hx, hrest⟩ := (lastWrite_eq_some_iff m l c).mp hlast
        rw [← hlast]
        exact (hsplit past x rest c heq hx hrest).mpr (h past x rest c heq hx hrest)

/-- A loop whose body overwrites an optional cell when its record writes it. -/
lemma foldl_or (step : σ → A → σ) (obs : σ → Option B) (f : A → Option B)
    (hstep : ∀ s x, obs (step s x) = (f x).or (obs s)) (s : σ) (l : List A) :
    obs (l.foldl step s) = (lastWrite f l).or (obs s) := by
  induction l using List.reverseRecOn with
  | nil => rfl
  | append_singleton l x ih =>
      rw [List.foldl_append, List.foldl_cons, List.foldl_nil, hstep, ih,
        lastWrite_append_singleton, Option.or_assoc]

/-- A fact with a parameter, which each record that writes the cell replaces. -/
lemma foldl_holds (step : σ → A → σ) (f : A → Option B) {P : B → σ → Prop}
    (hstep : ∀ s x b, P b s → P ((f x).getD b) (step s x)) {s : σ} {b : B} (hs : P b s)
    (l : List A) : P ((lastWrite f l).getD b) (l.foldl step s) := by
  induction l using List.reverseRecOn with
  | nil => exact hs
  | append_singleton l x ih =>
      rw [List.foldl_append, List.foldl_cons, List.foldl_nil, lastWrite_append_singleton,
        Option.getD_or]
      exact hstep _ x _ ih

/-- A loop whose body overwrites a cell when its record writes it. -/
lemma foldl_getD (step : σ → A → σ) (obs : σ → B) (f : A → Option B)
    (hstep : ∀ s x, obs (step s x) = (f x).getD (obs s)) (s : σ) (l : List A) :
    obs (l.foldl step s) = (lastWrite f l).getD (obs s) := by
  refine foldl_holds step f (P := fun b s => obs s = b) (fun s x b h => ?_) rfl l
  rw [hstep, h]

/-- Losing the writes of a run before its last record goes unseen exactly when that record
writes the cell itself, or the run before it leaves what was there. -/
lemma getD_getD_eq_iff (o w : Option B) (x : B) :
    o.getD (w.getD x) = o.getD x ↔ (o = none → ∀ b, w = some b → b = x) := by
  cases o <;> cases w <;> simp

/-! ## A field that is kept, or reset

A run of records with an optional field, which may also lack the cell altogether.  A loop that
keeps the field where a record does not give it, and one that resets it there, leave the same
exactly if there is never anything to keep. -/

section Field

variable {C : Type*} (m : A → Option C) (g : C → Option B) (e r z : B)

/-- What a loop leaves that keeps a field which is not given: `r` before the first record, and from
then on the last value given, or `e`. -/
def keptField (l : List A) : B :=
  (lastWrite m l).elim r fun _ => (lastWrite (fun x => (m x).bind g) l).getD e

/-- What a loop leaves that sets the field to `z` where it is not given. -/
def resetField (l : List A) : B := (lastWrite m l).elim r fun c => (g c).getD z

/-- A record that does not give the field leaves it as it was. -/
def KeepsField (value : List A → B) (l : List A) : Prop :=
  ∀ past x rest c, l = past ++ x :: rest → m x = some c → g c = none →
    value (past ++ [x]) = value past

variable {m g e r z} {l : List A} {x : A} {c : C}

lemma keptField_concat_none (hx : m x = none) :
    keptField m g e r (l ++ [x]) = keptField m g e r l := by
  simp [keptField, hx]

lemma keptField_concat_some (hx : m x = some c) : keptField m g e r (l ++ [x]) =
    (g c).getD ((lastWrite (fun x => (m x).bind g) l).getD e) := by
  simp only [keptField, lastWrite_append_singleton, hx, Option.some_or, Option.elim_some,
    Option.bind_some, Option.getD_or]

lemma resetField_concat_none (hx : m x = none) :
    resetField m g r z (l ++ [x]) = resetField m g r z l := by
  simp [resetField, hx]

lemma resetField_concat_some (hx : m x = some c) :
    resetField m g r z (l ++ [x]) = (g c).getD z := by
  simp [resetField, hx]

/-- If both loops keep the field, they leave the same. -/
lemma keptField_eq_resetField (hkept : KeepsField m g (keptField m g e r) l)
    (hreset : KeepsField m g (resetField m g r z) l) {past rest : List A} (hl : l = past ++ rest) :
    keptField m g e r past = resetField m g r z past := by
  induction past using List.reverseRecOn generalizing rest with
  | nil => rfl
  | append_singleton past x ih =>
      have hsplit : l = past ++ x :: rest := by
        rw [hl, List.append_assoc]
        rfl
      have hold := ih hsplit
      cases hx : m x with
      | none => rw [keptField_concat_none hx, resetField_concat_none hx, hold]
      | some c =>
          cases hg : g c with
          | none => rw [hkept past x rest c hsplit hx hg, hreset past x rest c hsplit hx hg, hold]
          | some b => rw [keptField_concat_some hx, resetField_concat_some hx, hg]; rfl

/-- **Kept and reset.**  Both loops keep the field exactly if it is not given only where it is `z`
already. -/
lemma keepsField_iff (hr : r = e ∨ r = z) :
    KeepsField m g (keptField m g e r) l ∧ KeepsField m g (resetField m g r z) l ↔
      ∀ past x rest c, l = past ++ x :: rest → m x = some c → g c = none →
        (lastWrite (fun x => (m x).bind g) past).getD e = z := by
  constructor
  · rintro ⟨hkept, hreset⟩ past x rest c hl hx hg
    have hkept' := hkept past x rest c hl hx hg
    have hreset' := hreset past x rest c hl hx hg
    rw [keptField_concat_some hx, hg, Option.getD_none] at hkept'
    rw [resetField_concat_some hx, hg, Option.getD_none] at hreset'
    rw [hkept', keptField_eq_resetField hkept hreset hl, ← hreset']
  · intro h
    refine ⟨fun past x rest c hl hx hg => ?_, fun past x rest c hl hx hg => ?_⟩
    · rw [keptField_concat_some hx, hg, Option.getD_none]
      have hzero := h past x rest c hl hx hg
      cases hlast : lastWrite m past with
      | some c' => simp [keptField, hlast]
      | none =>
          rw [lastWrite_bind_of_none g hlast, Option.getD_none] at hzero ⊢
          rw [keptField, hlast, Option.elim_none]
          rcases hr with hr | hr
          · exact hr.symm
          · exact hzero.trans hr.symm
    · rw [resetField_concat_some hx, hg, Option.getD_none]
      have hzero := h past x rest c hl hx hg
      cases hlast : lastWrite m past with
      | none =>
          rw [lastWrite_bind_of_none g hlast, Option.getD_none] at hzero
          rw [resetField, hlast, Option.elim_none]
          rcases hr with hr | hr
          · exact hzero.symm.trans hr.symm
          · exact hr.symm
      | some c' =>
          rw [resetField, hlast, Option.elim_some]
          cases hg' : g c' with
          | none => rfl
          | some b =>
              -- the last record gives the field, so this is the last value given
              obtain ⟨before, y, after, rfl, hy, hafter⟩ :=
                (lastWrite_eq_some_iff m past c').mp hlast
              have hgiven : lastWrite (fun x => (m x).bind g) (before ++ y :: after) = some b :=
                (lastWrite_eq_some_iff _ _ b).mpr ⟨before, y, after, rfl, by rw [hy]; exact hg',
                  fun w hw => by rw [hafter w hw, Option.bind_none]⟩
              rw [hgiven, Option.getD_some] at hzero
              exact hzero.symm

end Field

end LastWrite
