import Mathlib.Algebra.Group.Defs
import Mathlib.Data.List.AList

/-!
# Finite maps with an iteration order

`AssocMap K V` is Mathlib's `AList` at a constant fibre: a list of key/value pairs whose keys
are distinct.  A hash map and an ordered map are both one of these.  Lookups do not see the
order of the pairs, but a loop over the map does, so a statement about every `AssocMap` is a
statement about every order in which a loop may visit the keys.

The operations added to Mathlib's are the ones a map is rebuilt with (`retain`, `extend`,
`upsert`, `values`), each with the lemma saying what its lookups are.

The rule the rest of the development runs on is `foldl_at`, with its form `foldl_obs` for an
observation.  A loop over a map whose body at `(k, v)` acts at the key `k` alone has, at each
key, the effect of one body: the one at that key if the map has it, and nothing otherwise.
`foldl_invariant` and `foldl_preserves` are its companions for what no body changes, `foldl_rel`
is the rule for two loops side by side, and `foldl_first` is the rule for a cell that all bodies may
fill and none may overwrite, where the order does matter.
-/

/-- A finite map from `K` to `V`, with the order a loop over it follows. -/
abbrev AssocMap (K : Type*) (V : Type*) := AList (fun _ : K => V)

namespace AssocMap

variable {K V W σ O : Type*} [DecidableEq K]

/-! ## Lookups after one write -/

lemma lookup_insert_eq (m : AssocMap K V) (k k' : K) (v : V) :
    (m.insert k v).lookup k' = if k' = k then some v else m.lookup k' := by
  by_cases h : k' = k
  · subst h
    rw [if_pos rfl]
    exact AList.lookup_insert m
  · rw [if_neg h]
    exact AList.lookup_insert_ne h

@[simp] lemma lookup_empty_eq (k : K) : (∅ : AssocMap K V).lookup k = none := rfl

/-- Write at `k` the image under `f` of what stands there, a missing value counting as `d`. -/
def upsert (m : AssocMap K V) (k : K) (d : V) (f : V → V) : AssocMap K V :=
  m.insert k (f ((m.lookup k).getD d))

lemma lookup_upsert (m : AssocMap K V) (k k' : K) (d : V) (f : V → V) :
    (m.upsert k d f).lookup k' = if k' = k then some (f ((m.lookup k).getD d))
      else m.lookup k' :=
  lookup_insert_eq m k k' _

/-- Append to the list that stands at `k`. -/
def pushAt (m : AssocMap K (List V)) (k : K) (v : V) : AssocMap K (List V) :=
  m.upsert k [] (· ++ [v])

/-- The list at `k`, where a missing one counts as empty. -/
def listAt (m : AssocMap K (List V)) (k : K) : List V := (m.lookup k).getD []

lemma mem_listAt_pushAt (m : AssocMap K (List V)) (k k' : K) (v x : V) :
    x ∈ (m.pushAt k v).listAt k' ↔ x ∈ m.listAt k' ∨ k' = k ∧ x = v := by
  unfold listAt pushAt
  rw [lookup_upsert]
  by_cases h : k' = k
  · rw [if_pos h, h, Option.getD_some, List.mem_append, List.mem_singleton]
    simp
  · rw [if_neg h]
    simp [h]

/-- Write at `k` only when nothing stands there yet. -/
def orInsert (m : AssocMap K V) (k : K) (v : V) : AssocMap K V :=
  if (m.lookup k).isSome then m else m.insert k v

lemma lookup_orInsert (m : AssocMap K V) (k k' : K) (v : V) :
    (m.orInsert k v).lookup k' = if k' = k then some ((m.lookup k).getD v)
      else m.lookup k' := by
  unfold orInsert
  cases h : m.lookup k with
  | none =>
      simp only [Option.isSome_none, Bool.false_eq_true, if_false, Option.getD_none]
      exact lookup_insert_eq m k k' v
  | some w =>
      simp only [Option.isSome_some, if_true, Option.getD_some]
      split_ifs with hk
      · rw [hk, h]
      · rfl

/-! ## Filtering and values -/

/-- Keep the pairs that satisfy `p`. -/
def retain (m : AssocMap K V) (p : K → V → Bool) : AssocMap K V :=
  ⟨m.entries.filter (fun e => p e.1 e.2), m.nodupKeys.sublist List.filter_sublist⟩

lemma mem_lookup_retain (m : AssocMap K V) (p : K → V → Bool) (k : K) (v : V) :
    (m.retain p).lookup k = some v ↔ m.lookup k = some v ∧ p k v = true := by
  have hmem : ∀ (m' : AssocMap K V), m'.lookup k = some v ↔ (⟨k, v⟩ : Σ _ : K, V) ∈ m'.entries :=
    fun m' => AList.mem_lookup_iff (s := m') (a := k) (b := v)
  rw [hmem, hmem]
  simp [retain]

lemma retain_eq_self {m : AssocMap K V} {p : K → V → Bool}
    (h : ∀ k v, m.lookup k = some v → p k v = true) : m.retain p = m := by
  refine AList.ext (List.filter_eq_self.mpr fun e he => h e.1 e.2 ?_)
  exact AList.mem_lookup_iff.mpr he

/-- The values, in iteration order. -/
def values (m : AssocMap K V) : List V := m.entries.map (fun e => e.2)

lemma mem_values (m : AssocMap K V) (v : V) : v ∈ m.values ↔ ∃ k, m.lookup k = some v := by
  have hmem : ∀ k, m.lookup k = some v ↔ (⟨k, v⟩ : Σ _ : K, V) ∈ m.entries :=
    fun k => AList.mem_lookup_iff (s := m) (a := k) (b := v)
  simp only [hmem, values, List.mem_map]
  constructor
  · rintro ⟨⟨k, w⟩, hkw, rfl⟩
    exact ⟨k, hkw⟩
  · rintro ⟨k, hk⟩
    exact ⟨⟨k, v⟩, hk, rfl⟩

lemma values_eq_nil_iff (m : AssocMap K V) : m.values = [] ↔ ∀ k, m.lookup k = none := by
  constructor
  · intro h k
    cases hk : m.lookup k with
    | none => rfl
    | some v =>
        have hv : v ∈ m.values := (mem_values m v).mpr ⟨k, hk⟩
        rw [h] at hv
        simp at hv
  · intro h
    rw [List.eq_nil_iff_forall_not_mem]
    intro v hv
    obtain ⟨k, hk⟩ := (mem_values m v).mp hv
    rw [h k] at hk
    simp at hk

section Sums

variable {M : Type*} [AddCommMonoid M]

lemma sum_kerase (w : V → M) (k : K) (l : List (Σ _ : K, V)) :
    ((l.kerase k).map fun e => w e.2).sum + ((l.dlookup k).map w).getD 0 =
      (l.map fun e => w e.2).sum := by
  induction l with
  | nil => exact add_zero 0
  | cons e l ih =>
      by_cases h : k = e.1
      · subst h
        rw [List.kerase_cons_eq rfl, List.dlookup_cons_eq, List.map_cons, List.sum_cons,
          Option.map_some, Option.getD_some, add_comm]
      · rw [List.kerase_cons_ne h, List.dlookup_cons_ne l e h, List.map_cons, List.map_cons,
          List.sum_cons, List.sum_cons, add_assoc, ih]

lemma sum_values_insert (w : V → M) (m : AssocMap K V) (k : K) (v : V) :
    ((values (m.insert k v)).map w).sum + ((m.lookup k).map w).getD 0 =
      (m.values.map w).sum + w v := by
  have hsum := sum_kerase w k m.entries
  unfold values
  rw [AList.entries_insert, List.map_map, List.map_map, List.map_cons, List.sum_cons, add_assoc,
    add_comm]
  exact congrArg (· + w v) hsum

end Sums

/-! ## Loops over a map -/

/-- What one entry of the map does to an observation, and nothing when the key is missing. -/
def applyAt (upd : V → O → O) : Option V → O → O
  | none, o => o
  | some v, o => upd v o

@[simp] lemma applyAt_none (upd : V → O → O) (o : O) : applyAt upd none o = o := rfl

@[simp] lemma applyAt_some (upd : V → O → O) (v : V) (o : O) :
    applyAt upd (some v) o = upd v o := rfl

variable (step : σ → K → V → σ)

/-- **Loops act key by key.**  Follow a fact with a parameter through a loop.  If the body at
`k₀` takes the parameter from `o` to `upd v o`, and the body at any other key leaves it as it is,
then the whole loop has the effect of the body at `k₀`, if there is one. -/
lemma foldl_at (k₀ : K) (upd : V → O → O) {P : O → σ → Prop}
    (hsame : ∀ s v o, P o s → P (upd v o) (step s k₀ v))
    (hother : ∀ s k v o, k ≠ k₀ → P o s → P o (step s k v)) (m : AssocMap K V) {s : σ} {o : O}
    (hs : P o s) : P (applyAt upd (m.lookup k₀) o) (m.foldl step s) := by
  obtain ⟨l, hl⟩ := m
  show P (applyAt upd (l.dlookup k₀) o) (l.foldl (fun r e => step r e.1 e.2) s)
  induction l generalizing s o with
  | nil => exact hs
  | cons e l ih =>
      obtain ⟨hnot, hl'⟩ := List.nodupKeys_cons.mp hl
      obtain ⟨k, v⟩ := e
      rw [List.foldl_cons]
      by_cases hk : k = k₀
      · -- this is the entry at `k₀`, and distinct keys leave no second one behind it
        subst hk
        have hnone : l.dlookup k = none := List.dlookup_eq_none.mpr hnot
        have hrest := ih (hsame s v o hs) hl'
        rw [hnone] at hrest
        rw [List.dlookup_cons_eq]
        exact hrest
      · rw [List.dlookup_cons_ne l ⟨k, v⟩ (Ne.symm hk)]
        exact ih (hother s k v o hk hs) hl'

/-- The same for an observation: if the body at `(k, v)` changes the observation at `k` by
`upd k v` and leaves the observation at every other key alone, so does the loop. -/
lemma foldl_obs (obs : σ → K → O) (upd : K → V → O → O)
    (hsame : ∀ s k v, obs (step s k v) k = upd k v (obs s k))
    (hother : ∀ s k v k', k' ≠ k → obs (step s k v) k' = obs s k') (m : AssocMap K V) (s : σ)
    (k : K) : obs (m.foldl step s) k = applyAt (upd k) (m.lookup k) (obs s k) := by
  refine foldl_at step k (upd k) (P := fun o s => obs s k = o) (fun s v o h => ?_)
    (fun s k' v o hk h => ?_) m rfl
  · rw [hsame, h]
  · rw [hother s k' v k (Ne.symm hk), h]

section Bodies

omit [DecidableEq K]

/-- Two loops over one map whose bodies keep a relation between their states keep it. -/
lemma foldl_rel {τ : Type*} (step' : τ → K → V → τ) {R : σ → τ → Prop}
    (hstep : ∀ s t k v, R s t → R (step s k v) (step' t k v)) (m : AssocMap K V) {s : σ} {t : τ}
    (hs : R s t) : R (m.foldl step s) (m.foldl step' t) := by
  obtain ⟨l, hl⟩ := m
  show R (l.foldl (fun r e => step r e.1 e.2) s) (l.foldl (fun r e => step' r e.1 e.2) t)
  clear hl
  induction l generalizing s t with
  | nil => exact hs
  | cons e l ih => exact ih (hstep s t e.1 e.2 hs)

lemma foldl_invariant {P : σ → Prop} (hstep : ∀ s k v, P s → P (step s k v)) (m : AssocMap K V)
    {s : σ} (hs : P s) : P (m.foldl step s) :=
  foldl_rel step step (R := fun s _ => P s) (fun s _ k v h => hstep s k v h) m (t := s) hs

lemma foldl_fixed {s : σ} (hstep : ∀ k v, step s k v = s) (m : AssocMap K V) :
    m.foldl step s = s := by
  refine foldl_invariant step (P := fun s' => s' = s) (fun s' k v h => ?_) m rfl
  rw [h]
  exact hstep k v

lemma foldl_preserves (obs : σ → O) (hstep : ∀ s k v, obs (step s k v) = obs s) (m : AssocMap K V)
    (s : σ) : obs (m.foldl step s) = obs s :=
  foldl_invariant step (fun s' k v h => (hstep s' k v).trans h) m rfl

/-- A loop whose body fills an optional cell only while it is empty leaves in it the first
value, in iteration order, that any body offers. -/
lemma foldl_first (obs : σ → Option O) (f : V → Option O)
    (hstep : ∀ s k v, obs (step s k v) = (obs s).or (f v)) (m : AssocMap K V) (s : σ) :
    obs (m.foldl step s) = (obs s).or (m.values.findSome? f) := by
  obtain ⟨l, hl⟩ := m
  show obs (l.foldl (fun r e => step r e.1 e.2) s) = (obs s).or ((l.map (·.2)).findSome? f)
  clear hl
  induction l generalizing s with
  | nil => simp
  | cons e l ih =>
      rw [List.foldl_cons, ih, hstep, Option.or_assoc, List.map_cons, List.findSome?_cons]
      cases f e.2 <;> rfl

end Bodies

/-- Write every pair of `m'`, mapped by `f`, into `m`. -/
def extendMap (m : AssocMap K V) (m' : AssocMap K W) (f : W → V) : AssocMap K V :=
  m'.foldl (fun acc k w => acc.insert k (f w)) m

/-- Write every pair of `m'` into `m`. -/
def extend (m m' : AssocMap K V) : AssocMap K V := m.extendMap m' id

lemma lookup_extendMap (m : AssocMap K V) (m' : AssocMap K W) (f : W → V) (k : K) :
    (m.extendMap m' f).lookup k = ((m'.lookup k).map f).or (m.lookup k) := by
  have h := foldl_obs (fun (acc : AssocMap K V) k w => acc.insert k (f w))
    (fun acc k => acc.lookup k) (fun _ w _ => some (f w))
    (fun s k v => AList.lookup_insert s)
    (fun s k v k' hk => AList.lookup_insert_ne hk) m' m k
  rw [extendMap, h]
  cases m'.lookup k <;> rfl

@[simp] lemma lookup_extend (m m' : AssocMap K V) (k : K) :
    (m.extend m').lookup k = (m'.lookup k).or (m.lookup k) := by
  rw [extend, lookup_extendMap, Option.map_id, id]

end AssocMap
