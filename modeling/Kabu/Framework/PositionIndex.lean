import Mathlib.Data.List.Induction
import Mathlib.Data.List.Nodup
import Kabu.Framework.AssocMap

/-!
# Lists with an index of positions

A store that only grows keeps its entries in a list, and for each key the positions of the entries
that have the key.  `Lists` says that what the index lists at a key are the positions of the entries
with that key, and `Indexes` that it lists them in order and each once.  Where an entry has one key
and no two entries share it, the index has one position for a key (`Locates`).

Appending an entry and entering its position at its keys keeps the index right (`Lists.append`,
`Indexes.append`, `Locates.append`), and so does whatever leaves the keys of the entries as they are
(`Lists.congr`, `Indexes.congr`, `Locates.congr`).  Going through the positions at a key is going
through the entries that have it: reading them is a filter (`Indexes.filterMap_listAt`), and
changing each of them is a map (`Lists.foldl_modify`).
-/

namespace PositionIndex

variable {α κ : Type*}

/-- The positions of the entries with the property, in order. -/
def positions (p : α → Bool) (l : List α) : List ℕ := (l.zipIdx.filter fun e => p e.1).map (·.2)

section Positions

variable (p : α → Bool) (l : List α)

lemma positions_append_singleton (a : α) :
    positions p (l ++ [a]) = positions p l ++ if p a then [l.length] else [] := by
  unfold positions
  rw [List.zipIdx_append, List.filter_append, List.map_append]
  cases h : p a <;> simp [h]

lemma lt_of_mem_positions {i : ℕ} (hi : i ∈ positions p l) : i < l.length := by
  obtain ⟨e, he, rfl⟩ := List.mem_map.mp hi
  obtain ⟨-, hlt, -⟩ := List.mem_zipIdx (List.mem_filter.mp he).1
  simpa using hlt

lemma positions_map {β : Type*} (q : β → Bool) (f : α → β) :
    positions q (l.map f) = positions (fun a => q (f a)) l := by
  induction l using List.reverseRecOn with
  | nil => rfl
  | append_singleton l a ih =>
      rw [List.map_append, List.map_singleton, positions_append_singleton,
        positions_append_singleton, ih, List.length_map]

lemma mem_positions_iff (i : ℕ) : i ∈ positions p l ↔ ∃ a, l[i]? = some a ∧ p a = true := by
  unfold positions
  simp only [List.mem_map, List.mem_filter, List.mem_zipIdx_iff_getElem?]
  constructor
  · rintro ⟨⟨a, j⟩, ⟨hget, hp⟩, rfl⟩
    exact ⟨a, hget, hp⟩
  · rintro ⟨a, hget, hp⟩
    exact ⟨(a, i), ⟨hget, hp⟩, rfl⟩

lemma pairwise_positions : (positions p l).Pairwise (· < ·) := by
  induction l using List.reverseRecOn with
  | nil => exact List.Pairwise.nil
  | append_singleton l a ih =>
      rw [positions_append_singleton, List.pairwise_append]
      refine ⟨ih, ?_, fun i hi j hj => ?_⟩
      · split
        · exact List.pairwise_singleton _ _
        · exact List.Pairwise.nil
      · split at hj
        · rw [List.mem_singleton.mp hj]
          exact lt_of_mem_positions p l hi
        · exact absurd hj List.not_mem_nil

lemma filterMap_positions : (positions p l).filterMap (fun i => l[i]?) = l.filter p := by
  induction l using List.reverseRecOn with
  | nil => rfl
  | append_singleton l a ih =>
      -- the positions in the shorter list read the same entries
      have hshort : (positions p l).filterMap (fun i => (l ++ [a])[i]?) =
          (positions p l).filterMap (fun i => l[i]?) := by
        refine List.filterMap_congr fun i hi => ?_
        exact List.getElem?_append_left (lt_of_mem_positions p l hi)
      rw [positions_append_singleton, List.filterMap_append, hshort, ih, List.filter_append]
      cases h : p a <;> simp [h]

lemma map_modify {β : Type*} {f : α → α} {g : α → β} (hf : ∀ a, g (f a) = g a) (l : List α)
    (i : ℕ) : (l.modify i f).map g = l.map g := by
  refine List.ext_getElem? fun j => ?_
  rw [List.getElem?_map, List.getElem?_modify, List.getElem?_map]
  cases l[j]? with
  | none => rfl
  | some a => by_cases hij : i = j <;> simp [hij, hf]

/-- Changing entries by a function for which twice is once: it does not matter how often a position
is listed. -/
lemma getElem?_foldl_modify {f : α → α} (hf : ∀ a, f (f a) = f a) (is : List ℕ) (j : ℕ) :
    (is.foldl (fun l i => l.modify i f) l)[j]? = if j ∈ is then l[j]?.map f else l[j]? := by
  induction is generalizing l with
  | nil => simp
  | cons i is ih =>
      rw [List.foldl_cons, ih, List.getElem?_modify]
      by_cases hij : i = j
      · subst hij
        have htwice : (l[i]?.map f).map f = l[i]?.map f := by
          rw [Option.map_map]
          exact congrFun (congrArg Option.map (funext hf)) l[i]?
        simp [htwice]
      · simp [hij, Ne.symm hij]

end Positions

variable [DecidableEq κ]

/-- The index has at each key the positions of the entries with the key. -/
def Indexes (keys : α → List κ) (index : AssocMap κ (List ℕ)) (l : List α) : Prop :=
  ∀ k, index.listAt k = positions (fun a => decide (k ∈ keys a)) l

/-- Enter a position at each of the keys. -/
def enter (index : AssocMap κ (List ℕ)) (keys : List κ) (i : ℕ) : AssocMap κ (List ℕ) :=
  keys.foldl (fun index k => index.pushAt k i) index

lemma mem_listAt_enter (index : AssocMap κ (List ℕ)) (keys : List κ) (i j : ℕ) (k : κ) :
    j ∈ (enter index keys i).listAt k ↔ j ∈ index.listAt k ∨ k ∈ keys ∧ j = i := by
  induction keys generalizing index with
  | nil => simp [enter]
  | cons k' keys ih =>
      rw [show enter index (k' :: keys) i = enter (index.pushAt k' i) keys i from rfl, ih,
        AssocMap.mem_listAt_pushAt, List.mem_cons, or_assoc, ← or_and_right]

lemma listAt_enter (index : AssocMap κ (List ℕ)) {keys : List κ} (hkeys : keys.Nodup) (i : ℕ)
    (k : κ) : (enter index keys i).listAt k = index.listAt k ++ if k ∈ keys then [i] else [] := by
  induction keys generalizing index with
  | nil => simp [enter]
  | cons k' keys ih =>
      obtain ⟨hnot, hnodup⟩ := List.nodup_cons.mp hkeys
      have hpush : (index.pushAt k' i).listAt k = index.listAt k ++ if k = k' then [i] else [] := by
        unfold AssocMap.listAt AssocMap.pushAt
        rw [AssocMap.lookup_upsert]
        by_cases h : k = k'
        · rw [if_pos h, if_pos h, h]
          rfl
        · rw [if_neg h, if_neg h, List.append_nil]
      rw [show enter index (k' :: keys) i = enter (index.pushAt k' i) keys i from rfl, ih _ hnodup,
        hpush, List.append_assoc]
      by_cases h : k = k'
      · rw [h, if_neg hnot]
        simp
      · simp [h]

/-- What the index lists at each key are the positions of the entries with the key. -/
def Lists (keys : α → List κ) (index : AssocMap κ (List ℕ)) (l : List α) : Prop :=
  ∀ k i, i ∈ index.listAt k ↔ ∃ a, l[i]? = some a ∧ k ∈ keys a

/-- What the index has at each key is the position of the entry with the key. -/
def Locates (key : α → κ) (index : AssocMap κ ℕ) (l : List α) : Prop :=
  ∀ k i, index.lookup k = some i ↔ ∃ a, l[i]? = some a ∧ key a = k

lemma exists_getElem?_append_singleton (l : List α) (a : α) (i : ℕ) (P : α → Prop) :
    (∃ x, (l ++ [a])[i]? = some x ∧ P x) ↔ (∃ x, l[i]? = some x ∧ P x) ∨ P a ∧ i = l.length := by
  rcases lt_trichotomy i l.length with hi | hi | hi
  · rw [List.getElem?_append_left hi]
    exact (or_iff_left fun h => absurd h.2 (Nat.ne_of_lt hi)).symm
  · subst hi
    simp
  · have hnone : l[i]? = none := List.getElem?_eq_none (Nat.le_of_lt hi)
    have hnone' : (l ++ [a])[i]? = none := 
      List.getElem?_eq_none (by rw [List.length_append]; exact hi)
    rw [hnone, hnone']
    simp [Nat.ne_of_gt hi]

lemma exists_getElem?_congr {β : Type*} {f : α → β} {l l' : List α} (h : l'.map f = l.map f)
    (i : ℕ) (P : β → Prop) :
    (∃ x, l'[i]? = some x ∧ P (f x)) ↔ ∃ x, l[i]? = some x ∧ P (f x) := by
  have hmap : ∀ l : List α,
      (∃ x, l[i]? = some x ∧ P (f x)) ↔ ∃ y, (l.map f)[i]? = some y ∧ P y := by
    intro l
    rw [List.getElem?_map]
    simp
  rw [hmap, hmap, h]

namespace Lists

variable {keys : α → List κ} {index : AssocMap κ (List ℕ)} {l : List α}

lemma empty (keys : α → List κ) : Lists keys ∅ [] := fun k i => by simp [AssocMap.listAt]

lemma append (h : Lists keys index l) (a : α) :
    Lists keys (enter index (keys a) l.length) (l ++ [a]) := by
  intro k i
  rw [mem_listAt_enter, h k i, exists_getElem?_append_singleton]

lemma congr (h : Lists keys index l) {l' : List α} (hl : l'.map keys = l.map keys) :
    Lists keys index l' := fun k i => (h k i).trans (exists_getElem?_congr hl i (k ∈ ·)).symm

lemma foldl_modify (h : Lists keys index l) (k : κ) {f : α → α} (hf : ∀ a, f (f a) = f a) :
    (index.listAt k).foldl (fun l i => l.modify i f) l =
      l.map fun a => if k ∈ keys a then f a else a := by
  refine List.ext_getElem? fun j => ?_
  rw [getElem?_foldl_modify l hf, List.getElem?_map]
  simp only [h k j]
  cases l[j]? with
  | none => simp
  | some a =>
      by_cases ha : k ∈ keys a
      · simp [ha]
      · simp [ha]

end Lists

namespace Locates

variable {key : α → κ} {index : AssocMap κ ℕ} {l : List α}

lemma empty (key : α → κ) : Locates key ∅ [] := fun k i => by simp

variable (h : Locates key index l)

include h

lemma append {a : α} (hnew : index.lookup (key a) = none) :
    Locates key (index.insert (key a) l.length) (l ++ [a]) := by
  intro k i
  rw [AssocMap.lookup_insert_eq, exists_getElem?_append_singleton]
  by_cases hk : k = key a
  · subst hk
    have hnone : ¬ ∃ x, l[i]? = some x ∧ key x = key a := fun hx => by
      rw [(h (key a) i).mpr hx] at hnew
      simp at hnew
    rw [if_pos rfl, Option.some.injEq]
    exact ⟨fun hi => Or.inr ⟨rfl, hi.symm⟩, fun hx => (hx.resolve_left hnone).2.symm⟩
  · rw [if_neg hk, h k i]
    exact (or_iff_left fun hx => hk hx.1.symm).symm

lemma congr {l' : List α} (hl : l'.map key = l.map key) :
    Locates key index l' := fun k i => (h k i).trans (exists_getElem?_congr hl i (· = k)).symm

lemma isSome_iff (k : κ) : (index.lookup k).isSome ↔ ∃ a ∈ l, key a = k := by
  rw [Option.isSome_iff_exists]
  simp only [h k, List.mem_iff_getElem?]
  constructor
  · rintro ⟨i, a, hget, hkey⟩
    exact ⟨a, ⟨i, hget⟩, hkey⟩
  · rintro ⟨a, ⟨i, hget⟩, hkey⟩
    exact ⟨i, a, hget, hkey⟩

lemma modify {k : κ} {i : ℕ} (hi : index.lookup k = some i) (f : α → α) :
    l.modify i f = l.map fun a => if key a = k then f a else a := by
  refine List.ext_getElem? fun j => ?_
  rw [List.getElem?_modify, List.getElem?_map]
  cases hj : l[j]? with
  | none => simp
  | some a =>
      have hkey : key a = k ↔ i = j := by
        refine ⟨fun ha => Option.some.inj (hi.symm.trans ((h k j).mpr ⟨a, hj, ha⟩)), ?_⟩
        rintro rfl
        obtain ⟨b, hb, hkb⟩ := (h k i).mp hi
        rwa [Option.some.inj (hj.symm.trans hb)]
      by_cases hij : i = j
      · simp [hij, hkey.mpr hij]
      · have hne : ¬ key a = k := fun ha => hij (hkey.mp ha)
        simp [hij, hne]

lemma nodup : (l.map key).Nodup := by
  rw [List.nodup_iff_getElem?_ne_getElem?]
  intro i j hij hj heq
  obtain ⟨b, hb⟩ := Option.isSome_iff_exists.mp (show (l.map key)[j]?.isSome by simpa using hj)
  rw [hb] at heq
  simp only [List.getElem?_map, Option.map_eq_some_iff] at hb heq
  obtain ⟨x, hx, hkx⟩ := heq
  obtain ⟨y, hy, hky⟩ := hb
  have hi := (h b i).mpr ⟨x, hx, hkx⟩
  have hj := (h b j).mpr ⟨y, hy, hky⟩
  exact absurd (Option.some.inj (hi.symm.trans hj)) (Nat.ne_of_lt hij)

end Locates

namespace Indexes

variable {keys : α → List κ} {index : AssocMap κ (List ℕ)} {l : List α}

lemma empty (keys : α → List κ) : Indexes keys ∅ [] := fun _ => rfl

variable (h : Indexes keys index l)

include h

lemma append {a : α} (ha : (keys a).Nodup) :
    Indexes keys (enter index (keys a) l.length) (l ++ [a]) := by
  intro k
  rw [listAt_enter index ha, h k, positions_append_singleton]
  simp only [decide_eq_true_eq]

lemma congr {l' : List α} (hl : l'.map keys = l.map keys) : Indexes keys index l' := by
  intro k
  rw [h k, ← positions_map l (fun ks => decide (k ∈ ks)) keys, ← hl, positions_map]

lemma lists : Lists keys index l := by
  intro k i
  rw [h k, mem_positions_iff]
  simp only [decide_eq_true_eq]

lemma filterMap_listAt (k : κ) :
    (index.listAt k).filterMap (fun i => l[i]?) = l.filter fun a => decide (k ∈ keys a) := by
  rw [h k, filterMap_positions]

end Indexes

end PositionIndex
