import Mathlib.Data.Nat.Digits.Defs

/-!
# Bytes on the wire

Numbers are written as big-endian bytes, and lists of values as the bytes of the values one after
another.

`fromBe_toBe` is the round trip of a number.  For a list, `Reads` says what a decoder of one value
makes of the bytes of that value with anything behind them: it gets the value back, and the bytes
behind it, exactly if the value fits.  A whole list then comes back exactly if all of its values
fit (`decodeAll_flatMap_iff`).
-/

namespace Wire

/-! ## Numbers -/

/-- The low `n` bytes of a number, the most significant first. -/
def toBe (n x : ℕ) : List UInt8 := ((List.range n).map fun i => UInt8.ofNat (x / 256 ^ i)).reverse

def fromBe (bytes : List UInt8) : ℕ := Nat.ofDigits 256 (bytes.reverse.map UInt8.toNat)

@[simp] lemma length_toBe (n x : ℕ) : (toBe n x).length = n := by
  simp [toBe]

lemma fromBe_toBe (n x : ℕ) : fromBe (toBe n x) = x % 256 ^ n := by
  have hdigits : ∀ n, Nat.ofDigits 256 ((List.range n).map fun i => x / 256 ^ i % 256) =
      x % 256 ^ n := by
    intro n
    induction n with
    | zero => simp [Nat.mod_one]
    | succ n ih =>
        rw [List.range_succ, List.map_append, Nat.ofDigits_append, ih, List.length_map,
          List.length_range, List.map_singleton, Nat.ofDigits_singleton, Nat.mod_pow_succ]
  rw [← hdigits n, fromBe, toBe, List.reverse_reverse, List.map_map]
  rfl

lemma drop_toBe (n k x : ℕ) : (toBe n x).drop k = toBe (n - k) x := by
  unfold toBe
  rw [List.drop_reverse, List.length_map, List.length_range, ← List.map_take, List.take_range,
    Nat.min_eq_left (Nat.sub_le n k)]

/-! ## Lists -/

variable {A B C : Type*}

/-- Decode values until nothing is left, each from where the one before it ended. -/
def decodeAll (decode : List B → Option (C × List B)) : ℕ → List B → Option (List C)
  | _, [] => some []
  | 0, _ :: _ => none
  | n + 1, b :: bytes =>
      (decode (b :: bytes)).bind fun first =>
        (decodeAll decode n first.2).map (first.1 :: ·)

/-- Of the bytes of a value in `P` and whatever follows them, the decoder makes the value and what
follows exactly if the value fits. -/
def Reads (P : A → Prop) (encode : A → List B) (decode : List B → Option (C × List B))
    (value : A → C) (Fits : A → Prop) : Prop :=
  ∀ a, P a → ∀ rest rest',
    decode (encode a ++ rest) = some (value a, rest') ↔ Fits a ∧ rest' = rest

lemma decodeAll_of_ne_nil (decode : List B → Option (C × List B)) (n : ℕ) {bytes : List B}
    (h : bytes ≠ []) : decodeAll decode (n + 1) bytes =
      (decode bytes).bind fun first => (decodeAll decode n first.2).map (first.1 :: ·) := by
  cases bytes with
  | nil => exact absurd rfl h
  | cons b bytes => rfl

lemma length_le_length_flatMap {encode : A → List B} (hne : ∀ a, encode a ≠ []) (l : List A) :
    l.length ≤ (l.flatMap encode).length := by
  induction l with
  | nil => exact Nat.le_refl 0
  | cons a l ih =>
      have hpos := List.length_pos_iff.mpr (hne a)
      rw [List.flatMap_cons, List.length_append, List.length_cons]
      omega

/-- A list of values comes back exactly if all of them fit. -/
lemma decodeAll_flatMap_iff {P : A → Prop} {encode : A → List B}
    {decode : List B → Option (C × List B)} {value : A → C} {Fits : A → Prop}
    (h : Reads P encode decode value Fits) (hne : ∀ a, encode a ≠ []) {n : ℕ} {l : List A}
    (hl : ∀ a ∈ l, P a) (hn : l.length ≤ n) :
    decodeAll decode n (l.flatMap encode) = some (l.map value) ↔ ∀ a ∈ l, Fits a := by
  induction l generalizing n with
  | nil => cases n <;> simp [decodeAll]
  | cons a l ih =>
      obtain ⟨n, rfl⟩ : ∃ m, n = m + 1 := Nat.exists_eq_succ_of_ne_zero (by simp at hn; omega)
      obtain ⟨ha, hl'⟩ := List.forall_mem_cons.mp hl
      have hbytes : encode a ++ l.flatMap encode ≠ [] := by simp [hne a]
      rw [List.flatMap_cons, decodeAll_of_ne_nil decode n hbytes, List.map_cons,
        List.forall_mem_cons]
      constructor
      · intro hdecoded
        obtain ⟨⟨first, rest⟩, hfirst, hrest⟩ := Option.bind_eq_some_iff.mp hdecoded
        obtain ⟨tail, htail, hcons⟩ := Option.map_eq_some_iff.mp hrest
        obtain ⟨rfl, rfl⟩ := List.cons.inj hcons
        obtain ⟨hfits, rfl⟩ := (h a ha _ rest).mp hfirst
        exact ⟨hfits, (ih hl' (Nat.le_of_succ_le_succ hn)).mp htail⟩
      · rintro ⟨hfits, hall⟩
        rw [(h a ha (l.flatMap encode) _).mpr ⟨hfits, rfl⟩, Option.bind_some]
        rw [(ih hl' (Nat.le_of_succ_le_succ hn)).mpr hall]
        rfl

end Wire
