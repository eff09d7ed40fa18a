import Mathlib.Order.Nat

/-!
# A balance that is tracked with checked arithmetic

An account sends and receives amounts.  Its balance is tracked by a number with a limit, and an
amount that cannot be taken off it, or added to it, is missed: the number stays as it is.

What is tracked and the true balance then differ by what was missed, from where they started.  This
is `settled_add_missedOut`, and it tells when what is tracked is within the balance
(`tracked_le_iff`).
-/

namespace Accounting

inductive Movement
  | sent (amount : ℕ)
  | received (amount : ℕ)
  deriving DecidableEq, Repr

/-! ## The balance -/

def settle (balance : ℕ) : Movement → ℕ
  | .sent amount => balance - amount
  | .received amount => balance + amount

/-- What is sent is there when it is sent. -/
def Owned : ℕ → List Movement → Prop
  | _, [] => True
  | balance, movement :: rest =>
      (∀ amount, movement = .sent amount → amount ≤ balance) ∧ Owned (settle balance movement) rest

lemma owned_append {balance : ℕ} {movements movements' : List Movement} :
    Owned balance (movements ++ movements') ↔
      Owned balance movements ∧ Owned (movements.foldl settle balance) movements' := by
  induction movements generalizing balance with
  | nil => exact (and_iff_right trivial).symm
  | cons movement movements ih =>
      rw [List.cons_append, Owned, Owned, ih, List.foldl_cons, and_assoc]

/-! ## What is tracked -/

section Tracked

variable (limit : ℕ)

def track (tracked : ℕ) : Movement → ℕ
  | .sent amount => if amount ≤ tracked then tracked - amount else tracked
  | .received amount => if tracked + amount < limit then tracked + amount else tracked

/-- The amounts that were sent and could not be taken off. -/
def missedOut : ℕ → List Movement → ℕ
  | _, [] => 0
  | tracked, .sent amount :: rest =>
      (if amount ≤ tracked then 0 else amount) + missedOut (track limit tracked (.sent amount)) rest
  | tracked, .received amount :: rest => missedOut (track limit tracked (.received amount)) rest

/-- The amounts that were received and could not be added. -/
def missedIn : ℕ → List Movement → ℕ
  | _, [] => 0
  | tracked, .sent amount :: rest => missedIn (track limit tracked (.sent amount)) rest
  | tracked, .received amount :: rest =>
      (if tracked + amount < limit then 0 else amount) +
        missedIn (track limit tracked (.received amount)) rest

variable {limit}

/-- **Accounting.** -/
lemma settled_add_missedOut (limit : ℕ) {movements : List Movement} {balance : ℕ} (tracked : ℕ)
    (h : Owned balance movements) :
    movements.foldl settle balance + missedOut limit tracked movements + tracked =
      movements.foldl (track limit) tracked + balance + missedIn limit tracked movements := by
  induction movements generalizing balance tracked with
  | nil =>
      show balance + 0 + tracked = tracked + balance + 0
      omega
  | cons movement movements ih =>
      obtain ⟨howned, hrest⟩ := h
      have hih := ih (track limit tracked movement) hrest
      rw [List.foldl_cons, List.foldl_cons]
      cases movement with
      | sent amount =>
          have hle := howned amount rfl
          rw [missedOut, missedIn]
          simp only [settle, track] at hih ⊢
          split at hih
          · rename_i hcovered
            rw [if_pos hcovered, if_pos hcovered]
            omega
          · rename_i hmissed
            rw [if_neg hmissed, if_neg hmissed]
            omega
      | received amount =>
          rw [missedOut, missedIn]
          simp only [settle, track] at hih ⊢
          split at hih
          · rename_i hfits
            rw [if_pos hfits, if_pos hfits]
            omega
          · rename_i hmissed
            rw [if_neg hmissed, if_neg hmissed]
            omega

/-- What is tracked is within the balance if no more was missed on the way out than there was
between them at first, and was missed on the way in. -/
lemma tracked_le_iff {movements : List Movement} {balance tracked : ℕ} (hstart : tracked ≤ balance)
    (h : Owned balance movements) :
    movements.foldl (track limit) tracked ≤ movements.foldl settle balance ↔
      missedOut limit tracked movements ≤
        balance - tracked + missedIn limit tracked movements := by
  have hsum := settled_add_missedOut limit tracked h
  omega

end Tracked

end Accounting
