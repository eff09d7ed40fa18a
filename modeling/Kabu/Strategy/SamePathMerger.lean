import Kabu.Framework.Rounds
import Kabu.Market.SwapLine

/-!
# The order of stuffing transactions

Swaps along one path that were found behind different transactions can be merged if the
transactions can be executed one after another.  The source looks for an order in which they can.
It executes them in the order it has, and when one fails, moves that one a place forward, or, if
that was tried in the round before, takes it out of the order.  It gives up after ten rounds.

Whether a transaction fails is a parameter, which depends on the order and on the position in it.
Indices are checked: an access out of bounds and a difference below zero are panics.
-/

namespace Kabu

namespace SamePathMerger

open Rounds

/-- The order, as indices, and where the last transaction was moved to. -/
structure TxOrder where
  txOrder : List ℕ
  changing : Option ℕ
  deriving DecidableEq, Repr

section Vec

/-- The difference of two indices. -/
def checkedSub (i j : ℕ) : Except (Failure Report) ℕ :=
  if j ≤ i then .ok (i - j) else .error .panic

def remove (order : List ℕ) (i : ℕ) : Except (Failure Report) (List ℕ) :=
  if i < order.length then .ok (order.eraseIdx i) else .error .panic

def swap (order : List ℕ) (i j : ℕ) : Except (Failure Report) (List ℕ) :=
  if h : i < order.length ∧ j < order.length then
    .ok ((order.set i (order.get ⟨j, h.2⟩)).set j (order.get ⟨i, h.1⟩))
  else .error .panic

end Vec

/-- The transaction at the position is moved a place forward. -/
def moveForward (order : List ℕ) (idx : ℕ) : Except (Failure Report) TxOrder := do
  let before ← checkedSub idx 1
  let order ← swap order idx before
  return ⟨order, some before⟩

/-- A transaction has failed. -/
def onFailure (s : TxOrder) (idx : ℕ) : Except (Failure Report) TxOrder :=
  match s.changing with
  | some changingIdx => do
      -- the difference is not taken where the first condition holds
      let moved ← if changingIdx = idx ∧ idx = 0 then pure true
        else (checkedSub idx 1).map fun before => decide (changingIdx = before)
      if moved then
        let order ← remove s.txOrder changingIdx
        return ⟨order, none⟩
      else if idx < s.txOrder.length ∧ 0 < idx then moveForward s.txOrder idx
      else return s
  | none =>
      if 0 < idx then moveForward s.txOrder idx
      else do
        let order ← remove s.txOrder 0
        return ⟨order, none⟩

def firstFailure (fails : ℕ → Bool) (length : ℕ) : Option ℕ := (List.range length).find? fails

variable (n : ℕ) (fails : List ℕ → ℕ → Bool)

def round (s : TxOrder) : Except (Failure Report) (Verdict TxOrder Unit) :=
  -- the transactions are looked up by their indices
  if ∀ i ∈ s.txOrder, i < n then
    match firstFailure (fails s.txOrder) s.txOrder.length with
    | none => .ok .leave
    | some idx => (onFailure s idx).map .go
  else .error .panic

def start : TxOrder := ⟨List.range n, none⟩

/-- The loop, with the order it ends with, and whether there is a database. -/
def reorder : Except (Failure Report) (TxOrder × Bool) :=
  run (round n fails) (fun s => (s, true)) (fun _ s => .ok (s, false)) () 10 (start n)

end SamePathMerger

end Kabu
