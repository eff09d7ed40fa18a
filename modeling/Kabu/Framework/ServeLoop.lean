import Mathlib.Tactic.TypeStar
import Mathlib.Tactic.Lemma

/-!
# Loops that serve messages

Messages are handled one after another, and each may be answered.  A message that cannot be handled
ends the loop, and what comes after it is not looked at.

`serve_ok_iff` says when a loop is still running after its messages, and `serve_append_singleton`
what one more message adds.
-/

namespace ServeLoop

variable {M O ε : Type*} (handle : M → Except ε (List O))

/-- What is answered to the messages, and how the loop has ended if it has. -/
def serve : List M → List O × Except ε Unit
  | [] => ([], .ok ())
  | m :: ms =>
      match handle m with
      | .error e => ([], .error e)
      | .ok answers => (answers ++ (serve ms).1, (serve ms).2)

variable {handle} {m : M} {ms : List M} {answers : List O}

lemma serve_cons_of_ok (h : handle m = .ok answers) :
    serve handle (m :: ms) = (answers ++ (serve handle ms).1, (serve handle ms).2) := by
  rw [serve, h]

lemma serve_cons_of_error {e : ε} (h : handle m = .error e) :
    serve handle (m :: ms) = ([], .error e) := by
  rw [serve, h]

/-- **The loop is running if every message could be handled.** -/
lemma serve_ok_iff :
    (serve handle ms).2 = .ok () ↔ ∀ m ∈ ms, ∃ answers, handle m = .ok answers := by
  induction ms with
  | nil => simp [serve]
  | cons m ms ih =>
      rw [List.forall_mem_cons]
      cases hm : handle m with
      | error e => simp [serve_cons_of_error hm]
      | ok answers => simp [serve_cons_of_ok hm, ih]

/-- What a loop that is running answers to one more message. -/
lemma serve_append_singleton (h : (serve handle ms).2 = .ok ()) (hm : handle m = .ok answers) :
    serve handle (ms ++ [m]) = ((serve handle ms).1 ++ answers, .ok ()) := by
  induction ms with
  | nil => simp [serve, hm]
  | cons m' ms ih =>
      obtain ⟨answers', hm'⟩ := serve_ok_iff.mp h m' List.mem_cons_self
      rw [serve_cons_of_ok hm'] at h
      rw [List.cons_append, serve_cons_of_ok hm', ih h, serve_cons_of_ok hm', List.append_assoc]

end ServeLoop
