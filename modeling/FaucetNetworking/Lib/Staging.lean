import Mathlib.Data.List.Basic

/-!
A staging buffer with n places. Elements are collected in it, and it is passed on as one
piece whenever it is full, and once more at the end with what is left in it.
-/
namespace Staging

variable {α : Type*} {n : ℕ}

/-- The pieces that are passed on, from a buffer that holds some elements already. -/
def pieces (n : ℕ) : List α → List α → List (List α)
  | out, [] => [out]
  | out, x :: rest =>
    if (out ++ [x]).length = n then (out ++ [x]) :: pieces n [] rest
    else pieces n (out ++ [x]) rest

theorem pieces_nil (out : List α) : pieces n out [] = [out] := by rw [pieces]

/-- There is a piece at the end, even when no elements are left. -/
theorem pieces_ne_nil (out xs : List α) : pieces n out xs ≠ [] := by
  induction xs generalizing out with
  | nil =>
    rw [pieces]
    exact List.cons_ne_nil _ _
  | cons x xs ih =>
    rw [pieces]
    split
    · exact List.cons_ne_nil _ _
    · exact ih _

theorem flatten_pieces (out xs : List α) : (pieces n out xs).flatten = out ++ xs := by
  induction xs generalizing out with
  | nil => rw [pieces, List.flatten_singleton, List.append_nil]
  | cons x xs ih =>
    rw [pieces]
    split
    · rw [List.flatten_cons, ih, List.nil_append, List.append_assoc, List.singleton_append]
    · rw [ih, List.append_assoc, List.singleton_append]

theorem pieces_full (out : List α) {x : α} (h : out.length + 1 = n) (xs : List α) :
    pieces n out (x :: xs) = (out ++ [x]) :: pieces n [] xs := by
  rw [pieces, if_pos (by rw [List.length_append, List.length_singleton, h])]

theorem pieces_step (out : List α) {x : α} (h : out.length + 1 ≠ n) (xs : List α) :
    pieces n out (x :: xs) = pieces n (out ++ [x]) xs := by
  rw [pieces, if_neg (by rwa [List.length_append, List.length_singleton])]

end Staging
