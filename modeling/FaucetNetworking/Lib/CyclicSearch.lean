import Mathlib.Data.Nat.Notation
import Mathlib.Logic.Function.Iterate

/-!
The search for the first free element along the iterates of a function, such as the
successor of a counter that wraps. When a number of steps visits every element, a search
of as many steps fails only if nothing is free, and then a longer one fails as well.
-/
namespace CyclicSearch

variable {α : Type*} (free : α → Bool) (next : α → α)

def search : ℕ → α → Option α
  | 0, _ => none
  | n + 1, x => if free x then some x else search n (next x)

variable {free next}

theorem search_of_free {x : α} (h : free x = true) (n : ℕ) :
    search free next (n + 1) x = some x := if_pos h

/-- What is found is free and is one of the iterates. -/
theorem search_sound {n : ℕ} {x y : α} (h : search free next n x = some y) :
    free y = true ∧ ∃ k, k < n ∧ next^[k] x = y := by
  induction n generalizing x with
  | zero => contradiction
  | succ n ih =>
    by_cases hfree : free x = true
    · rw [search_of_free hfree] at h
      obtain rfl := Option.some.inj h
      exact ⟨hfree, 0, Nat.succ_pos n, rfl⟩
    · rw [search, if_neg hfree] at h
      obtain ⟨hy, k, hk, rfl⟩ := ih h
      exact ⟨hy, k + 1, Nat.succ_lt_succ hk, rfl⟩

theorem search_ne_none {n k : ℕ} {x : α} (hk : k < n) (h : free (next^[k] x) = true) :
    search free next n x ≠ none := by
  induction n generalizing x k with
  | zero => exact absurd hk (Nat.not_lt_zero k)
  | succ n ih =>
    by_cases hfree : free x = true
    · rw [search_of_free hfree]
      exact Option.some_ne_none x
    · rw [search, if_neg hfree]
      cases k with
      | zero => exact absurd h hfree
      | succ k => exact ih (Nat.lt_of_succ_lt_succ hk) h

/-- The number of steps visits every element. -/
def Covers (next : α → α) (n : ℕ) : Prop := ∀ x y, ∃ k, k < n ∧ next^[k] x = y

theorem search_of_covers {n : ℕ} (hcovers : Covers next n) {y : α} (hy : free y = true)
    (x : α) : search free next n x ≠ none := by
  obtain ⟨k, hk, hvisit⟩ := hcovers x y
  apply search_ne_none hk
  rw [hvisit]
  exact hy

/-- A search that has visited everything does not succeed later either. -/
theorem search_forever {n : ℕ} (hcovers : Covers next n) {x : α}
    (h : search free next n x = none) (m : ℕ) : search free next m x = none := by
  cases hlonger : search free next m x with
  | none => rfl
  | some y => exact absurd h (search_of_covers hcovers (search_sound hlonger).1 x)

end CyclicSearch
