import Mathlib.Data.Nat.Notation

/-!
A reader that holds one element ahead of its source. It knows whether there is a next
element before it is asked for it, and at the end of the source it stays there.
-/

structure Lookahead (α : Type*) where
  ahead : Option α
  source : List α
  settled : ahead = none → source = []

namespace Lookahead

variable {α : Type*}

/-- The first element is taken out of the source. -/
def load : List α → Lookahead α
  | [] => ⟨none, [], fun _ => rfl⟩
  | x :: rest => ⟨some x, rest, nofun⟩

def next (r : Lookahead α) : Option α × Lookahead α := (r.ahead, load r.source)

/-- The elements that next will return. -/
def remaining (r : Lookahead α) : List α := r.ahead.toList ++ r.source

@[simp] theorem remaining_load (xs : List α) : (load xs).remaining = xs := by
  cases xs <;> rfl

theorem ahead_eq_head? (r : Lookahead α) : r.ahead = r.remaining.head? := by
  obtain ⟨ahead, source, settled⟩ := r
  cases ahead with
  | none =>
    obtain rfl := settled rfl
    rfl
  | some x => rfl

theorem remaining_eq_nil_iff (r : Lookahead α) : r.remaining = [] ↔ r.ahead = none := by
  rw [ahead_eq_head?, List.head?_eq_none_iff]

/-- While elements remain, next returns the first of them and leaves the rest. -/
theorem remaining_next (r : Lookahead α) : r.next.2.remaining = r.remaining.tail := by
  obtain ⟨ahead, source, settled⟩ := r
  cases ahead with
  | none =>
    obtain rfl := settled rfl
    rfl
  | some x => exact remaining_load source

end Lookahead
