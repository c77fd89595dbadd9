import Mathlib.Data.Nat.Notation
import Mathlib.Data.List.Basic

/-!
A first-in first-out queue whose front part is committed. Elements are pushed
at the back uncommitted, a commit covers everything present, and only committed
elements may be popped from the front. The bound on the commit mark is a field,
so a queue whose mark lies beyond its content cannot be built.
-/

@[ext]
structure CommitQueue (α : Type*) where
  content : List α
  committed : ℕ
  committed_le : committed ≤ content.length

namespace CommitQueue

variable {α : Type*}

inductive Op (α : Type*) where
  | push (data : List α)
  | commit
  | pop (n : ℕ)
  | clear

def empty : CommitQueue α := ⟨[], 0, Nat.le_refl 0⟩

def push (q : CommitQueue α) (data : List α) : CommitQueue α where
  content := q.content ++ data
  committed := q.committed
  committed_le := by
    rw [List.length_append]
    exact Nat.le_add_right_of_le q.committed_le

def commit (q : CommitQueue α) : CommitQueue α := ⟨q.content, q.content.length, Nat.le_refl _⟩

def pop (q : CommitQueue α) (n : ℕ) : CommitQueue α where
  content := q.content.drop n
  committed := q.committed - n
  committed_le := by
    rw [List.length_drop]
    exact Nat.sub_le_sub_right q.committed_le n

/-- The committed elements, front first. -/
def window (q : CommitQueue α) : List α := q.content.take q.committed

/-- One operation; only committed elements can be popped. -/
def apply (q : CommitQueue α) : Op α → Option (CommitQueue α)
  | .push data => some (q.push data)
  | .commit => some q.commit
  | .pop n => if n ≤ q.committed then some (q.pop n) else none
  | .clear => some empty

@[simp] theorem content_push (q : CommitQueue α) (data : List α) :
    (q.push data).content = q.content ++ data := rfl

@[simp] theorem committed_commit (q : CommitQueue α) :
    q.commit.committed = q.content.length := rfl

@[simp] theorem content_pop (q : CommitQueue α) (n : ℕ) :
    (q.pop n).content = q.content.drop n := rfl

@[simp] theorem committed_pop (q : CommitQueue α) (n : ℕ) :
    (q.pop n).committed = q.committed - n := rfl

theorem length_window (q : CommitQueue α) : q.window.length = q.committed := by
  unfold window
  rw [List.length_take]
  exact Nat.min_eq_left q.committed_le

theorem apply_pop_eq_some_iff (q r : CommitQueue α) (n : ℕ) :
    q.apply (.pop n) = some r ↔ n ≤ q.committed ∧ q.pop n = r := by
  change (if n ≤ q.committed then some (q.pop n) else none) = some r ↔ _
  split
  · rename_i h
    simp only [Option.some.injEq, h, true_and]
  · rename_i h
    simp only [reduceCtorEq, h, false_and]

end CommitQueue
