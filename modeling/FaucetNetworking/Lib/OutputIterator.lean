import Mathlib.Data.List.Induction

/-!
Output iterators without bounds. An iterator keeps what was stored through it and where, so
that what an algorithm does to the memory can be told from the iterator that it returns.
-/

/-- The position of an iterator, and everything that was stored through it. -/
structure OutputIterator (α : Type*) where
  position : ℕ
  stores : List (α × ℕ)

namespace OutputIterator

variable {α : Type*}

def start : OutputIterator α := ⟨0, []⟩

def store (it : OutputIterator α) (a : α) : OutputIterator α :=
  { it with stores := it.stores ++ [(a, it.position)] }

def next (it : OutputIterator α) : OutputIterator α :=
  { it with position := it.position + 1 }

/-- One item after the other. -/
def write (it : OutputIterator α) (xs : List α) : OutputIterator α :=
  xs.foldl (fun it a => (it.store a).next) it

/-- The memory after the stores; nothing is changed by one that is out of bounds. -/
def memory (it : OutputIterator α) (before : List α) : List α :=
  it.stores.foldl (fun memory entry => memory.set entry.2 entry.1) before

/-- The items were stored one after the other, from the first position on. -/
structure Wrote (it : OutputIterator α) (xs : List α) : Prop where
  position_eq : it.position = xs.length
  stores_eq : it.stores = xs.zipIdx

theorem wrote_start : (start : OutputIterator α).Wrote [] := ⟨rfl, rfl⟩

theorem Wrote.store_next {it : OutputIterator α} {xs : List α} (h : it.Wrote xs) (a : α) :
    (it.store a).next.Wrote (xs ++ [a]) where
  position_eq := by
    rw [List.length_append, List.length_singleton, ← h.position_eq]
    rfl
  stores_eq := by
    rw [List.zipIdx_append, List.zipIdx_singleton, Nat.zero_add, ← h.stores_eq,
      ← h.position_eq]
    rfl

theorem Wrote.write {it : OutputIterator α} {xs : List α} (h : it.Wrote xs) (ys : List α) :
    (it.write ys).Wrote (xs ++ ys) := by
  induction ys generalizing it xs with
  | nil =>
    rw [List.append_nil]
    exact h
  | cons a ys ih =>
    rw [List.append_cons]
    exact ih (h.store_next a)

/-- Every position of the items is written once, in order, and no other one. -/
theorem Wrote.positions {it : OutputIterator α} {xs : List α} (h : it.Wrote xs) :
    it.stores.map Prod.snd = List.range it.position := by
  rw [h.stores_eq, h.position_eq, List.zipIdx_map_snd, List.range_eq_range']

/-- The memory of the items holds them, and the rest of the memory what it held before. -/
theorem Wrote.memory_eq {it : OutputIterator α} {xs : List α} (h : it.Wrote xs)
    {before : List α} (hlen : xs.length ≤ before.length) :
    it.memory before = xs ++ before.drop xs.length := by
  unfold memory
  rw [h.stores_eq]
  clear h
  induction xs using List.reverseRecOn with
  | nil => rfl
  | append_singleton xs a ih =>
    rw [List.length_append, List.length_singleton] at hlen
    have hrest : before.drop xs.length = before[xs.length] :: before.drop (xs.length + 1) :=
      List.drop_eq_getElem_cons hlen
    rw [List.zipIdx_append, List.zipIdx_singleton, Nat.zero_add, List.foldl_append,
      ih (Nat.le_of_succ_le hlen), hrest, List.foldl_cons, List.foldl_nil,
      List.set_append_right _ _ (Nat.le_refl _), Nat.sub_self, List.set_cons_zero,
      List.length_append, List.length_singleton, List.append_assoc]
    rfl

end OutputIterator
