import Mathlib.Data.Nat.Notation

/-!
Queues whose entries have sizes, and the policy that drops the oldest entries
until the rest fits. What is kept is the longest fitting suffix of the queue.
-/
namespace SizedQueue

variable {α : Type*} (size : α → ℕ)

def total : List α → ℕ
  | [] => 0
  | x :: rest => size x + total rest

/-- The longest suffix of the queue for which there is room. -/
def fit (room : ℕ) : List α → List α
  | [] => []
  | x :: rest => if total size (x :: rest) ≤ room then x :: rest else fit room rest

/-- A suffix that is allowed and contains every other suffix that is. -/
structure IsLongestSuffix (allowed : List α → Prop) (queue kept : List α) : Prop where
  suffix : kept <:+ queue
  fits : allowed kept
  longest : ∀ other, other <:+ queue → allowed other → other <:+ kept

theorem total_append (front back : List α) :
    total size (front ++ back) = total size front + total size back := by
  induction front with
  | nil => simp only [List.nil_append, total, Nat.zero_add]
  | cons x rest ih =>
    simp only [List.cons_append, total]
    omega

theorem total_le_of_suffix {kept queue : List α} (h : kept <:+ queue) :
    total size kept ≤ total size queue := by
  obtain ⟨front, rfl⟩ := h
  rw [total_append]
  omega

theorem fit_of_fits {room : ℕ} {queue : List α} (h : total size queue ≤ room) :
    fit size room queue = queue := by
  cases queue with
  | nil => rfl
  | cons x rest => exact if_pos h

theorem fit_cons_of_not_fits {room : ℕ} {x : α} {rest : List α}
    (h : room < total size (x :: rest)) : fit size room (x :: rest) = fit size room rest :=
  if_neg (Nat.not_le_of_lt h)

theorem fit_suffix (room : ℕ) (queue : List α) : fit size room queue <:+ queue := by
  induction queue with
  | nil => exact List.suffix_refl []
  | cons x rest ih =>
    by_cases h : total size (x :: rest) ≤ room
    · simpa only [fit_of_fits size h] using List.suffix_refl (x :: rest)
    · rw [fit_cons_of_not_fits size (Nat.lt_of_not_le h)]
      exact ih.trans (List.suffix_cons x rest)

theorem total_fit_le (room : ℕ) (queue : List α) : total size (fit size room queue) ≤ room := by
  induction queue with
  | nil => exact Nat.zero_le room
  | cons x rest ih =>
    by_cases h : total size (x :: rest) ≤ room
    · rw [fit_of_fits size h]
      exact h
    · rw [fit_cons_of_not_fits size (Nat.lt_of_not_le h)]
      exact ih

theorem suffix_fit {room : ℕ} {other queue : List α} (hsuffix : other <:+ queue)
    (hfits : total size other ≤ room) : other <:+ fit size room queue := by
  induction queue with
  | nil => exact hsuffix
  | cons x rest ih =>
    by_cases h : total size (x :: rest) ≤ room
    · rw [fit_of_fits size h]
      exact hsuffix
    · rw [fit_cons_of_not_fits size (Nat.lt_of_not_le h)]
      rcases List.suffix_cons_iff.mp hsuffix with rfl | hrest
      · exact absurd hfits h
      · exact ih hrest

theorem fit_isLongestSuffix (room : ℕ) (queue : List α) :
    IsLongestSuffix (fun kept => total size kept ≤ room) queue (fit size room queue) where
  suffix := fit_suffix size room queue
  fits := total_fit_le size room queue
  longest := fun _ hsuffix hfits => suffix_fit size hsuffix hfits

/-- Something is dropped exactly when not everything fits. -/
theorem fit_ne_self_iff (room : ℕ) (queue : List α) :
    fit size room queue ≠ queue ↔ room < total size queue := by
  constructor
  · intro hne
    apply Nat.lt_of_not_le
    intro hle
    exact hne (fit_of_fits size hle)
  · intro hlt heq
    have hle := total_fit_le size room queue
    rw [heq] at hle
    omega

end SizedQueue
