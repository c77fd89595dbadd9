import Mathlib.Data.List.Infix
import Mathlib.Data.Nat.Find

/-!
The first occurrence of a pattern in a list. A text that ends with the pattern, and in
which the pattern stands nowhere before that end, is a frame: it is cut off from whatever
follows it by the search for the pattern.
-/
namespace Occurrence

variable {α : Type*}

/-- The pattern stands at the offset and nowhere before it. -/
structure First (pattern text : List α) (offset : ℕ) : Prop where
  stands : pattern <+: text.drop offset
  earliest : ∀ k < offset, ¬ pattern <+: text.drop k

theorem First.unique {pattern text : List α} {m n : ℕ} (hm : First pattern text m)
    (hn : First pattern text n) : m = n := by
  rcases Nat.lt_trichotomy m n with hlt | heq | hlt
  · exact absurd hm.stands (hn.earliest m hlt)
  · exact heq
  · exact absurd hn.stands (hm.earliest n hlt)

theorem First.isInfix {pattern text : List α} {offset : ℕ} (h : First pattern text offset) :
    pattern <:+: text :=
  h.stands.isInfix.trans (List.drop_suffix offset text).isInfix

/-- The whole pattern is in the text. -/
theorem First.add_le {pattern text : List α} {offset : ℕ} (h : First pattern text offset)
    (hpattern : pattern ≠ []) : offset + pattern.length ≤ text.length := by
  have hpos := List.length_pos_iff.mpr hpattern
  have hlength := h.stands.length_le
  rw [List.length_drop] at hlength
  omega

/-- Nothing that follows a frame changes where its pattern stands first. -/
theorem First.append {pattern front : List α}
    (h : First pattern (front ++ pattern) front.length) (rest : List α) :
    First pattern (front ++ (pattern ++ rest)) front.length where
  stands := by
    rw [List.drop_left]
    exact List.prefix_append pattern rest
  earliest := by
    intro k hk hstands
    apply h.earliest k hk
    rw [← List.append_assoc, List.drop_append_of_le_length (by
      rw [List.length_append]
      omega)] at hstands
    apply List.prefix_of_prefix_length_le hstands (List.prefix_append _ rest)
    rw [List.length_drop, List.length_append]
    omega

/-- Of all the places where the pattern stands, one is the first. -/
theorem exists_first {pattern text : List α} (h : pattern <:+: text) :
    ∃ offset, First pattern text offset := by
  classical
  obtain ⟨front, rest, rfl⟩ := h
  have hstands : ∃ k, pattern <+: (front ++ pattern ++ rest).drop k := by
    refine ⟨front.length, ?_⟩
    rw [List.append_assoc, List.drop_left]
    exact List.prefix_append pattern rest
  exact ⟨Nat.find hstands, Nat.find_spec hstands, fun k hk => Nat.find_min hstands hk⟩

variable [DecidableEq α]

/-- The offset of the first occurrence, or the length of the text if there is none. -/
def search (pattern : List α) : List α → ℕ
  | [] => 0
  | x :: text => if pattern <+: x :: text then 0 else search pattern text + 1

theorem search_le (pattern text : List α) : search pattern text ≤ text.length := by
  induction text with
  | nil => exact Nat.le_refl 0
  | cons x text ih =>
    rw [search]
    split
    · exact Nat.zero_le _
    · exact Nat.succ_le_succ ih

theorem not_prefix_of_lt_search {pattern text : List α} {k : ℕ} (hk : k < search pattern text) :
    ¬ pattern <+: text.drop k := by
  induction text generalizing k with
  | nil => exact absurd hk (Nat.not_lt_zero k)
  | cons x text ih =>
    rw [search] at hk
    by_cases hhead : pattern <+: x :: text
    · rw [if_pos hhead] at hk
      exact absurd hk (Nat.not_lt_zero k)
    · rw [if_neg hhead] at hk
      cases k with
      | zero => exact hhead
      | succ k => exact ih (Nat.lt_of_succ_lt_succ hk)

theorem prefix_of_search_lt {pattern text : List α} (h : search pattern text < text.length) :
    pattern <+: text.drop (search pattern text) := by
  induction text with
  | nil => exact absurd h (Nat.not_lt_zero _)
  | cons x text ih =>
    rw [search] at h ⊢
    by_cases hhead : pattern <+: x :: text
    · rw [if_pos hhead]
      exact hhead
    · rw [if_neg hhead] at h ⊢
      exact ih (Nat.lt_of_succ_lt_succ h)

/-- A search that stops before the end has found the first occurrence. -/
theorem first_search {pattern text : List α} (h : search pattern text < text.length) :
    First pattern text (search pattern text) :=
  ⟨prefix_of_search_lt h, fun _ => not_prefix_of_lt_search⟩

theorem search_eq_of_first {pattern text : List α} {offset : ℕ} (h : First pattern text offset)
    (hoffset : offset ≤ text.length) : search pattern text = offset := by
  rcases Nat.lt_trichotomy (search pattern text) offset with hlt | heq | hlt
  · exact absurd (prefix_of_search_lt (hlt.trans_le hoffset)) (h.earliest _ hlt)
  · exact heq
  · exact absurd h.stands (not_prefix_of_lt_search hlt)

/-- Without an occurrence the search goes to the end. -/
theorem search_eq_length {pattern text : List α} (h : ¬ pattern <:+: text) :
    search pattern text = text.length := by
  by_contra hne
  exact h (first_search (lt_of_le_of_ne (search_le pattern text) hne)).isInfix

end Occurrence
