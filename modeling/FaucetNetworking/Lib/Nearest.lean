import Mathlib.Algebra.Order.Floor.Ring
import Mathlib.Tactic.Linarith
import Mathlib.Tactic.NormNum
import Mathlib.Tactic.Ring

/-!
The nearest integer of an interval. Rounding to the nearest integer first and clipping the
result to the interval afterwards is the same as looking for the nearest integer in the
interval, also where two are as near.
-/
namespace Nearest

section

variable {K : Type*} [Field K] [LinearOrder K]

/-- Of two that are as near, the integer further from zero is preferred. -/
def Prefers (x : K) (n m : ℤ) : Prop :=
  |x - n| < |x - m| ∨ |x - n| = |x - m| ∧ |m| < |n|

structure IsNearest (lowest max : ℤ) (x : K) (n : ℤ) : Prop where
  low : lowest ≤ n
  high : n ≤ max
  prefers : ∀ m, lowest ≤ m → m ≤ max → m ≠ n → Prefers x n m

theorem Prefers.abs_sub_le {x : K} {n m : ℤ} (h : Prefers x n m) : |x - n| ≤ |x - m| := by
  rcases h with hlt | ⟨heq, -⟩
  · exact hlt.le
  · exact heq.le

theorem Prefers.asymm {x : K} {n m : ℤ} (h : Prefers x n m) : ¬ Prefers x m n := by
  rintro (hlt | ⟨heq, habs⟩)
  · exact absurd h.abs_sub_le hlt.not_ge
  · rcases h with hlt | ⟨-, habs'⟩
    · exact absurd heq hlt.ne'
    · exact absurd habs habs'.asymm

theorem prefers_neg {x : K} {n m : ℤ} : Prefers (-x) (-n) (-m) ↔ Prefers x n m := by
  have habs : ∀ k : ℤ, |-x - ((-k : ℤ) : K)| = |x - k| := by
    intro k
    rw [Int.cast_neg, ← neg_sub', abs_neg]
  unfold Prefers
  rw [habs, habs, abs_neg, abs_neg]

/-- The nearest integer is only one. -/
theorem IsNearest.unique {lowest max : ℤ} {x : K} {n m : ℤ} (hn : IsNearest lowest max x n)
    (hm : IsNearest lowest max x m) : n = m := by
  by_contra hne
  have hprefers := hn.prefers m hm.low hm.high (Ne.symm hne)
  exact hprefers.asymm (hm.prefers n hn.low hn.high hne)

end

section

variable {K : Type*} [Field K] [LinearOrder K] [IsStrictOrderedRing K]

/-- Which of two numbers is nearer is seen from their middle. -/
theorem abs_sub_lt_abs_sub_iff {x a b : K} (h : a < b) : |x - a| < |x - b| ↔ 2 * x < a + b := by
  constructor
  · intro hlt
    rcases abs_cases (x - a) with ⟨ha, _⟩ | ⟨ha, _⟩ <;>
      rcases abs_cases (x - b) with ⟨hb, _⟩ | ⟨hb, _⟩ <;> linarith
  · intro hlt
    rcases abs_cases (x - a) with ⟨ha, _⟩ | ⟨ha, _⟩ <;>
      rcases abs_cases (x - b) with ⟨hb, _⟩ | ⟨hb, _⟩ <;> linarith

theorem abs_sub_le_abs_sub_iff {x a b : K} (h : a < b) : |x - b| ≤ |x - a| ↔ a + b ≤ 2 * x := by
  rw [← not_lt, abs_sub_lt_abs_sub_iff h, not_lt]

theorem abs_sub_le_abs_sub_iff' {x a b : K} (h : a < b) :
    |x - a| ≤ |x - b| ↔ 2 * x ≤ a + b := by
  have hneg : -b < -a := neg_lt_neg h
  have hiff := @abs_sub_le_abs_sub_iff K _ _ _ (-x) (-b) (-a) hneg
  rw [← neg_sub', ← neg_sub', abs_neg, abs_neg] at hiff
  rw [hiff]
  constructor
  · intro hle
    linarith
  · intro hle
    linarith

/-- The nearest integer grows with the number: where it would fall, both numbers lie in the
middle of the two integers, so that they are equal. -/
theorem IsNearest.mono {lowest max : ℤ} {x y : K} {n m : ℤ} (hn : IsNearest lowest max x n)
    (hm : IsNearest lowest max y m) (hxy : x ≤ y) : n ≤ m := by
  by_contra hlt
  rw [not_le] at hlt
  have hcast : (m : K) < n := by exact_mod_cast hlt
  have hx := hn.prefers m hm.low hm.high hlt.ne
  have hy := hm.prefers n hn.low hn.high hlt.ne'
  have hmiddle : (m : K) + n ≤ 2 * x := (abs_sub_le_abs_sub_iff hcast).mp hx.abs_sub_le
  have hmiddle' : 2 * y ≤ (m : K) + n := (abs_sub_le_abs_sub_iff' hcast).mp hy.abs_sub_le
  have heq : x = y := by linarith
  subst y
  exact hx.asymm hy

/-! ### Rounding -/

variable [FloorRing K]

/-- Rounding to the nearest integer, halves away from zero. -/
def roundAway (x : K) : ℤ := if x < 0 then ⌈x - 1 / 2⌉ else ⌊x + 1 / 2⌋

theorem roundAway_neg (x : K) : roundAway (-x) = -roundAway x := by
  rcases lt_trichotomy x 0 with hneg | rfl | hpos
  · have hup : -x + 1 / 2 = -(x - 1 / 2) := by ring
    unfold roundAway
    rw [if_neg (by linarith), if_pos hneg, hup, Int.floor_neg]
  · have hhalf : ⌊(0 : K) + 1 / 2⌋ = 0 := Int.floor_eq_iff.mpr (by norm_num)
    unfold roundAway
    rw [neg_zero, if_neg (lt_irrefl _), hhalf, neg_zero]
  · have hup : -x - 1 / 2 = -(x + 1 / 2) := by ring
    unfold roundAway
    rw [if_pos (by linarith), if_neg hpos.not_gt, hup, Int.ceil_neg]

/-- The distance to the integer below is less than a half, but for a negative number. -/
theorem le_roundAway_add (x : K) :
    x ≤ roundAway x + 1 / 2 ∧ (0 ≤ x → x < roundAway x + 1 / 2) := by
  unfold roundAway
  by_cases hneg : x < 0
  · rw [if_pos hneg]
    have hle := Int.le_ceil (x - 1 / 2)
    exact ⟨by linarith, fun hpos => absurd hneg hpos.not_gt⟩
  · rw [if_neg hneg]
    have hlt := Int.lt_floor_add_one (x + 1 / 2)
    exact ⟨by linarith, fun _ => by linarith⟩

/-- From the rounded number upwards, a smaller integer is preferred. -/
theorem prefers_of_roundAway_le {x : K} {n m : ℤ} (hround : roundAway x ≤ n) (hlt : n < m) :
    Prefers x n m := by
  obtain ⟨hle, hpos⟩ := le_roundAway_add x
  have hcast : (n : K) < m := by exact_mod_cast hlt
  have hnext : (n : K) + 1 ≤ m := by exact_mod_cast hlt
  have hround' : (roundAway x : K) ≤ n := by exact_mod_cast hround
  by_cases hmiddle : 2 * x < n + m
  · exact .inl ((abs_sub_lt_abs_sub_iff hcast).mpr hmiddle)
  · have heq : 2 * x = n + m := by linarith
    have hm : (m : K) = n + 1 := by linarith
    have hneg : x < 0 := by
      by_contra hnonneg
      linarith [hpos (not_lt.mp hnonneg)]
    have hmneg : m ≤ 0 := by
      have : (n : K) < 0 := by linarith
      have hn : n < 0 := by exact_mod_cast this
      have hm' : m = n + 1 := by exact_mod_cast hm
      omega
    refine .inr ⟨le_antisymm ((abs_sub_le_abs_sub_iff' hcast).mpr heq.le)
      ((abs_sub_le_abs_sub_iff hcast).mpr heq.ge), ?_⟩
    rw [abs_of_nonpos hmneg, abs_of_neg (hlt.trans_le hmneg)]
    exact neg_lt_neg hlt

theorem prefers_of_le_roundAway {x : K} {n m : ℤ} (hround : n ≤ roundAway x) (hlt : m < n) :
    Prefers x n m := by
  have hneg : roundAway (-x) ≤ -n := by
    rw [roundAway_neg]
    exact neg_le_neg hround
  exact prefers_neg.mp (prefers_of_roundAway_le hneg (neg_lt_neg hlt))

/-- The rounded number, or the limit that it exceeds. -/
theorem isNearest_of_clipped {lowest max : ℤ} (h : lowest ≤ max) (x : K) :
    IsNearest lowest max x (if roundAway x ≤ lowest then lowest
      else if max ≤ roundAway x then max else roundAway x) := by
  by_cases hlow : roundAway x ≤ lowest
  · rw [if_pos hlow]
    refine ⟨le_refl _, h, ?_⟩
    intro m hm _ hne
    exact prefers_of_roundAway_le hlow (lt_of_le_of_ne hm (Ne.symm hne))
  · rw [if_neg hlow]
    rw [not_le] at hlow
    by_cases hhigh : max ≤ roundAway x
    · rw [if_pos hhigh]
      refine ⟨h, le_refl _, ?_⟩
      intro m _ hm hne
      exact prefers_of_le_roundAway hhigh (lt_of_le_of_ne hm hne)
    · rw [if_neg hhigh]
      refine ⟨hlow.le, (not_le.mp hhigh).le, ?_⟩
      intro m _ _ hne
      rcases lt_or_gt_of_ne hne with hbelow | habove
      · exact prefers_of_le_roundAway (le_refl _) hbelow
      · exact prefers_of_roundAway_le (le_refl _) habove

end

end Nearest
