import Mathlib.Data.Rat.Floor
import Mathlib.Tactic.FieldSimp
import Mathlib.Tactic.Positivity
import Mathlib.Tactic.Ring

/-!
Binary floating-point numbers as the fields of their bit patterns. A datum keeps
everything that is in its bits, the payload of a NaN included; its value is an exact
rational number, an infinity, or not a number.
-/
namespace Ieee754

/-- The widths of the two fields behind the sign. -/
structure Format where
  exponentBits : ℕ
  fractionBits : ℕ
  exponentBits_pos : 1 < exponentBits
  fractionBits_le : fractionBits < 2 ^ (exponentBits - 1)

def binary32 : Format := ⟨8, 23, by decide, by decide⟩

def binary64 : Format := ⟨11, 52, by decide, by decide⟩

namespace Format

variable (F : Format)

def bias : ℕ := 2 ^ (F.exponentBits - 1) - 1

/-- The exponent field of the infinities and of what is not a number. -/
def maxExponent : ℕ := 2 ^ F.exponentBits - 1

def width : ℕ := 1 + F.exponentBits + F.fractionBits

theorem maxExponent_eq : F.maxExponent = 2 * F.bias + 1 := by
  have hpos := F.exponentBits_pos
  have hpow : 2 ^ F.exponentBits = 2 * 2 ^ (F.exponentBits - 1) := by
    rw [← Nat.pow_succ']
    congr 1
    omega
  have hone := Nat.one_le_two_pow (n := F.exponentBits - 1)
  unfold maxExponent bias
  omega

theorem maxExponent_lt : F.maxExponent < 2 ^ F.exponentBits :=
  Nat.sub_lt (Nat.two_pow_pos _) Nat.one_pos

theorem bias_pos : 0 < F.bias := by
  have htwo : 2 ^ 1 ≤ 2 ^ (F.exponentBits - 1) :=
    Nat.pow_le_pow_right Nat.two_pos (Nat.le_sub_one_of_lt F.exponentBits_pos)
  unfold bias
  omega

theorem fractionBits_le_bias : F.fractionBits ≤ F.bias :=
  Nat.le_sub_one_of_lt F.fractionBits_le

end Format

structure Datum (F : Format) where
  negative : Bool
  exponent : Fin (2 ^ F.exponentBits)
  fraction : Fin (2 ^ F.fractionBits)
  deriving DecidableEq

inductive Value where
  | nan
  | infinite (negative : Bool)
  | finite (q : ℚ)
  deriving DecidableEq

namespace Value

/-- The comparison of two numbers, which a NaN is not equal to itself under. -/
def eq : Value → Value → Bool
  | finite p, finite q => p == q
  | infinite a, infinite b => a == b
  | _, _ => false

/-- The order of the numbers; it does not hold of a NaN. -/
def le : Value → Value → Bool
  | finite p, finite q => decide (p ≤ q)
  | infinite true, nan => false
  | infinite true, _ => true
  | finite _, infinite negative => !negative
  | infinite false, infinite negative => !negative
  | _, _ => false

/-- Rounding toward zero. -/
def trunc : Value → Value
  | finite q => finite (if q < 0 then ⌈q⌉ else ⌊q⌋)
  | x => x

/-- Rounding to the nearest integer, and away from zero where two are as near. -/
def round : Value → Value
  | finite q => finite (if q < 0 then ⌈q - 1 / 2⌉ else ⌊q + 1 / 2⌋)
  | x => x

/-- A value that trunc does not change is an integer or infinite. -/
theorem eq_trunc_iff (x : Value) :
    x.trunc.eq x = true ↔ (∃ negative, x = infinite negative) ∨ ∃ n : ℤ, x = finite n := by
  cases x with
  | nan => simp [trunc, eq]
  | infinite negative => simp [trunc, eq]
  | finite q =>
    simp only [trunc, eq, beq_iff_eq, reduceCtorEq, exists_false, false_or, finite.injEq]
    constructor
    · intro h
      split at h
      · exact ⟨_, h.symm⟩
      · exact ⟨_, h.symm⟩
    · rintro ⟨n, rfl⟩
      split
      · rw [Int.ceil_intCast]
      · rw [Int.floor_intCast]

theorem round_intCast (n : ℤ) : (finite n).round = finite n := by
  have hup : ⌊(n : ℚ) + 1 / 2⌋ = n := by
    rw [Int.floor_intCast_add]
    norm_num
  have hdown : ⌈(n : ℚ) - 1 / 2⌉ = n := by
    rw [sub_eq_add_neg, Int.ceil_intCast_add]
    norm_num
  simp only [round, hup, hdown, ite_self]

end Value

namespace Datum

variable {F : Format}

/-- The magnitude of a finite datum; the smallest exponent field has no leading one. -/
def magnitude (d : Datum F) : ℚ :=
  if d.exponent.val = 0 then d.fraction.val * 2 ^ (1 - F.bias - F.fractionBits : ℤ)
  else (2 ^ F.fractionBits + d.fraction.val) *
    2 ^ ((d.exponent.val : ℤ) - F.bias - F.fractionBits)

def value (d : Datum F) : Value :=
  if d.exponent.val = F.maxExponent then
    if d.fraction.val = 0 then .infinite d.negative else .nan
  else .finite (if d.negative then -d.magnitude else d.magnitude)

/-! ### Integers -/

def zero (negative : Bool) : Datum F := ⟨negative, ⟨0, Nat.two_pow_pos _⟩, ⟨0, Nat.two_pow_pos _⟩⟩

/-- The significand of a natural number, with its leading one. -/
def significand (F : Format) (n : ℕ) : ℕ := n * 2 ^ (F.fractionBits - n.log2)

theorem log2_le {n : ℕ} (hn : n < 2 ^ (F.fractionBits + 1)) : n.log2 ≤ F.fractionBits := by
  by_cases hzero : n = 0
  · rw [hzero, Nat.log2_zero]
    exact Nat.zero_le _
  · exact Nat.lt_succ_iff.mp ((Nat.log2_lt hzero).mpr hn)

theorem significand_bounds {n : ℕ} (hzero : n ≠ 0) (hn : n < 2 ^ (F.fractionBits + 1)) :
    2 ^ F.fractionBits ≤ significand F n ∧ significand F n < 2 ^ (F.fractionBits + 1) := by
  have hlog := log2_le hn
  have hsplit : ∀ k, 2 ^ (n.log2 + k) * 2 ^ (F.fractionBits - n.log2) =
      2 ^ (F.fractionBits + k) := by
    intro k
    rw [← Nat.pow_add]
    congr 1
    omega
  constructor
  · have hlow := hsplit 0
    rw [Nat.add_zero, Nat.add_zero] at hlow
    rw [← hlow]
    exact Nat.mul_le_mul_right _ (Nat.log2_self_le hzero)
  · rw [← hsplit 1]
    exact Nat.mul_lt_mul_of_pos_right Nat.lt_log2_self (Nat.two_pow_pos _)

theorem exponent_lt {n : ℕ} (hn : n < 2 ^ (F.fractionBits + 1)) :
    F.bias + n.log2 < F.maxExponent := by
  have hlog := log2_le hn
  have hbias := F.fractionBits_le_bias
  have hmax := F.maxExponent_eq
  omega

/-- An integer that is small enough to be represented exactly. -/
def ofInt (F : Format) (n : ℤ) (h : n.natAbs < 2 ^ (F.fractionBits + 1)) : Datum F :=
  if hzero : n.natAbs = 0 then zero false
  else
    { negative := n < 0
      exponent := ⟨F.bias + n.natAbs.log2, (exponent_lt h).trans F.maxExponent_lt⟩
      fraction := ⟨significand F n.natAbs - 2 ^ F.fractionBits, by
        have hbounds := significand_bounds hzero h
        rw [Nat.pow_succ'] at hbounds
        omega⟩ }

theorem value_zero (negative : Bool) : (zero negative : Datum F).value = .finite 0 := by
  have hmax : (0 : ℕ) ≠ F.maxExponent := by
    rw [F.maxExponent_eq]
    omega
  simp [value, zero, hmax, magnitude]

/-- The significand is the number, shifted to the left. -/
theorem significand_mul (F : Format) {n : ℕ} (hn : n < 2 ^ (F.fractionBits + 1)) :
    (significand F n : ℚ) * 2 ^ ((n.log2 : ℤ) - F.fractionBits) = n := by
  have hlog := log2_le hn
  have hshift : ((n.log2 : ℤ) - F.fractionBits) = -((F.fractionBits - n.log2 : ℕ) : ℤ) := by
    omega
  have hpow : (2 : ℚ) ^ (F.fractionBits - n.log2) ≠ 0 := by positivity
  rw [hshift, zpow_neg, zpow_natCast]
  unfold significand
  push_cast
  field_simp

theorem value_ofInt (F : Format) {n : ℤ} (h : n.natAbs < 2 ^ (F.fractionBits + 1)) :
    (ofInt F n h).value = .finite n := by
  unfold ofInt
  by_cases hzero : n.natAbs = 0
  · rw [dif_pos hzero, value_zero, Int.natAbs_eq_zero.mp hzero]
    rfl
  · obtain ⟨hlow, -⟩ := significand_bounds hzero h
    have hbound := exponent_lt h
    have hbias := F.fractionBits_le_bias
    have hcast : (2 ^ F.fractionBits : ℚ) + ((significand F n.natAbs - 2 ^ F.fractionBits : ℕ)) =
        significand F n.natAbs := by
      rw [Nat.cast_sub hlow]
      push_cast
      ring
    have hexponent : ((F.bias + n.natAbs.log2 : ℕ) : ℤ) - F.bias - F.fractionBits =
        (n.natAbs.log2 : ℤ) - F.fractionBits := by
      push_cast
      ring
    have hnormal : F.bias + n.natAbs.log2 ≠ 0 := by
      have hpos := F.bias_pos
      omega
    rw [dif_neg hzero]
    unfold value magnitude
    simp only
    rw [if_neg (Nat.ne_of_lt hbound), if_neg hnormal, hcast, hexponent, significand_mul F h,
      Nat.cast_natAbs]
    by_cases hneg : n < 0
    · rw [decide_eq_true hneg, if_pos rfl, abs_of_neg hneg, Int.cast_neg, neg_neg]
    · rw [decide_eq_false hneg, if_neg Bool.false_ne_true, abs_of_nonneg (not_lt.mp hneg)]

end Datum

/-! ### Integers of any size -/

/-- The nearest number with so many significant bits, the even one of two that are as
near. -/
def nearestEven (significantBits n : ℕ) : ℕ :=
  let unit := 2 ^ (n.log2 + 1 - significantBits)
  let quotient := n / unit
  let remainder := n % unit
  if 2 * remainder < unit ∨ 2 * remainder = unit ∧ quotient % 2 = 0 then quotient * unit
  else (quotient + 1) * unit

/-- A number is not changed if it is a multiple of the unit. -/
theorem nearestEven_of_mod_eq {significantBits n : ℕ}
    (h : n % 2 ^ (n.log2 + 1 - significantBits) = 0) : nearestEven significantBits n = n := by
  have hpos := Nat.two_pow_pos (n.log2 + 1 - significantBits)
  unfold nearestEven
  simp only
  rw [h, Nat.mul_zero, if_pos (.inl hpos), Nat.div_mul_cancel (Nat.dvd_of_mod_eq_zero h)]

/-- The first number that needs another bit is a power of two. -/
theorem nearestEven_of_le {significantBits n : ℕ} (hbits : 0 < significantBits)
    (h : n ≤ 2 ^ significantBits) : nearestEven significantBits n = n := by
  apply nearestEven_of_mod_eq
  rcases Nat.lt_or_eq_of_le h with hlt | rfl
  · by_cases hzero : n = 0
    · rw [hzero, Nat.zero_mod]
    · have hlog := (Nat.log2_lt hzero).mpr hlt
      have hunit : n.log2 + 1 - significantBits = 0 := by omega
      rw [hunit, Nat.pow_zero, Nat.mod_one]
  · have hunit : significantBits + 1 - significantBits = 1 := by omega
    rw [Nat.log2_two_pow, hunit, Nat.pow_one, Nat.two_pow_mod_two_eq_zero]
    exact hbits

/-- The conversion of an integer whose magnitude is in the range of the format. -/
def Value.ofInt (F : Format) (n : ℤ) : Value :=
  let magnitude := nearestEven (F.fractionBits + 1) n.natAbs
  .finite (if n < 0 then -magnitude else magnitude)

theorem Value.ofInt_eq (F : Format) {n : ℤ} (h : n.natAbs ≤ 2 ^ (F.fractionBits + 1)) :
    Value.ofInt F n = .finite n := by
  unfold Value.ofInt
  simp only
  rw [nearestEven_of_le (Nat.succ_pos _) h, Nat.cast_natAbs]
  by_cases hneg : n < 0
  · rw [if_pos hneg, abs_of_neg hneg, Int.cast_neg, neg_neg]
  · rw [if_neg hneg, abs_of_nonneg (not_lt.mp hneg)]

end Ieee754
