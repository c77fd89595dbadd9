import FaucetNetworking.Lib.Ieee754Bits
import FaucetNetworking.Lib.Nearest

/-!
The conversion to a narrower format. All magnitudes of a format are multiples of its smallest
one, and are numbered in their order by the bits behind the sign. A magnitude is rounded to
the nearest one of the format, and to the one with even bits where two are as near.
-/
namespace Ieee754

/-! ### Rounding to an integer -/

/-- The nearest integer, and the even one of two that are as near. -/
def roundEven (q : ℚ) : ℤ :=
  if q - ⌊q⌋ < 1 / 2 then ⌊q⌋ else if 1 / 2 < q - ⌊q⌋ then ⌊q⌋ + 1 else ⌊q⌋ + ⌊q⌋ % 2

theorem roundEven_intCast (n : ℤ) : roundEven n = n := by
  unfold roundEven
  rw [Int.floor_intCast, sub_self, if_pos (by norm_num)]

/-- Half of the way to the next integer is left at most, and only to an even one. -/
theorem abs_sub_roundEven (q : ℚ) : |q - roundEven q| < 1 / 2 ∨
    |q - roundEven q| = 1 / 2 ∧ roundEven q % 2 = 0 := by
  have hlow := Int.floor_le q
  have hhigh := Int.lt_floor_add_one q
  unfold roundEven
  by_cases hbelow : q - ⌊q⌋ < 1 / 2
  · rw [if_pos hbelow, abs_of_nonneg (by linarith)]
    exact .inl hbelow
  · rw [if_neg hbelow]
    by_cases habove : 1 / 2 < q - ⌊q⌋
    · rw [if_pos habove, Int.cast_add, Int.cast_one, abs_of_neg (by linarith)]
      exact .inl (by linarith)
    · have hhalf : q - ⌊q⌋ = 1 / 2 := le_antisymm (not_lt.mp habove) (not_lt.mp hbelow)
      rw [if_neg habove]
      refine .inr ⟨?_, by omega⟩
      rcases Int.emod_two_eq_zero_or_one ⌊q⌋ with heven | hodd
      · rw [heven, add_zero, hhalf, abs_of_pos (by norm_num)]
      · rw [hodd, Int.cast_add, Int.cast_one, ← sub_sub, hhalf]
        norm_num

theorem one_sub_le_abs_sub {q : ℚ} {n m : ℤ} (h : m ≠ n) : 1 - |q - n| ≤ |q - m| := by
  have hone : (1 : ℤ) ≤ |n - m| := Int.one_le_abs (sub_ne_zero.mpr (Ne.symm h))
  have hcast : (1 : ℚ) ≤ |(n : ℚ) - m| := by exact_mod_cast hone
  have htriangle := abs_sub (q - m) (q - n)
  rw [sub_sub_sub_cancel_left] at htriangle
  linarith

/-- Any other integer is further, or as far from an even one. -/
theorem roundEven_prefers (q : ℚ) {m : ℤ} (h : m ≠ roundEven q) :
    |q - roundEven q| < |q - m| ∨ |q - roundEven q| = |q - m| ∧ roundEven q % 2 = 0 := by
  have hother := @one_sub_le_abs_sub q _ _ h
  rcases abs_sub_roundEven q with hlt | ⟨heq, heven⟩
  · exact .inl (by linarith)
  · rcases (show |q - roundEven q| ≤ |q - m| by linarith).lt_or_eq with hlt | hsame
    · exact .inl hlt
    · exact .inr ⟨hsame, heven⟩

theorem abs_sub_roundEven_le (q : ℚ) (m : ℤ) : |q - roundEven q| ≤ |q - m| := by
  by_cases h : m = roundEven q
  · rw [h]
  · rcases roundEven_prefers q h with hlt | ⟨heq, -⟩
    · exact hlt.le
    · exact heq.le

theorem le_roundEven {q : ℚ} {n : ℤ} (h : (n : ℚ) ≤ q) : n ≤ roundEven q := by
  have hfloor : n ≤ ⌊q⌋ := Int.le_floor.mpr h
  unfold roundEven
  split
  · exact hfloor
  · split <;> omega

theorem roundEven_le {q : ℚ} {n : ℤ} (h : q ≤ n) : roundEven q ≤ n := by
  by_contra hlt
  have hnext : (n : ℚ) + 1 ≤ roundEven q := by exact_mod_cast not_le.mp hlt
  have hnearest := abs_sub_roundEven_le q n
  rw [abs_of_nonpos (by linarith), abs_of_nonpos (by linarith)] at hnearest
  linarith

/-! ### The order of the magnitudes -/

namespace Format

variable (F : Format)

/-- The smallest positive magnitude. -/
def quantum : ℚ := 2 ^ (1 - F.bias - F.fractionBits : ℤ)

theorem quantum_pos : 0 < F.quantum := zpow_pos (by norm_num) _

end Format

namespace Datum

variable {F : Format}

/-- The fraction with its leading one, as an integer. -/
def mantissa (d : Datum F) : ℕ :=
  if d.exponent.val = 0 then d.fraction.val else 2 ^ F.fractionBits + d.fraction.val

def shift (d : Datum F) : ℕ := d.exponent.val - 1

/-- The bits behind the sign. -/
def ordinal (d : Datum F) : ℕ := d.fraction.val + 2 ^ F.fractionBits * d.exponent.val

theorem magnitude_eq (d : Datum F) :
    d.magnitude = d.mantissa * 2 ^ d.shift * F.quantum := by
  unfold magnitude mantissa shift Format.quantum
  by_cases hzero : d.exponent.val = 0
  · rw [if_pos hzero, if_pos hzero, hzero, pow_zero, mul_one]
  · have hsplit : (d.exponent.val : ℤ) - F.bias - F.fractionBits =
        ((d.exponent.val - 1 : ℕ) : ℤ) + (1 - F.bias - F.fractionBits) := by
      omega
    rw [if_neg hzero, if_neg hzero, hsplit, zpow_add₀ (by norm_num), zpow_natCast, mul_assoc]
    push_cast
    rfl

theorem mantissa_lt (d : Datum F) : d.mantissa < 2 ^ (F.fractionBits + 1) := by
  have hlt := d.fraction.isLt
  unfold mantissa
  rw [Nat.pow_succ]
  split <;> omega

theorem le_mantissa {d : Datum F} (h : 0 < d.shift) : 2 ^ F.fractionBits ≤ d.mantissa := by
  unfold shift at h
  unfold mantissa
  rw [if_neg (by omega)]
  exact Nat.le_add_right _ _

theorem ordinal_eq (d : Datum F) : d.ordinal = d.mantissa + 2 ^ F.fractionBits * d.shift := by
  unfold ordinal mantissa shift
  by_cases hzero : d.exponent.val = 0
  · rw [if_pos hzero, hzero]
  · obtain ⟨e, he⟩ := Nat.exists_eq_succ_of_ne_zero hzero
    rw [if_neg hzero, he, Nat.succ_sub_one, Nat.mul_succ]
    omega

theorem bits_eq (d : Datum F) :
    d.bits = d.ordinal + 2 ^ F.fractionBits * 2 ^ F.exponentBits * d.negative.toNat := by
  unfold bits ordinal
  ring

/-- The sign and the bits behind it. -/
theorem eq_of_ordinal_eq {c d : Datum F} (hnegative : c.negative = d.negative)
    (h : c.ordinal = d.ordinal) : c = d := by
  rw [← ofBits_bits c, ← ofBits_bits d, bits_eq, bits_eq, h, hnegative]

theorem ordinal_lt {d : Datum F} (h : d.exponent.val ≠ F.maxExponent) :
    d.ordinal < 2 ^ F.fractionBits * F.maxExponent := by
  have hfraction := d.fraction.isLt
  have hexponent := Nat.mul_le_mul_left (2 ^ F.fractionBits) (exponent_lt_of_ne d h)
  unfold ordinal
  rw [Nat.mul_succ] at hexponent
  omega

theorem mod_lt (F : Format) (n : ℕ) : n % 2 ^ F.fractionBits < 2 ^ F.fractionBits :=
  Nat.mod_lt _ (Nat.two_pow_pos _)

/-- The finite datum with these bits behind the sign. -/
def ofOrdinal (negative : Bool) (n : ℕ) (h : n < 2 ^ F.fractionBits * F.maxExponent) :
    Datum F where
  negative := negative
  exponent := ⟨n / 2 ^ F.fractionBits,
    Nat.lt_trans (Nat.div_lt_of_lt_mul h) F.maxExponent_lt⟩
  fraction := ⟨n % 2 ^ F.fractionBits, mod_lt F n⟩

theorem ordinal_ofOrdinal (negative : Bool) {n : ℕ}
    (h : n < 2 ^ F.fractionBits * F.maxExponent) : (ofOrdinal negative n h).ordinal = n :=
  Nat.mod_add_div n (2 ^ F.fractionBits)

theorem exponent_ofOrdinal (negative : Bool) {n : ℕ}
    (h : n < 2 ^ F.fractionBits * F.maxExponent) :
    (ofOrdinal negative n h).exponent.val ≠ F.maxExponent := (Nat.div_lt_of_lt_mul h).ne

/-- A mantissa that has just become too long is that of the next exponent. -/
theorem magnitude_ofOrdinal (negative : Bool) {n k : ℕ} (hn : n ≤ 2 ^ (F.fractionBits + 1))
    (hk : 0 < k → 2 ^ F.fractionBits ≤ n)
    (h : n + 2 ^ F.fractionBits * k < 2 ^ F.fractionBits * F.maxExponent) :
    (ofOrdinal negative (n + 2 ^ F.fractionBits * k) h).magnitude = n * 2 ^ k * F.quantum := by
  have hpos := Nat.two_pow_pos F.fractionBits
  have hdiv : (n + 2 ^ F.fractionBits * k) / 2 ^ F.fractionBits = n / 2 ^ F.fractionBits + k :=
    Nat.add_mul_div_left _ _ hpos
  have hmod : (n + 2 ^ F.fractionBits * k) % 2 ^ F.fractionBits = n % 2 ^ F.fractionBits :=
    Nat.add_mul_mod_self_left _ _ _
  rw [magnitude_eq]
  unfold mantissa shift ofOrdinal
  simp only [hdiv, hmod]
  rcases Nat.lt_or_ge n (2 ^ F.fractionBits) with hsmall | hlarge
  · have hzero : k = 0 := by
      by_contra hne
      exact absurd (hk (Nat.pos_of_ne_zero hne)) (Nat.not_le.mpr hsmall)
    rw [hzero, Nat.div_eq_of_lt hsmall, Nat.mod_eq_of_lt hsmall]
    rfl
  · rcases Nat.lt_or_eq_of_le hn with hlt | heq
    · have hone : n / 2 ^ F.fractionBits = 1 := by
        rw [Nat.pow_succ] at hlt
        exact Nat.div_eq_of_lt_le (by omega) (by omega)
      have hrest : 2 ^ F.fractionBits + n % 2 ^ F.fractionBits = n := by
        have hsplit := Nat.mod_add_div n (2 ^ F.fractionBits)
        rw [hone, Nat.mul_one] at hsplit
        omega
      rw [hone, if_neg (by omega), hrest, Nat.add_sub_cancel_left]
    · rw [heq, Nat.pow_succ, Nat.mul_div_cancel_left _ hpos, Nat.mul_mod_right,
        if_neg (by omega), Nat.add_zero, show 2 + k - 1 = k + 1 by omega]
      push_cast
      ring

/-! ### The nearest magnitude -/

/-- The exponent that the nearest mantissa is looked for with. -/
def roundingShift (F : Format) (x : ℚ) : ℕ := ⌊x⌋.toNat.log2 - F.fractionBits

/-- The bits behind the sign of the nearest magnitude. -/
def nearestOrdinal (F : Format) (q : ℚ) : ℕ :=
  let x := q / F.quantum
  let shift := roundingShift F x
  (roundEven (x / 2 ^ shift)).toNat + 2 ^ F.fractionBits * shift

section

variable {x : ℚ}

theorem lt_of_roundingShift (F : Format) (x : ℚ) :
    x < 2 ^ (F.fractionBits + 1) * 2 ^ roundingShift F x := by
  have hfloor : ⌊x⌋ < 2 ^ (⌊x⌋.toNat.log2 + 1) := by
    have hlog : ⌊x⌋.toNat < 2 ^ (⌊x⌋.toNat.log2 + 1) := Nat.lt_log2_self
    have hcast : (⌊x⌋.toNat : ℤ) < 2 ^ (⌊x⌋.toNat.log2 + 1) := by exact_mod_cast hlog
    exact (Int.self_le_toNat _).trans_lt hcast
  have hpow : (2 : ℤ) ^ (⌊x⌋.toNat.log2 + 1) ≤
      2 ^ (F.fractionBits + 1 + roundingShift F x) := by
    apply pow_le_pow_right₀ (by norm_num)
    unfold roundingShift
    omega
  have hnext : ((⌊x⌋ + 1 : ℤ) : ℚ) ≤ 2 ^ (F.fractionBits + 1 + roundingShift F x) := by
    exact_mod_cast (Int.add_one_le_iff.mpr hfloor).trans hpow
  rw [← pow_add]
  have hlt := Int.lt_floor_add_one x
  push_cast at hnext
  exact hlt.trans_le hnext

theorem le_of_roundingShift (hx : 0 ≤ x) (h : 0 < roundingShift F x) :
    2 ^ F.fractionBits * 2 ^ roundingShift F x ≤ x := by
  have hlog : F.fractionBits + roundingShift F x = ⌊x⌋.toNat.log2 := by
    unfold roundingShift at h ⊢
    omega
  have hzero : ⌊x⌋.toNat ≠ 0 := by
    intro hzero
    rw [hzero, Nat.log2_zero] at hlog
    omega
  have hnat : 2 ^ ⌊x⌋.toNat.log2 ≤ ⌊x⌋.toNat := Nat.log2_self_le hzero
  have hcast : (2 : ℤ) ^ ⌊x⌋.toNat.log2 ≤ ⌊x⌋ := by
    rw [← Int.toNat_of_nonneg (Int.floor_nonneg.mpr hx)]
    exact_mod_cast hnat
  have hfloor : (2 : ℚ) ^ ⌊x⌋.toNat.log2 ≤ (⌊x⌋ : ℚ) := by exact_mod_cast hcast
  rw [← pow_add, hlog]
  exact hfloor.trans (Int.floor_le x)

/-- The nearest mantissa with the exponent. -/
def roundedMantissa (F : Format) (x : ℚ) : ℕ := (roundEven (x / 2 ^ roundingShift F x)).toNat

theorem cast_roundedMantissa (F : Format) (hx : 0 ≤ x) :
    (roundedMantissa F x : ℤ) = roundEven (x / 2 ^ roundingShift F x) := by
  apply Int.toNat_of_nonneg
  apply le_roundEven
  rw [Int.cast_zero]
  positivity

theorem roundedMantissa_le (F : Format) (hx : 0 ≤ x) :
    roundedMantissa F x ≤ 2 ^ (F.fractionBits + 1) := by
  have hle : roundEven (x / 2 ^ roundingShift F x) ≤ 2 ^ (F.fractionBits + 1) := by
    apply roundEven_le
    rw [div_le_iff₀ (by positivity)]
    push_cast
    exact (lt_of_roundingShift F x).le
  rw [← cast_roundedMantissa F hx] at hle
  exact_mod_cast hle

theorem le_roundedMantissa (hx : 0 ≤ x) (h : 0 < roundingShift F x) :
    2 ^ F.fractionBits ≤ roundedMantissa F x := by
  have hle : (2 ^ F.fractionBits : ℤ) ≤ roundEven (x / 2 ^ roundingShift F x) := by
    apply le_roundEven
    rw [le_div_iff₀ (by positivity)]
    push_cast
    exact le_of_roundingShift hx h
  rw [← cast_roundedMantissa F hx] at hle
  exact_mod_cast hle

/-- Multiples of the unit are compared by their multipliers. -/
theorem roundedMantissa_prefers (hx : 0 ≤ x) {m : ℕ} (h : m ≠ roundedMantissa F x) :
    |x - roundedMantissa F x * 2 ^ roundingShift F x| < |x - m * 2 ^ roundingShift F x| ∨
    |x - roundedMantissa F x * 2 ^ roundingShift F x| = |x - m * 2 ^ roundingShift F x| ∧
      roundedMantissa F x % 2 = 0 := by
  have hpos : (0 : ℚ) < 2 ^ roundingShift F x := by positivity
  have hscale : ∀ n : ℤ, |x - n * 2 ^ roundingShift F x| =
      |x / 2 ^ roundingShift F x - n| * 2 ^ roundingShift F x := by
    intro n
    rw [← abs_of_pos hpos, ← abs_mul, abs_of_pos hpos, sub_mul, div_mul_cancel₀ _ hpos.ne']
  have hcast := cast_roundedMantissa F hx
  have hne : (m : ℤ) ≠ roundEven (x / 2 ^ roundingShift F x) := by
    rw [← hcast]
    exact_mod_cast h
  have hm := hscale m
  have hn := hscale (roundedMantissa F x)
  rw [Int.cast_natCast] at hm hn
  rw [hm, hn, ← Int.cast_natCast (roundedMantissa F x), hcast, ← Int.cast_natCast m]
  rcases roundEven_prefers _ hne with hlt | ⟨heq, heven⟩
  · exact .inl (mul_lt_mul_of_pos_right hlt hpos)
  · refine .inr ⟨by rw [heq], ?_⟩
    omega

/-- A magnitude with a smaller exponent is below all mantissas that are looked at. -/
theorem roundedMantissa_nearest (hx : 0 ≤ x) {s j : ℕ} (hs : s < 2 ^ (F.fractionBits + 1))
    (hne : (s * 2 ^ j : ℚ) ≠ roundedMantissa F x * 2 ^ roundingShift F x) :
    |x - roundedMantissa F x * 2 ^ roundingShift F x| < |x - s * 2 ^ j| ∨
    |x - roundedMantissa F x * 2 ^ roundingShift F x| = |x - s * 2 ^ j| ∧
      roundedMantissa F x % 2 = 0 := by
  rcases Nat.lt_or_ge j (roundingShift F x) with hlt | hge
  · have hpos : 0 < roundingShift F x := (Nat.zero_le j).trans_lt hlt
    have hlow := le_of_roundingShift hx hpos
    have hsmall : (s * 2 ^ j : ℚ) < 2 ^ F.fractionBits * 2 ^ roundingShift F x := by
      have hnat : s * 2 ^ j < 2 ^ F.fractionBits * 2 ^ roundingShift F x := by
        calc s * 2 ^ j < 2 ^ (F.fractionBits + 1) * 2 ^ j :=
              Nat.mul_lt_mul_of_pos_right hs (Nat.two_pow_pos j)
          _ = 2 ^ F.fractionBits * 2 ^ (j + 1) := by ring
          _ ≤ 2 ^ F.fractionBits * 2 ^ roundingShift F x :=
              Nat.mul_le_mul_left _ (Nat.pow_le_pow_right Nat.two_pos hlt)
      exact_mod_cast hnat
    have hleast : |x - roundedMantissa F x * 2 ^ roundingShift F x| ≤
        |x - (2 ^ F.fractionBits : ℕ) * 2 ^ roundingShift F x| := by
      by_cases heq : 2 ^ F.fractionBits = roundedMantissa F x
      · rw [heq]
      · rcases roundedMantissa_prefers hx heq with hlt | ⟨hsame, -⟩
        · exact hlt.le
        · exact hsame.le
    push_cast at hleast
    rw [abs_of_nonneg (sub_nonneg.mpr hlow)] at hleast
    rw [abs_of_pos (sub_pos.mpr (hsmall.trans_le hlow))]
    exact .inl (by linarith)
  · have hsplit : (s * 2 ^ j : ℚ) =
        ((s * 2 ^ (j - roundingShift F x) : ℕ) : ℚ) * 2 ^ roundingShift F x := by
      push_cast
      rw [mul_assoc, ← pow_add, Nat.sub_add_cancel hge]
    rw [hsplit] at hne ⊢
    apply roundedMantissa_prefers hx
    rintro heq
    rw [heq] at hne
    exact hne rfl

end

/-- The nearest magnitude, or that of the infinities when it is too large. -/
def ofMagnitude (F : Format) (negative : Bool) (q : ℚ) : Datum F :=
  if h : nearestOrdinal F q < 2 ^ F.fractionBits * F.maxExponent then
    ofOrdinal negative (nearestOrdinal F q) h
  else infinity F negative

/-- The conversion to a narrower format, which keeps the leading bits of the payload of a
NaN and makes it quiet. -/
def narrow (G : Format) (d : Datum F) : Datum G :=
  if d.exponent.val = F.maxExponent then
    if d.fraction.val = 0 then infinity G d.negative
    else
      { negative := d.negative
        exponent := ⟨G.maxExponent, G.maxExponent_lt⟩
        fraction := Fin.ofNat _ (2 ^ (G.fractionBits - 1) +
          d.fraction.val / 2 ^ (F.fractionBits - G.fractionBits) % 2 ^ (G.fractionBits - 1)) }
  else ofMagnitude G d.negative d.magnitude

def maxFinite (F : Format) (negative : Bool) : Datum F :=
  ofOrdinal negative (2 ^ F.fractionBits * F.maxExponent - 1) (Nat.sub_lt
    (Nat.mul_pos (Nat.two_pow_pos _) (by rw [F.maxExponent_eq]; omega)) Nat.one_pos)

/-! ### Finite numbers -/

def number (d : Datum F) : ℚ := if d.negative then -d.magnitude else d.magnitude

theorem magnitude_nonneg (d : Datum F) : 0 ≤ d.magnitude := by
  have hpos := F.quantum_pos
  rw [magnitude_eq]
  positivity

theorem abs_number (d : Datum F) : |d.number| = d.magnitude := by
  unfold number
  split
  · rw [abs_neg, abs_of_nonneg d.magnitude_nonneg]
  · exact abs_of_nonneg d.magnitude_nonneg

theorem value_eq_finite_iff {d : Datum F} {v : ℚ} :
    d.value = .finite v ↔ d.exponent.val ≠ F.maxExponent ∧ d.number = v := by
  unfold value number
  by_cases hmax : d.exponent.val = F.maxExponent
  · rw [if_pos hmax]
    split <;> simp [hmax]
  · simp [hmax]

theorem log2_mul_two_pow {m : ℕ} (hm : m ≠ 0) (k : ℕ) : (m * 2 ^ k).log2 = m.log2 + k := by
  have hpos := Nat.two_pow_pos k
  rw [Nat.log2_eq_iff (Nat.mul_ne_zero hm hpos.ne')]
  constructor
  · rw [Nat.pow_add]
    exact Nat.mul_le_mul_right _ (Nat.log2_self_le hm)
  · rw [Nat.add_right_comm, Nat.pow_add]
    exact Nat.mul_lt_mul_of_pos_right Nat.lt_log2_self hpos

theorem roundingShift_magnitude (d : Datum F) :
    roundingShift F ((d.mantissa * 2 ^ d.shift : ℕ) : ℤ) = d.shift := by
  have hlt := d.mantissa_lt
  unfold roundingShift
  rw [Int.floor_intCast, Int.toNat_natCast]
  by_cases hzero : d.mantissa = 0
  · have hnone : d.shift = 0 := by
      by_contra hne
      have hle := le_mantissa (Nat.pos_of_ne_zero hne)
      have hpos := Nat.two_pow_pos F.fractionBits
      omega
    rw [hzero, Nat.zero_mul, Nat.log2_zero, hnone, Nat.zero_sub]
  · rw [log2_mul_two_pow hzero]
    have hhigh := (Nat.log2_lt hzero).mpr hlt
    rcases Nat.eq_zero_or_pos d.shift with hnone | hsome
    · omega
    · have hlow := (Nat.le_log2 hzero).mpr (le_mantissa hsome)
      omega

/-- A number of the format is its own nearest one. -/
theorem nearestOrdinal_magnitude (d : Datum F) : nearestOrdinal F d.magnitude = d.ordinal := by
  have hx : d.magnitude / F.quantum = ((d.mantissa * 2 ^ d.shift : ℕ) : ℤ) := by
    rw [magnitude_eq, mul_div_cancel_right₀ _ F.quantum_pos.ne']
    push_cast
    rfl
  have hmantissa : (((d.mantissa * 2 ^ d.shift : ℕ) : ℤ) : ℚ) / 2 ^ d.shift =
      (d.mantissa : ℤ) := by
    push_cast
    exact mul_div_cancel_right₀ _ (by positivity)
  unfold nearestOrdinal
  simp only
  rw [hx, roundingShift_magnitude, hmantissa, roundEven_intCast, Int.toNat_natCast, ordinal_eq]

/-- Only the sign can differ between numbers of one magnitude. -/
theorem ordinal_eq_of_magnitude_eq {c d : Datum F} (h : c.magnitude = d.magnitude) :
    c.ordinal = d.ordinal := by
  rw [← nearestOrdinal_magnitude, h, nearestOrdinal_magnitude]

/-! ### The largest number -/

theorem two_le_maxExponent (F : Format) : 2 ≤ F.maxExponent := by
  have hpos := F.bias_pos
  rw [F.maxExponent_eq]
  omega

theorem magnitude_maxFinite (F : Format) (negative : Bool) : (maxFinite F negative).magnitude =
    (2 ^ (F.fractionBits + 1) - 1 : ℕ) * 2 ^ (F.maxExponent - 2) * F.quantum := by
  obtain ⟨k, hk⟩ := Nat.exists_eq_add_of_le (two_le_maxExponent F)
  have hpos := Nat.two_pow_pos F.fractionBits
  have hlast : 2 ^ F.fractionBits * F.maxExponent - 1 =
      (2 ^ (F.fractionBits + 1) - 1) + 2 ^ F.fractionBits * (F.maxExponent - 2) := by
    rw [hk, Nat.add_sub_cancel_left, Nat.mul_add, Nat.pow_succ]
    omega
  have hle : 2 ^ F.fractionBits ≤ 2 ^ (F.fractionBits + 1) - 1 := by
    rw [Nat.pow_succ]
    omega
  unfold maxFinite
  simp only [hlast]
  exact magnitude_ofOrdinal negative (Nat.sub_le _ _) (fun _ => hle) _

theorem magnitude_le_maxFinite {d : Datum F} (h : d.exponent.val ≠ F.maxExponent)
    (negative : Bool) : d.magnitude ≤ (maxFinite F negative).magnitude := by
  have hmantissa := Nat.le_sub_one_of_lt d.mantissa_lt
  have hshift : d.shift ≤ F.maxExponent - 2 := by
    have hlt := exponent_lt_of_ne d h
    unfold shift
    omega
  have hnat : d.mantissa * 2 ^ d.shift ≤
      (2 ^ (F.fractionBits + 1) - 1) * 2 ^ (F.maxExponent - 2) :=
    Nat.mul_le_mul hmantissa (Nat.pow_le_pow_right Nat.two_pos hshift)
  rw [magnitude_maxFinite, magnitude_eq]
  apply mul_le_mul_of_nonneg_right _ F.quantum_pos.le
  exact_mod_cast hnat

/-- Below the largest number, rounding does not lead beyond it. -/
theorem nearestOrdinal_lt {q : ℚ} (hq : 0 ≤ q) {negative : Bool}
    (h : q < (maxFinite F negative).magnitude) :
    nearestOrdinal F q < 2 ^ F.fractionBits * F.maxExponent := by
  obtain ⟨k, hk⟩ := Nat.exists_eq_add_of_le (two_le_maxExponent F)
  have hx : 0 ≤ q / F.quantum := div_nonneg hq F.quantum_pos.le
  have hpos := Nat.two_pow_pos F.fractionBits
  have hlt : q / F.quantum < ((2 ^ (F.fractionBits + 1) - 1 : ℕ) : ℚ) * 2 ^ k := by
    rw [magnitude_maxFinite, hk, Nat.add_sub_cancel_left] at h
    exact (div_lt_iff₀ F.quantum_pos).mpr h
  have hmantissa := roundedMantissa_le F hx
  have hordinal : nearestOrdinal F q = roundedMantissa F (q / F.quantum) +
    2 ^ F.fractionBits * roundingShift F (q / F.quantum) := rfl
  rw [hordinal, hk, Nat.mul_add]
  rw [Nat.pow_succ] at hmantissa
  rcases Nat.lt_trichotomy (roundingShift F (q / F.quantum)) k with hbelow | heq | habove
  · have hshift := Nat.mul_le_mul_left (2 ^ F.fractionBits) hbelow
    rw [Nat.mul_succ] at hshift
    omega
  · have hle : roundEven (q / F.quantum / 2 ^ k) ≤ ((2 ^ (F.fractionBits + 1) - 1 : ℕ) : ℤ) := by
      apply roundEven_le
      rw [Int.cast_natCast]
      exact ((div_lt_iff₀ (by positivity)).mpr hlt).le
    rw [← heq, ← cast_roundedMantissa F hx, Nat.pow_succ] at hle
    rw [heq]
    omega
  · have hlow := le_of_roundingShift hx ((Nat.zero_le k).trans_lt habove)
    have hpow : 2 ^ F.fractionBits * 2 ^ (k + 1) ≤
        2 ^ F.fractionBits * 2 ^ roundingShift F (q / F.quantum) :=
      Nat.mul_le_mul_left _ (Nat.pow_le_pow_right Nat.two_pos habove)
    have hnat : (2 ^ (F.fractionBits + 1) - 1) * 2 ^ k ≤ 2 ^ F.fractionBits * 2 ^ (k + 1) := by
      calc (2 ^ (F.fractionBits + 1) - 1) * 2 ^ k ≤ 2 ^ (F.fractionBits + 1) * 2 ^ k :=
            Nat.mul_le_mul_right _ (Nat.sub_le _ _)
        _ = 2 ^ F.fractionBits * 2 ^ (k + 1) := by ring
    have hcast : (((2 ^ (F.fractionBits + 1) - 1 : ℕ) : ℚ)) * 2 ^ k ≤
        2 ^ F.fractionBits * 2 ^ roundingShift F (q / F.quantum) := by
      exact_mod_cast hnat.trans hpow
    linarith

/-! ### The nearest number -/

/-- Every other finite number is further from it, or as far and the last bit is zero. -/
def IsNearest (v : ℚ) (d : Datum F) : Prop :=
  ∃ w, d.value = .finite w ∧ ∀ (c : Datum F) (u : ℚ), c.value = .finite u → u ≠ w →
    |v - w| < |v - u| ∨ |v - w| = |v - u| ∧ d.bits % 2 = 0

theorem IsNearest.abs_sub_le {v w u : ℚ} {d c : Datum F} (h : IsNearest v d)
    (hd : d.value = .finite w) (hc : c.value = .finite u) : |v - w| ≤ |v - u| := by
  obtain ⟨w', hw', hnearest⟩ := h
  obtain rfl := Value.finite.inj (hd.symm.trans hw')
  by_cases heq : u = w
  · rw [heq]
  · rcases hnearest c u hc heq with hlt | ⟨hsame, -⟩
    · exact hlt.le
    · exact hsame.le

/-- The nearest numbers are ordered as the numbers are. -/
theorem IsNearest.mono {v v' w w' : ℚ} {d d' : Datum F} (h : IsNearest v d)
    (h' : IsNearest v' d') (hd : d.value = .finite w) (hd' : d'.value = .finite w')
    (hlt : v < v') : w ≤ w' := by
  by_contra hgt
  rw [not_le] at hgt
  have hlow := (Nearest.abs_sub_le_abs_sub_iff hgt).mp (h.abs_sub_le hd hd')
  have hhigh := (Nearest.abs_sub_le_abs_sub_iff' hgt).mp (h'.abs_sub_le hd' hd)
  linarith

theorem magnitude_nearest {q : ℚ} (hq : 0 ≤ q) (negative : Bool)
    (h : nearestOrdinal F q < 2 ^ F.fractionBits * F.maxExponent) :
    (ofOrdinal negative (nearestOrdinal F q) h).magnitude =
      roundedMantissa F (q / F.quantum) * 2 ^ roundingShift F (q / F.quantum) * F.quantum := by
  have hx : 0 ≤ q / F.quantum := div_nonneg hq F.quantum_pos.le
  exact magnitude_ofOrdinal negative (roundedMantissa_le F hx) (le_roundedMantissa hx) h

/-- The last bit of a number is that of its mantissa. -/
theorem bits_mod_two (hF : 0 < F.fractionBits) {d : Datum F} {n k : ℕ}
    (h : d.ordinal = n + 2 ^ F.fractionBits * k) : d.bits % 2 = n % 2 := by
  obtain ⟨f, hf⟩ := Nat.exists_eq_succ_of_ne_zero hF.ne'
  have hunit : 2 ^ F.fractionBits = 2 * 2 ^ f := by rw [hf, Nat.pow_succ']
  rw [bits_eq, h, hunit, Nat.mul_assoc, Nat.mul_assoc, Nat.mul_assoc]
  omega

theorem nearest_magnitude (hF : 0 < F.fractionBits) {q : ℚ} (hq : 0 ≤ q) (negative : Bool)
    (h : nearestOrdinal F q < 2 ^ F.fractionBits * F.maxExponent) (c : Datum F)
    (hne : c.magnitude ≠ (ofOrdinal negative (nearestOrdinal F q) h).magnitude) :
    |q - (ofOrdinal negative (nearestOrdinal F q) h).magnitude| < |q - c.magnitude| ∨
    |q - (ofOrdinal negative (nearestOrdinal F q) h).magnitude| = |q - c.magnitude| ∧
      (ofOrdinal negative (nearestOrdinal F q) h).bits % 2 = 0 := by
  have hx : 0 ≤ q / F.quantum := div_nonneg hq F.quantum_pos.le
  have hscale : ∀ x : ℚ, |q - x * F.quantum| = |q / F.quantum - x| * F.quantum := by
    intro x
    rw [← abs_of_pos F.quantum_pos, ← abs_mul, abs_of_pos F.quantum_pos, sub_mul,
      div_mul_cancel₀ _ F.quantum_pos.ne']
  rw [magnitude_nearest hq, magnitude_eq c] at hne ⊢
  rw [bits_mod_two hF (ordinal_ofOrdinal negative h), hscale, hscale]
  have hmantissa : (c.mantissa * 2 ^ c.shift : ℚ) ≠
      roundedMantissa F (q / F.quantum) * 2 ^ roundingShift F (q / F.quantum) := by
    intro heq
    rw [heq] at hne
    exact hne rfl
  rcases roundedMantissa_nearest hx c.mantissa_lt hmantissa with hlt | ⟨heq, heven⟩
  · exact .inl (mul_lt_mul_of_pos_right hlt F.quantum_pos)
  · exact .inr ⟨by rw [heq], heven⟩

theorem magnitude_zero (negative : Bool) : (zero negative : Datum F).magnitude = 0 := by
  unfold magnitude zero
  rw [if_pos rfl, Nat.cast_zero, zero_mul]

/-- Zero is not nearer. -/
theorem abs_sub_nearest_le (hF : 0 < F.fractionBits) {q : ℚ} (hq : 0 ≤ q) (negative : Bool)
    (h : nearestOrdinal F q < 2 ^ F.fractionBits * F.maxExponent) :
    |q - (ofOrdinal negative (nearestOrdinal F q) h).magnitude| ≤ q := by
  have hzero : |q - (zero false : Datum F).magnitude| = q := by
    rw [magnitude_zero, sub_zero, abs_of_nonneg hq]
  by_cases heq : (zero false : Datum F).magnitude =
      (ofOrdinal negative (nearestOrdinal F q) h).magnitude
  · rw [← heq, hzero]
  · rcases nearest_magnitude hF hq negative h (zero false) heq with hlt | ⟨hsame, -⟩
    · exact (hlt.trans_eq hzero).le
    · exact (hsame.trans hzero).le

/-- The numbers of the other sign are not nearer than their magnitudes. -/
theorem nearest_number (hF : 0 < F.fractionBits) {q u : ℚ} (hq : 0 ≤ q) (negative : Bool)
    (h : nearestOrdinal F q < 2 ^ F.fractionBits * F.maxExponent) {c : Datum F}
    (hu : |u| = c.magnitude) (hne : u ≠ (ofOrdinal negative (nearestOrdinal F q) h).magnitude) :
    |q - (ofOrdinal negative (nearestOrdinal F q) h).magnitude| < |q - u| ∨
    |q - (ofOrdinal negative (nearestOrdinal F q) h).magnitude| = |q - u| ∧
      (ofOrdinal negative (nearestOrdinal F q) h).bits % 2 = 0 := by
  have hzero := abs_sub_nearest_le hF hq negative h
  have hcase := nearest_magnitude hF hq negative h c
  have hnonneg := (ofOrdinal negative (nearestOrdinal F q) h).magnitude_nonneg
  generalize ofOrdinal negative (nearestOrdinal F q) h = d at hne hzero hcase hnonneg
  by_cases heq : c.magnitude = d.magnitude
  · have hopposite : u = -d.magnitude := by
      rcases abs_choice u with hsame | hsame
      · rw [hsame, heq] at hu
        exact absurd hu hne
      · rw [hsame, heq] at hu
        linarith
    have hpos : 0 < d.magnitude := by
      rcases hnonneg.lt_or_eq with hpos | hnone
      · exact hpos
      · rw [hopposite, ← hnone, neg_zero] at hne
        exact absurd rfl hne
    rw [hopposite, sub_neg_eq_add, abs_of_nonneg (add_nonneg hq hpos.le)]
    exact .inl (by linarith)
  · have hle : |q - c.magnitude| ≤ |q - u| := by
      have habs := abs_abs_sub_abs_le q u
      rwa [abs_of_nonneg hq, hu] at habs
    rcases hcase heq with hlt | ⟨hsame, heven⟩
    · exact .inl (hlt.trans_le hle)
    · rcases (hsame.le.trans hle).lt_or_eq with hlt | hsame'
      · exact .inl hlt
      · exact .inr ⟨hsame', heven⟩

/-- A magnitude is rounded with its sign. -/
theorem isNearest_ofMagnitude (hF : 0 < F.fractionBits) {q : ℚ} (hq : 0 ≤ q) (negative : Bool)
    (h : nearestOrdinal F q < 2 ^ F.fractionBits * F.maxExponent) :
    IsNearest (if negative then -q else q) (ofMagnitude F negative q) := by
  have hdatum : ofMagnitude F negative q = ofOrdinal negative (nearestOrdinal F q) h := dif_pos h
  have hfinite := exponent_ofOrdinal negative h
  have hnearest := @nearest_number F hF q
  rw [hdatum]
  refine ⟨_, value_eq_finite_iff.mpr ⟨hfinite, rfl⟩, ?_⟩
  intro c u hu hne
  obtain ⟨-, rfl⟩ := value_eq_finite_iff.mp hu
  cases negative with
  | false => exact hnearest hq false h c.abs_number hne
  | true =>
    have hflip : ∀ w : ℚ, |-q - w| = |q - -w| := by
      intro w
      rw [← abs_neg, neg_sub, sub_neg_eq_add, sub_neg_eq_add, add_comm]
    have habs : |-c.number| = c.magnitude := by rw [abs_neg, c.abs_number]
    have hne' : -c.number ≠ (ofOrdinal true (nearestOrdinal F q) h).magnitude := by
      intro heq
      exact hne (neg_eq_iff_eq_neg.mp heq)
    change |-q - -(ofOrdinal true (nearestOrdinal F q) h).magnitude| < |-q - c.number| ∨
      |-q - -(ofOrdinal true (nearestOrdinal F q) h).magnitude| = |-q - c.number| ∧ _
    rw [hflip, hflip, neg_neg]
    exact hnearest hq true h habs hne'

/-- What is not between the largest numbers is nearest to one of them. -/
theorem isNearest_maxFinite {v : ℚ} (negative : Bool)
    (h : (maxFinite F negative).magnitude ≤ if negative then -v else v) :
    IsNearest v (maxFinite F negative) := by
  refine ⟨_, value_eq_finite_iff.mpr ⟨exponent_ofOrdinal negative _, rfl⟩, ?_⟩
  intro c u hu hne
  obtain ⟨hfinite, rfl⟩ := value_eq_finite_iff.mp hu
  have hle := magnitude_le_maxFinite hfinite negative
  rw [← c.abs_number] at hle
  obtain ⟨hlow, hhigh⟩ := abs_le.mp hle
  left
  cases negative with
  | false =>
    change c.number ≠ (maxFinite F false).magnitude at hne
    change |v - (maxFinite F false).magnitude| < _
    rw [if_neg Bool.false_ne_true] at h
    rw [abs_of_nonneg (by linarith), abs_of_nonneg (by linarith)]
    linarith [lt_of_le_of_ne hhigh hne]
  | true =>
    change c.number ≠ -(maxFinite F true).magnitude at hne
    change |v - -(maxFinite F true).magnitude| < _
    rw [if_pos rfl] at h
    rw [abs_of_nonpos (by linarith), abs_of_nonpos (by linarith)]
    linarith [lt_of_le_of_ne hlow hne.symm]

/-! ### Narrowing -/

variable {G : Format}

theorem narrow_eq {d : Datum F} (hfinite : d.exponent.val ≠ F.maxExponent) :
    narrow G d = ofMagnitude G d.negative d.magnitude := if_neg hfinite

/-- Between the largest numbers, the conversion gives the nearest number. -/
theorem isNearest_narrow (hG : 0 < G.fractionBits) {d : Datum F} {v : ℚ}
    (hd : d.value = .finite v) {negative : Bool} (hlt : |v| < (maxFinite G negative).magnitude) :
    IsNearest v (narrow G d) := by
  obtain ⟨hfinite, rfl⟩ := value_eq_finite_iff.mp hd
  rw [abs_number] at hlt
  rw [narrow_eq hfinite]
  exact isNearest_ofMagnitude hG d.magnitude_nonneg d.negative
    (nearestOrdinal_lt d.magnitude_nonneg hlt)

/-- The conversion to a wider format is undone, down to the sign of a zero. -/
theorem narrow_widen (h : Widens F G) {d : Datum F} (hfinite : d.exponent.val ≠ F.maxExponent) :
    narrow F (widen h d) = d := by
  have hlt := ordinal_lt hfinite
  rw [narrow_eq (widen_exponent_lt h d hfinite).ne, magnitude_widen h d hfinite, widen_negative]
  unfold ofMagnitude
  simp only [nearestOrdinal_magnitude]
  rw [dif_pos hlt]
  exact eq_of_ordinal_eq rfl (ordinal_ofOrdinal d.negative hlt)

theorem value_eq_nan_iff {d : Datum F} :
    d.value = .nan ↔ d.exponent.val = F.maxExponent ∧ d.fraction.val ≠ 0 := by
  unfold value
  by_cases hmax : d.exponent.val = F.maxExponent
  · by_cases hzero : d.fraction.val = 0 <;> simp [hmax, hzero]
  · simp [hmax]

theorem value_narrow_nan (hG : 0 < G.fractionBits) {d : Datum F} (hd : d.value = .nan) :
    (narrow G d).value = .nan := by
  obtain ⟨hmax, hfraction⟩ := value_eq_nan_iff.mp hd
  have hpos := Nat.two_pow_pos (G.fractionBits - 1)
  have hrest := Nat.mod_lt (d.fraction.val / 2 ^ (F.fractionBits - G.fractionBits)) hpos
  have hsplit : 2 ^ G.fractionBits = 2 ^ (G.fractionBits - 1) * 2 := by
    rw [← Nat.pow_succ, Nat.succ_eq_add_one, Nat.sub_add_cancel hG]
  rw [value_eq_nan_iff]
  unfold narrow
  rw [if_pos hmax, if_neg hfraction]
  refine ⟨rfl, ?_⟩
  simp only [Fin.ofNat]
  rw [Nat.mod_eq_of_lt (by omega)]
  omega

/-- The two zeros become zeros; any other value has only one datum. -/
theorem value_narrow_congr (hG : 0 < G.fractionBits) {c d : Datum F} {v : ℚ}
    (hc : c.value = .finite v) (hd : d.value = .finite v) {negative : Bool}
    (hlt : |v| < (maxFinite G negative).magnitude) : (narrow G c).value = (narrow G d).value := by
  obtain ⟨hfinitec, hnumberc⟩ := value_eq_finite_iff.mp hc
  obtain ⟨hfinited, hnumberd⟩ := value_eq_finite_iff.mp hd
  have hmagnitude : c.magnitude = d.magnitude := by
    rw [← c.abs_number, ← d.abs_number, hnumberc, hnumberd]
  rw [narrow_eq hfinitec, narrow_eq hfinited, hmagnitude]
  by_cases hsign : c.negative = d.negative
  · rw [hsign]
  · have hzero : d.magnitude = 0 := by
      unfold number at hnumberc hnumberd
      rw [hmagnitude] at hnumberc
      cases hcn : c.negative <;> cases hdn : d.negative <;>
        simp only [hcn, hdn, if_true, Bool.false_eq_true, if_false, not_true_eq_false] at *
      · linarith
      · linarith
    have hvalue : ∀ sign : Bool, (ofMagnitude G sign d.magnitude).value = .finite 0 := by
      intro sign
      have hbound : nearestOrdinal G d.magnitude < 2 ^ G.fractionBits * G.maxExponent := by
        rw [← d.abs_number, hnumberd]
        exact nearestOrdinal_lt (abs_nonneg v) hlt
      have hnone := abs_sub_nearest_le hG d.magnitude_nonneg sign hbound
      have hdatum : ofMagnitude G sign d.magnitude = ofOrdinal sign _ hbound := dif_pos hbound
      rw [hdatum, value_eq_finite_iff]
      refine ⟨exponent_ofOrdinal sign hbound, ?_⟩
      generalize ofOrdinal sign _ hbound = e at hnone
      rw [hzero, zero_sub, abs_neg] at hnone
      have hnumber : e.number = 0 := by
        rw [← abs_eq_zero, abs_number, ← abs_of_nonneg e.magnitude_nonneg]
        exact le_antisymm hnone (abs_nonneg _)
      exact hnumber
    rw [hvalue, hvalue]

end Datum

end Ieee754
