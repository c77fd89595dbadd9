import FaucetNetworking.Lib.Ieee754

/-!
The bits of a floating-point datum as a number, and the conversion to a wider format.
The conversion keeps the value of every number and the payload of a NaN, which it makes
quiet.
-/
namespace Ieee754

/-- Every number of the narrow format is a normal number or a zero of the wide one. -/
structure Widens (F G : Format) : Prop where
  fractionBits_pos : 0 < F.fractionBits
  fractionBits_le : F.fractionBits ≤ G.fractionBits
  bias_le : F.bias + F.fractionBits ≤ G.bias

theorem binary32_widens_binary64 : Widens binary32 binary64 := ⟨by decide, by decide, by decide⟩

namespace Datum

variable {F G : Format}

/-! ### Bits -/

def bits (d : Datum F) : ℕ :=
  d.fraction.val + 2 ^ F.fractionBits * (d.exponent.val + 2 ^ F.exponentBits * d.negative.toNat)

def ofBits (F : Format) (n : ℕ) : Datum F where
  negative := n / 2 ^ F.fractionBits / 2 ^ F.exponentBits % 2 = 1
  exponent := ⟨n / 2 ^ F.fractionBits % 2 ^ F.exponentBits, Nat.mod_lt _ (Nat.two_pow_pos _)⟩
  fraction := ⟨n % 2 ^ F.fractionBits, Nat.mod_lt _ (Nat.two_pow_pos _)⟩

theorem two_pow_width (F : Format) :
    2 ^ F.width = 2 ^ F.fractionBits * (2 ^ F.exponentBits * 2) := by
  unfold Format.width
  ring

theorem bits_lt (d : Datum F) : d.bits < 2 ^ F.width := by
  have hpack : ∀ {a b m k : ℕ}, a < m → b < k → a + m * b < m * k := by
    intro a b m k ha hb
    calc a + m * b < m * (b + 1) := by rw [Nat.mul_succ]; omega
      _ ≤ m * k := Nat.mul_le_mul_left m hb
  rw [two_pow_width]
  exact hpack d.fraction.isLt (hpack d.exponent.isLt (Bool.toNat_lt d.negative))

theorem ofBits_bits (d : Datum F) : ofBits F d.bits = d := by
  obtain ⟨negative, exponent, fraction⟩ := d
  have hfraction : (bits ⟨negative, exponent, fraction⟩) % 2 ^ F.fractionBits = fraction.val := by
    unfold bits
    rw [Nat.add_mul_mod_self_left, Nat.mod_eq_of_lt fraction.isLt]
  have hhigh : (bits ⟨negative, exponent, fraction⟩) / 2 ^ F.fractionBits =
      exponent.val + 2 ^ F.exponentBits * negative.toNat := by
    unfold bits
    rw [Nat.add_mul_div_left _ _ (Nat.two_pow_pos _), Nat.div_eq_of_lt fraction.isLt, Nat.zero_add]
  have hexponent : (exponent.val + 2 ^ F.exponentBits * negative.toNat) % 2 ^ F.exponentBits =
      exponent.val := by
    rw [Nat.add_mul_mod_self_left, Nat.mod_eq_of_lt exponent.isLt]
  have hsign : (exponent.val + 2 ^ F.exponentBits * negative.toNat) / 2 ^ F.exponentBits =
      negative.toNat := by
    rw [Nat.add_mul_div_left _ _ (Nat.two_pow_pos _), Nat.div_eq_of_lt exponent.isLt, Nat.zero_add]
  unfold ofBits
  simp only [hfraction, hhigh, hexponent, hsign]
  cases negative <;> rfl

theorem bits_ofBits {n : ℕ} (h : n < 2 ^ F.width) : (ofBits F n).bits = n := by
  have hsign : n / 2 ^ F.fractionBits / 2 ^ F.exponentBits < 2 := by
    rw [two_pow_width, ← Nat.mul_assoc, Nat.mul_comm] at h
    rw [Nat.div_div_eq_div_mul]
    exact Nat.div_lt_of_lt_mul (Nat.mul_comm 2 _ ▸ h)
  have hnegative : (decide (n / 2 ^ F.fractionBits / 2 ^ F.exponentBits % 2 = 1)).toNat =
      n / 2 ^ F.fractionBits / 2 ^ F.exponentBits := by
    have hcases : n / 2 ^ F.fractionBits / 2 ^ F.exponentBits = 0 ∨
        n / 2 ^ F.fractionBits / 2 ^ F.exponentBits = 1 :=
      Nat.le_one_iff_eq_zero_or_eq_one.mp (Nat.le_of_lt_succ hsign)
    rcases hcases with hzero | hone
    · rw [hzero]
      rfl
    · rw [hone]
      rfl
  unfold ofBits bits
  simp only
  rw [hnegative, Nat.mod_add_div, Nat.mod_add_div]

theorem ofBits_injective {m n : ℕ} (hm : m < 2 ^ F.width) (hn : n < 2 ^ F.width)
    (h : ofBits F m = ofBits F n) : m = n := by
  rw [← bits_ofBits hm, ← bits_ofBits hn, h]

/-! ### Widening -/

theorem exponent_lt_of_ne (d : Datum F) (h : d.exponent.val ≠ F.maxExponent) :
    d.exponent.val < F.maxExponent := by
  have hlt := d.exponent.isLt
  unfold Format.maxExponent at h ⊢
  omega

theorem log2_fraction_lt (d : Datum F) (h : d.fraction.val ≠ 0) :
    d.fraction.val.log2 < F.fractionBits := (Nat.log2_lt h).mpr d.fraction.isLt

/-- The exponent of a normal number moves by the difference of the biases. -/
theorem normalExponent_lt (h : Widens F G) {exponent : ℕ} (hexponent : exponent < F.maxExponent) :
    G.bias - F.bias + exponent < G.maxExponent := by
  have hbias := h.bias_le
  have hnarrow := F.maxExponent_eq
  have hwide := G.maxExponent_eq
  omega

/-- A number without a leading one gets it, and an exponent below those of the others. -/
theorem subnormalExponent_le (h : Widens F G) (d : Datum F) (hfraction : d.fraction.val ≠ 0) :
    G.bias - F.bias - F.fractionBits + 1 + d.fraction.val.log2 ≤ G.bias - F.bias := by
  have hlog := log2_fraction_lt d hfraction
  have hbias := h.bias_le
  omega

theorem subnormalExponent_lt (h : Widens F G) (d : Datum F)
    (hmax : d.exponent.val ≠ F.maxExponent) (hfraction : d.fraction.val ≠ 0) :
    G.bias - F.bias - F.fractionBits + 1 + d.fraction.val.log2 < G.maxExponent := by
  have hle := subnormalExponent_le h d hfraction
  have hlt := normalExponent_lt h (exponent_lt_of_ne d hmax)
  omega

theorem fraction_lt (h : Widens F G) (d : Datum F) :
    d.fraction.val < 2 ^ (G.fractionBits + 1) :=
  d.fraction.isLt.trans (Nat.pow_lt_pow_right (by decide) (Nat.lt_succ_of_le h.fractionBits_le))

theorem significand_sub_lt (h : Widens F G) (d : Datum F) (hfraction : d.fraction.val ≠ 0) :
    significand G d.fraction.val - 2 ^ G.fractionBits < 2 ^ G.fractionBits := by
  have hbounds := significand_bounds hfraction (fraction_lt h d)
  rw [Nat.pow_succ'] at hbounds
  omega

theorem shiftedFraction_lt (h : Widens F G) (d : Datum F) :
    d.fraction.val * 2 ^ (G.fractionBits - F.fractionBits) < 2 ^ G.fractionBits := by
  have hsplit : 2 ^ G.fractionBits =
      2 ^ F.fractionBits * 2 ^ (G.fractionBits - F.fractionBits) := by
    rw [← Nat.pow_add, Nat.add_sub_cancel' h.fractionBits_le]
  rw [hsplit]
  exact Nat.mul_lt_mul_of_pos_right d.fraction.isLt (Nat.two_pow_pos _)

/-- The first bit of the fraction makes a NaN quiet. -/
def quietFraction (F G : Format) (fraction : ℕ) : ℕ :=
  2 ^ (G.fractionBits - 1) +
    fraction % 2 ^ (F.fractionBits - 1) * 2 ^ (G.fractionBits - F.fractionBits)

theorem quietFraction_lt (h : Widens F G) (fraction : ℕ) :
    quietFraction F G fraction < 2 ^ G.fractionBits := by
  have hpos := h.fractionBits_pos
  have hle := h.fractionBits_le
  have hhalf : 2 ^ G.fractionBits = 2 ^ (G.fractionBits - 1) + 2 ^ (G.fractionBits - 1) := by
    rw [← Nat.two_mul, ← Nat.pow_succ']
    congr 1
    omega
  have hsplit : 2 ^ (G.fractionBits - 1) =
      2 ^ (F.fractionBits - 1) * 2 ^ (G.fractionBits - F.fractionBits) := by
    rw [← Nat.pow_add]
    congr 1
    omega
  unfold quietFraction
  rw [hhalf]
  apply Nat.add_lt_add_left
  rw [hsplit]
  exact Nat.mul_lt_mul_of_pos_right (Nat.mod_lt _ (Nat.two_pow_pos _)) (Nat.two_pow_pos _)

theorem quietFraction_ne_zero (fraction : ℕ) : quietFraction F G fraction ≠ 0 :=
  Nat.ne_of_gt (Nat.add_pos_left (Nat.two_pow_pos _) _)

def infinity (F : Format) (negative : Bool) : Datum F :=
  { zero negative with exponent := ⟨F.maxExponent, F.maxExponent_lt⟩ }

theorem value_infinity (F : Format) (negative : Bool) :
    (infinity F negative).value = .infinite negative := by
  unfold value infinity zero
  simp only [if_true]

/-- The conversion to a wider format. -/
def widen (h : Widens F G) (d : Datum F) : Datum G :=
  if hmax : d.exponent.val = F.maxExponent then
    if d.fraction.val = 0 then infinity G d.negative
    else
      ⟨d.negative, ⟨G.maxExponent, G.maxExponent_lt⟩,
        ⟨quietFraction F G d.fraction.val, quietFraction_lt h d.fraction.val⟩⟩
  else if d.exponent.val = 0 then
    if hzero : d.fraction.val = 0 then zero d.negative
    else
      { negative := d.negative
        exponent := ⟨G.bias - F.bias - F.fractionBits + 1 + d.fraction.val.log2,
          Nat.lt_trans (subnormalExponent_lt h d hmax hzero) G.maxExponent_lt⟩
        fraction := ⟨significand G d.fraction.val - 2 ^ G.fractionBits,
          significand_sub_lt h d hzero⟩ }
  else
    { negative := d.negative
      exponent := ⟨G.bias - F.bias + d.exponent.val,
        Nat.lt_trans (normalExponent_lt h (exponent_lt_of_ne d hmax)) G.maxExponent_lt⟩
      fraction := ⟨d.fraction.val * 2 ^ (G.fractionBits - F.fractionBits),
        shiftedFraction_lt h d⟩ }

theorem widen_negative (h : Widens F G) (d : Datum F) : (widen h d).negative = d.negative := by
  unfold widen
  split
  · split <;> rfl
  · split
    · split <;> rfl
    · rfl

theorem mod_eq_of_quietFraction_eq {m n : ℕ} (h : quietFraction F G m = quietFraction F G n) :
    m % 2 ^ (F.fractionBits - 1) = n % 2 ^ (F.fractionBits - 1) :=
  Nat.eq_of_mul_eq_mul_right (Nat.two_pow_pos _) (Nat.add_left_cancel h)

theorem eq_of_significand_eq {m n : ℕ} (hlog : m.log2 = n.log2)
    (h : significand G m = significand G n) : m = n := by
  unfold significand at h
  rw [hlog] at h
  exact Nat.eq_of_mul_eq_mul_right (Nat.two_pow_pos _) h

/-- Two data with one exponent that become the same differ at most in the quiet bit. -/
theorem fraction_mod_eq_of_widen_eq (h : Widens F G) {c d : Datum F}
    (hexponent : c.exponent = d.exponent) (heq : widen h c = widen h d) :
    c.fraction.val % 2 ^ (F.fractionBits - 1) = d.fraction.val % 2 ^ (F.fractionBits - 1) := by
  have hvalue := congrArg Fin.val hexponent
  unfold widen at heq
  by_cases hmax : c.exponent.val = F.maxExponent
  · have hmaxd : d.exponent.val = F.maxExponent := by rw [← hvalue, hmax]
    rw [dif_pos hmax, dif_pos hmaxd] at heq
    by_cases hc : c.fraction.val = 0
    · by_cases hd : d.fraction.val = 0
      · rw [hc, hd]
      · rw [if_pos hc, if_neg hd] at heq
        exact absurd (congrArg (fun x => x.fraction.val) heq).symm (quietFraction_ne_zero _)
    · by_cases hd : d.fraction.val = 0
      · rw [if_neg hc, if_pos hd] at heq
        exact absurd (congrArg (fun x => x.fraction.val) heq) (quietFraction_ne_zero _)
      · rw [if_neg hc, if_neg hd] at heq
        exact mod_eq_of_quietFraction_eq (congrArg (fun x => x.fraction.val) heq)
  · have hmaxd : d.exponent.val ≠ F.maxExponent := by rwa [← hvalue]
    rw [dif_neg hmax, dif_neg hmaxd] at heq
    by_cases hzero : c.exponent.val = 0
    · have hzerod : d.exponent.val = 0 := by rw [← hvalue, hzero]
      rw [if_pos hzero, if_pos hzerod] at heq
      by_cases hc : c.fraction.val = 0
      · by_cases hd : d.fraction.val = 0
        · rw [hc, hd]
        · rw [dif_pos hc, dif_neg hd] at heq
          have hcontra := congrArg (fun x => x.exponent.val) heq
          simp only [zero] at hcontra
          omega
      · by_cases hd : d.fraction.val = 0
        · rw [dif_neg hc, dif_pos hd] at heq
          have hcontra := congrArg (fun x => x.exponent.val) heq
          simp only [zero] at hcontra
          omega
        · rw [dif_neg hc, dif_neg hd] at heq
          have hlog := Nat.add_left_cancel (congrArg (fun x => x.exponent.val) heq)
          have hfraction := congrArg (fun x => x.fraction.val) heq
          have hlowc := (significand_bounds hc (fraction_lt h c)).1
          have hlowd := (significand_bounds hd (fraction_lt h d)).1
          have hsignificand : significand G c.fraction.val = significand G d.fraction.val := by
            simp only at hfraction
            omega
          rw [eq_of_significand_eq hlog hsignificand]
    · have hzerod : d.exponent.val ≠ 0 := by rwa [← hvalue]
      rw [if_neg hzero, if_neg hzerod] at heq
      have hfraction := congrArg (fun x => x.fraction.val) heq
      rw [Nat.eq_of_mul_eq_mul_right (Nat.two_pow_pos _) hfraction]

/-! ### The value -/

theorem magnitude_widen_subnormal (h : Widens F G) (d : Datum F)
    (hmax : d.exponent.val ≠ F.maxExponent) (hexponent : d.exponent.val = 0)
    (hzero : d.fraction.val ≠ 0) :
    (widen h d).magnitude = d.magnitude := by
  obtain ⟨hlow, -⟩ := significand_bounds hzero (fraction_lt h d)
  have hbias := h.bias_le
  have hcast : (2 ^ G.fractionBits : ℚ) +
      ((significand G d.fraction.val - 2 ^ G.fractionBits : ℕ)) =
        significand G d.fraction.val := by
    rw [Nat.cast_sub hlow]
    push_cast
    ring
  have hsplit : ((G.bias - F.bias - F.fractionBits + 1 + d.fraction.val.log2 : ℕ) : ℤ) - G.bias -
      G.fractionBits =
        ((d.fraction.val.log2 : ℤ) - G.fractionBits) + (1 - F.bias - F.fractionBits) := by
    omega
  unfold widen
  rw [dif_neg hmax, if_pos hexponent, dif_neg hzero]
  unfold magnitude
  simp only
  rw [if_neg (by omega), if_pos hexponent, hcast, hsplit, zpow_add₀ (by norm_num), ← mul_assoc,
    significand_mul G (fraction_lt h d)]

theorem magnitude_widen_normal (h : Widens F G) (d : Datum F)
    (hmax : d.exponent.val ≠ F.maxExponent) (hexponent : d.exponent.val ≠ 0) :
    (widen h d).magnitude = d.magnitude := by
  have hbias := h.bias_le
  have hle := h.fractionBits_le
  have hcast : (2 ^ G.fractionBits : ℚ) +
      ((d.fraction.val * 2 ^ (G.fractionBits - F.fractionBits) : ℕ)) =
        (2 ^ F.fractionBits + d.fraction.val) * 2 ^ ((G.fractionBits : ℤ) - F.fractionBits) := by
    rw [← Nat.cast_sub hle, zpow_natCast, add_mul, ← pow_add, Nat.add_sub_cancel' hle]
    push_cast
    rfl
  have hsplit : ((G.fractionBits : ℤ) - F.fractionBits) +
      (((G.bias - F.bias + d.exponent.val : ℕ) : ℤ) - G.bias - G.fractionBits) =
        (d.exponent.val : ℤ) - F.bias - F.fractionBits := by
    omega
  unfold widen
  rw [dif_neg hmax, if_neg hexponent]
  unfold magnitude
  simp only
  rw [if_neg (by omega), if_neg hexponent, hcast, mul_assoc, ← zpow_add₀ (by norm_num), hsplit]

theorem magnitude_widen_zero (h : Widens F G) (d : Datum F)
    (hmax : d.exponent.val ≠ F.maxExponent) (hexponent : d.exponent.val = 0)
    (hzero : d.fraction.val = 0) : (widen h d).magnitude = d.magnitude := by
  unfold widen
  rw [dif_neg hmax, if_pos hexponent, dif_pos hzero]
  unfold magnitude
  rw [if_pos hexponent, hzero]
  simp only [zero, if_true, Nat.cast_zero, zero_mul]

theorem magnitude_widen (h : Widens F G) (d : Datum F) (hmax : d.exponent.val ≠ F.maxExponent) :
    (widen h d).magnitude = d.magnitude := by
  by_cases hexponent : d.exponent.val = 0
  · by_cases hzero : d.fraction.val = 0
    · exact magnitude_widen_zero h d hmax hexponent hzero
    · exact magnitude_widen_subnormal h d hmax hexponent hzero
  · exact magnitude_widen_normal h d hmax hexponent

theorem widen_exponent_lt (h : Widens F G) (d : Datum F)
    (hmax : d.exponent.val ≠ F.maxExponent) : (widen h d).exponent.val < G.maxExponent := by
  have hnormal := normalExponent_lt h (exponent_lt_of_ne d hmax)
  unfold widen
  rw [dif_neg hmax]
  by_cases hexponent : d.exponent.val = 0
  · rw [if_pos hexponent]
    by_cases hzero : d.fraction.val = 0
    · rw [dif_pos hzero]
      exact (Nat.zero_le _).trans_lt hnormal
    · rw [dif_neg hzero]
      exact subnormalExponent_lt h d hmax hzero
  · rw [if_neg hexponent]
    exact hnormal

/-- The conversion is exact. -/
theorem value_widen (h : Widens F G) (d : Datum F) : (widen h d).value = d.value := by
  by_cases hmax : d.exponent.val = F.maxExponent
  · by_cases hzero : d.fraction.val = 0
    · have hwide : widen h d = infinity G d.negative := by
        unfold widen
        rw [dif_pos hmax, if_pos hzero]
      have hvalue : d.value = .infinite d.negative := by
        unfold value
        rw [if_pos hmax, if_pos hzero]
      rw [hwide, value_infinity, hvalue]
    · unfold widen value
      rw [dif_pos hmax, if_pos hmax]
      simp only [if_neg hzero, if_neg (quietFraction_ne_zero _), if_true]
  · unfold value
    rw [if_neg hmax, if_neg (widen_exponent_lt h d hmax).ne, widen_negative,
      magnitude_widen h d hmax]

end Datum

end Ieee754
