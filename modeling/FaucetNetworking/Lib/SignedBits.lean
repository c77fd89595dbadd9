import Mathlib.Algebra.Order.Ring.Int
import Mathlib.Data.Nat.Notation

/-!
Single bits of a machine integer in two's complement. An integer is in a range around zero
if and only if the bits above are all equal to its sign, so that writing a bit below leaves
it there.
-/
namespace SignedBits

variable {w : ℕ}

def writeBit (v : BitVec w) (i : ℕ) (bit : Bool) : BitVec w :=
  if bit then v ||| 1#w <<< i else v &&& ~~~(1#w <<< i)

theorem getLsbD_mask {i : ℕ} (h : i < w) (j : ℕ) : (1#w <<< i).getLsbD j = decide (i = j) := by
  rw [← BitVec.twoPow_eq, BitVec.getLsbD_twoPow, decide_eq_true h, Bool.true_and]

/-- The bit that was written is read, and the others are as before. -/
theorem getLsbD_writeBit (v : BitVec w) {i : ℕ} (h : i < w) (bit : Bool) (j : ℕ) :
    (writeBit v i bit).getLsbD j = if i = j then bit else v.getLsbD j := by
  unfold writeBit
  by_cases hj : i = j
  · subst j
    rw [if_pos rfl]
    cases bit with
    | true => rw [if_pos rfl, BitVec.getLsbD_or, getLsbD_mask h, decide_eq_true rfl, Bool.or_true]
    | false =>
      rw [if_neg Bool.false_ne_true, BitVec.getLsbD_and, BitVec.getLsbD_not, getLsbD_mask h,
        decide_eq_true (rfl : i = i), Bool.not_true, Bool.and_false, Bool.and_false]
  · rw [if_neg hj]
    cases bit with
    | true =>
      rw [if_pos rfl, BitVec.getLsbD_or, getLsbD_mask h, decide_eq_false hj, Bool.or_false]
    | false =>
      rw [if_neg Bool.false_ne_true, BitVec.getLsbD_and, BitVec.getLsbD_not, getLsbD_mask h,
        decide_eq_false hj, Bool.not_false, Bool.and_true]
      by_cases hw : j < w
      · rw [decide_eq_true hw, Bool.and_true]
      · rw [BitVec.getLsbD_of_ge v j (not_lt.mp hw), Bool.false_and]

/-- A mask tells whether the bit is set. -/
theorem and_mask_ne_zero_iff (v : BitVec w) {i : ℕ} (h : i < w) :
    v &&& 1#w <<< i ≠ 0#w ↔ v.getLsbD i = true := by
  have hbit : ∀ j, (v &&& 1#w <<< i).getLsbD j = (v.getLsbD j && decide (i = j)) := by
    intro j
    rw [BitVec.getLsbD_and, getLsbD_mask h]
  constructor
  · intro hne
    by_contra hunset
    apply hne
    apply BitVec.eq_of_getLsbD_eq
    intro j hj
    rw [hbit, BitVec.getLsbD_zero]
    by_cases heq : i = j
    · subst j
      rw [Bool.not_eq_true] at hunset
      rw [hunset, Bool.false_and]
    · rw [decide_eq_false heq, Bool.and_false]
  · intro hset hzero
    have hread := hbit i
    rw [hzero, hset, BitVec.getLsbD_zero, decide_eq_true rfl] at hread
    exact absurd hread Bool.false_ne_true

/-- The last value written counts. -/
theorem writeBit_writeBit_self (v : BitVec w) {i : ℕ} (h : i < w) (a b : Bool) :
    writeBit (writeBit v i a) i b = writeBit v i b := by
  apply BitVec.eq_of_getLsbD_eq
  intro j hj
  rw [getLsbD_writeBit _ h, getLsbD_writeBit _ h, getLsbD_writeBit _ h]
  by_cases heq : i = j
  · rw [if_pos heq, if_pos heq]
  · rw [if_neg heq, if_neg heq, if_neg heq]

theorem writeBit_comm (v : BitVec w) {i j : ℕ} (hi : i < w) (hj : j < w) (hne : i ≠ j)
    (a b : Bool) : writeBit (writeBit v i a) j b = writeBit (writeBit v j b) i a := by
  apply BitVec.eq_of_getLsbD_eq
  intro k hk
  rw [getLsbD_writeBit _ hj, getLsbD_writeBit _ hi, getLsbD_writeBit _ hi,
    getLsbD_writeBit _ hj]
  by_cases hik : i = k
  · subst k
    rw [if_neg hne.symm, if_pos rfl, if_pos rfl]
  · rw [if_neg hik, if_neg hik]

/-! ### The range -/

/-- The bits from m on are the sign. -/
def SignExtended (m : ℕ) (v : BitVec w) : Prop :=
  ∀ k, m ≤ k → k < w → v.getLsbD k = v.msb

theorem toNat_lt_iff (v : BitVec w) (m : ℕ) :
    v.toNat < 2 ^ m ↔ ∀ k, m ≤ k → k < w → v.getLsbD k = false := by
  constructor
  · intro hlt k hk _
    have hpow : 2 ^ m ≤ 2 ^ k := Nat.pow_le_pow_right Nat.two_pos hk
    exact Nat.testBit_lt_two_pow (hlt.trans_le hpow)
  · intro hbits
    apply Nat.lt_pow_two_of_testBit
    intro k hk
    by_cases hw : k < w
    · exact hbits k hk hw
    · exact BitVec.getLsbD_of_ge v k (not_lt.mp hw)

/-- A negative integer is looked at through its complement. -/
theorem toInt_bounds_iff (v : BitVec w) (m : ℕ) :
    -(2 ^ m : ℤ) ≤ v.toInt ∧ v.toInt < 2 ^ m ↔ SignExtended m v := by
  have hlt := v.isLt
  have hpos := Nat.two_pow_pos m
  have hcast : (2 ^ m : ℤ) = (2 ^ m : ℕ) := (Nat.cast_pow 2 m).symm
  have htoInt := v.toInt_eq_msb_cond
  rw [hcast]
  cases hmsb : v.msb with
  | false =>
    rw [hmsb, if_neg Bool.false_ne_true] at htoInt
    have hextended : SignExtended m v ↔ v.toNat < 2 ^ m := by
      rw [toNat_lt_iff, SignExtended, hmsb]
    rw [hextended, htoInt]
    omega
  | true =>
    rw [hmsb, if_pos rfl] at htoInt
    have hextended : SignExtended m v ↔ (~~~v).toNat < 2 ^ m := by
      rw [toNat_lt_iff, SignExtended, hmsb]
      refine forall_congr' fun k => imp_congr_right fun _ => forall_congr' fun hk => ?_
      rw [BitVec.getLsbD_not, decide_eq_true hk, Bool.true_and, Bool.not_eq_false']
    rw [hextended, BitVec.toNat_not, htoInt]
    omega

/-- A bit that is not the sign is written. -/
theorem msb_writeBit (v : BitVec w) {i : ℕ} (h : i + 1 < w) (bit : Bool) :
    (writeBit v i bit).msb = v.msb := by
  have hne : i ≠ w - 1 := by omega
  rw [BitVec.msb_eq_getLsbD_last, BitVec.msb_eq_getLsbD_last,
    getLsbD_writeBit v (Nat.lt_of_succ_lt h), if_neg hne]

theorem SignExtended.writeBit {m : ℕ} {v : BitVec w} (h : SignExtended m v) (hm : m < w)
    {i : ℕ} (hi : i < m) (bit : Bool) : SignExtended m (writeBit v i bit) := by
  intro k hk hw
  rw [msb_writeBit v (by omega), getLsbD_writeBit v (by omega), if_neg (by omega)]
  exact h k hk hw

end SignedBits
