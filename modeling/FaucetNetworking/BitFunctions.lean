import FaucetNetworking.ClippedCast
import FaucetNetworking.Lib.SignedBits

/-!
The functions for single bits. They take and return doubles and work on a 64-bit integer in
between. Of an integer below 2^53 no bit is lost on the way, and writing one of its 53 lower
bits gives such an integer again.
-/
namespace FaucetNetworking

open Ieee754 SignedBits

/-- The integer 1, shifted as an int64_t. -/
def bitMask (intbitnum : ℤ) : BitVec 64 := 1#64 <<< intbitnum.toNat

/-- The comparison with one half, which a NaN is not above. -/
def isBitSet (value : Value) : Bool := (Value.finite (1 / 2)).le value

def bitGet (source bitnum : Value) : Option Value :=
  match clippedInt8 bitnum with
  | none => none
  | some intbitnum =>
    if intbitnum < 0 ∨ intbitnum > 63 then some (.finite 0)
    else
      match clippedInt64 source with
      | none => none
      | some intsource =>
        some (.finite (if BitVec.ofInt 64 intsource &&& bitMask intbitnum ≠ 0#64 then 1 else 0))

/-- The assigned integer is converted to double for the caller. -/
def bitSet (source bitnum value : Value) : Option Value :=
  match clippedInt8 bitnum with
  | none => none
  | some intbitnum =>
    if intbitnum < 0 ∨ intbitnum > 63 then some source
    else
      match clippedInt64 source with
      | none => none
      | some intsource =>
        let bits := BitVec.ofInt 64 intsource
        if isBitSet value then
          some (Value.ofInt binary64 (bits ||| bitMask intbitnum).toInt)
        else some (Value.ofInt binary64 (bits &&& ~~~bitMask intbitnum).toInt)

/-! ### Integers without a rounded conversion -/

/-- The integers of which all 53 lower bits and the sign are in a double. -/
def IsExact (x : ℤ) : Prop := -(2 ^ 53) ≤ x ∧ x < 2 ^ 53

theorem clippedInt8_natCast {i : ℕ} (h : i ≤ 52) : clippedInt8 (.finite i) = some (i : ℤ) := by
  have hcast := @clippedInt_intCast (-(2 ^ 7)) (2 ^ 7 - 1) (2 ^ 7 - 1) (by norm_num) i
    (by omega) (by omega)
  rw [Int.cast_natCast] at hcast
  exact hcast

theorem IsExact.clippedInt64_eq {x : ℤ} (h : IsExact x) : clippedInt64 (.finite x) = some x := by
  obtain ⟨hlow, hhigh⟩ := h
  exact clippedInt_intCast (by norm_num) (by omega) (by omega)

theorem IsExact.toInt_ofInt {x : ℤ} (h : IsExact x) : (BitVec.ofInt 64 x).toInt = x := by
  obtain ⟨hlow, hhigh⟩ := h
  exact BitVec.toInt_ofInt_eq_self (by decide) (by omega) (by omega)

theorem IsExact.ofInt_eq {x : ℤ} (h : IsExact x) : Value.ofInt binary64 x = .finite x := by
  obtain ⟨hlow, hhigh⟩ := h
  apply Value.ofInt_eq
  unfold binary64
  simp only
  omega

theorem isExact_iff (v : BitVec 64) : IsExact v.toInt ↔ SignExtended 53 v := toInt_bounds_iff v 53

/-- The integer after a bit has been written. -/
def written (x : ℤ) (i : ℕ) (bit : Bool) : ℤ := (writeBit (BitVec.ofInt 64 x) i bit).toInt

theorem ofInt_written (x : ℤ) (i : ℕ) (bit : Bool) :
    BitVec.ofInt 64 (written x i bit) = writeBit (BitVec.ofInt 64 x) i bit := BitVec.ofInt_toInt

theorem IsExact.written {x : ℤ} (h : IsExact x) {i : ℕ} (hi : i ≤ 52) (bit : Bool) :
    IsExact (written x i bit) := by
  rw [← h.toInt_ofInt, isExact_iff] at h
  exact (isExact_iff _).mpr (h.writeBit (by decide) (by omega) bit)

/-- The sign is kept. -/
theorem IsExact.written_neg_iff {x : ℤ} (h : IsExact x) {i : ℕ} (hi : i ≤ 52) (bit : Bool) :
    FaucetNetworking.written x i bit < 0 ↔ x < 0 := by
  have hmsb := msb_writeBit (BitVec.ofInt 64 x) (i := i) (by omega) bit
  rw [BitVec.msb_eq_toInt, BitVec.msb_eq_toInt, h.toInt_ofInt, decide_eq_decide] at hmsb
  exact hmsb

/-! ### The functions at these integers -/

theorem bitGet_eq {x : ℤ} (h : IsExact x) {i : ℕ} (hi : i ≤ 52) :
    bitGet (.finite x) (.finite i) =
      some (.finite (if (BitVec.ofInt 64 x).getLsbD i = true then 1 else 0)) := by
  have hbit := and_mask_ne_zero_iff (BitVec.ofInt 64 x) (i := i) (by omega)
  unfold bitGet bitMask
  simp only [clippedInt8_natCast hi, h.clippedInt64_eq]
  rw [if_neg (by omega), Int.toNat_natCast]
  simp only [hbit]

theorem bitSet_eq {x : ℤ} (h : IsExact x) {i : ℕ} (hi : i ≤ 52) (v : Value) :
    bitSet (.finite x) (.finite i) v = some (.finite (written x i (isBitSet v))) := by
  rw [← (h.written hi (isBitSet v)).ofInt_eq]
  unfold bitSet bitMask written writeBit
  simp only [clippedInt8_natCast hi, h.clippedInt64_eq]
  rw [if_neg (by omega), Int.toNat_natCast]
  cases isBitSet v with
  | true => rfl
  | false => rfl

/-- What holds of the integer that bit_set makes of another one: it is exact, its bits but
one and its sign are the old ones, the last value that is set counts, and other bits may be
set before or after. -/
structure ReadOverWrite (x : ℤ) (i : ℕ) (v : Value) (r : ℤ) : Prop where
  bitSet_eq : bitSet (.finite x) (.finite i) v = some (.finite r)
  isExact : IsExact r
  converted : Value.ofInt binary64 r = .finite r
  get_self : bitGet (.finite r) (.finite i) = some (.finite (if isBitSet v then 1 else 0))
  get_other : ∀ j ≤ 52, j ≠ i → bitGet (.finite r) (.finite j) = bitGet (.finite x) (.finite j)
  neg_iff : r < 0 ↔ x < 0
  set_set : ∀ w, bitSet (.finite r) (.finite i) w = bitSet (.finite x) (.finite i) w
  set_comm : ∀ j ≤ 52, j ≠ i → ∀ w, bitSet (.finite r) (.finite j) w =
    (bitSet (.finite x) (.finite j) w).bind fun s => bitSet s (.finite i) v

theorem bit_functions_read_over_write {x : ℤ} (hlow : -(2 ^ 53) ≤ x) (hhigh : x < 2 ^ 53)
    {i : ℕ} (hi : i ≤ 52) (v : Value) : ∃ r, ReadOverWrite x i v r := by
  have hx : IsExact x := ⟨hlow, hhigh⟩
  have hr : IsExact (written x i (isBitSet v)) := hx.written hi _
  refine ⟨written x i (isBitSet v), ?_⟩
  constructor
  case bitSet_eq => exact bitSet_eq hx hi v
  case isExact => exact hr
  case converted => exact hr.ofInt_eq
  case get_self =>
    rw [bitGet_eq hr hi, ofInt_written, getLsbD_writeBit _ (by omega), if_pos rfl]
  case get_other =>
    intro j hj hne
    rw [bitGet_eq hr hj, bitGet_eq hx hj, ofInt_written, getLsbD_writeBit _ (by omega),
      if_neg hne.symm]
  case neg_iff => exact hx.written_neg_iff hi _
  case set_set =>
    intro w
    rw [bitSet_eq hr hi, bitSet_eq hx hi]
    unfold written
    rw [BitVec.ofInt_toInt, writeBit_writeBit_self _ (by omega)]
  case set_comm =>
    intro j hj hne w
    rw [bitSet_eq hr hj, bitSet_eq hx hj, Option.bind_some, bitSet_eq (hx.written hj _) hi]
    unfold written
    rw [BitVec.ofInt_toInt, BitVec.ofInt_toInt,
      writeBit_comm _ (by omega) (by omega) hne.symm]

theorem bit_functions_read_over_write_negative :
    ∃ r, ReadOverWrite (-8) 0 (.finite 1) r :=
  bit_functions_read_over_write (by decide) (by decide) (by decide) (.finite 1)

end FaucetNetworking
