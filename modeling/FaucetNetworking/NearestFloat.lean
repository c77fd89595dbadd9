import FaucetNetworking.Lib.Ieee754Narrow
import FaucetNetworking.TypedAccess

/-!
The float that is stored for a double. The conversion rounds, and what is beyond the largest
floats, the infinities included, becomes one of them.
-/
namespace FaucetNetworking

open Ieee754 ByteDigits

/-- The conversion with the float as its target type. -/
def clippedFloat (value : Datum binary64) : Datum binary32 :=
  if value.value.le (Datum.maxFinite binary32 true).value then Datum.maxFinite binary32 true
  else if (Datum.maxFinite binary32 false).value.le value.value then Datum.maxFinite binary32 false
  else value.narrow binary32

def ReadWritable.writeFloat {δ : Type*} (rw : ReadWritable δ) (r : ByteOrdered δ)
    (value : Datum binary64) : ByteOrdered δ :=
  rw.writeByteOrderAware r (Image.encode 4 (clippedFloat value).bits)

/-- The largest float. -/
def floatMax : ℚ := (Datum.maxFinite binary32 false).magnitude

theorem magnitude_maxFinite (negative : Bool) :
    (Datum.maxFinite binary32 negative).magnitude = floatMax := by
  unfold floatMax
  rw [Datum.magnitude_maxFinite, Datum.magnitude_maxFinite]

theorem value_maxFinite (negative : Bool) : (Datum.maxFinite binary32 negative).value =
    .finite (if negative then -floatMax else floatMax) := by
  rw [← magnitude_maxFinite negative]
  exact Datum.value_eq_finite_iff.mpr ⟨Datum.exponent_ofOrdinal negative _, rfl⟩

/-- Only what is between the largest floats is converted. -/
theorem clippedFloat_cases {value : Datum binary64} {v : ℚ} (hv : value.value = .finite v) :
    v ≤ -floatMax ∧ clippedFloat value = Datum.maxFinite binary32 true ∨
    floatMax ≤ v ∧ clippedFloat value = Datum.maxFinite binary32 false ∨
    |v| < floatMax ∧ clippedFloat value = value.narrow binary32 := by
  unfold clippedFloat
  rw [hv, value_maxFinite, value_maxFinite, if_pos rfl, if_neg Bool.false_ne_true]
  simp only [Value.le, decide_eq_true_eq]
  by_cases hlow : v ≤ -floatMax
  · exact .inl ⟨hlow, if_pos hlow⟩
  · rw [if_neg hlow]
    by_cases hhigh : floatMax ≤ v
    · exact .inr (.inl ⟨hhigh, if_pos hhigh⟩)
    · rw [if_neg hhigh]
      exact .inr (.inr ⟨abs_lt.mpr ⟨not_le.mp hlow, not_le.mp hhigh⟩, rfl⟩)

theorem isNearest_clippedFloat {value : Datum binary64} {v : ℚ} (hv : value.value = .finite v) :
    (clippedFloat value).IsNearest v := by
  rcases clippedFloat_cases hv with ⟨hlow, heq⟩ | ⟨hhigh, heq⟩ | ⟨hlt, heq⟩
  · rw [heq]
    apply Datum.isNearest_maxFinite true
    rw [magnitude_maxFinite, if_pos rfl]
    linarith
  · rw [heq]
    apply Datum.isNearest_maxFinite false
    rw [magnitude_maxFinite, if_neg Bool.false_ne_true]
    exact hhigh
  · rw [heq]
    exact Datum.isNearest_narrow (by decide) hv (hlt.trans_eq (magnitude_maxFinite false).symm)

/-- Equal values, such as the two zeros, are stored with equal values. -/
theorem value_clippedFloat_congr {c d : Datum binary64} {v : ℚ} (hc : c.value = .finite v)
    (hd : d.value = .finite v) : (clippedFloat c).value = (clippedFloat d).value := by
  by_cases hlt : |v| < floatMax
  · rcases clippedFloat_cases hc with ⟨hlow, -⟩ | ⟨hhigh, -⟩ | ⟨-, heqc⟩
    · linarith [(abs_lt.mp hlt).1]
    · linarith [(abs_lt.mp hlt).2]
    · rcases clippedFloat_cases hd with ⟨hlow, -⟩ | ⟨hhigh, -⟩ | ⟨-, heqd⟩
      · linarith [(abs_lt.mp hlt).1]
      · linarith [(abs_lt.mp hlt).2]
      · rw [heqc, heqd]
        exact Datum.value_narrow_congr (by decide) hc hd
          (hlt.trans_eq (magnitude_maxFinite false).symm)
  · have hsame : clippedFloat c = clippedFloat d := by
      unfold clippedFloat
      rw [hc, hd, value_maxFinite, value_maxFinite, if_pos rfl, if_neg Bool.false_ne_true]
      simp only [Value.le, decide_eq_true_eq]
      by_cases hlow : v ≤ -floatMax
      · rw [if_pos hlow, if_pos hlow]
      · have hhigh : floatMax ≤ v := by
          by_contra hhigh
          exact hlt (abs_lt.mpr ⟨not_le.mp hlow, not_le.mp hhigh⟩)
        rw [if_neg hlow, if_neg hlow, if_pos hhigh, if_pos hhigh]
    rw [hsame]

theorem clippedFloat_infinite {value : Datum binary64} {negative : Bool}
    (h : value.value = .infinite negative) :
    clippedFloat value = Datum.maxFinite binary32 negative := by
  unfold clippedFloat
  rw [h, value_maxFinite, value_maxFinite]
  cases negative <;> rfl

theorem clippedFloat_nan {value : Datum binary64} (h : value.value = .nan) :
    (clippedFloat value).value = .nan := by
  have hnarrow := Datum.value_narrow_nan (G := binary32) (by decide) h
  unfold clippedFloat
  rw [h, value_maxFinite, value_maxFinite]
  exact hnarrow

theorem floatMax_pos : 0 < floatMax := by
  unfold floatMax
  rw [Datum.magnitude_maxFinite]
  exact mul_pos (mul_pos (by norm_num [binary32]) (by positivity)) binary32.quantum_pos

/-- A float that was widened is converted back to itself. -/
theorem clippedFloat_widen {f : Datum binary32} (hf : f.exponent.val ≠ binary32.maxExponent) :
    clippedFloat (f.widen binary32_widens_binary64) = f := by
  have hpos := floatMax_pos
  have hnonneg := f.magnitude_nonneg
  have hle : f.magnitude ≤ floatMax := Datum.magnitude_le_maxFinite hf false
  have hvalue : (f.widen binary32_widens_binary64).value = .finite f.number := by
    rw [Datum.value_widen]
    exact Datum.value_eq_finite_iff.mpr ⟨hf, rfl⟩
  have hextreme : ∀ negative, f.negative = negative → f.magnitude = floatMax →
      Datum.maxFinite binary32 negative = f := by
    intro negative hnegative hmagnitude
    refine Datum.eq_of_ordinal_eq hnegative.symm (Datum.ordinal_eq_of_magnitude_eq ?_)
    rw [magnitude_maxFinite, hmagnitude]
  rcases clippedFloat_cases hvalue with ⟨hlow, heq⟩ | ⟨hhigh, heq⟩ | ⟨-, heq⟩
  · rw [heq]
    unfold Datum.number at hlow
    cases hnegative : f.negative with
    | false =>
      rw [hnegative, if_neg Bool.false_ne_true] at hlow
      linarith
    | true =>
      rw [hnegative, if_pos rfl] at hlow
      exact hextreme true hnegative (le_antisymm hle (neg_le_neg_iff.mp hlow))
  · rw [heq]
    unfold Datum.number at hhigh
    cases hnegative : f.negative with
    | false =>
      rw [hnegative, if_neg Bool.false_ne_true] at hhigh
      exact hextreme false hnegative (le_antisymm hle hhigh)
    | true =>
      rw [hnegative, if_pos rfl] at hhigh
      linarith
  · rw [heq]
    exact Datum.narrow_widen binary32_widens_binary64 hf

/-- The nearest floats are ordered as the doubles are. -/
theorem clippedFloat_mono {c d : Datum binary64} {v w p q : ℚ} (hc : c.value = .finite v)
    (hd : d.value = .finite w) (hle : v ≤ w) (hp : (clippedFloat c).value = .finite p)
    (hq : (clippedFloat d).value = .finite q) : p ≤ q := by
  rcases hle.lt_or_eq with hlt | rfl
  · exact (isNearest_clippedFloat hc).mono (isNearest_clippedFloat hd) hp hq hlt
  · rw [value_clippedFloat_congr hc hd, hq] at hp
    exact (Value.finite.inj hp).symm.le

variable {δ : Type*} (rw : ReadWritable δ)

/-- The memory of a float that has the bits of an image. -/
theorem encode_bits_ofBits (image : Image 4) :
    Image.encode 4 (Datum.ofBits binary32 image.decode).bits = image := by
  have hwidth : (256 : ℕ) ^ 4 = 2 ^ binary32.width := by decide
  have hlt := image.decode_lt
  rw [Datum.bits_ofBits (hwidth ▸ hlt)]
  exact Image.decode_injective (Image.decode_encode hlt)

/-- A float that is read is written back, with all its bytes. -/
theorem ReadWritable.writeFloat_readValue (read : δ → ℕ → List UInt8 × δ)
    (r s : ByteOrdered δ) (buffer : Image ReadType.float.sizeof)
    (horder : s.littleEndian = r.littleEndian) {v : ℚ}
    (hv : (readValue read .float r buffer).1.value = .finite v) :
    rw.writeFloat s (readValue read .float r buffer).1 = ⟨s.littleEndian,
      rw.write s.object (buffer.overwrite (read r.object ReadType.float.sizeof).1).bytes⟩ := by
  let image : Image ReadType.float.sizeof :=
    inByteOrder r.littleEndian (buffer.overwrite (read r.object ReadType.float.sizeof).1)
  have hread : (readValue read .float r buffer).1 =
      (Datum.ofBits binary32 image.decode).widen binary32_widens_binary64 := rfl
  rw [hread, Datum.value_widen] at hv
  obtain ⟨hfinite, -⟩ := Datum.value_eq_finite_iff.mp hv
  have hbytes : inByteOrder s.littleEndian image =
      buffer.overwrite (read r.object ReadType.float.sizeof).1 := by
    rw [horder]
    exact inByteOrder_inByteOrder _ _
  have hstored : rw.writeByteOrderAware s
      (Image.encode 4 (Datum.ofBits binary32 image.decode).bits) =
        rw.writeByteOrderAware s image := congrArg _ (encode_bits_ofBits image)
  unfold writeFloat
  rw [hread, clippedFloat_widen hfinite, hstored]
  unfold writeByteOrderAware
  rw [hbytes]

/-- For a finite value the nearest float is stored, the one with even bits of two that are as
near; so the stored floats grow with the values. An infinity is stored as the largest float of
its sign, and a NaN as a NaN. A finite float that was read is stored again as it was. -/
theorem writes_nearest_float :
    (∀ (r : ByteOrdered δ) (value : Datum binary64) (v : ℚ), value.value = .finite v →
      ∃ f : Datum binary32, f.IsNearest v ∧
        rw.writeFloat r value = rw.writeByteOrderAware r (Image.encode 4 f.bits)) ∧
    (∀ (c d : Datum binary64) (v w p q : ℚ), c.value = .finite v → d.value = .finite w → v ≤ w →
      (clippedFloat c).value = .finite p → (clippedFloat d).value = .finite q → p ≤ q) ∧
    (∀ (r : ByteOrdered δ) (value : Datum binary64) (negative : Bool),
      value.value = .infinite negative → rw.writeFloat r value =
        rw.writeByteOrderAware r (Image.encode 4 (Datum.maxFinite binary32 negative).bits)) ∧
    (∀ (r : ByteOrdered δ) (value : Datum binary64), value.value = .nan →
      ∃ f : Datum binary32, f.value = .nan ∧
        rw.writeFloat r value = rw.writeByteOrderAware r (Image.encode 4 f.bits)) ∧
    ∀ (read : δ → ℕ → List UInt8 × δ) (r s : ByteOrdered δ) (buffer : Image ReadType.float.sizeof)
      (v : ℚ), s.littleEndian = r.littleEndian →
        (ReadWritable.readValue read .float r buffer).1.value = .finite v →
        rw.writeFloat s (ReadWritable.readValue read .float r buffer).1 = ⟨s.littleEndian,
          rw.write s.object (buffer.overwrite (read r.object ReadType.float.sizeof).1).bytes⟩ := by
  refine ⟨?_, ?_, ?_, ?_, ?_⟩
  · intro r value v hv
    exact ⟨clippedFloat value, isNearest_clippedFloat hv, rfl⟩
  · intro c d v w p q hc hd hle
    exact clippedFloat_mono hc hd hle
  · intro r value negative h
    unfold ReadWritable.writeFloat
    rw [clippedFloat_infinite h]
  · intro r value h
    exact ⟨clippedFloat value, clippedFloat_nan h, rfl⟩
  · intro read r s buffer v horder hv
    exact rw.writeFloat_readValue read r s buffer horder hv

/-- A tenth, which neither format has. -/
example : clippedFloat (Datum.ofBits binary64 0x3fb999999999999a) =
    Datum.ofBits binary32 0x3dcccccd := by decide +kernel

end FaucetNetworking
