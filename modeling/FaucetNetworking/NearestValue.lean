import FaucetNetworking.Lib.Nearest
import FaucetNetworking.TypedAccess

/-!
The integer that is stored for a double. It is rounded before it is compared with the limits
of the type, but what is stored is the nearest integer that the type has.
-/
namespace FaucetNetworking

open Ieee754 ByteDigits Nearest

/-- Rounding a finite value. -/
theorem round_finite (v : ℚ) : (Value.finite v).round = .finite (roundAway v) := by
  unfold Value.round roundAway
  by_cases hneg : v < 0
  · simp only [if_pos hneg]
  · simp only [if_neg hneg]

namespace IntType

variable (t : IntType)

/-- The integer that writeIntValue stores. -/
def converted (value : Value) : Option t.Element := t.clippedCast value.round

/-- An integer is clipped to the limits of the type. -/
theorem exists_clippedCast_intCast (n : ℤ) : ∃ e : t.Element,
    t.clippedCast (.finite n) = some e ∧
    e.val = if n ≤ t.lowest then t.lowest else if t.max ≤ n then t.max else n := by
  unfold clippedCast
  simp only [Value.le, decide_eq_true_eq, Int.cast_le]
  by_cases hlow : n ≤ t.lowest
  · rw [if_pos hlow]
    exact ⟨_, rfl, (if_pos hlow).symm⟩
  · rw [if_neg hlow, if_neg hlow]
    by_cases hhigh : t.max ≤ n
    · rw [if_pos hhigh]
      exact ⟨_, rfl, (if_pos hhigh).symm⟩
    · rw [if_neg hhigh, if_neg hhigh]
      exact ⟨_, t.staticCast_intCast ⟨n, (not_le.mp hlow).le, (not_le.mp hhigh).le⟩, rfl⟩

/-- Every finite value is converted, to the nearest integer of the type. -/
theorem exists_converted (v : ℚ) : ∃ n : t.Element,
    t.converted (.finite v) = some n ∧ IsNearest t.lowest t.max v n.val := by
  obtain ⟨n, hn, hval⟩ := t.exists_clippedCast_intCast (roundAway v)
  refine ⟨n, ?_, ?_⟩
  · unfold converted
    rw [round_finite, hn]
  · rw [hval]
    exact isNearest_of_clipped t.lowest_le_max v

theorem isNearest_of_converted {v : ℚ} {n : t.Element} (h : t.converted (.finite v) = some n) :
    IsNearest t.lowest t.max v n.val := by
  obtain ⟨m, hm, hnearest⟩ := t.exists_converted v
  obtain rfl := Option.some.inj (hm.symm.trans h)
  exact hnearest

theorem store_load (image : Image t.size) : t.store (t.load image) = image :=
  t.load_injective (t.load_store (t.load image))

end IntType

variable {δ : Type*} (rw : ReadWritable δ) (t : IntType)

/-- What is read is written back, with all its bytes. -/
theorem ReadWritable.writeIntValue_readValue (read : δ → ℕ → List UInt8 × δ)
    (r s : ByteOrdered δ) (buffer : Image t.size) (horder : s.littleEndian = r.littleEndian) :
    ∃ n : t.Element, (readValue read (.int t) r buffer).1.value = .finite n.val ∧
      rw.writeIntValue t s (readValue read (.int t) r buffer).1 =
        some ⟨s.littleEndian,
          rw.write s.object (buffer.overwrite (read r.object t.size).1).bytes⟩ := by
  let image : Image t.size :=
    inByteOrder r.littleEndian (buffer.overwrite (read r.object t.size).1)
  have hvalue : (readValue read (.int t) r buffer).1.value = .finite (t.load image).val :=
    t.value_toDouble (t.load image)
  refine ⟨t.load image, hvalue, ?_⟩
  rw [rw.writeIntValue_eq t s hvalue, t.store_load]
  unfold writeByteOrderAware
  rw [horder, inByteOrder_inByteOrder]

/-- For a finite value the nearest integer of the type is stored, the one further from zero
of two that are as near; so the stored integers grow with the values, and what was read with
the type is stored again. -/
theorem writes_nearest_value :
    (∀ (r : ByteOrdered δ) (value : Datum binary64) (v : ℚ), value.value = .finite v →
      ∃ n : t.Element, t.converted (.finite v) = some n ∧
        rw.writeIntValue t r value = some (rw.writeByteOrderAware r (t.store n))) ∧
    (∀ v : ℚ, ∃ n : t.Element, t.converted (.finite v) = some n ∧
      ∀ m : t.Element, IsNearest t.lowest t.max v m.val ↔ m = n) ∧
    (∀ (v w : ℚ) (n m : t.Element), v ≤ w → t.converted (.finite v) = some n →
      t.converted (.finite w) = some m → n.val ≤ m.val) ∧
    ∀ (read : δ → ℕ → List UInt8 × δ) (r s : ByteOrdered δ) (buffer : Image t.size),
      s.littleEndian = r.littleEndian → ∃ n : t.Element,
        (ReadWritable.readValue read (.int t) r buffer).1.value = .finite n.val ∧
        rw.writeIntValue t s (ReadWritable.readValue read (.int t) r buffer).1 =
          some ⟨s.littleEndian,
            rw.write s.object (buffer.overwrite (read r.object t.size).1).bytes⟩ := by
  refine ⟨?_, ?_, ?_, rw.writeIntValue_readValue t⟩
  · intro r value v hvalue
    obtain ⟨n, hn, -⟩ := t.exists_converted v
    refine ⟨n, hn, ?_⟩
    unfold ReadWritable.writeIntValue
    unfold IntType.converted at hn
    rw [hvalue, hn]
    rfl
  · intro v
    obtain ⟨n, hn, hnearest⟩ := t.exists_converted v
    refine ⟨n, hn, ?_⟩
    intro m
    constructor
    · intro hm
      exact Subtype.ext (hm.unique hnearest)
    · rintro rfl
      exact hnearest
  · intro v w n m hle hn hm
    exact (t.isNearest_of_converted hn).mono (t.isNearest_of_converted hm) hle

end FaucetNetworking
