import FaucetNetworking.Buffer
import FaucetNetworking.Lib.ByteDigits
import FaucetNetworking.Lib.Ieee754Bits
import Mathlib.Tactic.Linarith

/-!
Numbers written to and read from buffers and sockets. Objects are stored with the least
significant byte first, as on the platform the project is built for, and are reversed
when the byte order of the buffer is the other one. A script passes and receives doubles.
-/
namespace FaucetNetworking

open Ieee754 ByteDigits

inductive IntType where
  | uint8
  | int8
  | uint16
  | int16
  | uint32
  | int32
  deriving DecidableEq, Repr

namespace IntType

def size : IntType → ℕ
  | .uint8 | .int8 => 1
  | .uint16 | .int16 => 2
  | .uint32 | .int32 => 4

def signed : IntType → Bool
  | .uint8 | .uint16 | .uint32 => false
  | .int8 | .int16 | .int32 => true

def lowest (t : IntType) : ℤ := if t.signed then -(2 ^ (8 * t.size - 1)) else 0

def max (t : IntType) : ℤ := if t.signed then 2 ^ (8 * t.size - 1) - 1 else 2 ^ (8 * t.size) - 1

/-- An integer that the type can hold. -/
abbrev Element (t : IntType) := { n : ℤ // t.lowest ≤ n ∧ n ≤ t.max }

variable (t : IntType)

/-- The conversion of a double; undefined when the type cannot hold the result. -/
def staticCast : Value → Option t.Element
  | .finite q =>
    let n := if q < 0 then ⌈q⌉ else ⌊q⌋
    if h : t.lowest ≤ n ∧ n ≤ t.max then some ⟨n, h⟩ else none
  | _ => none

theorem lowest_le_max : t.lowest ≤ t.max := by cases t <;> decide

def clippedCast (value : Value) : Option t.Element :=
  if value.le (.finite t.lowest) then some ⟨t.lowest, le_refl _, t.lowest_le_max⟩
  else if (Value.finite t.max).le value then some ⟨t.max, t.lowest_le_max, le_refl _⟩
  else t.staticCast value

/-- The bytes of an object of the type. -/
def store (n : t.Element) : Image t.size := Image.encode t.size (n.val % 256 ^ t.size).toNat

/-- The integer that a number below 256^size stands for in two's complement. -/
def interpret (n : ℕ) : ℤ := if t.signed then Int.bmod n (256 ^ t.size) else n

theorem interpret_bounds {n : ℕ} (h : n < 256 ^ t.size) :
    t.lowest ≤ t.interpret n ∧ t.interpret n ≤ t.max := by
  cases t <;>
    simp only [interpret, signed, lowest, max, size, if_true, if_false, Bool.false_eq_true,
      Int.bmod_def] at h ⊢ <;>
    omega

/-- The object that some bytes are the memory of. -/
def load (image : Image t.size) : t.Element :=
  ⟨t.interpret image.decode, t.interpret_bounds image.decode_lt⟩

theorem toNat_emod_lt (n : ℤ) : (n % 256 ^ t.size).toNat < 256 ^ t.size := by
  have hpos : (0 : ℤ) < 256 ^ t.size := by positivity
  have hlt := Int.emod_lt_of_pos n hpos
  zify
  rwa [Int.toNat_of_nonneg (Int.emod_nonneg n hpos.ne')]

/-- An object is read back from its bytes. -/
theorem load_store (n : t.Element) : t.load (t.store n) = n := by
  obtain ⟨n, hlow, hhigh⟩ := n
  apply Subtype.ext
  change t.interpret (Image.encode t.size (n % 256 ^ t.size).toNat).decode = n
  rw [Image.decode_encode (t.toNat_emod_lt n)]
  cases t <;>
    simp only [interpret, signed, lowest, max, size, if_true, if_false, Bool.false_eq_true,
      Int.bmod_def] at hlow hhigh ⊢ <;>
    omega

theorem load_injective {i j : Image t.size} (h : t.load i = t.load j) : i = j := by
  apply Image.decode_injective
  have hi := i.decode_lt
  have hj := j.decode_lt
  have hinterpret : t.interpret i.decode = t.interpret j.decode := congrArg Subtype.val h
  unfold interpret at hinterpret
  split at hinterpret
  · have hmod := congrArg (· % ((256 ^ t.size : ℕ) : ℤ)) hinterpret
    simp only [Int.bmod_emod] at hmod
    rw [Int.emod_eq_of_lt (by omega) (by exact_mod_cast hi),
      Int.emod_eq_of_lt (by omega) (by exact_mod_cast hj)] at hmod
    exact_mod_cast hmod
  · exact_mod_cast hinterpret

theorem staticCast_intCast (n : t.Element) : t.staticCast (.finite n.val) = some n := by
  unfold staticCast
  simp only [Int.ceil_intCast, Int.floor_intCast, ite_self]
  rw [dif_pos n.property]

/-- An integer of the type is not clipped. -/
theorem clippedCast_intCast (n : t.Element) : t.clippedCast (.finite n.val) = some n := by
  obtain ⟨n, hlow, hhigh⟩ := n
  unfold clippedCast
  simp only [Value.le, decide_eq_true_eq, Int.cast_le]
  by_cases hlowest : n ≤ t.lowest
  · rw [if_pos hlowest]
    simp only [le_antisymm hlow hlowest]
  · rw [if_neg hlowest]
    by_cases hmax : t.max ≤ n
    · rw [if_pos hmax]
      simp only [le_antisymm hmax hhigh]
    · rw [if_neg hmax]
      exact t.staticCast_intCast ⟨n, hlow, hhigh⟩

theorem natAbs_lt (n : t.Element) : n.val.natAbs < 2 ^ (binary64.fractionBits + 1) := by
  obtain ⟨n, hlow, hhigh⟩ := n
  cases t <;> simp only [signed, lowest, max, size, binary64] at hlow hhigh ⊢ <;> omega

/-- Every integer of these types is a double. -/
def toDouble (n : t.Element) : Datum binary64 := Datum.ofInt binary64 n.val (t.natAbs_lt n)

theorem value_toDouble (n : t.Element) : (t.toDouble n).value = .finite n.val :=
  Datum.value_ofInt binary64 (t.natAbs_lt n)

end IntType

/-- The types of which values are read. -/
inductive ReadType where
  | int (t : IntType)
  | float
  | double
  deriving DecidableEq, Repr

namespace ReadType

def sizeof : ReadType → ℕ
  | .int t => t.size
  | .float => 4
  | .double => 8

/-- The conversion to double of the object that some bytes are the memory of. -/
def load : (t : ReadType) → Image t.sizeof → Datum binary64
  | .int t, image => t.toDouble (t.load image)
  | .float, image => Datum.widen binary32_widens_binary64 (Datum.ofBits binary32 image.decode)
  | .double, image => Datum.ofBits binary64 image.decode

/-- A float is passed on with its value. -/
theorem value_load_float (image : Image ReadType.float.sizeof) :
    (ReadType.float.load image).value = (Datum.ofBits binary32 image.decode).value :=
  Datum.value_widen binary32_widens_binary64 _

end ReadType

/-- The byte order is a member of the base class, next to the object of the derived class. -/
structure ByteOrdered (δ : Type*) where
  littleEndian : Bool
  object : δ

/-- Bytes are reversed unless the order is the one of the platform. -/
def inByteOrder (littleEndian : Bool) {n : ℕ} (buffer : Image n) : Image n :=
  if !littleEndian then buffer.reverse else buffer

theorem inByteOrder_inByteOrder (littleEndian : Bool) {n : ℕ} (buffer : Image n) :
    inByteOrder littleEndian (inByteOrder littleEndian buffer) = buffer := by
  cases littleEndian with
  | false => exact buffer.reverse_reverse
  | true => rfl

namespace ReadWritable

variable {δ : Type*} (rw : ReadWritable δ)

def setLittleEndian (r : ByteOrdered δ) (littleEndian : Bool) : ByteOrdered δ :=
  { r with littleEndian := littleEndian }

def writeByteOrderAware {n : ℕ} (r : ByteOrdered δ) (buffer : Image n) : ByteOrdered δ :=
  { r with object := rw.write r.object (inByteOrder r.littleEndian buffer).bytes }

def writeIntValue (t : IntType) (r : ByteOrdered δ) (value : Datum binary64) :
    Option (ByteOrdered δ) :=
  (t.clippedCast value.value.round).map fun converted =>
    rw.writeByteOrderAware r (t.store converted)

def writeDouble (r : ByteOrdered δ) (value : Datum binary64) : ByteOrdered δ :=
  rw.writeByteOrderAware r (Image.encode 8 value.bits)

/-- The memory of the local variable has some content before it is read into; read is the
virtual function of that name. -/
def readValue (read : δ → ℕ → List UInt8 × δ) (t : ReadType) (r : ByteOrdered δ)
    (value : Image t.sizeof) : Datum binary64 × ByteOrdered δ :=
  let (bytes, object) := read r.object t.sizeof
  (t.load (inByteOrder r.littleEndian (value.overwrite bytes)), { r with object := object })

/-- A double whose value the type can hold is stored as it is. -/
theorem writeIntValue_eq (t : IntType) (r : ByteOrdered δ) {value : Datum binary64}
    {n : t.Element} (h : value.value = .finite n.val) :
    rw.writeIntValue t r value = some (rw.writeByteOrderAware r (t.store n)) := by
  unfold writeIntValue
  rw [h, Value.round_intCast, t.clippedCast_intCast]
  rfl

/-- When enough bytes are read, nothing of the local variable remains. -/
theorem readValue_of_read (read : δ → ℕ → List UInt8 × δ) (t : ReadType) (r : ByteOrdered δ)
    (value : Image t.sizeof) {image : Image t.sizeof} {object : δ}
    (h : read r.object t.sizeof = (image.bytes, object)) :
    readValue read t r value =
      (t.load (inByteOrder r.littleEndian image), { r with object := object }) := by
  unfold readValue
  rw [h]
  simp only
  rw [value.overwrite_of_length_eq image.length_eq]

end ReadWritable

end FaucetNetworking
