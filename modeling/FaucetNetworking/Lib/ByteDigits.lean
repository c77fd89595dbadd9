import Mathlib.Data.Nat.Digits.Defs

/-!
Numbers as bytes in memory. The digits of a number in base 256, least significant first,
and the image of an object, which is a fixed number of bytes.
-/
namespace ByteDigits

def digits (w n : ℕ) : List UInt8 := (List.range w).map fun i => UInt8.ofNat (n / 256 ^ i)

def ofDigits (bytes : List UInt8) : ℕ := Nat.ofDigits 256 (bytes.map UInt8.toNat)

theorem length_digits (w n : ℕ) : (digits w n).length = w := by
  rw [digits, List.length_map, List.length_range]

theorem digits_succ (w n : ℕ) :
    digits (w + 1) n = UInt8.ofNat n :: digits w (n / 256) := by
  have hshift : ∀ i, n / 256 ^ (i + 1) = n / 256 / 256 ^ i := by
    intro i
    rw [Nat.pow_succ', Nat.div_div_eq_div_mul]
  unfold digits
  rw [List.range_succ_eq_map, List.map_cons, List.map_map, Nat.pow_zero, Nat.div_one]
  simp only [Function.comp_def, Nat.succ_eq_add_one, hshift]

theorem ofDigits_cons (b : UInt8) (bytes : List UInt8) :
    ofDigits (b :: bytes) = b.toNat + 256 * ofDigits bytes := rfl

theorem ofDigits_append (front rest : List UInt8) :
    ofDigits (front ++ rest) = ofDigits front + 256 ^ front.length * ofDigits rest := by
  unfold ofDigits
  rw [List.map_append, Nat.ofDigits_append, List.length_map]

theorem ofDigits_lt (bytes : List UInt8) : ofDigits bytes < 256 ^ bytes.length := by
  have hdigits : ∀ d ∈ bytes.map UInt8.toNat, d < 256 := by
    intro d hd
    obtain ⟨b, -, rfl⟩ := List.mem_map.mp hd
    exact b.toNat_lt
  have hlt := Nat.ofDigits_lt_base_pow_length (show 1 < 256 by decide) hdigits
  rwa [List.length_map] at hlt

theorem ofDigits_digits (w n : ℕ) : ofDigits (digits w n) = n % 256 ^ w := by
  induction w generalizing n with
  | zero => rw [Nat.pow_zero, Nat.mod_one]; rfl
  | succ w ih =>
    have hbyte : (UInt8.ofNat n).toNat = n % 256 := UInt8.toNat_ofNat'
    rw [digits_succ, ofDigits_cons, ih, hbyte, Nat.pow_succ', Nat.mod_mul]

theorem digits_ofDigits (bytes : List UInt8) :
    digits bytes.length (ofDigits bytes) = bytes := by
  induction bytes with
  | nil => rfl
  | cons b bytes ih =>
    have hb := b.toNat_lt
    have hlow : UInt8.ofNat (b.toNat + 256 * ofDigits bytes) = b := by
      apply UInt8.toNat_inj.mp
      rw [UInt8.toNat_ofNat']
      omega
    have hhigh : (b.toNat + 256 * ofDigits bytes) / 256 = ofDigits bytes := by omega
    rw [List.length_cons, digits_succ, ofDigits_cons, hlow, hhigh, ih]

/-- The memory of an object that takes n bytes. -/
@[ext] structure Image (n : ℕ) where
  bytes : List UInt8
  length_eq : bytes.length = n

namespace Image

variable {n : ℕ}

/-- How a number is stored, with the least significant byte first. -/
def encode (n value : ℕ) : Image n := ⟨digits n value, length_digits n value⟩

def decode (i : Image n) : ℕ := ofDigits i.bytes

def reverse (i : Image n) : Image n := ⟨i.bytes.reverse, by rw [List.length_reverse, i.length_eq]⟩

/-- The memory after bytes have been copied to its beginning. -/
def overwrite (i : Image n) (bytes : List UInt8) : Image n where
  bytes := (bytes ++ i.bytes.drop bytes.length).take n
  length_eq := by
    rw [List.length_take, List.length_append, List.length_drop, i.length_eq]
    omega

theorem decode_lt (i : Image n) : i.decode < 256 ^ n := by
  have hlt := ofDigits_lt i.bytes
  rwa [i.length_eq] at hlt

theorem decode_encode {value : ℕ} (h : value < 256 ^ n) : (encode n value).decode = value := by
  change ofDigits (digits n value) = value
  rw [ofDigits_digits, Nat.mod_eq_of_lt h]

theorem decode_injective {i j : Image n} (h : i.decode = j.decode) : i = j := by
  apply Image.ext
  rw [← digits_ofDigits i.bytes, ← digits_ofDigits j.bytes, i.length_eq, j.length_eq]
  exact congrArg (digits n) h

theorem reverse_reverse (i : Image n) : i.reverse.reverse = i :=
  Image.ext (List.reverse_reverse i.bytes)

theorem overwrite_bytes (i : Image n) {bytes : List UInt8} (h : bytes.length ≤ n) :
    (i.overwrite bytes).bytes = bytes ++ i.bytes.drop bytes.length := by
  apply List.take_of_length_le
  rw [List.length_append, List.length_drop, i.length_eq]
  omega

/-- When fewer bytes are copied, the last byte of the memory stays. -/
theorem exists_overwrite_eq {bytes : List UInt8} (h : bytes.length < n) :
    ∃ front, ∀ b, ∃ i : Image n, (i.overwrite bytes).bytes = front ++ [b] := by
  refine ⟨bytes ++ List.replicate (n - 1 - bytes.length) 0, ?_⟩
  intro b
  refine ⟨⟨List.replicate (n - 1) 0 ++ [b], ?_⟩, ?_⟩
  · rw [List.length_append, List.length_replicate, List.length_singleton]
    omega
  · rw [overwrite_bytes _ h.le]
    simp only
    rw [List.drop_append_of_le_length (by rw [List.length_replicate]; omega), List.drop_replicate,
      List.append_assoc]

/-- Nothing is left of the old memory when all of it is overwritten. -/
theorem overwrite_of_length_eq (i : Image n) {bytes : List UInt8} (h : bytes.length = n) :
    i.overwrite bytes = ⟨bytes, h⟩ := by
  apply Image.ext
  rw [overwrite_bytes i h.le, h, List.drop_eq_nil_of_le i.length_eq.le, List.append_nil]

end Image

end ByteDigits
