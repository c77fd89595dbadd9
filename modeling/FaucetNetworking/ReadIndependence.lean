import FaucetNetworking.Tcp.Connection
import FaucetNetworking.TypedAccess
import FaucetNetworking.Udp.Socket

/-!
What a value that is read depends on. The local variable of readValue is not initialised,
and read overwrites only as many of its bytes as there are. The rest is in the value, at
its most significant end or at its least significant one, as the byte order may be.
-/
namespace FaucetNetworking

namespace Buffer

/-- The read position is in the buffer or at its end. -/
def Positioned (b : Buffer) : Prop := b.readIndex ≤ b.data.length

theorem Positioned.bytesRemaining_eq {b : Buffer} (h : b.Positioned) :
    b.bytesRemaining = b.data.length - b.readIndex := sizeSub_of_le h

/-- Nothing but the end of the buffer makes a read shorter. -/
theorem Positioned.length_read {b : Buffer} (h : b.Positioned) (size : ℕ) :
    (b.read size).1.length = min size b.bytesRemaining := by
  have hremaining := h.bytesRemaining_eq
  change ((b.data.drop b.readIndex).take (min size b.bytesRemaining)).length = _
  rw [List.length_take, List.length_drop]
  omega

/-- What the operations make of a new buffer. -/
inductive Reachable : Buffer → Prop where
  | new : Reachable Buffer.new
  | clear {b : Buffer} : Reachable b → Reachable b.clear
  | write {b : Buffer} (bytes : List UInt8) : Reachable b → Reachable (b.write bytes)
  | read {b : Buffer} (size : ℕ) : Reachable b → Reachable (b.read size).2
  | readString {b : Buffer} (size : ℕ) : Reachable b → Reachable (b.readString size).2
  | setReadpos {b : Buffer} (pos : ℕ) : Reachable b → Reachable (b.setReadpos pos)
  | prepareWrite {b : Buffer} (extraData : ℕ) : Reachable b → Reachable (b.prepareWrite extraData)

theorem Positioned.advance {b : Buffer} (h : b.Positioned) (size : ℕ) :
    b.readIndex + min size b.bytesRemaining ≤ b.data.length := by
  have hremaining := h.bytesRemaining_eq
  unfold Positioned at h
  omega

theorem Positioned.write {b : Buffer} (h : b.Positioned) (bytes : List UInt8) :
    (b.write bytes).Positioned := by
  unfold Positioned Buffer.write
  rw [List.length_append]
  exact Nat.le_add_right_of_le h

/-- A position behind the end becomes the end. -/
theorem positioned_setReadpos (b : Buffer) (pos : ℕ) : (b.setReadpos pos).Positioned := by
  unfold setReadpos
  by_cases hpos : pos ≤ b.data.length
  · rw [if_pos hpos]
    exact hpos
  · rw [if_neg hpos]
    exact Nat.le_refl _

theorem Reachable.positioned {b : Buffer} (h : b.Reachable) : b.Positioned := by
  induction h with
  | new => exact Nat.le_refl 0
  | clear _ _ => exact Nat.le_refl 0
  | write bytes _ ih => exact ih.write bytes
  | read size _ ih => exact ih.advance size
  | readString size _ ih => exact ih.advance size
  | setReadpos pos _ _ => exact positioned_setReadpos _ pos
  | prepareWrite extraData _ ih => exact ih

end Buffer

open Ieee754 ByteDigits

/-- The functions of a class derived from ReadWritable that reading needs, and what holds of
its objects. -/
structure ReadSource (δ : Type*) where
  read : δ → ℕ → List UInt8 × δ
  bytesRemaining : δ → ℕ
  Valid : δ → Prop
  length_read : ∀ d n, Valid d → (read d n).1.length = min n (bytesRemaining d)

def Buffer.readSource : ReadSource Buffer where
  read := Buffer.read
  bytesRemaining := Buffer.bytesRemaining
  Valid := Buffer.Positioned
  length_read := fun _ n h => h.length_read n

/-- A TCP socket reads from its receive buffer. -/
def TcpSocket.readSource : ReadSource TcpSession where
  read := TcpSocket.read
  bytesRemaining := fun s => s.socket.receiveBuffer.bytesRemaining
  Valid := fun s => s.socket.receiveBuffer.Positioned
  length_read := fun _ n h => h.length_read n

def UdpSession.readSource : ReadSource UdpSession where
  read := UdpSession.read
  bytesRemaining := fun s => (s.buffer s.socket.receiveBuffer).bytesRemaining
  Valid := fun s => (s.buffer s.socket.receiveBuffer).Positioned
  length_read := fun _ n h => h.length_read n

namespace ReadSource

variable {δ : Type*} (S : ReadSource δ)

/-- Two executions that differ in what the local variable held return the same. -/
def Independent (t : ReadType) (r : ByteOrdered δ) : Prop :=
  ∀ value value' : Image t.sizeof,
    (ReadWritable.readValue S.read t r value).1 = (ReadWritable.readValue S.read t r value').1

/-! ### Enough bytes -/

theorem independent_of_le (t : ReadType) {r : ByteOrdered δ} (hvalid : S.Valid r.object)
    (h : t.sizeof ≤ S.bytesRemaining r.object) : S.Independent t r := by
  have hlength : (S.read r.object t.sizeof).1.length = t.sizeof := by
    rw [S.length_read r.object t.sizeof hvalid, Nat.min_eq_left h]
  have hread : S.read r.object t.sizeof =
      ((⟨(S.read r.object t.sizeof).1, hlength⟩ : Image t.sizeof).bytes,
        (S.read r.object t.sizeof).2) := rfl
  intro value value'
  rw [ReadWritable.readValue_of_read S.read t r value hread,
    ReadWritable.readValue_of_read S.read t r value' hread]

/-! ### Too few bytes -/

theorem inByteOrder_injective {littleEndian : Bool} {n : ℕ} {i j : Image n}
    (h : inByteOrder littleEndian i = inByteOrder littleEndian j) : i = j := by
  rw [← inByteOrder_inByteOrder littleEndian i, h, inByteOrder_inByteOrder]

theorem toDouble_injective {t : IntType} {m n : t.Element} (h : t.toDouble m = t.toDouble n) :
    m = n := by
  have hvalue := congrArg Datum.value h
  rw [t.value_toDouble, t.value_toDouble, Value.finite.injEq, Int.cast_inj] at hvalue
  exact Subtype.ext hvalue

/-- In the byte order of the platform the last byte has the sign of a float. -/
theorem load_float_ne_of_sign {i j : Image ReadType.float.sizeof} {front : List UInt8}
    (hi : i.bytes = front ++ [0]) (hj : j.bytes = front ++ [128]) :
    ReadType.float.load i ≠ ReadType.float.load j := by
  have hlength : front.length = 3 := by
    have h : i.bytes.length = 4 := i.length_eq
    rw [hi, List.length_append, List.length_singleton] at h
    omega
  have hfront := ofDigits_lt front
  have hdecodei : i.decode = ofDigits front := by
    change ofDigits i.bytes = _
    rw [hi, ofDigits_append]
    rfl
  have hdecodej : j.decode = ofDigits front + 256 ^ 3 * 128 := by
    change ofDigits j.bytes = _
    rw [hj, ofDigits_append, hlength]
    rfl
  rw [hlength] at hfront
  intro h
  have hsign := congrArg Datum.negative h
  unfold ReadType.load at hsign
  rw [Datum.widen_negative, Datum.widen_negative, hdecodei, hdecodej] at hsign
  have hsame := decide_eq_decide.mp hsign
  simp only [binary32] at hsame
  omega

/-- In the other byte order the last byte has the end of the fraction of a float. -/
theorem load_float_ne_of_fraction {i j : Image ReadType.float.sizeof} {front : List UInt8}
    (hi : i.bytes = 0 :: front) (hj : j.bytes = 128 :: front) :
    ReadType.float.load i ≠ ReadType.float.load j := by
  have hdecodei : i.decode = 256 * ofDigits front := by
    change ofDigits i.bytes = _
    rw [hi, ofDigits_cons]
    exact Nat.zero_add _
  have hdecodej : j.decode = 128 + 256 * ofDigits front := by
    change ofDigits j.bytes = _
    rw [hj, ofDigits_cons]
    rfl
  intro h
  have hexponent : (Datum.ofBits binary32 i.decode).exponent =
      (Datum.ofBits binary32 j.decode).exponent := by
    apply Fin.ext
    simp only [Datum.ofBits, binary32, hdecodei, hdecodej]
    omega
  have hfraction := Datum.fraction_mod_eq_of_widen_eq binary32_widens_binary64 hexponent h
  simp only [Datum.ofBits, binary32, hdecodei, hdecodej] at hfraction
  omega

/-- The last byte of the memory is in the value, whichever end of it that is. -/
theorem load_ne (t : ReadType) (littleEndian : Bool) {i j : Image t.sizeof}
    {front : List UInt8} (hi : i.bytes = front ++ [0]) (hj : j.bytes = front ++ [128]) :
    t.load (inByteOrder littleEndian i) ≠ t.load (inByteOrder littleEndian j) := by
  have hne : i ≠ j := by
    rintro rfl
    rw [hi] at hj
    exact absurd (List.append_cancel_left hj) (by decide)
  cases t with
  | int t =>
    intro h
    exact hne (inByteOrder_injective (t.load_injective (toDouble_injective h)))
  | float =>
    cases littleEndian with
    | true => exact load_float_ne_of_sign hi hj
    | false =>
      apply @load_float_ne_of_fraction _ _ front.reverse
      · change i.bytes.reverse = _
        rw [hi, List.reverse_concat]
      · change j.bytes.reverse = _
        rw [hj, List.reverse_concat]
  | double =>
    intro h
    have hlt : ∀ k : Image 8, k.decode < 2 ^ binary64.width := fun k => k.decode_lt
    exact hne (inByteOrder_injective
      (Image.decode_injective (Datum.ofBits_injective (hlt _) (hlt _) h)))

theorem le_of_independent (t : ReadType) {r : ByteOrdered δ} (hvalid : S.Valid r.object)
    (h : S.Independent t r) : t.sizeof ≤ S.bytesRemaining r.object := by
  by_contra hshort
  have hlength : (S.read r.object t.sizeof).1.length < t.sizeof := by
    rw [S.length_read r.object t.sizeof hvalid]
    omega
  obtain ⟨front, hvalue⟩ := Image.exists_overwrite_eq hlength
  obtain ⟨i, hi⟩ := hvalue 0
  obtain ⟨j, hj⟩ := hvalue 128
  exact load_ne t r.littleEndian hi hj (h i j)

/-- A value depends on the object alone exactly when all of its bytes are there. -/
theorem independent_iff (t : ReadType) (r : ByteOrdered δ) (hvalid : S.Valid r.object) :
    S.Independent t r ↔ t.sizeof ≤ S.bytesRemaining r.object :=
  ⟨S.le_of_independent t hvalid, S.independent_of_le t hvalid⟩

theorem independent_iff_float_three :
    Buffer.readSource.Independent .float ⟨false, ⟨[1, 2, 3, 4, 5], 2⟩⟩ ↔ 4 ≤ 3 :=
  Buffer.readSource.independent_iff .float ⟨false, ⟨[1, 2, 3, 4, 5], 2⟩⟩
    (by change 2 ≤ 5; decide)

/-- From an empty buffer comes the byte that the local variable held. -/
theorem not_independent_new : ¬ Buffer.readSource.Independent (.int .uint8) ⟨true, Buffer.new⟩ := by
  intro h
  have hequal := h (Image.encode 1 0) (Image.encode 1 1)
  revert hequal
  decide

end ReadSource

end FaucetNetworking
