import FaucetNetworking.ReadIndependence

/-!
The cursor of a buffer: what is still to be read, and how reading takes it from the front.
-/
namespace FaucetNetworking.Buffer

/-- The bytes from the read position on. -/
def unread (b : Buffer) : List UInt8 := b.data.drop b.readIndex

theorem unread_write {b : Buffer} (h : b.Positioned) (bytes : List UInt8) :
    (b.write bytes).unread = b.unread ++ bytes := List.drop_append_of_le_length h

theorem length_unread (b : Buffer) : b.unread.length = b.data.length - b.readIndex :=
  List.length_drop

theorem Positioned.bytesRemaining_eq_length {b : Buffer} (h : b.Positioned) :
    b.bytesRemaining = b.unread.length := by
  rw [h.bytesRemaining_eq, length_unread]

/-- The read position is what is not remaining. -/
theorem Positioned.sizeSub_bytesRemaining {b : Buffer} (h : b.Positioned) :
    sizeSub b.size b.bytesRemaining = b.readIndex := by
  have hremaining := h.bytesRemaining_eq
  unfold Positioned at h
  rw [hremaining, Buffer.size, sizeSub_of_le (by omega)]
  omega

/-- The read position after n of the unread bytes. -/
def skip (b : Buffer) (n : ℕ) : Buffer := { b with readIndex := b.readIndex + n }

@[simp] theorem data_skip (b : Buffer) (n : ℕ) : (b.skip n).data = b.data := rfl

@[simp] theorem readIndex_skip (b : Buffer) (n : ℕ) :
    (b.skip n).readIndex = b.readIndex + n := rfl

theorem skip_zero (b : Buffer) : b.skip 0 = b := rfl

theorem skip_skip (b : Buffer) (m n : ℕ) :
    (b.skip m).skip n = b.skip (m + n) := by
  unfold skip
  rw [Nat.add_assoc]

theorem unread_skip (b : Buffer) (n : ℕ) : (b.skip n).unread = b.unread.drop n :=
  List.drop_drop.symm

theorem Positioned.positioned_skip {b : Buffer} (h : b.Positioned) {n : ℕ}
    (hn : n ≤ b.unread.length) : (b.skip n).Positioned := by
  rw [length_unread] at hn
  unfold Positioned at h ⊢
  rw [readIndex_skip, data_skip]
  omega

theorem Positioned.read_eq {b : Buffer} (h : b.Positioned) (size : ℕ) :
    b.read size = (b.unread.take size, b.skip (min size b.unread.length)) := by
  unfold Buffer.read skip
  simp only [h.bytesRemaining_eq_length]
  rw [← unread, ← List.take_eq_take_min]

theorem Positioned.readString_eq {b : Buffer} (h : b.Positioned) (size : ℕ) :
    b.readString size = (b.unread.take size, b.skip (min size b.unread.length)) :=
  h.read_eq size

theorem Positioned.setReadpos_skip {b : Buffer} (h : b.Positioned) {n : ℕ}
    (hn : n ≤ b.unread.length) : b.setReadpos (b.readIndex + n) = b.skip n := by
  rw [length_unread] at hn
  unfold Positioned at h
  unfold setReadpos
  rw [if_pos (by omega)]
  rfl

end FaucetNetworking.Buffer
