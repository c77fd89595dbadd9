import FaucetNetworking.Base64RoundTrip
import FaucetNetworking.DelimitedRead
import FaucetNetworking.HexRoundTrip

/-!
Runs of the operations on a buffer. Readers take the address of what they copy from the
read position, and its length from an unsigned difference, so they rely on the read
position never being behind the end of the data. As long as nothing moves it but reads,
the buffer is a queue of bytes.
-/
namespace FaucetNetworking

/-- The operations of the class, and the functions that move the read position from
outside of it. -/
inductive BufferOperation where
  | write (bytes : List UInt8)
  | read (size : ℕ)
  | readString (size : ℕ)
  | setReadpos (pos : ℕ)
  | clear
  | prepareWrite (extraData : ℕ)
  | readDelimitedString (delim : List UInt8)
  | skipLengthOfString (skip : List UInt8)
  | readHex (len : ℕ)
  | readBase64 (len : ℕ)

namespace BufferOperation

/-- The operation only appends bytes, or takes them from the front. -/
def Streams : BufferOperation → Prop
  | write _ => True
  | read _ => True
  | readString _ => True
  | _ => False

def written : BufferOperation → List UInt8
  | write bytes => bytes
  | _ => []

end BufferOperation

/-- What a reader returns, or throws, leaves a result and a buffer. -/
def Outcome.returned {σ : Type*} : Outcome σ → Option σ
  | .ok s => some s
  | .throws _ s => some s
  | .undefined => none

namespace Buffer

variable (limits : StringLimits)

/-- The bytes that an operation gives to its caller, and the buffer after it. -/
def perform (b : Buffer) : BufferOperation → Option (List UInt8 × Buffer)
  | .write bytes => some ([], b.write bytes)
  | .read size => some (b.read size)
  | .readString size => some (b.readString size)
  | .setReadpos pos => some ([], b.setReadpos pos)
  | .clear => some ([], b.clear)
  | .prepareWrite extraData => some ([], b.prepareWrite extraData)
  | .readDelimitedString delim => some (b.readDelimitedString delim)
  | .skipLengthOfString skip => some ([], b.setReadpos (b.getReadpos + skip.length))
  | .readHex len => (HexCodec.readHexBuffer limits b len).returned
  | .readBase64 len => (Base64Codec.readBase64Buffer limits b len).returned

/-- The stored bytes that an operation looks at, each part with its offset and its size. -/
def accesses (b : Buffer) : BufferOperation → List (ℕ × ℕ)
  | .read size => [(b.readIndex, min size b.bytesRemaining)]
  | .readString size => [(b.readIndex, min size b.bytesRemaining)]
  | .readDelimitedString delim =>
    let toEnd := (b.getReadpos, sizeSub b.size b.getReadpos)
    let length := bytesBeforeDelimiter (some b) delim
    if length ≥ 0 then [toEnd, (b.readIndex, min length.toNat b.bytesRemaining)] else [toEnd]
  | .readHex len => [(b.getReadpos, min len b.bytesRemaining)]
  | .readBase64 len => [(b.getReadpos, min len b.bytesRemaining)]
  | _ => []

/-- One operation, with all the bytes that have been given out so far. -/
def step (s : List UInt8 × Buffer) (operation : BufferOperation) :
    Option (List UInt8 × Buffer) :=
  (s.2.perform limits operation).map fun (bytes, b) => (s.1 ++ bytes, b)

/-! ### The read position -/

variable {limits}

theorem Positioned.readDelimitedString {b : Buffer} (h : b.Positioned) (delim : List UInt8) :
    (b.readDelimitedString delim).2.Positioned := by
  unfold Buffer.readDelimitedString
  simp only
  split
  · exact positioned_setReadpos _ _
  · exact h

theorem Positioned.readHexBuffer {b : Buffer} (h : b.Positioned) {len : ℕ}
    {r : List UInt8 × Buffer} (hr : (HexCodec.readHexBuffer limits b len).returned = some r) :
    r.2.Positioned := by
  unfold HexCodec.readHexBuffer at hr
  simp only at hr
  split at hr
  · obtain rfl := Option.some.inj hr
    exact positioned_setReadpos _ _
  · obtain rfl := Option.some.inj hr
    exact h
  · cases hr

theorem Positioned.readBase64Buffer {b : Buffer} (h : b.Positioned) {len : ℕ}
    {r : List UInt8 × Buffer} (hr : (Base64Codec.readBase64Buffer limits b len).returned = some r) :
    r.2.Positioned := by
  unfold Base64Codec.readBase64Buffer at hr
  simp only at hr
  split at hr
  · obtain rfl := Option.some.inj hr
    exact positioned_setReadpos _ _
  · obtain rfl := Option.some.inj hr
    exact h
  · cases hr

/-- No operation moves the read position behind the end. -/
theorem Positioned.perform {b : Buffer} (h : b.Positioned) {operation : BufferOperation}
    {r : List UInt8 × Buffer} (hr : b.perform limits operation = some r) : r.2.Positioned := by
  cases operation with
  | readHex len => exact h.readHexBuffer hr
  | readBase64 len => exact h.readBase64Buffer hr
  | write bytes =>
    obtain rfl := Option.some.inj hr
    exact h.write bytes
  | read size =>
    obtain rfl := Option.some.inj hr
    exact h.advance size
  | readString size =>
    obtain rfl := Option.some.inj hr
    exact h.advance size
  | setReadpos pos =>
    obtain rfl := Option.some.inj hr
    exact positioned_setReadpos b pos
  | clear =>
    obtain rfl := Option.some.inj hr
    exact Nat.le_refl 0
  | prepareWrite extraData =>
    obtain rfl := Option.some.inj hr
    exact h
  | readDelimitedString delim =>
    obtain rfl := Option.some.inj hr
    exact h.readDelimitedString delim
  | skipLengthOfString skip =>
    obtain rfl := Option.some.inj hr
    exact positioned_setReadpos b _

/-- Whatever an operation looks at is stored. -/
theorem Positioned.accesses_le {b : Buffer} (h : b.Positioned) (operation : BufferOperation) :
    ∀ access ∈ b.accesses operation, access.1 + access.2 ≤ b.data.length := by
  have hread : ∀ size, b.readIndex + min size b.bytesRemaining ≤ b.data.length := h.advance
  have htoEnd : b.getReadpos + sizeSub b.size b.getReadpos ≤ b.data.length := by
    unfold Positioned at h
    unfold getReadpos size
    rw [sizeSub_of_le h]
    omega
  cases operation with
  | read size => simpa [accesses] using hread size
  | readString size => simpa [accesses] using hread size
  | readHex len => simpa [accesses, getReadpos] using hread len
  | readBase64 len => simpa [accesses, getReadpos] using hread len
  | readDelimitedString delim =>
    unfold accesses
    simp only
    split
    · simpa using ⟨htoEnd, hread _⟩
    · simpa using htoEnd
  | _ => simp [accesses]

/-! ### Data that can be addressed -/

theorem exists_readHexBuffer {b : Buffer} (hsize : b.data.length < 2 ^ limits.width) (len : ℕ) :
    ∃ r, (HexCodec.readHexBuffer limits b len).returned = some r := by
  have hlength : ((b.data.drop b.getReadpos).take (min len b.bytesRemaining)).length <
      2 ^ limits.width := by
    rw [List.length_take, List.length_drop]
    omega
  unfold HexCodec.readHexBuffer
  simp only
  rcases Nat.lt_or_ge limits.maxSize (2 * ((b.data.drop b.getReadpos).take
    (min len b.bytesRemaining)).length) with hmax | hfits
  · obtain ⟨what, hthrows⟩ := HexCodec.readHex_throws hlength hmax
    rw [hthrows]
    exact ⟨_, rfl⟩
  · rw [HexCodec.readHex_eq hfits]
    exact ⟨_, rfl⟩

theorem exists_readBase64Buffer {b : Buffer} (hsize : b.data.length < 2 ^ limits.width)
    (len : ℕ) : ∃ r, (Base64Codec.readBase64Buffer limits b len).returned = some r := by
  have hlength : ((b.data.drop b.getReadpos).take (min len b.bytesRemaining)).length <
      2 ^ limits.width := by
    rw [List.length_take, List.length_drop]
    omega
  unfold Base64Codec.readBase64Buffer
  simp only
  rcases Nat.lt_or_ge limits.maxSize (4 * ((((b.data.drop b.getReadpos).take
    (min len b.bytesRemaining)).length + 2) / 3)) with hmax | hfits
  · obtain ⟨what, hthrows⟩ := Base64Codec.readBase64_throws hlength hmax
    rw [hthrows]
    exact ⟨_, rfl⟩
  · rw [Base64Codec.readBase64_eq hfits]
    exact ⟨_, rfl⟩

theorem exists_perform {b : Buffer} (hsize : b.data.length < 2 ^ limits.width)
    (operation : BufferOperation) : ∃ r, b.perform limits operation = some r := by
  cases operation with
  | readHex len => exact exists_readHexBuffer hsize len
  | readBase64 len => exact exists_readBase64Buffer hsize len
  | _ => exact ⟨_, rfl⟩

/-! ### Runs -/

theorem positioned_of_run {s : List UInt8 × Buffer} {operations : List BufferOperation}
    (hrun : StateMachine.run (step limits) ([], Buffer.new) operations = some s) :
    s.2.Positioned := by
  apply StateMachine.run_preserves (fun s : List UInt8 × Buffer => s.2.Positioned) _ _ hrun
  · intro s operation t hs hstep
    obtain ⟨⟨bytes, b⟩, hr, rfl⟩ := Option.map_eq_some_iff.mp hstep
    have hb : b.Positioned := hs.perform hr
    exact hb
  · exact Nat.le_refl 0

/-- One operation on a buffer that is a queue of bytes. -/
theorem Positioned.perform_streams {b : Buffer} (h : b.Positioned) {operation : BufferOperation}
    (hstreams : operation.Streams) {r : List UInt8 × Buffer}
    (hr : b.perform limits operation = some r) :
    r.1 ++ r.2.unread = b.unread ++ operation.written := by
  have hread : ∀ size, (b.read size).1 ++ (b.read size).2.unread = b.unread ++ [] := by
    intro size
    rw [h.read_eq, List.append_nil, unread_skip, List.take_eq_take_min]
    exact List.take_append_drop _ _
  cases operation with
  | write bytes =>
    obtain rfl := Option.some.inj hr
    exact unread_write h bytes
  | read size =>
    obtain rfl := Option.some.inj hr
    exact hread size
  | readString size =>
    obtain rfl := Option.some.inj hr
    exact hread size
  | _ => exact hstreams.elim

/-- What has been read, and after it what is still unread, is what has been written. -/
theorem streams_of_run {s : List UInt8 × Buffer} {operations : List BufferOperation}
    (hrun : StateMachine.run (step limits) ([], Buffer.new) operations = some s)
    (hstreams : ∀ operation ∈ operations, operation.Streams) :
    s.1 ++ s.2.unread = operations.flatMap BufferOperation.written := by
  have hnew : Buffer.new.Positioned := Nat.le_refl 0
  have htrace := StateMachine.run_traces
    (fun past (s : List UInt8 × Buffer) => s.2.Positioned ∧
      ((∀ operation ∈ past, operation.Streams) →
        s.1 ++ s.2.unread = past.flatMap BufferOperation.written)) ?_
    ⟨hnew, fun _ => rfl⟩ hrun
  · exact htrace.2 hstreams
  · rintro past s operation t ⟨hpos, hpast⟩ hstep
    obtain ⟨⟨bytes, b⟩, hr, rfl⟩ := Option.map_eq_some_iff.mp hstep
    have hb : b.Positioned := hpos.perform hr
    refine ⟨hb, ?_⟩
    intro hall
    have hbefore := hpast fun operation h => hall operation (List.mem_append_left _ h)
    have hlast : bytes ++ b.unread = s.2.unread ++ operation.written :=
      hpos.perform_streams
        (hall operation (List.mem_append_right _ (List.mem_singleton_self _))) hr
    change s.1 ++ bytes ++ b.unread = _
    rw [List.append_assoc, hlast, ← List.append_assoc, hbefore, List.flatMap_append,
      List.flatMap_singleton]

/-- What holds of a buffer after some operations. -/
structure CursorInvariant (limits : StringLimits) (operations : List BufferOperation)
    (out : List UInt8) (b : Buffer) : Prop where
  positioned : b.readIndex ≤ b.data.length
  bytesRemaining : b.readIndex + b.bytesRemaining = b.size
  accesses : ∀ operation, ∀ access ∈ b.accesses operation,
    access.1 + access.2 ≤ b.data.length
  defined : b.size < 2 ^ limits.width → ∀ operation, ∃ t, step limits (out, b) operation = some t
  streams : (∀ operation ∈ operations, operation.Streams) →
    out ++ b.unread = operations.flatMap BufferOperation.written

theorem cursorInvariant (operations : List BufferOperation) (out : List UInt8) (b : Buffer)
    (hrun : StateMachine.run (step limits) ([], Buffer.new) operations = some (out, b)) :
    CursorInvariant limits operations out b := by
  have hpos : b.Positioned := positioned_of_run hrun
  refine ⟨hpos, ?_, hpos.accesses_le, ?_, streams_of_run hrun⟩
  · have hremaining := hpos.bytesRemaining_eq
    unfold Positioned at hpos
    unfold size
    omega
  · intro hsize operation
    obtain ⟨⟨bytes, next⟩, hr⟩ := exists_perform hsize operation
    refine ⟨(out ++ bytes, next), ?_⟩
    unfold step
    rw [hr, Option.map_some]

/-- Two writes with a read that asks for more than there is between them. -/
theorem cursorInvariant_reads :
    CursorInvariant .mingw [.write [1, 2], .read 1, .write [3], .readString 7] [1, 2, 3]
      ⟨[1, 2, 3], 3⟩ :=
  cursorInvariant _ _ _ (by decide)

end Buffer

end FaucetNetworking
