import FaucetNetworking.TypedAccess

/-!
Messages of numbers and strings in one buffer. Every item takes a number of bytes that its
type determines, so a reader who knows the types in order finds each item where the last
one ended, whatever the byte orders are and whatever its local variables hold.
-/
namespace FaucetNetworking.Buffer

/-- A read in front of the end copies what comes next. -/
theorem read_of_append (front bytes rest : List UInt8) :
    (Buffer.mk (front ++ (bytes ++ rest)) front.length).read bytes.length =
      (bytes, ⟨front ++ (bytes ++ rest), front.length + bytes.length⟩) := by
  have hremaining : (Buffer.mk (front ++ (bytes ++ rest)) front.length).bytesRemaining =
      bytes.length + rest.length := by
    unfold bytesRemaining size
    simp only [List.length_append]
    rw [sizeSub_of_le (by omega)]
    omega
  unfold read
  rw [hremaining, Nat.min_eq_left (Nat.le_add_right _ _)]
  simp only [List.drop_left, List.take_left]

end FaucetNetworking.Buffer

namespace FaucetNetworking.Message

open Ieee754 ByteDigits

/-- A double is its bit pattern, and a string has a length that the reader knows. -/
inductive Item where
  | int (t : IntType) (n : t.Element)
  | double (d : Datum binary64)
  | string (bytes : List UInt8)

/-- The function that an item is read with. -/
inductive Kind where
  | value (t : ReadType)
  | string (len : ℕ)

inductive Reading where
  | number (d : Datum binary64)
  | string (bytes : List UInt8)

namespace Item

def kind : Item → Kind
  | .int t _ => .value (.int t)
  | .double _ => .value .double
  | .string bytes => .string bytes.length

/-- An integer is the double that the script passed. -/
def reading : Item → Reading
  | .int t n => .number (t.toDouble n)
  | .double d => .number d
  | .string bytes => .string bytes

/-- The bytes of the item in a byte order. -/
def encoding (littleEndian : Bool) : Item → List UInt8
  | .int t n => (inByteOrder littleEndian (t.store n)).bytes
  | .double d => (inByteOrder littleEndian (Image.encode 8 d.bits)).bytes
  | .string bytes => bytes

end Item

def writeItem (b : ByteOrdered Buffer) : Item → Option (ByteOrdered Buffer)
  | .int t n => Buffer.readWritable.writeIntValue t b (t.toDouble n)
  | .double d => some (Buffer.readWritable.writeDouble b d)
  | .string bytes => some { b with object := b.object.write bytes }

def readItem (locals : (t : ReadType) → Image t.sizeof) (b : ByteOrdered Buffer) :
    Kind → Reading × ByteOrdered Buffer
  | .value t =>
    let (d, b) := ReadWritable.readValue Buffer.read t b (locals t)
    (.number d, b)
  | .string len =>
    let (bytes, object) := b.object.readString len
    (.string bytes, { b with object := object })

/-- The byte order is set before each item. -/
def writeAll : List (Bool × Item) → ByteOrdered Buffer → Option (ByteOrdered Buffer)
  | [], b => some b
  | (littleEndian, item) :: message, b =>
    (writeItem (ReadWritable.setLittleEndian b littleEndian) item).bind (writeAll message)

/-- The local variables hold something else at each item. -/
def readAll (locals : ℕ → (t : ReadType) → Image t.sizeof) :
    List (Bool × Kind) → ByteOrdered Buffer → List Reading × ByteOrdered Buffer
  | [], b => ([], b)
  | (littleEndian, kind) :: kinds, b =>
    let (reading, b) :=
      readItem (locals kinds.length) (ReadWritable.setLittleEndian b littleEndian) kind
    let (readings, b) := readAll locals kinds b
    (reading :: readings, b)

def kinds (message : List (Bool × Item)) : List (Bool × Kind) :=
  message.map fun entry => (entry.1, entry.2.kind)

def readings (message : List (Bool × Item)) : List Reading :=
  message.map fun entry => entry.2.reading

def encodings (message : List (Bool × Item)) : List UInt8 :=
  message.flatMap fun entry => entry.2.encoding entry.1

/-! ### One item -/

theorem writeItem_eq (b : ByteOrdered Buffer) (item : Item) :
    writeItem b item = some { b with object := b.object.write (item.encoding b.littleEndian) } := by
  cases item with
  | int t n => exact Buffer.readWritable.writeIntValue_eq t b (t.value_toDouble n)
  | double d => rfl
  | string bytes => rfl

theorem readValue_of_append (t : ReadType) (image : Image t.sizeof) (littleEndian : Bool)
    (value : Image t.sizeof) (front rest : List UInt8) :
    ReadWritable.readValue Buffer.read t
        ⟨littleEndian, ⟨front ++ ((inByteOrder littleEndian image).bytes ++ rest),
          front.length⟩⟩ value =
      (t.load image, ⟨littleEndian, ⟨front ++ ((inByteOrder littleEndian image).bytes ++ rest),
        front.length + (inByteOrder littleEndian image).bytes.length⟩⟩) := by
  have hread := Buffer.read_of_append front (inByteOrder littleEndian image).bytes rest
  have hcopied : Buffer.read
      ⟨front ++ ((inByteOrder littleEndian image).bytes ++ rest), front.length⟩ t.sizeof =
        ((inByteOrder littleEndian image).bytes,
          ⟨front ++ ((inByteOrder littleEndian image).bytes ++ rest),
            front.length + (inByteOrder littleEndian image).bytes.length⟩) := by
    rw [← hread, (inByteOrder littleEndian image).length_eq]
  rw [ReadWritable.readValue_of_read Buffer.read t _ value hcopied, inByteOrder_inByteOrder]

theorem load_encode_bits (d : Datum binary64) :
    ReadType.double.load (Image.encode 8 d.bits) = d := by
  have hlt : d.bits < 256 ^ 8 := d.bits_lt
  change Datum.ofBits binary64 (Image.encode 8 d.bits).decode = d
  rw [Image.decode_encode hlt, Datum.ofBits_bits]

/-- An item is read where it was written, and the read position is then behind it. -/
theorem readItem_of_append (item : Item) (littleEndian : Bool)
    (locals : (t : ReadType) → Image t.sizeof) (front rest : List UInt8) :
    readItem locals
        ⟨littleEndian, ⟨front ++ (item.encoding littleEndian ++ rest), front.length⟩⟩ item.kind =
      (item.reading, ⟨littleEndian, ⟨front ++ (item.encoding littleEndian ++ rest),
        front.length + (item.encoding littleEndian).length⟩⟩) := by
  cases item with
  | int t n =>
    have hread := readValue_of_append (.int t) (t.store n) littleEndian (locals (.int t)) front rest
    have hload : ReadType.load (.int t) (t.store n) = t.toDouble n :=
      congrArg t.toDouble (t.load_store n)
    rw [hload] at hread
    exact congrArg (fun r => (Reading.number r.1, r.2)) hread
  | double d =>
    have hread := readValue_of_append .double (Image.encode 8 d.bits) littleEndian
      (locals .double) front rest
    rw [load_encode_bits] at hread
    exact congrArg (fun r => (Reading.number r.1, r.2)) hread
  | string bytes =>
    have hread := Buffer.read_of_append front bytes rest
    exact congrArg (fun r => (Reading.string r.1, ByteOrdered.mk littleEndian r.2)) hread

/-! ### Messages -/

theorem encodings_cons (littleEndian : Bool) (item : Item) (message : List (Bool × Item)) :
    encodings ((littleEndian, item) :: message) =
      item.encoding littleEndian ++ encodings message := List.flatMap_cons

theorem writeAll_eq (message : List (Bool × Item)) (b : ByteOrdered Buffer) :
    ∃ littleEndian, writeAll message b =
      some ⟨littleEndian, b.object.write (encodings message)⟩ := by
  induction message generalizing b with
  | nil =>
    refine ⟨b.littleEndian, ?_⟩
    rw [encodings, List.flatMap_nil, Buffer.write, List.append_nil]
    rfl
  | cons entry message ih =>
    obtain ⟨littleEndian, item⟩ := entry
    rw [writeAll, writeItem_eq, Option.bind_some]
    obtain ⟨littleEndian', hwrite⟩ := ih _
    refine ⟨littleEndian', ?_⟩
    rw [hwrite, encodings_cons]
    unfold Buffer.write ReadWritable.setLittleEndian
    simp only [List.append_assoc]

theorem readAll_of_append (message : List (Bool × Item))
    (locals : ℕ → (t : ReadType) → Image t.sizeof) (littleEndian : Bool)
    (front rest : List UInt8) :
    ∃ littleEndian', readAll locals (kinds message)
        ⟨littleEndian, ⟨front ++ (encodings message ++ rest), front.length⟩⟩ =
      (readings message, ⟨littleEndian', ⟨front ++ (encodings message ++ rest),
        front.length + (encodings message).length⟩⟩) := by
  induction message generalizing littleEndian front with
  | nil => exact ⟨littleEndian, rfl⟩
  | cons entry message ih =>
    obtain ⟨order, item⟩ := entry
    have hread := readItem_of_append item order (locals (kinds message).length) front
      (encodings message ++ rest)
    obtain ⟨littleEndian', hrest⟩ := ih order (front ++ item.encoding order)
    refine ⟨littleEndian', ?_⟩
    have hkinds : kinds ((order, item) :: message) = (order, item.kind) :: kinds message := rfl
    rw [List.append_assoc, List.length_append] at hrest
    rw [encodings_cons, hkinds, readAll, List.append_assoc]
    unfold ReadWritable.setLittleEndian
    simp only [hread, hrest, List.length_append, Nat.add_assoc]
    rfl

/-- Whatever the byte order of the reading buffer was before, and whatever the local
variables hold, the items are read back and nothing remains. -/
def RoundTrips (message : List (Bool × Item)) : Prop :=
  ∀ littleEndian, ∃ written, writeAll message ⟨littleEndian, Buffer.new⟩ = some written ∧
    ∀ littleEndian' locals,
      (readAll locals (kinds message) ⟨littleEndian', written.object⟩).1 = readings message ∧
      (readAll locals (kinds message)
        ⟨littleEndian', written.object⟩).2.object.bytesRemaining = 0

/-- The digits of an integer in two's complement, the most significant first. -/
structure TwosComplementDigits (w : ℕ) (n : ℤ) (bytes : List UInt8) : Prop where
  length_eq : bytes.length = w
  value_eq : ((Nat.ofDigits 256 (bytes.reverse.map UInt8.toNat) : ℕ) : ℤ) = n % 256 ^ w

theorem twosComplementDigits_encoding (t : IntType) (n : t.Element) :
    TwosComplementDigits t.size n.val ((Item.int t n).encoding false) := by
  have hpos : (0 : ℤ) < 256 ^ t.size := by positivity
  constructor
  · exact (inByteOrder false (t.store n)).length_eq
  · have hdecode : (t.store n).decode = (n.val % 256 ^ t.size).toNat :=
      Image.decode_encode (t.toNat_emod_lt n.val)
    change ((ofDigits (t.store n).bytes.reverse.reverse : ℕ) : ℤ) = _
    rw [List.reverse_reverse]
    change (((t.store n).decode : ℕ) : ℤ) = _
    rw [hdecode, Int.toNat_of_nonneg (Int.emod_nonneg _ hpos.ne')]

/-- Messages are read back as they were written, and an integer is big-endian when the
byte order is not the one of the platform. -/
theorem roundTrips_and_bigEndian :
    (∀ message, RoundTrips message) ∧
      ∀ (t : IntType) (n : t.Element) (b : Buffer), ∃ bytes,
        writeItem ⟨false, b⟩ (.int t n) = some ⟨false, b.write bytes⟩ ∧
          TwosComplementDigits t.size n.val bytes := by
  constructor
  · intro message littleEndian
    obtain ⟨order, hwrite⟩ := writeAll_eq message ⟨littleEndian, Buffer.new⟩
    refine ⟨_, hwrite, ?_⟩
    intro littleEndian' locals
    obtain ⟨order', hread⟩ := readAll_of_append message locals littleEndian' [] []
    have hobject : (Buffer.new.write (encodings message)) =
        ⟨[] ++ (encodings message ++ []), ([] : List UInt8).length⟩ := by
      rw [List.append_nil]
      rfl
    simp only [hobject, hread, true_and]
    change sizeSub _ _ = 0
    rw [sizeSub_of_le (by simp [Buffer.size])]
    simp [Buffer.size]
  · intro t n b
    exact ⟨(Item.int t n).encoding false, writeItem_eq ⟨false, b⟩ (.int t n),
      twosComplementDigits_encoding t n⟩

example : (writeItem ⟨false, .new⟩ (.int .int16 ⟨-20000, by decide⟩)).map (·.object.data) =
    some [0xb1, 0xe0] := by
  decide +kernel

end FaucetNetworking.Message
