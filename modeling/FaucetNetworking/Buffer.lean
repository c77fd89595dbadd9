import FaucetNetworking.Machine

/-!
The byte buffer with a read position, and the interface through which the
codecs write into buffers and sockets alike.
-/
namespace FaucetNetworking

/-- The virtual functions of ReadWritable, for a destination with state δ. -/
structure ReadWritable (δ : Type*) where
  write : δ → List UInt8 → δ
  read : δ → ℕ → List UInt8 × δ
  readString : δ → ℕ → List UInt8 × δ
  bytesRemaining : δ → ℕ
  setReadpos : δ → ℕ → δ
  prepareWrite : δ → ℕ → δ

structure Buffer where
  data : List UInt8
  readIndex : ℕ
  deriving DecidableEq, Repr

namespace Buffer

def new : Buffer := ⟨[], 0⟩

def clear (_ : Buffer) : Buffer := ⟨[], 0⟩

def size (b : Buffer) : ℕ := b.data.length

def bytesRemaining (b : Buffer) : ℕ := sizeSub b.size b.readIndex

def setReadpos (b : Buffer) (pos : ℕ) : Buffer :=
  if pos ≤ b.data.length then { b with readIndex := pos } else { b with readIndex := b.size }

def getReadpos (b : Buffer) : ℕ := b.readIndex

def write (b : Buffer) (bytes : List UInt8) : Buffer := { b with data := b.data ++ bytes }

/-- Copy up to size bytes from the read position and advance it. -/
def read (b : Buffer) (size : ℕ) : List UInt8 × Buffer :=
  let size := min size b.bytesRemaining
  ((b.data.drop b.readIndex).take size, { b with readIndex := b.readIndex + size })

def readString (b : Buffer) (size : ℕ) : List UInt8 × Buffer :=
  let size := min size b.bytesRemaining
  ((b.data.drop b.readIndex).take size, { b with readIndex := b.readIndex + size })

/-- Reserving capacity does not show in the contents. -/
def prepareWrite (b : Buffer) (_extraData : ℕ) : Buffer := b

def readWritable : ReadWritable Buffer where
  write := write
  read := read
  readString := readString
  bytesRemaining := bytesRemaining
  setReadpos := setReadpos
  prepareWrite := prepareWrite

end Buffer

/-- A destination together with the proof that writing appends to its content. -/
structure AppendDestination (δ : Type*) extends ReadWritable δ where
  content : δ → List UInt8
  content_write : ∀ dest bytes, content (write dest bytes) = content dest ++ bytes
  content_prepareWrite : ∀ dest n, content (prepareWrite dest n) = content dest

theorem AppendDestination.content_foldl_write {δ : Type*} (ad : AppendDestination δ)
    (chunks : List (List UInt8)) (dest : δ) :
    ad.content (chunks.foldl ad.write dest) = ad.content dest ++ chunks.flatten := by
  induction chunks generalizing dest with
  | nil => rw [List.flatten_nil, List.append_nil, List.foldl_nil]
  | cons chunk chunks ih =>
    rw [List.foldl_cons, ih, ad.content_write, List.flatten_cons, List.append_assoc]

def Buffer.appendDestination : AppendDestination Buffer where
  toReadWritable := Buffer.readWritable
  content := Buffer.data
  content_write := fun _ _ => rfl
  content_prepareWrite := fun _ _ => rfl

end FaucetNetworking
