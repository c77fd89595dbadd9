import FaucetNetworking.Machine
import FaucetNetworking.Lib.CommitQueue
import FaucetNetworking.Lib.Cells

/-!
The send buffer of a TCP socket: a vector of 64 KiB chunks, the index of the
first element in the first chunk, the free space at the end of the last chunk,
and a raw pointer to that free space. Chunks are named by the allocation they
come from, so a pointer into a deleted chunk finds no chunk to read or write.
-/
namespace FaucetNetworking

def BUFFER_SIZE : ℕ := 65536

/-- One allocated chunk; a cell is absent until something has been written there. -/
structure Chunk where
  block : ℕ
  cells : List (Option UInt8)
  length_cells : cells.length = BUFFER_SIZE

namespace Chunk

/-- A fresh uint8_t[BUFFER_SIZE]. -/
def new (block : ℕ) : Chunk :=
  ⟨block, List.replicate BUFFER_SIZE none, List.length_replicate⟩

def overwrite (c : Chunk) (offset : ℕ) (data : List UInt8)
    (h : offset + data.length ≤ BUFFER_SIZE) : Chunk where
  block := c.block
  cells := Cells.overwrite c.cells offset data
  length_cells := by
    rw [Cells.length_overwrite _ _ _ (by rw [c.length_cells]; exact h), c.length_cells]

end Chunk

/-- A pointer into the chunk of the given allocation. -/
structure Pointer where
  block : ℕ
  offset : ℕ
  deriving DecidableEq, Repr

/-- boost::asio::const_buffer: where the bytes start and how many there are. -/
structure ConstBuffer where
  block : ℕ
  offset : ℕ
  size : ℕ
  deriving DecidableEq, Repr

def findChunk (buffers : List Chunk) (block : ℕ) : Option Chunk :=
  buffers.find? fun c => c.block = block

/-- Copy through a pointer. A copy of no bytes touches nothing, so any pointer
will do; otherwise the bytes have to lie inside one live chunk. -/
def memmove (buffers : List Chunk) (dest : Option Pointer) (data : List UInt8) :
    Option (List Chunk) :=
  match data, dest with
  | [], _ => some buffers
  | _ :: _, none => none
  | _ :: _, some p => store p buffers
where
  store (p : Pointer) : List Chunk → Option (List Chunk)
    | [] => none
    | c :: rest =>
      if c.block = p.block then
        if h : p.offset + data.length ≤ BUFFER_SIZE then
          some (c.overwrite p.offset data h :: rest)
        else none
      else (store p rest).map (c :: ·)

/-- The bytes behind one const_buffer, if they are all there. -/
def readBuffer (buffers : List Chunk) (b : ConstBuffer) : Option (List UInt8) :=
  (findChunk buffers b.block).bind fun c =>
    if b.offset + b.size ≤ BUFFER_SIZE then Cells.readAll (Cells.slice c.cells b.offset b.size)
    else none

/-- The bytes a ConstBufferSequence stands for, in order. -/
def gather (buffers : List Chunk) : List ConstBuffer → Option (List UInt8)
  | [] => some []
  | b :: rest => (readBuffer buffers b).bind fun bytes => (gather buffers rest).map (bytes ++ ·)

def sequenceSize (sequence : List ConstBuffer) : ℕ := (sequence.map ConstBuffer.size).sum

structure SendBuffer where
  buffers : List Chunk
  firstElementIndex : ℕ
  freeSpaceInLastBuffer : ℕ
  endPtr : Option Pointer
  committedBytes : ℕ
  /-- The name the next allocation gets. -/
  nextBlock : ℕ

namespace SendBuffer

def new : SendBuffer := ⟨[], 0, 0, none, 0, 0⟩

/-- Return all committed bytes as a ConstBufferSequence. -/
def committedAsConstBufferSequence (sb : SendBuffer) : List ConstBuffer :=
  sequenceFrom 0 sb.buffers sb.committedBytes
where
  /-- The loop from index i, which is at the first of the chunks given. -/
  sequenceFrom (i : ℕ) : List Chunk → ℕ → List ConstBuffer
    | [], _ => []
    | c :: rest, bytesRemaining =>
      if bytesRemaining > 0 then
        let offset := if i = 0 then sb.firstElementIndex else 0
        let size := if i = 0 then sizeSub BUFFER_SIZE sb.firstElementIndex else BUFFER_SIZE
        let size := if i + 1 = sb.buffers.length then sizeSub size sb.freeSpaceInLastBuffer
          else size
        let size := if size ≥ bytesRemaining then bytesRemaining else size
        ⟨c.block, offset, size⟩ :: sequenceFrom (i + 1) rest (bytesRemaining - size)
      else []

def totalSize (sb : SendBuffer) : ℕ :=
  sizeSub (sizeSub (sb.buffers.length * BUFFER_SIZE) sb.freeSpaceInLastBuffer)
    sb.firstElementIndex

def committedSize (sb : SendBuffer) : ℕ := sb.committedBytes

/-- Commit everything currently in the buffer. -/
def commit (sb : SendBuffer) : SendBuffer := { sb with committedBytes := sb.totalSize }

/-- Add uncommitted data to the end of the buffer. -/
def push (sb : SendBuffer) (data : List UInt8) : Outcome SendBuffer :=
  if data.length > sb.freeSpaceInLastBuffer then
    match memmove sb.buffers sb.endPtr (data.take sb.freeSpaceInLastBuffer) with
    | none => .undefined
    | some buffers =>
      push
        { sb with
          buffers := buffers ++ [Chunk.new sb.nextBlock]
          endPtr := some ⟨sb.nextBlock, 0⟩
          freeSpaceInLastBuffer := BUFFER_SIZE
          nextBlock := sb.nextBlock + 1 }
        (data.drop sb.freeSpaceInLastBuffer)
  else
    match memmove sb.buffers sb.endPtr data with
    | none => .undefined
    | some buffers =>
      .ok { sb with
        buffers := buffers
        endPtr := sb.endPtr.map fun p => ⟨p.block, p.offset + data.length⟩
        freeSpaceInLastBuffer := sb.freeSpaceInLastBuffer - data.length }
termination_by (data.length, if sb.freeSpaceInLastBuffer = 0 then 1 else 0)
decreasing_by
  simp only [List.length_drop]
  by_cases hfree : sb.freeSpaceInLastBuffer = 0
  · rw [hfree, Nat.sub_zero]
    exact Prod.Lex.right _ (by simp [BUFFER_SIZE])
  · exact Prod.Lex.left _ _ (by omega)

def popMessage : String := "Attempted to pop uncommitted data from a SendBuffer."

/-- Remove size committed bytes from the beginning of the buffer. The quotient
and the remainder are those of the C function div, which works on int. -/
def pop (sb : SendBuffer) (size : ℕ) : Outcome SendBuffer :=
  if size > sb.committedBytes then .throws popMessage sb
  else
    let numerator := toInt (sb.firstElementIndex + size)
    let emptyBuffers := numerator.tdiv (toInt BUFFER_SIZE)
    let sb := { sb with
      committedBytes := sb.committedBytes - size
      firstElementIndex := toSize (numerator.tmod (toInt BUFFER_SIZE)) }
    if emptyBuffers > 0 then
      if emptyBuffers.toNat ≤ sb.buffers.length then
        .ok { sb with buffers := sb.buffers.drop emptyBuffers.toNat }
      else .undefined
    else .ok sb

def clear (sb : SendBuffer) : SendBuffer :=
  { sb with
    buffers := []
    firstElementIndex := 0
    freeSpaceInLastBuffer := 0
    committedBytes := 0 }

def apply (sb : SendBuffer) : CommitQueue.Op UInt8 → Outcome SendBuffer
  | .push data => sb.push data
  | .commit => .ok sb.commit
  | .pop n => sb.pop n
  | .clear => .ok sb.clear

/-- A push only adds uncommitted data at the end. -/
theorem fields_of_push {sb sb' : SendBuffer} {data : List UInt8}
    (h : sb.push data = .ok sb') : sb'.committedBytes = sb.committedBytes ∧
      sb'.firstElementIndex = sb.firstElementIndex := by
  induction sb, data using SendBuffer.push.induct with
  | case1 sb data hlong hmove =>
    rw [push, if_pos hlong, hmove] at h
    contradiction
  | case2 sb data hlong buffers hmove ih =>
    rw [push, if_pos hlong, hmove] at h
    exact ih h
  | case3 sb data hshort hmove =>
    rw [push, if_neg hshort, hmove] at h
    contradiction
  | case4 sb data hshort buffers hmove =>
    rw [push, if_neg hshort, hmove] at h
    rw [← Outcome.ok.inj h]
    exact ⟨rfl, rfl⟩

end SendBuffer

end FaucetNetworking
