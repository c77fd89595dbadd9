import FaucetNetworking.Base64Codec

/-!
The hex codec: the table of all pairs of characters that the constructor fills, the
encoder, the validator and the decoder. Texts are C strings, given without their
terminator. A read behind the terminator and a lookup at an entry the constructor never
wrote are undefined behaviour and end the modelled call.
-/
namespace FaucetNetworking.HexCodec

open Base64Codec (byte Validation)

/-- Used for filling the table; 0 for invalid characters. -/
def getHexValueSlow (c : UInt8) : UInt8 :=
  if c ≥ byte '0' ∧ c ≤ byte '9' then c - byte '0'
  else if c ≥ byte 'a' ∧ c ≤ byte 'f' then c - byte 'a' + 10
  else if c ≥ byte 'A' ∧ c ≤ byte 'F' then c - byte 'A' + 10
  else 0

/-- The low byte of a uint16_t is the one at its address. -/
def firstDigit (i : UInt16) : UInt8 := UInt8.ofNat i.toNat

def secondDigit (i : UInt16) : UInt8 := UInt8.ofNat (i.toNat / 2 ^ 8)

/-- The uint16_t that two characters in a row are read as. -/
def charPair (first second : UInt8) : UInt16 :=
  UInt16.ofNat (first.toNat + 2 ^ 8 * second.toNat)

/-- The value a pair of characters has in the table. -/
def pairValue (i : UInt16) : UInt8 :=
  UInt8.ofNat ((getHexValueSlow (firstDigit i)).toNat * 16 +
    (getHexValueSlow (secondDigit i)).toNat)

/-- An array of which only the entries written so far have a value. -/
abbrev Table := List (Option UInt8)

/-- The do loop of the constructor; it ends when the incremented i is 0. -/
def fillFrom (table : Table) (i : UInt16) : Table :=
  if i + 1 = 0 then table.set i.toNat (some (pairValue i))
  else fillFrom (table.set i.toNat (some (pairValue i))) (i + 1)
  termination_by 2 ^ 16 - i.toNat
  decreasing_by
    rename_i hnext
    rw [← UInt16.toNat_inj, UInt16.toNat_add, UInt16.toNat_one, UInt16.toNat_zero] at hnext
    rw [UInt16.toNat_add, UInt16.toNat_one]
    have hlt := i.toNat_lt
    omega

/-- The table as the constructor leaves it. -/
@[irreducible] def hexValue : Table := fillFrom (List.replicate 65536 none) 0

/-- The entries of the digits, the uppercase and the lowercase letters are one. -/
def validHex : List UInt8 :=
  [0, 0, 0, 0, 0, 0, 0, 0, 0, 0, 0, 0, 0, 0, 0, 0,
    0, 0, 0, 0, 0, 0, 0, 0, 0, 0, 0, 0, 0, 0, 0, 0,
    0, 0, 0, 0, 0, 0, 0, 0, 0, 0, 0, 0, 0, 0, 0, 0,
    1, 1, 1, 1, 1, 1, 1, 1, 1, 1, 0, 0, 0, 0, 0, 0,
    0, 1, 1, 1, 1, 1, 1, 0, 0, 0, 0, 0, 0, 0, 0, 0,
    0, 0, 0, 0, 0, 0, 0, 0, 0, 0, 0, 0, 0, 0, 0, 0,
    0, 1, 1, 1, 1, 1, 1, 0, 0, 0, 0, 0, 0, 0, 0, 0,
    0, 0, 0, 0, 0, 0, 0, 0, 0, 0, 0, 0, 0, 0, 0, 0,
    0, 0, 0, 0, 0, 0, 0, 0, 0, 0, 0, 0, 0, 0, 0, 0,
    0, 0, 0, 0, 0, 0, 0, 0, 0, 0, 0, 0, 0, 0, 0, 0,
    0, 0, 0, 0, 0, 0, 0, 0, 0, 0, 0, 0, 0, 0, 0, 0,
    0, 0, 0, 0, 0, 0, 0, 0, 0, 0, 0, 0, 0, 0, 0, 0,
    0, 0, 0, 0, 0, 0, 0, 0, 0, 0, 0, 0, 0, 0, 0, 0,
    0, 0, 0, 0, 0, 0, 0, 0, 0, 0, 0, 0, 0, 0, 0, 0,
    0, 0, 0, 0, 0, 0, 0, 0, 0, 0, 0, 0, 0, 0, 0, 0,
    0, 0, 0, 0, 0, 0, 0, 0, 0, 0, 0, 0, 0, 0, 0, 0]

def isValidHex (c : UInt8) : Bool := validHex.getD c.toNat 0 != 0

def hexNibbles : List UInt8 :=
  ['0', '1', '2', '3', '4', '5', '6', '7', '8', '9', 'a', 'b', 'c', 'd', 'e', 'f'].map byte

def hexNibble (i : ℕ) : UInt8 := hexNibbles.getD i 0

def encode : List UInt8 → List UInt8
  | [] => []
  | c :: src =>
    hexNibble ((c.toNat &&& 0xf0) >>> 4) :: hexNibble (c.toNat &&& 0x0f) :: encode src

/-- The loop of validate at the text that is left, terminator included. -/
def validateFrom (bytes : ℕ) : List UInt8 → ℕ → Option Validation
  | [], _ => none
  | c :: rest, index =>
    if c = 0 then
      if index % 2 ≠ 0 then some ⟨false, index, bytes⟩ else some ⟨true, index, index / 2⟩
    else if !isValidHex c then some ⟨false, index, bytes⟩
    else validateFrom bytes rest (index + 1)

def validate (text : List UInt8) (bytes : ℕ) : Option Validation :=
  validateFrom bytes (text ++ [0]) 0

def lengthError : String :=
  "Decoding to hexadecimal would require more memory than can be addressed."

/-- The result string is resized first, to a length that is computed with size_t, and then
written through an unchecked iterator. -/
def readHex (limits : StringLimits) (src : List UInt8) : Outcome (List UInt8) :=
  let len := src.length
  let resultLen := len * 2 % 2 ^ limits.width
  if resultLen < len then .throws lengthError []
  else if limits.maxSize < resultLen then .throws limits.tooLong []
  else if (encode src).length ≤ resultLen then
    .ok (encode src ++ List.replicate (resultLen - (encode src).length) 0)
  else .undefined

/-- The overload that reads from a buffer and moves its read position. -/
def readHexBuffer (limits : StringLimits) (buf : Buffer) (len : ℕ) :
    Outcome (List UInt8 × Buffer) :=
  let src := buf.data.drop buf.getReadpos
  let len := min len buf.bytesRemaining
  match readHex limits (src.take len) with
  | .ok result => .ok (result, buf.setReadpos (buf.getReadpos + len))
  | .throws what result => .throws what (result, buf)
  | .undefined => .undefined

def outBufferSize : ℕ := 2048

section Write

variable {δ : Type*} (rw : ReadWritable δ)

/-- The loop of writeHex at the memory from pStr on, of which the given number of
characters is in front of hexEnd; out holds the bytes in front of outBufPtr. -/
def decodeFrom (table : Table) : List UInt8 → ℕ → List UInt8 → δ → Option δ
  | _, 0, out, dest => some (rw.write dest out)
  | first :: second :: memory, left + 1, out, dest =>
    match table.getD (charPair first second).toNat none with
    | none => none
    | some value =>
      let out := out ++ [value]
      if out.length ≥ outBufferSize then
        decodeFrom table memory (left - 1) [] (rw.write dest out)
      else decodeFrom table memory (left - 1) out dest
  | _, _ + 1, _, _ => none

/-- The returned double and the destination afterwards. -/
def writeHex (hexStr : List UInt8) (dest : δ) : Option (ℤ × δ) :=
  match validate hexStr 0 with
  | none => none
  | some validation =>
    if !validation.result then some (-2, dest)
    else
      match decodeFrom rw hexValue (hexStr ++ [0]) validation.endIndex []
          (rw.prepareWrite dest validation.bytes) with
      | none => none
      | some dest => some (1, dest)

end Write

end FaucetNetworking.HexCodec
