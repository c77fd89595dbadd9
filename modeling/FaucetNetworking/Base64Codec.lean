import FaucetNetworking.Buffer

/-!
The Base64 codec: the lookup table the constructor builds, the encoder, the
validator and the decoder. Texts are C strings, given without their terminator.
A lookup with an index outside of the table, or at an entry the constructor
never wrote, and a read behind the terminator are undefined behaviour and end
the modelled call.
-/
namespace FaucetNetworking.Base64Codec

def byte (c : Char) : UInt8 := UInt8.ofNat c.toNat

def BV_INVALID : UInt8 := 0xff
def BV_WHITESPACE : UInt8 := 0xfe
def BV_PADDING : UInt8 := 0xfd
def BV_END : UInt8 := 0xfc

def baseChars : List UInt8 :=
  ['A', 'B', 'C', 'D', 'E', 'F', 'G', 'H', 'I', 'J', 'K', 'L', 'M',
    'N', 'O', 'P', 'Q', 'R', 'S', 'T', 'U', 'V', 'W', 'X', 'Y', 'Z',
    'a', 'b', 'c', 'd', 'e', 'f', 'g', 'h', 'i', 'j', 'k', 'l', 'm',
    'n', 'o', 'p', 'q', 'r', 's', 't', 'u', 'v', 'w', 'x', 'y', 'z',
    '0', '1', '2', '3', '4', '5', '6', '7', '8', '9', '+', '/'].map byte

def baseChar (i : ℕ) : UInt8 := baseChars.getD i 0

/-- A std::array of which only the entries written so far have a value. -/
abbrev Table := List (Option UInt8)

def Table.store (t : Table) (index : UInt8) (value : UInt8) : Table :=
  t.set index.toNat (some value)

/-- The table as the constructor leaves it. -/
@[irreducible] def baseValues : Table :=
  let table : Table := List.replicate 256 none
  let table := (List.range 255).foldl (fun t i => t.set i (some BV_INVALID)) table
  let table := (List.range 64).foldl (fun t i => t.store (baseChar i) (UInt8.ofNat i)) table
  let table := table.store (byte '-') 0x3e
  let table := table.store (byte '_') 0x3f
  let table := table.store (byte '\n') BV_WHITESPACE
  let table := table.store (byte '\r') BV_WHITESPACE
  let table := table.store (byte '=') BV_PADDING
  table.store 0 BV_END

inductive Fault where
  | indexOutOfBounds
  | uninitialisedEntry
  | readBehindTerminator
  deriving DecidableEq, Repr

/-- The index a char becomes as the argument of operator[]; char is signed. -/
def charIndex (c : UInt8) : ℕ := toSize c.toInt8.toInt

def lookup (c : UInt8) : Except Fault UInt8 :=
  match baseValues[charIndex c]? with
  | none => .error .indexOutOfBounds
  | some none => .error .uninitialisedEntry
  | some (some value) => .ok value

/-- Three bytes at a time, then one or two left over with padding. -/
def encode : List UInt8 → List UInt8
  | x :: y :: z :: rest =>
    let b := x.toNat <<< 16 ||| y.toNat <<< 8 ||| z.toNat
    baseChar (b >>> 18 &&& 0x3f) :: baseChar (b >>> 12 &&& 0x3f) ::
      baseChar (b >>> 6 &&& 0x3f) :: baseChar (b &&& 0x3f) :: encode rest
  | [x] =>
    let b := x.toNat
    [baseChar (b >>> 2 &&& 0x3f), baseChar (b <<< 4 &&& 0x3f), byte '=', byte '=']
  | [x, y] =>
    let b := x.toNat <<< 8 ||| y.toNat
    [baseChar (b >>> 10 &&& 0x3f), baseChar (b >>> 4 &&& 0x3f), baseChar (b <<< 2 &&& 0x3f),
      byte '=']
  | [] => []

/-- The result of validate and the values of its two output parameters. -/
structure Validation where
  result : Bool
  endIndex : ℕ
  bytes : ℕ
  deriving DecidableEq, Repr

/-- The loop of validate at the text that is left, terminator included. -/
def validateFrom (bytes : ℕ) : List UInt8 → ℕ → ℕ → ℕ → ℕ → Except Fault Validation
  | [], _, _, _, _ => .error .readBehindTerminator
  | c :: rest, index, quadChars, extraBytes, quadPos =>
    match lookup c with
    | .error fault => .error fault
    | .ok charval =>
      if charval < 0x40 then
        let quadPos := quadPos + 1
        validateFrom bytes rest (index + 1) (quadChars + (quadPos &&& 0x04)) extraBytes
          (quadPos &&& 0x03)
      else if charval = BV_WHITESPACE then
        validateFrom bytes rest (index + 1) quadChars extraBytes quadPos
      else if charval = BV_PADDING then
        if quadPos = 1 then
          -- the source returns -3 from a function whose result type is bool
          .ok ⟨toBool (-3), index, bytes⟩
        else
          let extraBytes := if quadPos = 2 then extraBytes + 1 else extraBytes
          let extraBytes := if quadPos = 3 then extraBytes + 2 else extraBytes
          validateFrom bytes rest (index + 1) quadChars extraBytes 0
      else if charval = BV_END then .ok ⟨true, index, quadChars / 4 * 3 + extraBytes⟩
      else .ok ⟨false, index, bytes⟩

def validate (text : List UInt8) (bytes : ℕ) : Except Fault Validation :=
  validateFrom bytes (text ++ [0]) 0 0 0 0

def lengthError : String :=
  "Decoding to hexadecimal would require more memory than can be addressed."

/-- The result string is resized first, to a length that is computed with size_t, and then
written through an unchecked iterator. -/
def readBase64 (limits : StringLimits) (src : List UInt8) : Outcome (List UInt8) :=
  let len := src.length
  let resultLen := (len + 2) % 2 ^ limits.width / 3 * 4 % 2 ^ limits.width
  if resultLen < len then .throws lengthError []
  else if limits.maxSize < resultLen then .throws limits.tooLong []
  else if (encode src).length ≤ resultLen then
    .ok (encode src ++ List.replicate (resultLen - (encode src).length) 0)
  else .undefined

/-- The overload that reads from a buffer and moves its read position. -/
def readBase64Buffer (limits : StringLimits) (buf : Buffer) (len : ℕ) :
    Outcome (List UInt8 × Buffer) :=
  let src := buf.data.drop buf.getReadpos
  let len := min len buf.bytesRemaining
  match readBase64 limits (src.take len) with
  | .ok result => .ok (result, buf.setReadpos (buf.getReadpos + len))
  | .throws what result => .throws what (result, buf)
  | .undefined => .undefined

def outBufferSize : ℕ := 2048

section Write

variable {δ : Type*} (rw : ReadWritable δ)

/-- The loop of writeBase64 at the text that is left, terminator included;
out holds the bytes of the staging buffer in front of outIter. -/
def decodeFrom : List UInt8 → List UInt8 → ℕ → ℕ → δ → Except Fault δ
  | [], _, _, _, _ => .error .readBehindTerminator
  | c :: rest, out, bitBuffer, bitsInBuffer, dest =>
    match lookup c with
    | .error fault => .error fault
    | .ok charval =>
      if charval < 0x40 then
        let bitBuffer := (bitBuffer <<< 6 ||| charval.toNat) % 2 ^ 16
        let bitsInBuffer := bitsInBuffer + 6
        if bitsInBuffer ≥ 8 then
          let bitsInBuffer := bitsInBuffer - 8
          let out := out ++ [UInt8.ofNat (bitBuffer >>> bitsInBuffer)]
          if out.length = outBufferSize then
            decodeFrom rest [] bitBuffer bitsInBuffer (rw.write dest out)
          else decodeFrom rest out bitBuffer bitsInBuffer dest
        else decodeFrom rest out bitBuffer bitsInBuffer dest
      else if charval = BV_WHITESPACE then decodeFrom rest out bitBuffer bitsInBuffer dest
      else if charval = BV_PADDING then decodeFrom rest out bitBuffer 0 dest
      else if charval = BV_END then .ok (rw.write dest out)
      else decodeFrom rest out bitBuffer bitsInBuffer dest

/-- The returned double and the destination afterwards. -/
def writeBase64 (baseStr : List UInt8) (dest : δ) : Except Fault (ℤ × δ) :=
  match validate baseStr 0 with
  | .error fault => .error fault
  | .ok validation =>
    if !validation.result then .ok (-2, dest)
    else
      match decodeFrom rw (baseStr ++ [0]) [] 0 0 (rw.prepareWrite dest validation.bytes) with
      | .error fault => .error fault
      | .ok dest => .ok (1, dest)

end Write

end FaucetNetworking.Base64Codec
