import FaucetNetworking.Api.Objects
import FaucetNetworking.BitFunctions
import FaucetNetworking.ChunkedWrites
import FaucetNetworking.Lib.Program
import FaucetNetworking.NearestFloat
import FaucetNetworking.NearestValue
import FaucetNetworking.ScriptReads

/-!
The functions of the API, as programs that look handles up and call member functions through
the pointers that they get. The mutex of the API is held meanwhile, but it does not keep
handlers from running between two of the calls. The handle map is only used under this mutex,
so that allocating or releasing a handle is one step with what comes before: a handler that
runs between the two runs afterwards, or before. A pointer to a receive buffer is taken for
one to its socket, and setSendbufferLimit of a UDP socket, which takes no lock, is one step. So
is hasError of an acceptor, which reads two flags that are never cleared.
-/
namespace FaucetNetworking

open Ieee754 ByteDigits Program

/-- The objects that are created for a handle. -/
inductive Construction where
  | buffer
  | tcpConnectTo (host : String) (port : ℕ)
  | tcpError (message : String)
  | udpBind (port : UInt16)
  | udpError (message : String)
  | combinedTcpAcceptor (port : UInt16)
  | ipLookup (host : String) (protocol : LookupProtocol)

/-- What a function of the API does at once, as seen by the handlers. -/
inductive Primitive where
  | undefined
  | find (t : RequestedType) (handle : Datum binary64)
  | member (place : ℕ) (m : Member)
  /-- An object is created, and gets a handle. -/
  | allocate (c : Construction)
  /-- The two polls of an acceptor with what runs between them, and the handle of the socket
  that they give. -/
  | accept (place : ℕ)
  /-- The last call of the library user, and the release of the handle. -/
  | destroySocket (handle : Datum binary64) (place : ℕ) (hard : Bool)
  | release (handle : Datum binary64)
  | getDefaultUdpSocket
  | setLittleEndianDefault (littleEndian : Bool)
  | size

abbrev Primitive.Result : Primitive → Type
  | .undefined => Empty
  | .find _ _ => Option ℕ
  | .member _ m => m.Result
  | .allocate _ => UInt32
  | .accept _ => Option UInt32
  | .destroySocket _ _ _ | .release _ | .setLittleEndianDefault _ => Unit
  | .getDefaultUdpSocket => ℕ
  | .size => ℕ

abbrev ApiProgram (α : Type) := Program Primitive Primitive.Result α

/-- What a function returns to Game Maker. -/
inductive Reply where
  | number (n : ℤ)
  | double (d : Datum binary64)
  | text (bytes : List UInt8)
  | string (s : String)
  /-- A number, and the string of the script that has been filled. -/
  | filled (n : ℕ) (outstr : List UInt8)
  /-- A number, and the bytes that have been written to a file. -/
  | saved (n : ℤ) (file : List UInt8)

namespace Api

def undefined {α : Type} : ApiProgram α := .call .undefined Empty.elim

def find (t : RequestedType) (handle : Datum binary64) : ApiProgram (Option ℕ) :=
  request (Q := Primitive) (R := Primitive.Result) (.find t handle)

def member (place : ℕ) (m : Member) : ApiProgram m.Result :=
  request (Q := Primitive) (R := Primitive.Result) (.member place m)

def truth (b : Bool) : Reply := .number b.toNat

def handleReply (handle : UInt32) : Reply := .number handle.toNat

/-- Look a handle up, and go on with the pointer unless it is null. -/
def withObject (t : RequestedType) (handle : Datum binary64) (otherwise : Reply)
    (f : ℕ → ApiProgram Reply) : ApiProgram Reply := do
  match ← find t handle with
  | some place => f place
  | none => return otherwise

/-- A call of one member function, and what is made of its result. -/
def withMember (m : Member) (handle : Datum binary64) (otherwise : Reply)
    (reply : m.Result → Reply) : ApiProgram Reply :=
  withObject m.requestedType handle otherwise fun place => do
    return reply (← member place m)

/-- A value that a NaN has none of. -/
def defined {α : Type} (value : Option α) (f : α → ApiProgram Reply) : ApiProgram Reply :=
  match value with
  | some a => f a
  | none => undefined

/-- The conversion to uint16_t fails for what is no uint16_t. -/
def castPort (value : Value) : NumericCast :=
  match numericCast value with
  | .value n => if n.toNat < 2 ^ 16 then .value n else .badNumericCast
  | cast => cast

/-- The port that a try block around the conversion leaves. -/
def portOrZero (value : Value) : Option ℕ :=
  match castPort value with
  | .value n => some n.toNat
  | .badNumericCast => some 0
  | .undefined => none

def invalidArgument : String := "Invalid argument"

/-- The conversion of a double to bool. -/
def nonzero (value : Value) : Bool := value != .finite 0

/-! ### Sockets -/

def allocate (c : Construction) : ApiProgram Reply := do
  return handleReply (← request (Q := Primitive) (R := Primitive.Result) (.allocate c))

def tcpConnect (host : String) (port : Datum binary64) : ApiProgram Reply :=
  defined (portOrZero port.value) fun intPort =>
    if intPort = 0 then allocate (.tcpError invalidArgument)
    else allocate (.tcpConnectTo host intPort)

def tcpSetNodelay (socketHandle nodelay : Datum binary64) : ApiProgram Reply :=
  withMember (.setNoDelay (isBitSet nodelay.value)) socketHandle (.number (-1)) fun done =>
    .number (if done then 1 else -1)

def udpBind (port : Datum binary64) : ApiProgram Reply :=
  match castPort port.value with
  | .value n => allocate (.udpBind (UInt16.ofNat n.toNat))
  | .badNumericCast => allocate (.udpError invalidArgument)
  | .undefined => undefined

def socketConnecting (socketHandle : Datum binary64) : ApiProgram Reply :=
  withMember .isConnecting socketHandle (truth false) truth

def tcpListen (port : Datum binary64) : ApiProgram Reply :=
  match castPort port.value with
  | .value n => allocate (.combinedTcpAcceptor (UInt16.ofNat n.toNat))
  | .badNumericCast => allocate (.tcpError invalidArgument)
  | .undefined => undefined

def socketAccept (handle : Datum binary64) : ApiProgram Reply :=
  withObject (.exactly .combinedTcpAcceptor) handle (.number (-1)) fun place => do
    match ← request (Q := Primitive) (R := Primitive.Result) (.accept place) with
    | some accepted => return handleReply accepted
    | none => return .number (-1)

def tcpListeningV4 (handle : Datum binary64) : ApiProgram Reply :=
  withMember (.isListening .v4) handle (truth false) truth

def tcpListeningV6 (handle : Datum binary64) : ApiProgram Reply :=
  withMember (.isListening .v6) handle (truth false) truth

def socketHasError (handle : Datum binary64) : ApiProgram Reply :=
  withMember .hasError handle (truth true) truth

def socketError (handle : Datum binary64) : ApiProgram Reply :=
  withMember .getErrorMessage handle (.string "This handle is invalid.") .string

/-- The classes are tried one after the other. -/
def destroyFirst (handle : Datum binary64) (hard : Bool) : List ObjectClass → ApiProgram Reply
  | [] => return .number 0
  | c :: cs => do
    match ← find (.exactly c) handle with
    | some place =>
      request (Q := Primitive) (R := Primitive.Result) (.destroySocket handle place hard)
      return .number 0
    | none => destroyFirst handle hard cs

def destroySocket (handle : Datum binary64) (hard : Bool) : ApiProgram Reply :=
  destroyFirst handle hard [.tcpSocket, .combinedTcpAcceptor, .udpSocket]

def socketDestroy (handle : Datum binary64) : ApiProgram Reply := destroySocket handle false

def socketDestroyAbortive (handle : Datum binary64) : ApiProgram Reply := destroySocket handle true

def tcpReceive (socketHandle size : Datum binary64) : ApiProgram Reply :=
  withObject (.exactly .tcpSocket) socketHandle (truth false) fun place =>
    match numericCast size.value with
    | .value n => do return truth (← member place (.receive n.toNat))
    | .badNumericCast => return truth false
    | .undefined => undefined

def tcpReceiveAvailable (socketHandle : Datum binary64) : ApiProgram Reply :=
  withMember .receiveAvailable socketHandle (.number 0) fun size => .number size

def tcpEof (socketHandle : Datum binary64) : ApiProgram Reply :=
  withMember .isEof socketHandle (truth true) truth

def socketSend (socketHandle : Datum binary64) : ApiProgram Reply :=
  withMember .send socketHandle (.number 0) fun _ => .number 0

def socketSendbufferSize (socketHandle : Datum binary64) : ApiProgram Reply :=
  withMember .getSendbufferSize socketHandle (.number 0) fun size => .number size

def socketReceivebufferSize (socketHandle : Datum binary64) : ApiProgram Reply :=
  withObject .socket socketHandle (.number 0) fun place => do
    return .number (← member place .contents).size

def socketSendbufferLimit (socketHandle sizeLimit : Datum binary64) : ApiProgram Reply :=
  withObject .socket socketHandle (.number 0) fun place =>
    defined (clippedSize sizeLimit.value) fun intSize => do
      let intSize := if intSize = 0 then TcpConnected.sizeMax else intSize
      member place (.setSendbufferLimit intSize)
      return .number 0

/-! ### Writing -/

def writeIntValue (t : IntType) (handle value : Datum binary64) : ApiProgram Reply :=
  withObject .readWritable handle (.number 0) fun place =>
    defined (t.converted value.value) fun n => do
      member place (.writeByteOrderAware t.size (t.store n))
      return .number 0

def writeUbyte (handle value : Datum binary64) : ApiProgram Reply :=
  writeIntValue .uint8 handle value

def writeByte (handle value : Datum binary64) : ApiProgram Reply :=
  writeIntValue .int8 handle value

def writeUshort (handle value : Datum binary64) : ApiProgram Reply :=
  writeIntValue .uint16 handle value

def writeShort (handle value : Datum binary64) : ApiProgram Reply :=
  writeIntValue .int16 handle value

def writeUint (handle value : Datum binary64) : ApiProgram Reply :=
  writeIntValue .uint32 handle value

def writeInt (handle value : Datum binary64) : ApiProgram Reply :=
  writeIntValue .int32 handle value

def writeFloat (handle value : Datum binary64) : ApiProgram Reply :=
  withMember (.writeByteOrderAware 4 (Image.encode 4 (clippedFloat value).bits)) handle
    (.number 0) fun _ => .number 0

def writeDouble (handle value : Datum binary64) : ApiProgram Reply :=
  withMember (.writeByteOrderAware 8 (Image.encode 8 value.bits)) handle (.number 0)
    fun _ => .number 0

def writeString (handle : Datum binary64) (str : List UInt8) : ApiProgram Reply :=
  withMember (.write (cString str)) handle (.number 0) fun _ => .number 0

def fnetHiddenWriteBinaryString (handle : Datum binary64) (str : List UInt8) : ApiProgram Reply :=
  withMember (.write str) handle (.number 0) fun _ => .number 0

/-- The blocks that write_buffer_part copies, with what the temporary buffer holds. -/
def copyBlock (dest source size : ℕ) (tempBuffer : List UInt8) : ApiProgram (List UInt8) := do
  let bytes ← member source (.read size)
  let tempBuffer := bytes ++ tempBuffer.drop bytes.length
  member dest (.write (tempBuffer.take size))
  return tempBuffer

def copyFullBuffers (dest source : ℕ) : ℕ → List UInt8 → ApiProgram (List UInt8)
  | 0, tempBuffer => return tempBuffer
  | n + 1, tempBuffer => do
    let tempBuffer ← copyBlock dest source 4096 tempBuffer
    copyFullBuffers dest source n tempBuffer

/-- The part of write_buffer_part behind the conversion of the amount. -/
def copyPart (tempBuffer : List UInt8) (destHandle bufferHandle : Datum binary64)
    (intAmmount : ℕ) : ApiProgram Reply := do
  let dest ← find .readWritable destHandle
  let source ← find .readWritable bufferHandle
  match dest, source with
  | some dest, some source =>
    let intAmmount := min intAmmount (← member source .bytesRemaining)
    let tempBuffer ← copyFullBuffers dest source (intAmmount / 4096) tempBuffer
    let _ ← copyBlock dest source (intAmmount % 4096) tempBuffer
    return .number intAmmount
  | _, _ => return .number 0

def writeBufferPart (tempBuffer : List UInt8) (destHandle bufferHandle ammount : Datum binary64) :
    ApiProgram Reply :=
  defined (clippedSize ammount.value) (copyPart tempBuffer destHandle bufferHandle)

/-- The part of write_buffer behind the three lookups. -/
def writeFound (tempBuffer : List UInt8) (destHandle bufferHandle : Datum binary64) :
    (dest srcBuffer srcSocket : Option ℕ) → ApiProgram Reply
  | some _, some srcBuffer, _ => do
    let b ← member srcBuffer .contents
    let oldReadPos := sizeSub b.size b.bytesRemaining
    member srcBuffer (.setReadpos 0)
    let _ ← defined (clippedSize (.finite b.size)) (copyPart tempBuffer destHandle bufferHandle)
    member srcBuffer (.setReadpos oldReadPos)
    return .number 0
  | some dest, none, some srcSocket => do
    let b ← member srcSocket .contents
    member dest (.write b.data)
    return .number 0
  | _, _, _ => return .number 0

def writeBuffer (tempBuffer : List UInt8) (destHandle bufferHandle : Datum binary64) :
    ApiProgram Reply := do
  let dest ← find .readWritable destHandle
  let srcBuffer ← find (.exactly .buffer) bufferHandle
  let srcSocket ← find .socket bufferHandle
  writeFound tempBuffer destHandle bufferHandle dest srcBuffer srcSocket

/-- A destination that records the pieces that are written to it. -/
def recorder : ReadWritable (List (List UInt8)) where
  write := fun pieces bytes => pieces ++ [bytes]
  read := fun pieces _ => ([], pieces)
  readString := fun pieces _ => ([], pieces)
  bytesRemaining := fun _ => 0
  setReadpos := fun pieces _ => pieces
  prepareWrite := fun pieces _ => pieces

def writePieces (place : ℕ) : List (List UInt8) → ApiProgram Unit
  | [] => return ()
  | piece :: pieces => do
    member place (.write piece)
    writePieces place pieces

/-- What a decoder has written, and what it returns. -/
def writeDecoded (destHandle : Datum binary64) (decoded : Option (ℤ × List (List UInt8))) :
    ApiProgram Reply :=
  withObject .readWritable destHandle (.number (-1)) fun place =>
    defined decoded fun decoded => do
      writePieces place decoded.2
      return .number decoded.1

def writeHex (destHandle : Datum binary64) (hexStr : List UInt8) : ApiProgram Reply :=
  writeDecoded destHandle (HexCodec.writeHex recorder hexStr [])

def writeBase64 (destHandle : Datum binary64) (hexStr : List UInt8) : ApiProgram Reply :=
  writeDecoded destHandle (Base64Codec.writeBase64 recorder hexStr []).toOption

/-- How the file is read: its bytes, or the number that stands for an error. -/
def appendFileToBuffer (handle : Datum binary64) (file : Except ℤ (List UInt8)) :
    ApiProgram Reply :=
  withObject .readWritable handle (.number (-10)) fun place =>
    match file with
    | .error number => return .number number
    | .ok bytes => do
      member place (.write bytes)
      return .number 1

/-! ### Buffers -/

def bufferCreate : ApiProgram Reply := allocate .buffer

/-- buffer_destroy and ip_lookup_destroy. -/
def releaseObject (c : ObjectClass) (handle : Datum binary64) : ApiProgram Reply :=
  withObject (.exactly c) handle (.number 0) fun _ => do
    request (Q := Primitive) (R := Primitive.Result) (.release handle)
    return .number 0

def bufferDestroy (handle : Datum binary64) : ApiProgram Reply := releaseObject .buffer handle

def bufferClear (handle : Datum binary64) : ApiProgram Reply :=
  withMember .clear handle (.number 0) fun _ => .number 0

def bufferSize (handle : Datum binary64) : ApiProgram Reply :=
  withObject (.exactly .buffer) handle (.number 0) fun place => do
    return .number (← member place .contents).size

def bufferBytesLeft (handle : Datum binary64) : ApiProgram Reply :=
  withMember .bytesRemaining handle (.number 0) fun size => .number size

def bufferSetReadpos (handle newPos : Datum binary64) : ApiProgram Reply :=
  withObject .readWritable handle (.number 0) fun place =>
    defined (clippedSize newPos.value) fun pos => do
      member place (.setReadpos pos)
      return .number 0

/-! ### Reading -/

def readValue (t : ReadType) (handle : Datum binary64) : ApiProgram Reply :=
  withMember (.readValue t) handle (.number 0) .double

def readUbyte (handle : Datum binary64) : ApiProgram Reply := readValue (.int .uint8) handle

def readByte (handle : Datum binary64) : ApiProgram Reply := readValue (.int .int8) handle

def readUshort (handle : Datum binary64) : ApiProgram Reply := readValue (.int .uint16) handle

def readShort (handle : Datum binary64) : ApiProgram Reply := readValue (.int .int16) handle

def readUint (handle : Datum binary64) : ApiProgram Reply := readValue (.int .uint32) handle

def readInt (handle : Datum binary64) : ApiProgram Reply := readValue (.int .int32) handle

def readFloat (handle : Datum binary64) : ApiProgram Reply := readValue .float handle

def readDouble (handle : Datum binary64) : ApiProgram Reply := readValue .double handle

def readString (handle len : Datum binary64) : ApiProgram Reply :=
  withObject .readWritable handle (.text []) fun place =>
    defined (clippedSize len.value) fun len => do
      return .text (← member place (.read len))

def getBufferOrReceiveBuffer (handle : Datum binary64) : ApiProgram (Option ℕ) := do
  let buffer ← find (.exactly .buffer) handle
  let socket ← find .socket handle
  return buffer.or socket

def fnetHiddenReadBinaryString (handle : Datum binary64) (outstr : List UInt8) :
    ApiProgram Reply := do
  match ← getBufferOrReceiveBuffer handle with
  | some place =>
    let bytes ← member place (.read outstr.length)
    return .filled bytes.length (bytes ++ outstr.drop bytes.length)
  | none => return .filled 0 outstr

def fnetHiddenSkipLengthOfString (handle : Datum binary64) (skip : List UInt8) :
    ApiProgram Reply := do
  match ← getBufferOrReceiveBuffer handle with
  | some place =>
    let b ← member place .contents
    member place (.setReadpos (b.getReadpos + skip.length))
    return .number 0
  | none => return .number 0

def fnetHiddenBytesBeforeDelimiter (handle : Datum binary64) (needle : List UInt8) :
    ApiProgram Reply := do
  match ← getBufferOrReceiveBuffer handle with
  | some place => return .number (bytesBeforeDelimiter (some (← member place .contents)) needle)
  | none => return .number (bytesBeforeDelimiter none needle)

def readDelimitedString (handle : Datum binary64) (delim : List UInt8) : ApiProgram Reply := do
  match ← getBufferOrReceiveBuffer handle with
  | some place =>
    let length := bytesBeforeDelimiter (some (← member place .contents)) delim
    if length ≥ 0 then
      let result ← member place (.read length.toNat)
      let b ← member place .contents
      member place (.setReadpos (b.getReadpos + delim.length))
      return .text result
    else return .text []
  | none => return .text []

def fnetHiddenReadDelimitedString (handle : Datum binary64) (delimiter : List UInt8) :
    ApiProgram Reply := readDelimitedString handle (cString delimiter)

def fnetHiddenReadCstring (handle : Datum binary64) : ApiProgram Reply :=
  readDelimitedString handle [0]

/-- An encoder reads from the address of the data, and moves the read position. -/
def readEncoded (encode : Buffer → ℕ → Outcome (List UInt8 × Buffer))
    (srcHandle dLen : Datum binary64) : ApiProgram Reply := do
  let src ← getBufferOrReceiveBuffer srcHandle
  defined (clippedSize dLen.value) fun len => do
    match src with
    | some place =>
      match encode (← member place .contents) len with
      | .ok (text, b) =>
        member place (.setReadpos b.getReadpos)
        return .text text
      | _ => undefined
    | none => return .text []

def readHex (srcHandle dLen : Datum binary64) : ApiProgram Reply :=
  readEncoded (HexCodec.readHexBuffer .mingw) srcHandle dLen

def readBase64 (srcHandle dLen : Datum binary64) : ApiProgram Reply :=
  readEncoded (Base64Codec.readBase64Buffer .mingw) srcHandle dLen

/-- How the file is opened and written: fopen fails, or fwrite writes no more than the given
number of bytes. -/
def writeBufferToFile (handle : Datum binary64) (file : Option ℕ) : ApiProgram Reply := do
  match ← getBufferOrReceiveBuffer handle with
  | some place =>
    match file with
    | none => return .number (-1)
    | some room => do
      let b ← member place .contents
      let written := b.data.take room
      return .saved (if written.length ≠ b.size then -2 else 1) written
  | none => return .number (-10)

/-! ### UDP -/

/-- With the handle of a buffer, its content becomes a datagram of the default socket. -/
def getUdpSocketOrPrepareDefaultSocket (handle : Datum binary64) : ApiProgram (Option ℕ) := do
  match ← find (.exactly .buffer) handle with
  | some buffer =>
    let defaultSocket ← request (Q := Primitive) (R := Primitive.Result) .getDefaultUdpSocket
    let b ← member buffer .contents
    member defaultSocket (.write b.data)
    return some defaultSocket
  | none => find (.exactly .udpSocket) handle

def sendDatagram (handle port : Datum binary64) (m : ℕ → Member)
    (truthOf : ∀ intPort, (m intPort).Result → Bool) : ApiProgram Reply :=
  defined (portOrZero port.value) fun intPort =>
    if intPort = 0 then return truth false
    else do
      match ← getUdpSocketOrPrepareDefaultSocket handle with
      | some sock => return truth (truthOf intPort (← member sock (m intPort)))
      | none => return truth false

def udpSend (handle : Datum binary64) (host : String) (port : Datum binary64) : ApiProgram Reply :=
  sendDatagram handle port (.sendTo host) fun _ discarded => discarded

def udpBroadcast (handle port : Datum binary64) : ApiProgram Reply :=
  sendDatagram handle port .broadcast fun _ discarded => discarded

def udpReceive (handle : Datum binary64) : ApiProgram Reply :=
  withMember .receiveDatagram handle (truth false) truth

/-! ### Other functions -/

def debugHandles : ApiProgram Reply := do
  return .number (← request (Q := Primitive) (R := Primitive.Result) .size)

def setLittleEndianGlobal (littleEndian : Datum binary64) : ApiProgram Reply := do
  request (Q := Primitive) (R := Primitive.Result)
    (.setLittleEndianDefault (nonzero littleEndian.value))
  return .number 0

def setLittleEndian (handle littleEndian : Datum binary64) : ApiProgram Reply :=
  withMember (.setLittleEndian (nonzero littleEndian.value)) handle (.number 0) fun _ => .number 0

def socketRemoteIp (handle : Datum binary64) : ApiProgram Reply :=
  withMember .getRemoteIp handle (.string "") .string

/-- A socket is looked for first, and an acceptor then. -/
def socketLocalPort (handle : Datum binary64) : ApiProgram Reply := do
  match ← find .socket handle with
  | some place => return .number (← member place .getLocalPort)
  | none => withMember .getListeningPort handle (.number 0) fun port => .number port

def socketRemotePort (handle : Datum binary64) : ApiProgram Reply :=
  withMember .getRemotePort handle (.number 0) fun port => .number port

def ipLookupCreate (host : String) : ApiProgram Reply := allocate (.ipLookup host .any)

def ipv4LookupCreate (host : String) : ApiProgram Reply := allocate (.ipLookup host .v4)

def ipv6LookupCreate (host : String) : ApiProgram Reply := allocate (.ipLookup host .v6)

def ipLookupReady (lookupHandle : Datum binary64) : ApiProgram Reply :=
  withMember .ready lookupHandle (truth true) truth

def ipLookupHasNext (lookupHandle : Datum binary64) : ApiProgram Reply :=
  withMember .hasNext lookupHandle (truth false) truth

def ipLookupNextResult (lookupHandle : Datum binary64) : ApiProgram Reply :=
  withMember .nextResult lookupHandle (.string "") .string

def ipLookupDestroy (lookupHandle : Datum binary64) : ApiProgram Reply :=
  releaseObject .ipLookup lookupHandle

end Api

end FaucetNetworking
