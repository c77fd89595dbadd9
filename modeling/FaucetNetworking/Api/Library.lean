import FaucetNetworking.Api.Functions

/-!
The library with all its objects. The script makes one call after the other, and while a call
runs, and between the calls, the handlers of the objects run.
-/
namespace FaucetNetworking

open Ieee754 StateMachine

/-! ### The exported functions -/

/-- The functions with their arguments. A string is given by its bytes where only these
matter. -/
inductive ApiCall where
  | tcpConnect (host : String) (port : Datum binary64)
  | tcpSetNodelay (socketHandle nodelay : Datum binary64)
  | udpBind (port : Datum binary64)
  | socketConnecting (socketHandle : Datum binary64)
  | tcpListen (port : Datum binary64)
  | socketAccept (handle : Datum binary64)
  | tcpListeningV4 (handle : Datum binary64)
  | tcpListeningV6 (handle : Datum binary64)
  | socketHasError (handle : Datum binary64)
  | socketError (handle : Datum binary64)
  | socketDestroy (handle : Datum binary64)
  | socketDestroyAbortive (handle : Datum binary64)
  | tcpReceive (socketHandle size : Datum binary64)
  | tcpReceiveAvailable (socketHandle : Datum binary64)
  | tcpEof (socketHandle : Datum binary64)
  | socketSend (socketHandle : Datum binary64)
  | socketSendbufferSize (socketHandle : Datum binary64)
  | socketReceivebufferSize (socketHandle : Datum binary64)
  | socketSendbufferLimit (socketHandle sizeLimit : Datum binary64)
  | writeUbyte (handle value : Datum binary64)
  | writeByte (handle value : Datum binary64)
  | writeUshort (handle value : Datum binary64)
  | writeShort (handle value : Datum binary64)
  | writeUint (handle value : Datum binary64)
  | writeInt (handle value : Datum binary64)
  | writeFloat (handle value : Datum binary64)
  | writeDouble (handle value : Datum binary64)
  | writeString (handle : Datum binary64) (str : List UInt8)
  | fnetHiddenWriteBinaryString (handle : Datum binary64) (str : List UInt8)
  | writeBufferPart (tempBuffer : List UInt8) (destHandle bufferHandle ammount : Datum binary64)
  | writeBuffer (tempBuffer : List UInt8) (destHandle bufferHandle : Datum binary64)
  | writeHex (destHandle : Datum binary64) (hexStr : List UInt8)
  | writeBase64 (destHandle : Datum binary64) (hexStr : List UInt8)
  | appendFileToBuffer (handle : Datum binary64) (file : Except ℤ (List UInt8))
  | writeBufferToFile (handle : Datum binary64) (file : Option ℕ)
  | bufferCreate
  | bufferDestroy (handle : Datum binary64)
  | bufferClear (handle : Datum binary64)
  | bufferSize (handle : Datum binary64)
  | bufferBytesLeft (handle : Datum binary64)
  | bufferSetReadpos (handle newPos : Datum binary64)
  | readUbyte (handle : Datum binary64)
  | readByte (handle : Datum binary64)
  | readUshort (handle : Datum binary64)
  | readShort (handle : Datum binary64)
  | readUint (handle : Datum binary64)
  | readInt (handle : Datum binary64)
  | readFloat (handle : Datum binary64)
  | readDouble (handle : Datum binary64)
  | readString (handle len : Datum binary64)
  | fnetHiddenReadBinaryString (handle : Datum binary64) (outstr : List UInt8)
  | fnetHiddenSkipLengthOfString (handle : Datum binary64) (skip : List UInt8)
  | fnetHiddenBytesBeforeDelimiter (handle : Datum binary64) (needle : List UInt8)
  | fnetHiddenReadDelimitedString (handle : Datum binary64) (delimiter : List UInt8)
  | fnetHiddenReadCstring (handle : Datum binary64)
  | readHex (srcHandle dLen : Datum binary64)
  | readBase64 (srcHandle dLen : Datum binary64)
  | udpSend (handle : Datum binary64) (host : String) (port : Datum binary64)
  | udpBroadcast (handle port : Datum binary64)
  | udpReceive (handle : Datum binary64)
  | debugHandles
  | setLittleEndianGlobal (littleEndian : Datum binary64)
  | setLittleEndian (handle littleEndian : Datum binary64)
  | socketRemoteIp (handle : Datum binary64)
  | socketLocalPort (handle : Datum binary64)
  | socketRemotePort (handle : Datum binary64)
  | ipLookupCreate (host : String)
  | ipv4LookupCreate (host : String)
  | ipv6LookupCreate (host : String)
  | ipLookupReady (lookupHandle : Datum binary64)
  | ipLookupHasNext (lookupHandle : Datum binary64)
  | ipLookupNextResult (lookupHandle : Datum binary64)
  | ipLookupDestroy (lookupHandle : Datum binary64)

namespace ApiCall

def program : ApiCall → ApiProgram Reply
  | .tcpConnect host port => Api.tcpConnect host port
  | .tcpSetNodelay socketHandle nodelay => Api.tcpSetNodelay socketHandle nodelay
  | .udpBind port => Api.udpBind port
  | .socketConnecting socketHandle => Api.socketConnecting socketHandle
  | .tcpListen port => Api.tcpListen port
  | .socketAccept handle => Api.socketAccept handle
  | .tcpListeningV4 handle => Api.tcpListeningV4 handle
  | .tcpListeningV6 handle => Api.tcpListeningV6 handle
  | .socketHasError handle => Api.socketHasError handle
  | .socketError handle => Api.socketError handle
  | .socketDestroy handle => Api.socketDestroy handle
  | .socketDestroyAbortive handle => Api.socketDestroyAbortive handle
  | .tcpReceive socketHandle size => Api.tcpReceive socketHandle size
  | .tcpReceiveAvailable socketHandle => Api.tcpReceiveAvailable socketHandle
  | .tcpEof socketHandle => Api.tcpEof socketHandle
  | .socketSend socketHandle => Api.socketSend socketHandle
  | .socketSendbufferSize socketHandle => Api.socketSendbufferSize socketHandle
  | .socketReceivebufferSize socketHandle => Api.socketReceivebufferSize socketHandle
  | .socketSendbufferLimit socketHandle sizeLimit =>
    Api.socketSendbufferLimit socketHandle sizeLimit
  | .writeUbyte handle value => Api.writeUbyte handle value
  | .writeByte handle value => Api.writeByte handle value
  | .writeUshort handle value => Api.writeUshort handle value
  | .writeShort handle value => Api.writeShort handle value
  | .writeUint handle value => Api.writeUint handle value
  | .writeInt handle value => Api.writeInt handle value
  | .writeFloat handle value => Api.writeFloat handle value
  | .writeDouble handle value => Api.writeDouble handle value
  | .writeString handle str => Api.writeString handle str
  | .fnetHiddenWriteBinaryString handle str => Api.fnetHiddenWriteBinaryString handle str
  | .writeBufferPart tempBuffer destHandle bufferHandle ammount =>
    Api.writeBufferPart tempBuffer destHandle bufferHandle ammount
  | .writeBuffer tempBuffer destHandle bufferHandle =>
    Api.writeBuffer tempBuffer destHandle bufferHandle
  | .writeHex destHandle hexStr => Api.writeHex destHandle hexStr
  | .writeBase64 destHandle hexStr => Api.writeBase64 destHandle hexStr
  | .appendFileToBuffer handle file => Api.appendFileToBuffer handle file
  | .writeBufferToFile handle file => Api.writeBufferToFile handle file
  | .bufferCreate => Api.bufferCreate
  | .bufferDestroy handle => Api.bufferDestroy handle
  | .bufferClear handle => Api.bufferClear handle
  | .bufferSize handle => Api.bufferSize handle
  | .bufferBytesLeft handle => Api.bufferBytesLeft handle
  | .bufferSetReadpos handle newPos => Api.bufferSetReadpos handle newPos
  | .readUbyte handle => Api.readUbyte handle
  | .readByte handle => Api.readByte handle
  | .readUshort handle => Api.readUshort handle
  | .readShort handle => Api.readShort handle
  | .readUint handle => Api.readUint handle
  | .readInt handle => Api.readInt handle
  | .readFloat handle => Api.readFloat handle
  | .readDouble handle => Api.readDouble handle
  | .readString handle len => Api.readString handle len
  | .fnetHiddenReadBinaryString handle outstr => Api.fnetHiddenReadBinaryString handle outstr
  | .fnetHiddenSkipLengthOfString handle skip => Api.fnetHiddenSkipLengthOfString handle skip
  | .fnetHiddenBytesBeforeDelimiter handle needle =>
    Api.fnetHiddenBytesBeforeDelimiter handle needle
  | .fnetHiddenReadDelimitedString handle delimiter =>
    Api.fnetHiddenReadDelimitedString handle delimiter
  | .fnetHiddenReadCstring handle => Api.fnetHiddenReadCstring handle
  | .readHex srcHandle dLen => Api.readHex srcHandle dLen
  | .readBase64 srcHandle dLen => Api.readBase64 srcHandle dLen
  | .udpSend handle host port => Api.udpSend handle host port
  | .udpBroadcast handle port => Api.udpBroadcast handle port
  | .udpReceive handle => Api.udpReceive handle
  | .debugHandles => Api.debugHandles
  | .setLittleEndianGlobal littleEndian => Api.setLittleEndianGlobal littleEndian
  | .setLittleEndian handle littleEndian => Api.setLittleEndian handle littleEndian
  | .socketRemoteIp handle => Api.socketRemoteIp handle
  | .socketLocalPort handle => Api.socketLocalPort handle
  | .socketRemotePort handle => Api.socketRemotePort handle
  | .ipLookupCreate host => Api.ipLookupCreate host
  | .ipv4LookupCreate host => Api.ipv4LookupCreate host
  | .ipv6LookupCreate host => Api.ipv6LookupCreate host
  | .ipLookupReady lookupHandle => Api.ipLookupReady lookupHandle
  | .ipLookupHasNext lookupHandle => Api.ipLookupHasNext lookupHandle
  | .ipLookupNextResult lookupHandle => Api.ipLookupNextResult lookupHandle
  | .ipLookupDestroy lookupHandle => Api.ipLookupDestroy lookupHandle

/-- The arguments that are handles. -/
def handles : ApiCall → List (Datum binary64)
  | .tcpConnect _ _ | .udpBind _ | .tcpListen _ | .bufferCreate | .debugHandles
  | .setLittleEndianGlobal _ | .ipLookupCreate _ | .ipv4LookupCreate _ | .ipv6LookupCreate _ => []
  | .tcpSetNodelay handle _ | .socketConnecting handle | .socketAccept handle
  | .tcpListeningV4 handle | .tcpListeningV6 handle | .socketHasError handle
  | .socketError handle | .socketDestroy handle | .socketDestroyAbortive handle
  | .tcpReceive handle _ | .tcpReceiveAvailable handle | .tcpEof handle | .socketSend handle
  | .socketSendbufferSize handle | .socketReceivebufferSize handle
  | .socketSendbufferLimit handle _ | .writeUbyte handle _ | .writeByte handle _
  | .writeUshort handle _ | .writeShort handle _ | .writeUint handle _ | .writeInt handle _
  | .writeFloat handle _ | .writeDouble handle _ | .writeString handle _
  | .fnetHiddenWriteBinaryString handle _ | .writeHex handle _ | .writeBase64 handle _
  | .appendFileToBuffer handle _ | .writeBufferToFile handle _ | .bufferDestroy handle
  | .bufferClear handle | .bufferSize handle | .bufferBytesLeft handle | .bufferSetReadpos handle _
  | .readUbyte handle | .readByte handle | .readUshort handle | .readShort handle
  | .readUint handle | .readInt handle | .readFloat handle | .readDouble handle
  | .readString handle _ | .fnetHiddenReadBinaryString handle _
  | .fnetHiddenSkipLengthOfString handle _ | .fnetHiddenBytesBeforeDelimiter handle _
  | .fnetHiddenReadDelimitedString handle _ | .fnetHiddenReadCstring handle
  | .readHex handle _ | .readBase64 handle _ | .udpSend handle _ _ | .udpBroadcast handle _
  | .udpReceive handle | .setLittleEndian handle _ | .socketRemoteIp handle
  | .socketLocalPort handle | .socketRemotePort handle | .ipLookupReady handle
  | .ipLookupHasNext handle | .ipLookupNextResult handle | .ipLookupDestroy handle => [handle]
  | .writeBufferPart _ destHandle bufferHandle _ | .writeBuffer _ destHandle bufferHandle =>
    [destHandle, bufferHandle]

end ApiCall

/-! ### The state of the library -/

/-- The heap, the global variables, and what has happened to the heap so far. -/
structure Library where
  heap : List LibraryObject
  handles : HandleMap ℕ
  defaultUdpSocket : Option ℕ
  littleEndianDefault : Bool
  changes : List (ObjectHeap.Change LibraryObject ObjectEvent)

namespace Library

def startup : Library := ⟨[], .new, none, false, []⟩

/-- The pointer that is stored for a handle. -/
def pointer (l : Library) (handle : Datum binary64) : Option ℕ :=
  (handleKey handle).bind fun key => l.handles.content.lookup key

/-- A dynamic cast of a pointer, which is null when the object is of another class. -/
def cast (l : Library) (t : RequestedType) (place : ℕ) : Option ℕ :=
  if l.heap[place]?.any fun x => t.includes x.objectClass then some place else none

def find (l : Library) (t : RequestedType) (handle : Datum binary64) : Option ℕ :=
  (l.pointer handle).bind (l.cast t)

theorem findDouble_eq (l : Library) (t : RequestedType) (handle : Datum binary64) :
    l.handles.findDouble (l.cast t) handle = .ok (l.find t handle) := by
  unfold HandleMap.findDouble find pointer
  rw [withHandle_eq]
  cases handleKey handle <;> rfl

def create (l : Library) (x : LibraryObject) : Library :=
  { l with heap := l.heap ++ [x], changes := l.changes ++ [.create x] }

def stepObject (S : System) (l : Library) (place : ℕ) (e : ObjectEvent) : Option Library :=
  (ObjectHeap.apply (LibraryObject.step S) l.heap (.step place e)).map fun heap =>
    { l with heap, changes := l.changes ++ [.step place e] }

/-- The address that a host name is the text of. -/
def literal (S : System) (host : String) (port : ℕ) : Option Endpoint :=
  (S.platform.fromString host).map fun address => ⟨address.1, address.2, port⟩

def udpBind (l : Library) (o : LibrarySurroundings) (port : UInt16) : LibraryObject :=
  let socket := UdpSession.bindPort o.dualStack port
  .udpSocket ⟨socket.hasError, socket.errorMessage, socket.localPort⟩
    ⟨l.littleEndianDefault, ⟨socket.session, .held⟩⟩

def construct (S : System) (o : LibrarySurroundings) (l : Library) :
    Construction → Option LibraryObject
  | .buffer => some (.buffer ⟨l.littleEndianDefault, .new⟩)
  | .tcpConnectTo host port =>
    some (.tcpSocket
      ⟨l.littleEndianDefault, TcpSocket.connectTo (literal S host port) o.closeError⟩)
  | .tcpError message => some (.tcpSocket ⟨l.littleEndianDefault, TcpSocket.error message⟩)
  | .udpBind port => some (l.udpBind o port)
  | .udpError message =>
    some (.udpSocket ⟨true, message, 0⟩ ⟨l.littleEndianDefault, .bind false false⟩)
  | .combinedTcpAcceptor port => (CombinedTcpAcceptor.construct o.dualStack port).map fun bound =>
      .combinedTcpAcceptor bound.getLocalPort bound.acceptor
  | .ipLookup host protocol => some (.ipLookup (.create S.addressText host protocol))

/-- A new object gets a handle, unless all of them are in use. -/
def allocate (l : Library) (x : LibraryObject) : Option (UInt32 × Library) :=
  (l.handles.allocate l.heap.length).map fun allocated =>
    (allocated.1, { l.create x with handles := allocated.2 })

def release (l : Library) (handle : Datum binary64) : Library :=
  match handleKey handle with
  | none => l
  | some key => { l with handles := l.handles.release key }

theorem releaseDouble_eq (l : Library) (handle : Datum binary64) :
    l.handles.releaseDouble handle = .ok (l.release handle).handles := by
  unfold HandleMap.releaseDouble release
  rw [withHandle_eq]
  cases handleKey handle <;> rfl

/-- What destroySocket does with a socket of each class. -/
def destroyEvent (hard : Bool) : LibraryObject → Option ObjectEvent
  | .tcpSocket _ => some (.tcpSocket (.call (.destroySocket hard)))
  | .udpSocket _ _ => some (.udpSocket (.destroySocket hard))
  | .combinedTcpAcceptor _ _ => some (.combinedTcpAcceptor .destroy)
  | .buffer _ | .ipLookup _ => none

/-- The acceptor polls, and the socket that it has accepted is put on the heap. -/
def accept (S : System) (o : LibrarySurroundings) (l : Library) (place : ℕ) :
    Option (Option UInt32 × Library) :=
  match l.heap[place]? with
  | some (.combinedTcpAcceptor _ a) =>
    (a.accept o.enter o.between).bind fun polled =>
      (l.stepObject S place (.combinedTcpAcceptor (.accept o.enter o.between))).bind fun l =>
        match polled.1 with
        | none => some (none, l)
        | some accepted => (l.allocate (.tcpSocket ⟨l.littleEndianDefault, accepted⟩)).map
            fun allocated => (some allocated.1, allocated.2)
  | _ => none

def callMember (S : System) (o : LibrarySurroundings) (l : Library) (place : ℕ) (m : Member) :
    Option (m.Result × Library) :=
  l.heap[place]?.bind fun x => (x.call S o m).bind fun called =>
    match called.1 with
    | none => some (called.2, l)
    | some e => (l.stepObject S place e).map fun l => (called.2, l)

def perform (S : System) (o : LibrarySurroundings) (l : Library) :
    (q : Primitive) → Option (q.Result × Library)
  | .undefined => none
  | .find t handle => some (l.find t handle, l)
  | .member place m => l.callMember S o place m
  | .allocate c => (l.construct S o c).bind l.allocate
  | .accept place => l.accept S o place
  | .destroySocket handle place hard => l.heap[place]?.bind fun x =>
      (destroyEvent hard x).bind fun e =>
        (l.stepObject S place e).map fun l => ((), l.release handle)
  | .release handle => some ((), l.release handle)
  | .getDefaultUdpSocket =>
    match l.defaultUdpSocket with
    | some place => some (place, l)
    | none => some (l.heap.length,
        { l.create (l.udpBind o 0) with defaultUdpSocket := some l.heap.length })
  | .setLittleEndianDefault littleEndian =>
    some ((), { l with littleEndianDefault := littleEndian })
  | .size => some (l.handles.size, l)

end Library

/-! ### Runs -/

/-- The library, and the call that is running with what it will do. -/
structure LibrarySession where
  library : Library
  running : Option (ApiCall × ApiProgram Reply)

/-- A call is made, it goes on or returns, or a handler runs. -/
inductive LibraryEvent where
  | call (c : ApiCall)
  | proceed (o : LibrarySurroundings)
  | object (place : ℕ) (e : ObjectEvent)

namespace LibrarySession

def startup : LibrarySession := ⟨.startup, none⟩

def step (S : System) (s : LibrarySession) : LibraryEvent → Option LibrarySession
  | .call c =>
    match s.running with
    | none => some { s with running := some (c, c.program) }
    | some _ => none
  | .proceed o =>
    match s.running with
    | none => none
    | some (_, .done _) => some { s with running := none }
    | some (c, .call q next) =>
      (s.library.perform S o q).map fun performed => ⟨performed.2, some (c, next performed.1)⟩
  | .object place e =>
    if e.Autonomous then
      (s.library.stepObject S place e).map fun library => { s with library }
    else none

def run (S : System) : LibrarySession → List LibraryEvent → Option LibrarySession :=
  StateMachine.run (step S)

end LibrarySession

end FaucetNetworking
