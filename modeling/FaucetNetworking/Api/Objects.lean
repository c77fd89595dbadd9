import FaucetNetworking.Lib.ObjectHeap
import FaucetNetworking.LookupResults
import FaucetNetworking.ReachedObjects
import FaucetNetworking.DualStack
import FaucetNetworking.Tcp.Shutdown
import FaucetNetworking.Udp.Lifetime

/-!
The objects that the library keeps on its heap, and the member functions that are called
through a pointer to one. A handle is looked up as one of the classes or as a base class.
-/
namespace FaucetNetworking

/-- The classes that objects are created of. -/
inductive ObjectClass where
  | buffer
  | tcpSocket
  | udpSocket
  | combinedTcpAcceptor
  | ipLookup
  deriving DecidableEq, Repr

/-- What the pointer that find returns can be requested as. -/
inductive RequestedType where
  | fallible
  | readWritable
  | socket
  | exactly (c : ObjectClass)
  deriving DecidableEq, Repr

/-- The classes that are derived from the requested one. -/
def RequestedType.includes : RequestedType → ObjectClass → Bool
  | .fallible, c => c = .tcpSocket || c = .udpSocket || c = .combinedTcpAcceptor
  | .readWritable, c => c = .buffer || c = .tcpSocket || c = .udpSocket
  | .socket, c => c = .tcpSocket || c = .udpSocket
  | .exactly d, c => c = d

/-- The members of a UDP socket that only bind and error set. -/
structure UdpMembers where
  hasError : Bool
  errorMessage : String
  localPort : UInt16
  deriving DecidableEq, Repr

/-- The members that only the constructors set are next to the sessions. -/
inductive LibraryObject where
  | buffer (r : ByteOrdered Buffer)
  | tcpSocket (r : ByteOrdered TcpSession)
  | udpSocket (members : UdpMembers) (r : ByteOrdered UdpObject)
  | combinedTcpAcceptor (localPort : UInt16) (a : CombinedTcpAcceptor)
  | ipLookup (l : LookupSession)

/-- What happens to an object, by a call or by itself. -/
inductive ObjectEvent where
  | setLittleEndian (littleEndian : Bool)
  | buffer (operation : BufferOperation)
  | tcpSocket (e : Event)
  | udpSocket (e : UdpObjectEvent)
  | combinedTcpAcceptor (e : AcceptEvent)
  | ipLookup (e : LookupEvent)

/-- Handlers and the network do not wait for a call. -/
def ObjectEvent.Autonomous : ObjectEvent → Bool
  | .tcpSocket (.completion _) | .tcpSocket (.network _) => true
  | .udpSocket (.session (.completion _)) => true
  | .combinedTcpAcceptor (.completion _) => true
  | .ipLookup (.handleResolve _ _) => true
  | _ => false

/-- The Boost functions that only compute. -/
structure System where
  platform : Platform
  addressText : AddressText

/-- What calls into Asio and the system return, which completions of an acceptor run in the
middle of a call, and what an uninitialised variable holds. -/
structure LibrarySurroundings where
  receive : ReceiveCalls
  peek : PeekResult
  setOption : Option String
  closeError : Option String
  enter : EnterCalls
  between : List AcceptCompletion
  dualStack : DualStackCalls
  broadcastAddresses : List String
  uninitialised : (n : ℕ) → ByteDigits.Image n

namespace LibraryObject

def objectClass : LibraryObject → ObjectClass
  | .buffer _ => .buffer
  | .tcpSocket _ => .tcpSocket
  | .udpSocket _ _ => .udpSocket
  | .combinedTcpAcceptor _ _ => .combinedTcpAcceptor
  | .ipLookup _ => .ipLookup

def step (S : System) : LibraryObject → ObjectEvent → Option LibraryObject
  | .buffer r, .setLittleEndian littleEndian =>
    some (.buffer (ReadWritable.setLittleEndian r littleEndian))
  | .tcpSocket r, .setLittleEndian littleEndian =>
    some (.tcpSocket (ReadWritable.setLittleEndian r littleEndian))
  | .udpSocket members r, .setLittleEndian littleEndian =>
    some (.udpSocket members (ReadWritable.setLittleEndian r littleEndian))
  | .buffer r, .buffer operation =>
    (r.object.perform .mingw operation).map fun result => .buffer { r with object := result.2 }
  | .tcpSocket r, .tcpSocket e =>
    (TcpSession.step r.object e).map fun s => .tcpSocket { r with object := s }
  | .udpSocket members r, .udpSocket e =>
    (UdpObject.step S.platform r.object e).map fun o => .udpSocket members { r with object := o }
  | .combinedTcpAcceptor localPort a, .combinedTcpAcceptor e =>
    (a.step e).map (.combinedTcpAcceptor localPort)
  | .ipLookup l, .ipLookup e => (l.step S.addressText e).map .ipLookup
  | _, _ => none

/-! ### Objects that are created -/

/-- The objects that constructors and static member functions return. -/
inductive Created (S : System) : LibraryObject → Prop where
  | buffer (littleEndian : Bool) : Created S (.buffer ⟨littleEndian, .new⟩)
  | tcpSocket (littleEndian : Bool) (s : TcpSession) : TcpSession.Created s →
      Created S (.tcpSocket ⟨littleEndian, s⟩)
  | udpSocket (littleEndian : Bool) (members : UdpMembers) (ipv4Open ipv6Open : Bool) :
      Created S (.udpSocket members ⟨littleEndian, .bind ipv4Open ipv6Open⟩)
  | combinedTcpAcceptor (localPort : UInt16) (v4acceptor v6acceptor : Except String AsioAcceptor)
      (a : CombinedTcpAcceptor) : CombinedTcpAcceptor.create v4acceptor v6acceptor = some a →
      Created S (.combinedTcpAcceptor localPort a)
  | ipLookup (host : String) (protocol : LookupProtocol) :
      Created S (.ipLookup (.create S.addressText host protocol))

/-- The handle map or the default pointer is one of the owners. -/
def Held : LibraryObject → Prop
  | .buffer _ | .ipLookup _ => True
  | .tcpSocket r => r.object.handle = .held
  | .udpSocket _ r => r.object.handle = .held
  | .combinedTcpAcceptor _ a => a.destroyed = false

end LibraryObject

/-! ### Member functions -/

/-- The member functions that the functions of the API call. A function of ReadWritable that
writes a value passes the bytes of the value, in the order of the platform. -/
inductive Member where
  | write (data : List UInt8)
  | writeByteOrderAware (n : ℕ) (image : ByteDigits.Image n)
  | readValue (t : ReadType)
  | read (size : ℕ)
  | setReadpos (pos : ℕ)
  | bytesRemaining
  | setLittleEndian (littleEndian : Bool)
  | hasError
  | getErrorMessage
  | getRemoteIp
  | getRemotePort
  | getLocalPort
  | getSendbufferSize
  | setSendbufferLimit (maxSize : ℕ)
  /-- The bytes and the read position of a buffer or of a receive buffer. -/
  | contents
  | clear
  | isConnecting
  | setNoDelay (noDelay : Bool)
  | receive (ammount : ℕ)
  | receiveAvailable
  | isEof
  | send
  | sendTo (host : String) (port : ℕ)
  | broadcast (port : ℕ)
  | receiveDatagram
  | isListening (protocol : Protocol)
  /-- The member function of CombinedTcpAcceptor with the name getLocalPort. -/
  | getListeningPort
  | ready
  | hasNext
  | nextResult

namespace Member

abbrev Result : Member → Type
  | .write _ | .writeByteOrderAware _ _ | .setReadpos _ | .setLittleEndian _
  | .setSendbufferLimit _ | .clear | .send => Unit
  | .readValue _ => Ieee754.Datum Ieee754.binary64
  | .read _ => List UInt8
  | .bytesRemaining | .getSendbufferSize | .receiveAvailable | .getRemotePort | .getLocalPort
  | .getListeningPort => ℕ
  | .hasError | .isConnecting | .setNoDelay _ | .receive _ | .isEof | .sendTo _ _ | .broadcast _
  | .receiveDatagram | .isListening _ | .ready | .hasNext => Bool
  | .contents => Buffer
  | .getErrorMessage | .getRemoteIp | .nextResult => String

/-- The class that declares the function. -/
def requestedType : Member → RequestedType
  | .write _ | .writeByteOrderAware _ _ | .readValue _ | .read _ | .setReadpos _
  | .bytesRemaining | .setLittleEndian _ | .contents => .readWritable
  | .hasError | .getErrorMessage => .fallible
  | .getRemoteIp | .getRemotePort | .getLocalPort | .getSendbufferSize
  | .setSendbufferLimit _ => .socket
  | .clear => .exactly .buffer
  | .isConnecting | .setNoDelay _ | .receive _ | .receiveAvailable | .isEof | .send =>
    .exactly .tcpSocket
  | .sendTo _ _ | .broadcast _ | .receiveDatagram => .exactly .udpSocket
  | .isListening _ | .getListeningPort => .exactly .combinedTcpAcceptor
  | .ready | .hasNext | .nextResult => .exactly .ipLookup

/-- Another buffer becomes the receive buffer of the socket, and a pointer to the one before
may dangle. -/
def Reseats : Member → Bool
  | .receiveDatagram => true
  | _ => false

end Member

namespace LibraryObject

/-- The object of a class derived from ReadWritable, with its byte order. -/
def asReadWritable : LibraryObject → Option (ByteOrdered ReadWritable.Object)
  | .buffer r => some ⟨r.littleEndian, .buffer r.object⟩
  | .tcpSocket r => some ⟨r.littleEndian, .socket (.tcp r.object)⟩
  | .udpSocket _ r => some ⟨r.littleEndian, .socket (.udp r.object.session)⟩
  | .combinedTcpAcceptor _ _ | .ipLookup _ => none

def asTcpSocket : LibraryObject → Option TcpSession
  | .tcpSocket r => some r.object
  | _ => none

def asUdpSocket : LibraryObject → Option UdpSession
  | .udpSocket _ r => some r.object.session
  | _ => none

def asCombinedTcpAcceptor : LibraryObject → Option (UInt16 × CombinedTcpAcceptor)
  | .combinedTcpAcceptor localPort a => some (localPort, a)
  | _ => none

def asIpLookup : LibraryObject → Option LookupSession
  | .ipLookup l => some l
  | _ => none

/-- The virtual functions, which each class overrides. -/
def writeEvent (data : List UInt8) : LibraryObject → Option ObjectEvent
  | .buffer _ => some (.buffer (.write data))
  | .tcpSocket _ => some (.tcpSocket (.call (.write data)))
  | .udpSocket _ _ => some (.udpSocket (.session (.call (.write data))))
  | .combinedTcpAcceptor _ _ | .ipLookup _ => none

def readEvent (size : ℕ) : LibraryObject → Option ObjectEvent
  | .buffer _ => some (.buffer (.read size))
  | .tcpSocket _ => some (.tcpSocket (.call (.read size)))
  | .udpSocket _ _ => some (.udpSocket (.session (.call (.read size))))
  | .combinedTcpAcceptor _ _ | .ipLookup _ => none

def setReadposEvent (pos : ℕ) : LibraryObject → Option ObjectEvent
  | .buffer _ => some (.buffer (.setReadpos pos))
  | .tcpSocket _ => some (.tcpSocket (.call (.setReadpos pos)))
  | .udpSocket _ _ => some (.udpSocket (.session (.call (.setReadpos pos))))
  | .combinedTcpAcceptor _ _ | .ipLookup _ => none

def setSendbufferLimitEvent (maxSize : ℕ) : LibraryObject → Option ObjectEvent
  | .tcpSocket _ => some (.tcpSocket (.call (.setSendbufferLimit maxSize)))
  | .udpSocket _ _ => some (.udpSocket (.session (.call (.setSendbufferLimit maxSize))))
  | .buffer _ | .combinedTcpAcceptor _ _ | .ipLookup _ => none

def clearEvent : LibraryObject → Option ObjectEvent
  | .buffer _ => some (.buffer .clear)
  | .tcpSocket _ | .udpSocket _ _ | .combinedTcpAcceptor _ _ | .ipLookup _ => none

def hasError : LibraryObject → Option Bool
  | .tcpSocket r => some (TcpSocket.hasError r.object)
  | .udpSocket members _ => some members.hasError
  | .combinedTcpAcceptor _ a => some a.hasError
  | .buffer _ | .ipLookup _ => none

def getErrorMessage : LibraryObject → Option String
  | .tcpSocket r => some (TcpSocket.getErrorMessage r.object)
  | .udpSocket members _ => some members.errorMessage
  | .combinedTcpAcceptor _ a => some a.getErrorMessage
  | .buffer _ | .ipLookup _ => none

def getRemoteIp : LibraryObject → Option String
  | .tcpSocket r => some r.object.socket.remoteIp
  | .udpSocket _ r => some r.object.session.socket.remoteIp
  | .buffer _ | .combinedTcpAcceptor _ _ | .ipLookup _ => none

def getRemotePort : LibraryObject → Option ℕ
  | .tcpSocket r => some r.object.socket.remotePort
  | .udpSocket _ r => some r.object.session.socket.remotePort
  | .buffer _ | .combinedTcpAcceptor _ _ | .ipLookup _ => none

def getLocalPort : LibraryObject → Option ℕ
  | .tcpSocket r => some r.object.socket.localPort
  | .udpSocket members _ => some members.localPort.toNat
  | .buffer _ | .combinedTcpAcceptor _ _ | .ipLookup _ => none

def getSendbufferSize : LibraryObject → Option ℕ
  | .tcpSocket r => some r.object.socket.sendbuffer.totalSize
  | .udpSocket _ r => some (r.object.session.socket.sendqueue.queue.memSize +
      (r.object.session.buffer r.object.session.socket.sendBuffer).size)
  | .buffer _ | .combinedTcpAcceptor _ _ | .ipLookup _ => none

/-- What a member function does to the object, if anything, and what it returns. There is no
result when the object is of another class. -/
def call (S : System) (o : LibrarySurroundings) (x : LibraryObject) :
    (m : Member) → Option (Option ObjectEvent × m.Result)
  | .write data => (x.writeEvent data).map fun e => (some e, ())
  | .writeByteOrderAware _ image => x.asReadWritable.bind fun r =>
      (x.writeEvent (inByteOrder r.littleEndian image).bytes).map fun e => (some e, ())
  | .readValue t => x.asReadWritable.bind fun r => (x.readEvent t.sizeof).map fun e =>
      (some e, (ReadWritable.readValue ReadWritable.Object.read t r
        (o.uninitialised t.sizeof)).1)
  | .read size => x.asReadWritable.bind fun r => (x.readEvent size).map fun e =>
      (some e, (r.object.read size).1)
  | .setReadpos pos => (x.setReadposEvent pos).map fun e => (some e, ())
  | .bytesRemaining => x.asReadWritable.map fun r => (none, r.object.bytesRemaining)
  | .setLittleEndian littleEndian => x.asReadWritable.map fun _ =>
      (some (.setLittleEndian littleEndian), ())
  | .hasError => x.hasError.map fun hasError => (none, hasError)
  | .getErrorMessage => x.getErrorMessage.map fun message => (none, message)
  | .getRemoteIp => x.getRemoteIp.map fun ip => (none, ip)
  | .getRemotePort => x.getRemotePort.map fun port => (none, port)
  | .getLocalPort => x.getLocalPort.map fun port => (none, port)
  | .getSendbufferSize => x.getSendbufferSize.map fun size => (none, size)
  | .setSendbufferLimit maxSize => (x.setSendbufferLimitEvent maxSize).map fun e => (some e, ())
  | .contents => x.asReadWritable.map fun r => (none, r.object.source)
  | .clear => x.clearEvent.map fun e => (some e, ())
  | .isConnecting => x.asTcpSocket.map fun s => (none, TcpSocket.isConnecting s)
  | .setNoDelay noDelay => x.asTcpSocket.map fun s =>
      (some (.tcpSocket (.call (.setNoDelay noDelay o.setOption))),
        (TcpSocket.setNoDelay s noDelay o.setOption).1)
  | .receive ammount => x.asTcpSocket.map fun s =>
      (some (.tcpSocket (.call (.receive ammount o.receive))),
        (TcpSocket.receive s ammount o.receive).1)
  | .receiveAvailable => x.asTcpSocket.map fun s =>
      (some (.tcpSocket (.call (.receiveAvailable o.receive))),
        (TcpSocket.receiveAvailable s o.receive).1)
  | .isEof => x.asTcpSocket.map fun s =>
      (some (.tcpSocket (.call (.isEof o.peek))), (TcpSocket.isEof s o.peek).1)
  | .send => x.asTcpSocket.map fun _ => (some (.tcpSocket (.call .send)), ())
  | .sendTo host port => x.asUdpSocket.map fun s =>
      (some (.udpSocket (.session (.call (.send host port)))), (s.send S.platform host port).1)
  | .broadcast port => x.asUdpSocket.map fun s =>
      (some (.udpSocket (.session (.call (.broadcast o.broadcastAddresses port)))),
        (s.broadcast S.platform o.broadcastAddresses port).1)
  | .receiveDatagram => x.asUdpSocket.map fun s =>
      (some (.udpSocket (.session (.call .receive))), s.receive.1)
  | .isListening protocol => x.asCombinedTcpAcceptor.map fun a =>
      (none, a.2.isListening protocol)
  | .getListeningPort => x.asCombinedTcpAcceptor.map fun a => (none, a.1.toNat)
  | .ready => x.asIpLookup.map fun l => (some (.ipLookup .ready), l.lookup.ready)
  | .hasNext => x.asIpLookup.map fun l => (some (.ipLookup .hasNext), l.lookup.hasNext)
  | .nextResult => x.asIpLookup.map fun l =>
      (some (.ipLookup .nextResult), (l.lookup.nextResult S.addressText).1)

end LibraryObject

end FaucetNetworking
