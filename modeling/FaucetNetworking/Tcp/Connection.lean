import FaucetNetworking.Tcp.Socket

/-!
The member functions of TcpSocket and of its state objects. Every entry point
holds the common mutex, so a call or a completion handler is one transition of
the session. The results of calls into Asio are parameters; an error code or a
system_error is represented by its message.
-/
namespace FaucetNetworking

/-- The session after a function that may throw, with the message if it did. -/
abbrev Attempt := Except (String × TcpSession) TcpSession

/-! ### Calls that start operations of Asio -/

namespace Asio

def asyncSend (s : TcpSession) (buffers : List ConstBuffer) : TcpSession :=
  { s with
    pending.sends := s.pending.sends ++ [buffers]
    history.started := s.history.started + 1 }

/-- The socket is opened if it is not open. -/
def asyncConnect (s : TcpSession) (endpoint : Endpoint) (endpoints : V4FirstIterator) :
    TcpSession :=
  { s with
    socket.socket.isOpen := true
    pending.connects := s.pending.connects ++ [endpoints]
    history.started := s.history.started + 1
    history.attempts := s.history.attempts ++ [endpoint] }

def asyncResolve (s : TcpSession) : TcpSession :=
  { s with
    pending.resolves := s.pending.resolves + 1
    history.started := s.history.started + 1 }

/-- Bytes that have arrived go to their place in the partial receive buffer. -/
def moveBytes (s : TcpSession) (start count : ℕ) : TcpSession :=
  { s with
    socket.tcpConnected.partialReceiveBuffer :=
      s.socket.tcpConnected.partialReceiveBuffer.take start ++
        (s.socket.socket.inbox.take count).map .received ++
        s.socket.tcpConnected.partialReceiveBuffer.drop (start + count)
    socket.socket.inbox := s.socket.socket.inbox.drop count }

/-- A read becomes active, perhaps next to one that is pending. -/
def noteRead (s : TcpSession) : TcpSession :=
  { s with history.readOverlap := s.history.readOverlap || !s.pending.receives.isEmpty }

def asyncRead (s : TcpSession) (start ammount : ℕ) : TcpSession :=
  { noteRead s with
    pending.receives := s.pending.receives ++ [⟨start, ammount, 0⟩]
    history.started := s.history.started + 1 }

/-- A blocking read of exactly the given number of bytes, or the message of the
error it throws. -/
def read (s : TcpSession) (start ammount : ℕ) (error : Option String) : Attempt :=
  match error with
  | some message => .error (message, noteRead s)
  | none => .ok (moveBytes (noteRead s) start ammount)

end Asio

/-! ### TcpClosed -/

namespace TcpClosed

def enterClosed (s : TcpSession) : TcpSession :=
  if s.socket.socket.isOpen then { s with socket.socket.isOpen := false } else s

/-- An existing error message is not overwritten. -/
def enterError (s : TcpSession) (error : String) : TcpSession :=
  let s := if !s.socket.tcpClosed.hasError then { s with socket.tcpClosed := ⟨true, error⟩ } else s
  enterClosed s

end TcpClosed

/-! ### Transitions of TcpSocket -/

namespace TcpSocket

/-- The virtual function abort of the current state object. -/
def abort (s : TcpSession) : TcpSession :=
  match s.socket.state with
  | .connecting => { s with socket.tcpConnecting.abortRequested := true }
  | .connected => { s with socket.tcpConnected.abortRequested := true }
  | .closed => s

def enterErrorState (s : TcpSession) (message : String) : TcpSession :=
  TcpClosed.enterError { abort s with socket.state := .closed } message

def enterClosedState (s : TcpSession) : TcpSession :=
  TcpClosed.enterClosed { abort s with socket.state := .closed }

end TcpSocket

/-! ### TcpConnected -/

/-- The results of the calls in TcpConnected::enter. -/
structure EnterCalls where
  remoteEndpoint : Except String Endpoint
  localEndpoint : Except String Endpoint
  addressString : Except String String
  setOption : Except String Unit
  nonBlocking : Except String Unit

/-- The results of the calls in nonblockReceive. -/
structure ReceiveCalls where
  available : Except String ℕ
  readError : Option String

/-- How the receive with message_peek ends. -/
inductive PeekResult where
  | data
  | eof
  | wouldBlock
  | error (message : String)

namespace TcpConnected

def startAsyncSend (s : TcpSession) : TcpSession :=
  if !s.socket.tcpConnected.asyncSendInProgress then
    Asio.asyncSend { s with socket.tcpConnected.asyncSendInProgress := true }
      s.socket.sendbuffer.committedAsConstBufferSequence
  else s

def setEndpointInfo (s : TcpSession) (remoteIp : String) (remotePort localPort : ℕ) :
    TcpSession :=
  { s with
    socket.remoteIp := remoteIp
    socket.remotePort := remotePort
    socket.localPort := localPort }

/-- The calls of the try block up to the end, in their order. -/
def prepare (s : TcpSession) (noDelay : Bool) (calls : EnterCalls) :
    Attempt :=
  match calls.remoteEndpoint, calls.localEndpoint, calls.addressString with
  | .error message, _, _ => .error (message, s)
  | .ok _, .error message, _ => .error (message, s)
  | .ok _, .ok _, .error message => .error (message, s)
  | .ok remoteEndpoint, .ok localEndpoint, .ok address =>
    let s := setEndpointInfo s address remoteEndpoint.port localEndpoint.port
    match calls.setOption with
    | .error message => .error (message, s)
    | .ok _ =>
      let s := { s with socket.socket.noDelay := noDelay }
      match calls.nonBlocking with
      | .error message => .error (message, s)
      | .ok _ => .ok s

def enter (s : TcpSession) (noDelay : Bool) (calls : EnterCalls) : TcpSession :=
  match prepare s noDelay calls with
  | .error (message, s) => TcpSocket.enterErrorState s message
  | .ok s => startAsyncSend s

def handleSend (s : TcpSession) (error : Option String) (bytesTransferred : ℕ) :
    Outcome TcpSession :=
  let s := { s with socket.tcpConnected.asyncSendInProgress := false }
  if s.socket.tcpConnected.abortRequested then .ok s
  else
    match error with
    | some message => .ok (TcpSocket.enterErrorState s message)
    | none =>
      match s.socket.sendbuffer.pop bytesTransferred with
      | .undefined => .undefined
      | .throws what sendbuffer => .throws what { s with socket.sendbuffer := sendbuffer }
      | .ok sendbuffer =>
        let s := { s with socket.sendbuffer := sendbuffer }
        if sendbuffer.committedSize > 0 then .ok (startAsyncSend s) else .ok s

def isEof (s : TcpSession) (peek : PeekResult) : Bool × TcpSession :=
  if s.socket.tcpConnected.partialReceiveBuffer.length > 0 ||
      s.socket.tcpConnected.asyncReceiveInProgress then (false, s)
  else
    let s := Asio.noteRead s
    match peek with
    | .eof => (true, s)
    | .wouldBlock => (false, s)
    | .error message => (true, TcpSocket.enterErrorState s message)
    | .data => (false, s)

/-- Room for more bytes at the end of the partial receive buffer. -/
def insertPlaceholders (s : TcpSession) (n : ℕ) : TcpSession :=
  { s with
    socket.tcpConnected.partialReceiveBuffer :=
      s.socket.tcpConnected.partialReceiveBuffer ++ List.replicate n .placeholder }

def nonblockReceive (s : TcpSession) (maxData : ℕ) (calls : ReceiveCalls) :
    Attempt :=
  if s.socket.tcpConnected.asyncReceiveInProgress then .ok s
  else
    match calls.available with
    | .error message => .error (message, s)
    | .ok available =>
      let readAmmount := min maxData available
      let recvBufferEndIndex := s.socket.tcpConnected.partialReceiveBuffer.length
      Asio.read (insertPlaceholders s readAmmount) recvBufferEndIndex readAmmount
        calls.readError

/-- Write the front of the partial receive buffer to the receive buffer and
erase it. -/
def deliver (s : TcpSession) (ammount : ℕ) : TcpSession :=
  let cells := s.socket.tcpConnected.partialReceiveBuffer.take ammount
  { s with
    socket.receiveBuffer := s.socket.receiveBuffer.write (cells.map ReceiveCell.toByte)
    socket.tcpConnected.partialReceiveBuffer :=
      s.socket.tcpConnected.partialReceiveBuffer.drop ammount
    history.delivered := s.history.delivered ++ cells }

def startAsyncReceive (s : TcpSession) (ammount : ℕ) : TcpSession :=
  if !s.socket.tcpConnected.asyncReceiveInProgress then
    let recvBufferEndIndex := s.socket.tcpConnected.partialReceiveBuffer.length
    Asio.asyncRead
      (insertPlaceholders { s with socket.tcpConnected.asyncReceiveInProgress := true } ammount)
      recvBufferEndIndex ammount
  else s

def receive (s : TcpSession) (ammount : ℕ) (calls : ReceiveCalls) : Bool × TcpSession :=
  if s.socket.tcpConnected.asyncReceiveInProgress then (false, s)
  else
    let attempt :=
      if s.socket.tcpConnected.partialReceiveBuffer.length < ammount then
        nonblockReceive s (ammount - s.socket.tcpConnected.partialReceiveBuffer.length) calls
      else .ok s
    match attempt with
    | .error (message, s) => (false, TcpSocket.enterErrorState s message)
    | .ok s =>
      if s.socket.tcpConnected.partialReceiveBuffer.length ≥ ammount then
        (true, deliver s ammount)
      else
        (false, startAsyncReceive s
          (ammount - s.socket.tcpConnected.partialReceiveBuffer.length))

/-- The largest size_t. -/
def sizeMax : ℕ := 2 ^ 32 - 1

def receiveAvailable (s : TcpSession) (calls : ReceiveCalls) : TcpSession :=
  if s.socket.tcpConnected.asyncReceiveInProgress then s
  else
    match nonblockReceive s sizeMax calls with
    | .error (message, s) => TcpSocket.enterErrorState s message
    | .ok s => deliver s s.socket.tcpConnected.partialReceiveBuffer.length

def setNoDelay (s : TcpSession) (noDelay : Bool) (error : Option String) : Bool × TcpSession :=
  match error with
  | some _ => (false, s)
  | none => (true, { s with socket.socket.noDelay := noDelay })

def handleReceive (s : TcpSession) (error : Option String) : TcpSession :=
  let s := { s with socket.tcpConnected.asyncReceiveInProgress := false }
  match error with
  | some message => TcpSocket.enterErrorState s message
  | none => s

end TcpConnected

/-! ### TcpConnecting -/

namespace TcpConnecting

def setNoDelay (s : TcpSession) (noDelay : Bool) : Bool × TcpSession :=
  (true, { s with socket.tcpConnecting.noDelay := noDelay })

def startConnectionAttempt (s : TcpSession) (endpoints : V4FirstIterator)
    (closeError : Option String) : Attempt :=
  match closeError with
  | some message => .error (message, s)
  | none =>
    let s := { s with socket.socket.isOpen := false }
    let (endpoint, endpoints) := endpoints.next
    .ok (Asio.asyncConnect s endpoint endpoints)

/-- Try the next endpoint, or give up if the socket cannot be closed before. -/
def tryNext (s : TcpSession) (endpoints : V4FirstIterator) (closeError : Option String) :
    TcpSession :=
  match startConnectionAttempt s endpoints closeError with
  | .error (message, s) => TcpSocket.enterErrorState s message
  | .ok s => s

def handleResolve (s : TcpSession) (result : Except String (List Endpoint))
    (closeError : Option String) : TcpSession :=
  if s.socket.tcpConnecting.abortRequested then s
  else
    match result with
    | .error message => TcpSocket.enterErrorState s message
    | .ok endpointIterator => tryNext s (.new endpointIterator) closeError

/-- The host is a literal address, or it has to be looked up. -/
def enter (s : TcpSession) (literal : Option Endpoint) (closeError : Option String) :
    TcpSession :=
  match literal with
  | some endpoint => handleResolve s (.ok [endpoint]) closeError
  | none => Asio.asyncResolve s

def handleConnect (s : TcpSession) (error : Option String) (endpoints : V4FirstIterator)
    (closeError : Option String) (calls : EnterCalls) : TcpSession :=
  if s.socket.tcpConnecting.abortRequested then s
  else
    match error with
    | none =>
      TcpConnected.enter { s with socket.state := .connected } s.socket.tcpConnecting.noDelay calls
    | some message =>
      if endpoints.hasNext then tryNext s endpoints closeError
      else TcpSocket.enterErrorState s message

end TcpConnecting

/-! ### The interface of TcpSocket -/

namespace TcpSocket

def isConnecting (s : TcpSession) : Bool := s.socket.state == .connecting

def hasError (s : TcpSession) : Bool :=
  match s.socket.state with
  | .closed => s.socket.tcpClosed.hasError
  | _ => false

def getErrorMessage (s : TcpSession) : String :=
  match s.socket.state with
  | .closed => s.socket.tcpClosed.errorMessage
  | _ => ""

def allowWrite (s : TcpSession) : Bool :=
  match s.socket.state with
  | .closed => false
  | _ => true

def limitMessage : String := "The send buffer size limit was exceeded."

def write (s : TcpSession) (data : List UInt8) : Outcome TcpSession :=
  if allowWrite s then
    if s.socket.sendbuffer.totalSize + data.length > s.socket.sendbufferSizeLimit then
      .ok (enterErrorState s limitMessage)
    else
      match s.socket.sendbuffer.push data with
      | .undefined => .undefined
      | .throws what sendbuffer => .throws what { s with socket.sendbuffer := sendbuffer }
      | .ok sendbuffer =>
        .ok { s with
          socket.sendbuffer := sendbuffer
          history.accepted := s.history.accepted ++ data }
  else .ok s

def setSendbufferLimit (s : TcpSession) (maxSize : ℕ) : TcpSession :=
  { s with socket.sendbufferSizeLimit := maxSize }

/-- The virtual function startAsyncSend of the current state object. -/
def startAsyncSend (s : TcpSession) : TcpSession :=
  match s.socket.state with
  | .connected => TcpConnected.startAsyncSend s
  | _ => s

def send (s : TcpSession) : TcpSession :=
  startAsyncSend { s with
    socket.sendbuffer := s.socket.sendbuffer.commit
    history.sendMark := s.history.accepted.length }

def clearReceiveBuffer (s : TcpSession) : TcpSession :=
  { s with socket.receiveBuffer := s.socket.receiveBuffer.clear }

def receive (s : TcpSession) (ammount : ℕ) (calls : ReceiveCalls) : Bool × TcpSession :=
  let s := clearReceiveBuffer s
  match s.socket.state with
  | .connected => TcpConnected.receive s ammount calls
  | _ => (false, s)

/-- The overload without an amount, which returns the size of the receive buffer. -/
def receiveAvailable (s : TcpSession) (calls : ReceiveCalls) : ℕ × TcpSession :=
  let s := clearReceiveBuffer s
  let s := match s.socket.state with
    | .connected => TcpConnected.receiveAvailable s calls
    | _ => s
  (s.socket.receiveBuffer.size, s)

def isEof (s : TcpSession) (peek : PeekResult) : Bool × TcpSession :=
  match s.socket.state with
  | .connecting => (false, s)
  | .connected => TcpConnected.isEof s peek
  | .closed => (true, s)

def disconnectAbortive (s : TcpSession) : TcpSession := enterClosedState s

def setNoDelay (s : TcpSession) (noDelay : Bool) (error : Option String) : Bool × TcpSession :=
  match s.socket.state with
  | .connecting => TcpConnecting.setNoDelay s noDelay
  | .connected => TcpConnected.setNoDelay s noDelay error
  | .closed => (false, s)

def read (s : TcpSession) (size : ℕ) : List UInt8 × TcpSession :=
  let (bytes, receiveBuffer) := s.socket.receiveBuffer.read size
  (bytes, { s with socket.receiveBuffer := receiveBuffer })

def setReadpos (s : TcpSession) (pos : ℕ) : TcpSession :=
  { s with socket.receiveBuffer := s.socket.receiveBuffer.setReadpos pos }

/-- A socket as the constructor leaves it, with the state pointer given. -/
def create (asioSocket : AsioSocket) (state : StateId) : TcpSession where
  socket :=
    { socket := asioSocket
      tcpConnecting := ⟨false, true⟩
      tcpConnected := ⟨false, false, [], false⟩
      tcpClosed := ⟨false, ""⟩
      state := state
      sendbuffer := .new
      remoteIp := ""
      remotePort := 0
      localPort := 0
      receiveBuffer := .new
      sendbufferSizeLimit := TcpConnected.sizeMax }
  pending := ⟨0, [], [], []⟩
  history := ⟨[], 0, [], asioSocket.inbox, [], 0, [], false⟩
  handle := .held

def newAsioSocket : AsioSocket := ⟨false, [], false, false⟩

def DEFAULT_TCP_NODELAY : Bool := true

def connectTo (literal : Option Endpoint) (closeError : Option String) : TcpSession :=
  TcpConnecting.enter (create newAsioSocket .connecting) literal closeError

def error (message : String) : TcpSession :=
  TcpClosed.enterError (create newAsioSocket .closed) message

def fromConnectedSocket (connectedSocket : AsioSocket) (calls : EnterCalls) : TcpSession :=
  TcpConnected.enter (create connectedSocket .connected) DEFAULT_TCP_NODELAY calls

end TcpSocket

/-- socket_destroy and socket_destroy_abortive for the handle of this socket. -/
def destroySocket (s : TcpSession) (hard : Bool) : TcpSession :=
  let s := if hard then TcpSocket.disconnectAbortive s else TcpSocket.send s
  { s with handle := .released hard }

end FaucetNetworking
