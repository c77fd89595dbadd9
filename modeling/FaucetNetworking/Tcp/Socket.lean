import FaucetNetworking.Buffer
import FaucetNetworking.SendBuffer
import FaucetNetworking.V4FirstIterator

/-!
The state of a TCP socket: the TcpSocket object with its three state objects,
the operations Asio has not completed yet, and the ownership of the object. The
history records what went in and out, and no modelled function reads it.
-/
namespace FaucetNetworking

/-- Which of the state objects a TcpSocket points to. -/
inductive StateId where
  | connecting
  | connected
  | closed
  deriving DecidableEq, Repr

theorem StateId.ne_closed_of_connecting {state : StateId} (h : state = .connecting) :
    state ≠ .closed := by
  rw [h]
  decide

theorem StateId.ne_closed_of_connected {state : StateId} (h : state = .connected) :
    state ≠ .closed := by
  rw [h]
  decide

structure TcpConnecting where
  abortRequested : Bool
  noDelay : Bool
  deriving DecidableEq, Repr

/-- A byte of the partial receive buffer: one of the zeros inserted to make room,
or a byte that has been read from the connection. -/
inductive ReceiveCell where
  | placeholder
  | received (b : UInt8)
  deriving DecidableEq, Repr

def ReceiveCell.toByte : ReceiveCell → UInt8
  | .placeholder => 0
  | .received b => b

structure TcpConnected where
  asyncSendInProgress : Bool
  abortRequested : Bool
  partialReceiveBuffer : List ReceiveCell
  asyncReceiveInProgress : Bool
  deriving DecidableEq, Repr

structure TcpClosed where
  hasError : Bool
  errorMessage : String
  deriving DecidableEq, Repr

/-- The tcp::socket: whether it is open, the bytes that arrived and have not
been read, whether the peer has closed its direction, and the option no_delay. -/
structure AsioSocket where
  isOpen : Bool
  inbox : List UInt8
  peerClosed : Bool
  noDelay : Bool
  deriving DecidableEq, Repr

structure TcpSocket where
  socket : AsioSocket
  tcpConnecting : TcpConnecting
  tcpConnected : TcpConnected
  tcpClosed : TcpClosed
  state : StateId
  sendbuffer : SendBuffer
  remoteIp : String
  remotePort : ℕ
  localPort : ℕ
  receiveBuffer : Buffer
  sendbufferSizeLimit : ℕ

/-- An async_read in progress: the part of the partial receive buffer that it
fills, and how many of its bytes have been filled. -/
structure AsyncRead where
  start : ℕ
  ammount : ℕ
  filled : ℕ
  deriving DecidableEq, Repr

/-- The asynchronous operations whose handlers have not been called. -/
structure Pending where
  resolves : ℕ
  connects : List V4FirstIterator
  sends : List (List ConstBuffer)
  receives : List AsyncRead
  deriving DecidableEq, Repr

/-- Each pending handler holds a shared pointer to the socket. -/
def Pending.isEmpty (p : Pending) : Bool :=
  p.resolves == 0 && p.connects.isEmpty && p.sends.isEmpty && p.receives.isEmpty

structure History where
  /-- The bytes of all accepted writes. -/
  accepted : List UInt8
  /-- How many bytes had been accepted at the latest send. -/
  sendMark : ℕ
  /-- The bytes that went out. -/
  transferred : List UInt8
  /-- The stream of the peer, as far as it has arrived. -/
  arrived : List UInt8
  /-- The cells copied into the receive buffer. -/
  delivered : List ReceiveCell
  /-- The number of asynchronous operations started. -/
  started : ℕ
  /-- The endpoints of the connection attempts. -/
  attempts : List Endpoint
  /-- Two reads have been active at the same time. -/
  readOverlap : Bool

/-- The handle in the handle map, or how it was released. -/
inductive HandleState where
  | held
  | released (hard : Bool)
  deriving DecidableEq, Repr

structure TcpSession where
  socket : TcpSocket
  pending : Pending
  history : History
  handle : HandleState

/-- The handle and the pending handlers are the owners of the socket. When none is
left, it has been destroyed. -/
def TcpSession.destroyed (s : TcpSession) : Bool := s.handle ≠ .held && s.pending.isEmpty

end FaucetNetworking
