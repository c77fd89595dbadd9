import FaucetNetworking.Buffer
import FaucetNetworking.Udp.TrackedQueue
import FaucetNetworking.V4FirstIterator

/-!
The member functions of UdpSocket. Buffers are shared by pointer, so they live in
a heap and a pointer is a place in it. Every function that the source guards with
the common mutex is one transition, and so are the few that it does not guard: most of
them touch no buffer or queue that a handler uses, but setSendbufferLimit does, and is
one transition only where no resolve or send handler runs inside it. The functions of
Boost that only compute are parameters.
-/
namespace FaucetNetworking

/-- What the platform brings: address::from_string and address::to_string, and the
size of a queue item without its payload, which is a few words. -/
structure Platform where
  fromString : String → Option (Protocol × ℕ)
  toString : Protocol → ℕ → String
  sizeofQueueItem : ℕ
  sizeofQueueItem_le : sizeofQueueItem ≤ 1024

structure UdpSocket where
  sendqueue : TrackedQueue
  receivequeue : TrackedQueue
  asyncSendInProgress : Bool
  ipv4Open : Bool
  ipv6Open : Bool
  remoteIp : String
  remotePort : ℕ
  receiveBuffer : ℕ
  sendBuffer : ℕ

/-- An async_send_to with the arguments that are bound to its handler. -/
structure PendingSend where
  buffer : ℕ
  endpoints : V4FirstIterator
  deriving DecidableEq, Repr

/-- An async_receive_from on one of the sockets, with its scratch array. -/
structure PendingReceive where
  protocol : Protocol
  recvbuffer : List UInt8
  deriving DecidableEq, Repr

/-- A pending async_resolve is the buffer that is bound to its handler. -/
structure UdpPending where
  resolves : List ℕ
  sends : List PendingSend
  receives : List PendingReceive
  deriving DecidableEq, Repr

/-- What was done for a datagram: the results of its resolution, the attempts to send
it with the payload handed over, and the outcomes of those that have completed. -/
structure Transmission where
  datagram : Datagram
  results : List Endpoint
  attempts : List (Endpoint × List UInt8)
  outcomes : List (Option String)
  deriving DecidableEq, Repr

structure UdpHistory where
  completed : List Transmission
  current : Option Transmission
  /-- What the client has been shown. -/
  exposed : List Datagram
  deriving DecidableEq, Repr

structure UdpSession where
  buffers : List Buffer
  socket : UdpSocket
  pending : UdpPending
  history : UdpHistory

namespace UdpSession

/-! ### The heap -/

def buffer (s : UdpSession) (place : ℕ) : Buffer := s.buffers.getD place .new

def setBuffer (s : UdpSession) (place : ℕ) (b : Buffer) : UdpSession :=
  { s with buffers := s.buffers.set place b }

/-- The place of the next buffer that is allocated. -/
def freshPlace (s : UdpSession) : ℕ := s.buffers.length

def allocate (s : UdpSession) : UdpSession := { s with buffers := s.buffers ++ [.new] }

/-- The constructor of QueueItem computes the size once. -/
def queueItem (P : Platform) (s : UdpSession) (place : ℕ) (host : String) (port : ℕ) :
    QueueItem :=
  ⟨P.sizeofQueueItem + (s.buffer place).size, place, host, port⟩

/-! ### The ReadWritable interface -/

def write (s : UdpSession) (data : List UInt8) : UdpSession :=
  s.setBuffer s.socket.sendBuffer ((s.buffer s.socket.sendBuffer).write data)

def read (s : UdpSession) (size : ℕ) : List UInt8 × UdpSession :=
  let (bytes, b) := (s.buffer s.socket.receiveBuffer).read size
  (bytes, s.setBuffer s.socket.receiveBuffer b)

def readString (s : UdpSession) (size : ℕ) : List UInt8 × UdpSession :=
  let (bytes, b) := (s.buffer s.socket.receiveBuffer).readString size
  (bytes, s.setBuffer s.socket.receiveBuffer b)

def setReadpos (s : UdpSession) (pos : ℕ) : UdpSession :=
  s.setBuffer s.socket.receiveBuffer ((s.buffer s.socket.receiveBuffer).setReadpos pos)

def setSendbufferLimit (s : UdpSession) (maxSize : ℕ) : UdpSession :=
  { s with socket.sendqueue := s.socket.sendqueue.setMemSizeLimit maxSize }

/-! ### Sending -/

/-- Whether ipv4socket or ipv6socket is open. -/
def socketOpen (s : UdpSession) : Protocol → Bool
  | .v4 => s.socket.ipv4Open
  | .v6 => s.socket.ipv6Open

/-- Whether the socket that getAppropriateSocket returns is open. -/
def isOpen (s : UdpSession) (endpoint : Endpoint) : Bool := s.socketOpen endpoint.protocol

/-- The do-while loop of handleSend. -/
def selectEndpoint (s : UdpSession) (endpoints : V4FirstIterator) :
    Endpoint × V4FirstIterator :=
  let next := endpoints.next
  if !s.isOpen next.1 && next.2.hasNext then s.selectEndpoint next.2 else next
termination_by endpoints.remaining.length
decreasing_by
  rename_i hcond
  have hnext : endpoints.next.2.hasNext = true := (Bool.and_eq_true_iff.mp hcond).2
  have hbefore : endpoints.hasNext = true := by
    cases hempty : endpoints.hasNext with
    | true => rfl
    | false =>
      rw [endpoints.next_of_not_hasNext hempty] at hnext
      contradiction
  rw [endpoints.remaining_eq_next hbefore]
  exact Nat.lt_succ_self _

/-- The endpoint to try after an error, if there is one whose socket is open. -/
def nextAttempt (s : UdpSession) (err : Option String) (endpoints : V4FirstIterator) :
    Option (Endpoint × V4FirstIterator) :=
  if err.isSome && endpoints.hasNext then
    let selected := s.selectEndpoint endpoints
    if s.isOpen selected.1 then some selected else none
  else none

def asyncSendTo (s : UdpSession) (endpoint : Endpoint) (place : ℕ)
    (endpoints : V4FirstIterator) : UdpSession :=
  { s with
    pending.sends := s.pending.sends ++ [⟨place, endpoints⟩]
    history.current := s.history.current.map fun t =>
      { t with attempts := t.attempts ++ [(endpoint, (s.buffer place).data)] } }

def asyncResolve (s : UdpSession) (place : ℕ) : UdpSession :=
  { s with pending.resolves := s.pending.resolves ++ [place] }

/-- The front item is taken out of the queue. -/
def beginSend (s : UdpSession) : UdpSession :=
  { s with
    socket.sendqueue := s.socket.sendqueue.pop
    socket.asyncSendInProgress := true
    history.current := s.socket.sendqueue.waiting.head?.map fun entry => ⟨entry.2, [], [], []⟩ }

/-- Nothing more is done for the current datagram. -/
def endSend (s : UdpSession) : UdpSession :=
  { s with
    socket.asyncSendInProgress := false
    history.completed := s.history.completed ++ s.history.current.toList
    history.current := none }

def noteResults (s : UdpSession) (results : List Endpoint) : UdpSession :=
  { s with history.current := s.history.current.map fun t => { t with results := results } }

def hostNotFound : String := "Host not found (authoritative)"

mutual

/-- A literal address is resolved at once and its handler runs before the call
returns; another name is looked up. -/
def asyncSend (P : Platform) (s : UdpSession) : UdpSession :=
  match _h : s.socket.sendqueue.queue.queue with
  | [] => s
  | item :: _ =>
    match P.fromString item.remoteHost with
    | some address =>
      handleResolve P (beginSend s) none [⟨address.1, address.2, item.remotePort⟩] item.buffer
    | none => asyncResolve (beginSend s) item.buffer
termination_by 3 * s.socket.sendqueue.queue.queue.length
decreasing_by
  rw [_h, beginSend, TrackedQueue.queue_queue_pop, _h]
  simp only [List.tail_cons, List.length_cons]
  omega

def handleResolve (P : Platform) (s : UdpSession) (error : Option String)
    (endpointIterator : List Endpoint) (place : ℕ) : UdpSession :=
  handleSend P (noteResults s endpointIterator) (some (error.getD hostNotFound)) place
    (.new endpointIterator)
termination_by 3 * s.socket.sendqueue.queue.queue.length + 2
decreasing_by
  exact Nat.lt_succ_self _

def handleSend (P : Platform) (s : UdpSession) (err : Option String) (place : ℕ)
    (endpoints : V4FirstIterator) : UdpSession :=
  match s.nextAttempt err endpoints with
  | some (endpoint, endpoints) => asyncSendTo s endpoint place endpoints
  | none =>
    if s.socket.sendqueue.isEmpty then endSend s else asyncSend P (endSend s)
termination_by 3 * s.socket.sendqueue.queue.queue.length + 1
decreasing_by
  exact Nat.lt_succ_self _

end

/-- The datagram in the send buffer is offered to the queue. -/
def enqueue (P : Platform) (s : UdpSession) (host : String) (port : ℕ) : Bool × UdpSession :=
  let place := s.socket.sendBuffer
  let pushed := s.socket.sendqueue.push (s.queueItem P place host port)
    ⟨(s.buffer place).data, host, port⟩
  (pushed.1, { s with socket.sendqueue := pushed.2 })

def enqueueAll (P : Platform) (s : UdpSession) (port : ℕ) : List String → Bool × UdpSession
  | [] => (false, s)
  | addr :: rest =>
    let first := s.enqueue P addr port
    let others := first.2.enqueueAll P port rest
    (first.1 || others.1, others.2)

/-- A send is started unless one is in progress, and the send buffer is replaced. -/
def flush (P : Platform) (s : UdpSession) : UdpSession :=
  let s := if s.socket.asyncSendInProgress then s else asyncSend P s
  { s.allocate with socket.sendBuffer := s.freshPlace }

def send (P : Platform) (s : UdpSession) (host : String) (port : ℕ) : Bool × UdpSession :=
  let enqueued := s.enqueue P host port
  (enqueued.1, enqueued.2.flush P)

/-- The addresses are those that findLocalBroadcastAddresses returns. -/
def broadcast (P : Platform) (s : UdpSession) (addrs : List String) (port : ℕ) :
    Bool × UdpSession :=
  let enqueued := s.enqueueAll P port addrs
  (enqueued.1, enqueued.2.flush P)

/-! ### Receiving -/

def asyncReceive (s : UdpSession) (protocol : Protocol) (recvbuffer : List UInt8) :
    UdpSession :=
  { s with pending.receives := s.pending.receives ++ [⟨protocol, recvbuffer⟩] }

/-- The bytes that were transferred to the scratch array are copied to a new buffer,
which enters the queue with the sender of the datagram. -/
def storeDatagram (P : Platform) (s : UdpSession) (bytes : List UInt8) (endpoint : Endpoint) :
    UdpSession :=
  let place := s.freshPlace
  let s := s.allocate.setBuffer place (Buffer.new.write bytes)
  let host := P.toString endpoint.protocol endpoint.address
  let pushed := s.socket.receivequeue.push (s.queueItem P place host endpoint.port)
    ⟨(s.buffer place).data, host, endpoint.port⟩
  { s with socket.receivequeue := pushed.2 }

def handleReceive (P : Platform) (s : UdpSession) (err : Option String) (bytesTransferred : ℕ)
    (endpoint : Endpoint) (protocol : Protocol) (recvbuffer : List UInt8) : UdpSession :=
  let s := match err with
    | none => s.storeDatagram P (recvbuffer.take bytesTransferred) endpoint
    | some _ => s
  if s.socketOpen protocol then s.asyncReceive protocol recvbuffer else s

/-- What the client sees: the receive buffer and the remote address and port. -/
def shown (s : UdpSession) : Datagram :=
  ⟨(s.buffer s.socket.receiveBuffer).data, s.socket.remoteIp, s.socket.remotePort⟩

def receive (s : UdpSession) : Bool × UdpSession :=
  match s.socket.receivequeue.queue.peek with
  | none =>
    let s := s.setBuffer s.socket.receiveBuffer (s.buffer s.socket.receiveBuffer).clear
    (false, { s with socket.remoteIp := "", socket.remotePort := 0 })
  | some item =>
    let s := { s with
      socket.receiveBuffer := item.buffer
      socket.remoteIp := item.remoteHost
      socket.remotePort := item.remotePort
      socket.receivequeue := s.socket.receivequeue.pop }
    (true, { s with history.exposed := s.history.exposed ++ [s.shown] })

def close (s : UdpSession) : UdpSession :=
  let s := { s with
    socket.sendqueue := s.socket.sendqueue.clear
    socket.receivequeue := s.socket.receivequeue.clear }
  let s := s.setBuffer s.socket.sendBuffer (s.buffer s.socket.sendBuffer).clear
  s.setBuffer s.socket.receiveBuffer (s.buffer s.socket.receiveBuffer).clear

def recvbufferSize : ℕ := 65536

/-- A socket as the constructor leaves it, with the open status of its two sockets
after bind has tried to open them. -/
def create (ipv4Open ipv6Open : Bool) : UdpSession where
  buffers := [.new, .new]
  socket :=
    { sendqueue := .new
      receivequeue := .new
      asyncSendInProgress := false
      ipv4Open := ipv4Open
      ipv6Open := ipv6Open
      remoteIp := ""
      remotePort := 0
      receiveBuffer := 0
      sendBuffer := 1 }
  pending := ⟨[], [], []⟩
  history := ⟨[], none, []⟩

/-- Receiving starts on the sockets that could be opened. With none, this is also
what UdpSocket::error returns. -/
def bind (ipv4Open ipv6Open : Bool) : UdpSession :=
  let s := create ipv4Open ipv6Open
  let s := if ipv4Open then s.asyncReceive .v4 (List.replicate recvbufferSize 0) else s
  if ipv6Open then s.asyncReceive .v6 (List.replicate recvbufferSize 0) else s

end UdpSession

end FaucetNetworking
