import FaucetNetworking.Tcp.Connection
import FaucetNetworking.Lib.StateMachine

/-!
Runs of a TCP session. A step is a call by the client, the completion handler
of one pending operation with any outcome that Asio allows, or an event in the
network. Pending operations may complete in any order. The object dies when its
handle has been released and no handler holds it any more.
-/
namespace FaucetNetworking

/-- The calls of the client, with the results of the calls into Asio. -/
inductive Call where
  | write (data : List UInt8)
  | send
  | receive (ammount : ℕ) (calls : ReceiveCalls)
  | receiveAvailable (calls : ReceiveCalls)
  | isEof (peek : PeekResult)
  | setNoDelay (noDelay : Bool) (error : Option String)
  | setSendbufferLimit (maxSize : ℕ)
  | read (size : ℕ)
  | setReadpos (pos : ℕ)
  | disconnectAbortive
  | destroySocket (hard : Bool)

/-- The completion of a pending operation; an index tells which one. -/
inductive Completion where
  | resolve (result : Except String (List Endpoint)) (closeError : Option String)
  | connect (index : ℕ) (error : Option String) (closeError : Option String)
      (calls : EnterCalls)
  | send (index : ℕ) (error : Option String) (bytesTransferred : ℕ)
  | receive (index : ℕ) (error : Option String)

/-- What happens outside: bytes of the peer arrive, the peer closes its
direction, or an async_read moves bytes that have arrived to their place. -/
inductive NetworkEvent where
  | arrive (bytes : List UInt8)
  | peerClose
  | asyncReadProgress (index count : ℕ)

inductive Event where
  | call (c : Call)
  | completion (c : Completion)
  | network (n : NetworkEvent)

/-- No more bytes are available than have arrived. -/
def ReceiveCalls.Sound (calls : ReceiveCalls) (inbox : List UInt8) : Prop :=
  match calls.available with
  | .ok available => available ≤ inbox.length
  | .error _ => True

instance (calls : ReceiveCalls) (inbox : List UInt8) :
    Decidable (ReceiveCalls.Sound calls inbox) := by
  unfold ReceiveCalls.Sound
  split <;> infer_instance

def PeekResult.Sound (peek : PeekResult) (socket : AsioSocket) : Prop :=
  match peek with
  | .data => socket.inbox ≠ []
  | .eof => socket.inbox = [] ∧ socket.peerClosed = true
  | .wouldBlock => True
  | .error _ => True

instance (peek : PeekResult) (socket : AsioSocket) : Decidable (PeekResult.Sound peek socket) := by
  unfold PeekResult.Sound
  split <;> infer_instance

namespace Call

/-- A call needs the handle, and its results are possible ones. -/
def Enabled (s : TcpSession) (c : Call) : Prop :=
  s.handle = .held ∧
    match c with
    | .receive _ calls => calls.Sound s.socket.socket.inbox
    | .receiveAvailable calls => calls.Sound s.socket.socket.inbox
    | .isEof peek => peek.Sound s.socket.socket
    | _ => True

instance (s : TcpSession) (c : Call) : Decidable (Enabled s c) := by
  unfold Enabled
  cases c <;> infer_instance

def perform (s : TcpSession) : Call → Outcome TcpSession
  | .write data => TcpSocket.write s data
  | .send => .ok (TcpSocket.send s)
  | .receive ammount calls => .ok (TcpSocket.receive s ammount calls).2
  | .receiveAvailable calls => .ok (TcpSocket.receiveAvailable s calls).2
  | .isEof peek => .ok (TcpSocket.isEof s peek).2
  | .setNoDelay noDelay error => .ok (TcpSocket.setNoDelay s noDelay error).2
  | .setSendbufferLimit maxSize => .ok (TcpSocket.setSendbufferLimit s maxSize)
  | .read size => .ok (TcpSocket.read s size).2
  | .setReadpos pos => .ok (TcpSocket.setReadpos s pos)
  | .disconnectAbortive => .ok (TcpSocket.disconnectAbortive s)
  | .destroySocket hard => .ok (FaucetNetworking.destroySocket s hard)

end Call

namespace Completion

/-- The operation is pending. A send completes with an error or with a number of
bytes from its buffers, a read with an error or after it has been filled. -/
def Enabled (s : TcpSession) : Completion → Prop
  | .resolve _ _ => 0 < s.pending.resolves
  | .connect index _ _ _ => index < s.pending.connects.length
  | .send index error bytesTransferred =>
    match s.pending.sends[index]? with
    | none => False
    | some buffers => error = none → bytesTransferred ≤ sequenceSize buffers
  | .receive index error =>
    match s.pending.receives[index]? with
    | none => False
    | some r => error = none → r.filled = r.ammount

instance (s : TcpSession) (c : Completion) : Decidable (Enabled s c) := by
  unfold Enabled
  cases c with
  | resolve => infer_instance
  | connect => infer_instance
  | send => dsimp only; split <;> infer_instance
  | receive => dsimp only; split <;> infer_instance

/-- The bytes a send takes out of its buffers go out; without an error exactly
the first ones, with an error none. -/
def transfer (s : TcpSession) (buffers : List ConstBuffer) (error : Option String)
    (bytesTransferred : ℕ) : Option TcpSession :=
  match error with
  | some _ => some s
  | none => (gather s.socket.sendbuffer.buffers buffers).map fun bytes =>
      { s with history.transferred := s.history.transferred ++ bytes.take bytesTransferred }

/-- The operation stops pending and its handler is called. -/
def perform (s : TcpSession) : Completion → Outcome TcpSession
  | .resolve result closeError =>
    let s := { s with pending.resolves := s.pending.resolves - 1 }
    .ok (TcpConnecting.handleResolve s result closeError)
  | .connect index error closeError calls =>
    let endpoints := s.pending.connects.getD index ⟨[], []⟩
    let s := { s with pending.connects := s.pending.connects.eraseIdx index }
    .ok (TcpConnecting.handleConnect s error endpoints closeError calls)
  | .send index error bytesTransferred =>
    match transfer s (s.pending.sends.getD index []) error bytesTransferred with
    | none => .undefined
    | some s =>
      let s := { s with pending.sends := s.pending.sends.eraseIdx index }
      TcpConnected.handleSend s error bytesTransferred
  | .receive index error =>
    let s := { s with pending.receives := s.pending.receives.eraseIdx index }
    .ok (TcpConnected.handleReceive s error)

end Completion

namespace NetworkEvent

def Enabled (s : TcpSession) : NetworkEvent → Prop
  | .arrive _ => s.socket.socket.peerClosed = false
  | .peerClose => True
  | .asyncReadProgress index count =>
    match s.pending.receives[index]? with
    | none => False
    | some r => r.filled + count ≤ r.ammount ∧ count ≤ s.socket.socket.inbox.length

instance (s : TcpSession) (n : NetworkEvent) : Decidable (Enabled s n) := by
  unfold Enabled
  cases n with
  | arrive => infer_instance
  | peerClose => infer_instance
  | asyncReadProgress => dsimp only; split <;> infer_instance

def perform (s : TcpSession) : NetworkEvent → TcpSession
  | .arrive bytes =>
    { s with
      socket.socket.inbox := s.socket.socket.inbox ++ bytes
      history.arrived := s.history.arrived ++ bytes }
  | .peerClose => { s with socket.socket.peerClosed := true }
  | .asyncReadProgress index count =>
    match s.pending.receives[index]? with
    | none => s
    | some r =>
      let s := Asio.moveBytes s (r.start + r.filled) count
      { s with
        pending.receives := s.pending.receives.set index { r with filled := r.filled + count } }

end NetworkEvent

namespace TcpSession

def Enabled (s : TcpSession) : Event → Prop
  | .call c => c.Enabled s
  | .completion c => c.Enabled s
  | .network n => n.Enabled s

instance (s : TcpSession) (e : Event) : Decidable (Enabled s e) := by
  unfold Enabled
  cases e <;> infer_instance

def perform (s : TcpSession) : Event → Outcome TcpSession
  | .call c => c.perform s
  | .completion c => c.perform s
  | .network n => .ok (n.perform s)

/-- The destructor of a socket that has just lost its last owner closes it. -/
def reap (s : TcpSession) : TcpSession :=
  if s.destroyed then { s with socket.socket.isOpen := false } else s

def step (s : TcpSession) (e : Event) : Option TcpSession :=
  if Enabled s e then (perform s e).toOption.map reap else none

/-- The sessions of the sockets that connectTo, error and fromConnectedSocket return. -/
inductive Created : TcpSession → Prop where
  | connectTo (literal : Option Endpoint) (closeError : Option String) :
      Created (TcpSocket.connectTo literal closeError)
  | error (message : String) : Created (TcpSocket.error message)
  | fromConnectedSocket (connectedSocket : AsioSocket) (calls : EnterCalls) :
      Created (TcpSocket.fromConnectedSocket connectedSocket calls)

/-- A socket accepted from the given peer, whose first send has no bytes. -/
def accepted : TcpSession :=
  TcpSocket.fromConnectedSocket ⟨true, [], false, false⟩
    ⟨.ok ⟨.v4, 0x0a000001, 80⟩, .ok ⟨.v4, 0x0a000002, 1024⟩, .ok "10.0.0.1", .ok (), .ok ()⟩

theorem created_accepted : Created accepted := .fromConnectedSocket _ _

theorem step_eq_some_iff (s t : TcpSession) (e : Event) :
    step s e = some t ↔ Enabled s e ∧ ∃ u, perform s e = .ok u ∧ t = reap u := by
  unfold step
  split
  · rename_i h
    rw [Option.map_eq_some_iff]
    simp only [Outcome.toOption_eq_some_iff, h, true_and, eq_comm (a := t)]
  · rename_i h
    simp only [reduceCtorEq, h, false_and]

variable {s t : TcpSession}

@[simp] theorem handle_reap (s : TcpSession) : s.reap.handle = s.handle := by
  unfold reap
  split <;> rfl

@[simp] theorem state_reap (s : TcpSession) : s.reap.socket.state = s.socket.state := by
  unfold reap
  split <;> rfl

theorem isOpen_reap (h : s.destroyed = true) : s.reap.socket.socket.isOpen = false := by
  unfold reap
  rw [if_pos h]

theorem reap_of_held (h : s.handle = .held) : s.reap = s := by
  unfold reap destroyed
  rw [h]
  rfl

theorem reap_of_sends (h : s.pending.sends ≠ []) : s.reap = s := by
  have hpending : s.pending.isEmpty = false := by
    unfold Pending.isEmpty
    cases hsends : s.pending.sends with
    | nil => exact absurd hsends h
    | cons => simp
  unfold reap destroyed
  rw [hpending, Bool.and_false]
  rfl

theorem step_of_perform {e : Event} (henabled : s.Enabled e)
    (hperform : s.perform e = .ok t) (hreap : t.reap = t) : step s e = some t :=
  (step_eq_some_iff s t e).mpr ⟨henabled, t, hperform, hreap.symm⟩

end TcpSession

end FaucetNetworking
