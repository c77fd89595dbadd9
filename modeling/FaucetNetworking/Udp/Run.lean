import FaucetNetworking.Lib.StateMachine
import FaucetNetworking.Udp.Socket

/-!
Runs of a UDP session. A step is a call by the client or the completion handler
of one pending operation, in any order and with any outcome.
-/
namespace FaucetNetworking

inductive UdpCall where
  | write (data : List UInt8)
  | send (host : String) (port : ℕ)
  | broadcast (addrs : List String) (port : ℕ)
  | setSendbufferLimit (maxSize : ℕ)
  | close
  | receive
  | read (size : ℕ)
  | readString (size : ℕ)
  | setReadpos (pos : ℕ)

/-- The completion of a pending operation; an index tells which one. The bytes are
those that the operation has stored in its scratch array. -/
inductive UdpCompletion where
  | resolve (index : ℕ) (error : Option String) (results : List Endpoint)
  | send (index : ℕ) (error : Option String)
  | receive (index : ℕ) (error : Option String) (bytes : List UInt8) (endpoint : Endpoint)

inductive UdpEvent where
  | call (c : UdpCall)
  | completion (c : UdpCompletion)

namespace UdpCall

def perform (P : Platform) (s : UdpSession) : UdpCall → UdpSession
  | .write data => s.write data
  | .send host port => (s.send P host port).2
  | .broadcast addrs port => (s.broadcast P addrs port).2
  | .setSendbufferLimit maxSize => s.setSendbufferLimit maxSize
  | .close => s.close
  | .receive => s.receive.2
  | .read size => (s.read size).2
  | .readString size => (s.readString size).2
  | .setReadpos pos => s.setReadpos pos

end UdpCall

namespace UdpCompletion

/-- The operation is pending, and a receive has not stored more than fits. -/
def Enabled (s : UdpSession) : UdpCompletion → Prop
  | .resolve index _ _ => index < s.pending.resolves.length
  | .send index _ => index < s.pending.sends.length
  | .receive index _ bytes _ =>
    index < s.pending.receives.length ∧ bytes.length ≤ UdpSession.recvbufferSize

instance (s : UdpSession) (c : UdpCompletion) : Decidable (Enabled s c) := by
  unfold Enabled
  cases c <;> infer_instance

/-- An attempt to send the current datagram has come to its end. -/
def noteOutcome (s : UdpSession) (error : Option String) : UdpSession :=
  { s with
    history.current := s.history.current.map fun t =>
      { t with outcomes := t.outcomes ++ [error] } }

/-- The operation stops pending and its handler is called. -/
def perform (P : Platform) (s : UdpSession) : UdpCompletion → UdpSession
  | .resolve index error results =>
    let place := s.pending.resolves.getD index 0
    let s := { s with pending.resolves := s.pending.resolves.eraseIdx index }
    UdpSession.handleResolve P s error results place
  | .send index error =>
    let operation := s.pending.sends.getD index ⟨0, ⟨[], []⟩⟩
    let s := { s with pending.sends := s.pending.sends.eraseIdx index }
    UdpSession.handleSend P (noteOutcome s error) error operation.buffer operation.endpoints
  | .receive index error bytes endpoint =>
    let operation := s.pending.receives.getD index ⟨.v4, []⟩
    let s := { s with pending.receives := s.pending.receives.eraseIdx index }
    let recvbuffer := bytes ++ operation.recvbuffer.drop bytes.length
    UdpSession.handleReceive P s error bytes.length endpoint operation.protocol recvbuffer

end UdpCompletion

namespace UdpSession

def Enabled (s : UdpSession) : UdpEvent → Prop
  | .call _ => True
  | .completion c => c.Enabled s

instance (s : UdpSession) (e : UdpEvent) : Decidable (Enabled s e) := by
  unfold Enabled
  cases e <;> infer_instance

def perform (P : Platform) (s : UdpSession) : UdpEvent → UdpSession
  | .call c => c.perform P s
  | .completion c => c.perform P s

def step (P : Platform) (s : UdpSession) (e : UdpEvent) : Option UdpSession :=
  if Enabled s e then some (perform P s e) else none

theorem step_eq_some_iff (P : Platform) (s t : UdpSession) (e : UdpEvent) :
    step P s e = some t ↔ Enabled s e ∧ perform P s e = t := by
  unfold step
  split
  · rename_i h
    simp only [Option.some.injEq, h, true_and]
  · rename_i h
    simp only [reduceCtorEq, h, false_and]

end UdpSession

end FaucetNetworking
