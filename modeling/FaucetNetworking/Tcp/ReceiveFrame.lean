import FaucetNetworking.Tcp.Exchange

/-!
What runs outside of the calls neither reads nor writes the receive buffer, so that it can be
exchanged with calls that only concern the receive buffer.
-/
namespace FaucetNetworking

namespace TcpSession

/-- The receive buffer is changed, and nothing else. -/
def withReceiveBuffer (s : TcpSession) (f : Buffer → Buffer) : TcpSession :=
  { s with socket.receiveBuffer := f s.socket.receiveBuffer }

variable (f : Buffer → Buffer) (s : TcpSession)

theorem ite_withReceiveBuffer {c : Prop} [Decidable c] {s t s' t' : TcpSession}
    (hs : s' = s.withReceiveBuffer f) (ht : t' = t.withReceiveBuffer f) :
    (if c then s' else t') = (if c then s else t).withReceiveBuffer f := by
  rw [hs, ht]
  exact (apply_ite (withReceiveBuffer · f) c s t).symm

theorem ite_outcome_withReceiveBuffer {c : Prop} [Decidable c] {s t s' t' : Outcome TcpSession}
    (hs : s' = s.map (withReceiveBuffer · f)) (ht : t' = t.map (withReceiveBuffer · f)) :
    (if c then s' else t') = (if c then s else t).map (withReceiveBuffer · f) := by
  rw [hs, ht]
  exact (apply_ite (Outcome.map (withReceiveBuffer · f)) c s t).symm

/-! ### Handlers -/

theorem enterClosed_withReceiveBuffer :
    TcpClosed.enterClosed (s.withReceiveBuffer f) =
      (TcpClosed.enterClosed s).withReceiveBuffer f := by
  unfold TcpClosed.enterClosed
  exact ite_withReceiveBuffer f rfl rfl

theorem enterErrorState_withReceiveBuffer (message : String) :
    TcpSocket.enterErrorState (s.withReceiveBuffer f) message =
      (TcpSocket.enterErrorState s message).withReceiveBuffer f := by
  unfold TcpSocket.enterErrorState TcpClosed.enterError
  rw [← enterClosed_withReceiveBuffer]
  have habort : TcpSocket.abort (s.withReceiveBuffer f) =
      (TcpSocket.abort s).withReceiveBuffer f := by
    have hstate : (s.withReceiveBuffer f).socket.state = s.socket.state := rfl
    unfold TcpSocket.abort
    rw [hstate]
    split <;> rfl
  rw [habort]
  exact congrArg TcpClosed.enterClosed (ite_withReceiveBuffer f rfl rfl)

theorem startAsyncSend_withReceiveBuffer :
    TcpConnected.startAsyncSend (s.withReceiveBuffer f) =
      (TcpConnected.startAsyncSend s).withReceiveBuffer f := by
  unfold TcpConnected.startAsyncSend
  exact ite_withReceiveBuffer f rfl rfl

theorem enter_withReceiveBuffer (noDelay : Bool) (calls : EnterCalls) :
    TcpConnected.enter (s.withReceiveBuffer f) noDelay calls =
      (TcpConnected.enter s noDelay calls).withReceiveBuffer f := by
  obtain ⟨remoteEndpoint, localEndpoint, addressString, setOption, nonBlocking⟩ := calls
  unfold TcpConnected.enter TcpConnected.prepare
  cases remoteEndpoint with
  | error message => exact enterErrorState_withReceiveBuffer f s message
  | ok remoteEndpoint =>
    cases localEndpoint with
    | error message => exact enterErrorState_withReceiveBuffer f s message
    | ok localEndpoint =>
      cases addressString with
      | error message => exact enterErrorState_withReceiveBuffer f s message
      | ok address =>
        let known := TcpConnected.setEndpointInfo s address remoteEndpoint.port localEndpoint.port
        cases setOption with
        | error message => exact enterErrorState_withReceiveBuffer f known message
        | ok =>
          let delayed := { known with socket.socket.noDelay := noDelay }
          cases nonBlocking with
          | error message => exact enterErrorState_withReceiveBuffer f delayed message
          | ok => exact startAsyncSend_withReceiveBuffer f delayed

theorem tryNext_withReceiveBuffer (endpoints : V4FirstIterator) (closeError : Option String) :
    TcpConnecting.tryNext (s.withReceiveBuffer f) endpoints closeError =
      (TcpConnecting.tryNext s endpoints closeError).withReceiveBuffer f := by
  cases closeError with
  | some message => exact enterErrorState_withReceiveBuffer f s message
  | none => rfl

theorem handleResolve_withReceiveBuffer (result : Except String (List Endpoint))
    (closeError : Option String) :
    TcpConnecting.handleResolve (s.withReceiveBuffer f) result closeError =
      (TcpConnecting.handleResolve s result closeError).withReceiveBuffer f := by
  unfold TcpConnecting.handleResolve
  refine ite_withReceiveBuffer f rfl ?_
  cases result with
  | error message => exact enterErrorState_withReceiveBuffer f s message
  | ok endpoints => exact tryNext_withReceiveBuffer f s _ closeError

theorem handleConnect_withReceiveBuffer (error : Option String) (endpoints : V4FirstIterator)
    (closeError : Option String) (calls : EnterCalls) :
    TcpConnecting.handleConnect (s.withReceiveBuffer f) error endpoints closeError calls =
      (TcpConnecting.handleConnect s error endpoints closeError calls).withReceiveBuffer f := by
  unfold TcpConnecting.handleConnect
  refine ite_withReceiveBuffer f rfl ?_
  cases error with
  | none => exact enter_withReceiveBuffer f { s with socket.state := .connected } _ calls
  | some message =>
    exact ite_withReceiveBuffer f (tryNext_withReceiveBuffer f s endpoints closeError)
      (enterErrorState_withReceiveBuffer f s message)

theorem handleSend_withReceiveBuffer (error : Option String) (bytesTransferred : ℕ) :
    TcpConnected.handleSend (s.withReceiveBuffer f) error bytesTransferred =
      (TcpConnected.handleSend s error bytesTransferred).map (withReceiveBuffer · f) := by
  let idle := { s with socket.tcpConnected.asyncSendInProgress := false }
  unfold TcpConnected.handleSend
  refine ite_outcome_withReceiveBuffer f rfl ?_
  cases error with
  | some message => exact congrArg Outcome.ok (enterErrorState_withReceiveBuffer f idle message)
  | none =>
    simp only [withReceiveBuffer]
    cases s.socket.sendbuffer.pop bytesTransferred with
    | undefined | throws => rfl
    | ok sendbuffer =>
      let popped := { idle with socket.sendbuffer := sendbuffer }
      exact ite_outcome_withReceiveBuffer f
        (congrArg Outcome.ok (startAsyncSend_withReceiveBuffer f popped)) rfl

theorem handleReceive_withReceiveBuffer (error : Option String) :
    TcpConnected.handleReceive (s.withReceiveBuffer f) error =
      (TcpConnected.handleReceive s error).withReceiveBuffer f := by
  cases error with
  | some message =>
    exact enterErrorState_withReceiveBuffer f
      { s with socket.tcpConnected.asyncReceiveInProgress := false } message
  | none => rfl

theorem transfer_withReceiveBuffer (buffers : List ConstBuffer) (error : Option String)
    (bytesTransferred : ℕ) :
    Completion.transfer (s.withReceiveBuffer f) buffers error bytesTransferred =
      (Completion.transfer s buffers error bytesTransferred).map (withReceiveBuffer · f) := by
  cases error with
  | some message => rfl
  | none =>
    simp only [Completion.transfer, withReceiveBuffer, Option.map_map]
    rfl

theorem completion_withReceiveBuffer (c : Completion) :
    c.perform (s.withReceiveBuffer f) = (c.perform s).map (withReceiveBuffer · f) := by
  cases c with
  | resolve result closeError =>
    exact congrArg Outcome.ok (handleResolve_withReceiveBuffer f
      { s with pending.resolves := s.pending.resolves - 1 } result closeError)
  | connect index error closeError calls =>
    exact congrArg Outcome.ok (handleConnect_withReceiveBuffer f
      { s with pending.connects := s.pending.connects.eraseIdx index } error _ closeError calls)
  | send index error bytesTransferred =>
    have htransfer := transfer_withReceiveBuffer f s (s.pending.sends.getD index []) error
      bytesTransferred
    have hpending : (s.withReceiveBuffer f).pending = s.pending := rfl
    simp only [Completion.perform, hpending, htransfer]
    cases Completion.transfer s (s.pending.sends.getD index []) error bytesTransferred with
    | none => rfl
    | some u =>
      exact handleSend_withReceiveBuffer f
        { u with pending.sends := u.pending.sends.eraseIdx index } error bytesTransferred
  | receive index error =>
    exact congrArg Outcome.ok (handleReceive_withReceiveBuffer f
      { s with pending.receives := s.pending.receives.eraseIdx index } error)

theorem network_withReceiveBuffer (n : NetworkEvent) :
    n.perform (s.withReceiveBuffer f) = (n.perform s).withReceiveBuffer f := by
  cases n with
  | arrive | peerClose => rfl
  | asyncReadProgress index count =>
    simp only [NetworkEvent.perform, withReceiveBuffer]
    cases s.pending.receives[index]? with
    | none => rfl
    | some r => rfl

theorem reap_withReceiveBuffer : (s.withReceiveBuffer f).reap = s.reap.withReceiveBuffer f := by
  unfold reap
  exact ite_withReceiveBuffer f rfl rfl

/-- A handler, or what happens in the network, does the same whatever the buffer holds. -/
theorem step_withReceiveBuffer {e : Event} (he : ∀ c, e ≠ .call c) :
    step (s.withReceiveBuffer f) e = (step s e).map (withReceiveBuffer · f) := by
  have hperform : perform (s.withReceiveBuffer f) e =
      (perform s e).map (withReceiveBuffer · f) := by
    cases e with
    | call c => exact absurd rfl (he c)
    | completion c => exact completion_withReceiveBuffer f s c
    | network n => exact congrArg Outcome.ok (network_withReceiveBuffer f s n)
  have henabled : Enabled (s.withReceiveBuffer f) e ↔ Enabled s e := by
    cases e with
    | call c => exact absurd rfl (he c)
    | completion c => cases c <;> exact Iff.rfl
    | network n => cases n <;> exact Iff.rfl
  unfold step
  by_cases h : Enabled s e
  · rw [if_pos h, if_pos (henabled.mpr h), hperform]
    cases perform s e with
    | undefined | throws => rfl
    | ok u => exact congrArg some (reap_withReceiveBuffer f u)
  · rw [if_neg h, if_neg fun h' => h (henabled.mp h')]
    rfl

/-! ### Calls -/

theorem not_reads {e : Event} (he : ∀ c, e ≠ .call c) : ¬e.Reads := fun hreads => by
  cases e with
  | call c => exact he c rfl
  | completion | network => exact hreads

/-- A call that only changes the receive buffer needs nothing but the handle. -/
theorem step_call_withReceiveBuffer {c : Call} (henabled : c.Enabled s ↔ s.handle = .held)
    (hperform : c.perform s = .ok (s.withReceiveBuffer f)) :
    step s (.call c) = if s.handle = .held then some (s.withReceiveBuffer f) else none := by
  have hreap : s.handle = .held → (s.withReceiveBuffer f).reap = s.withReceiveBuffer f :=
    fun hheld => reap_of_held hheld
  have henabled : Enabled s (.call c) ↔ s.handle = .held := henabled
  unfold step
  by_cases hheld : s.handle = .held
  · have hok : perform s (.call c) = .ok (s.withReceiveBuffer f) := hperform
    rw [if_pos hheld, if_pos (henabled.mpr hheld), hok]
    exact congrArg some (hreap hheld)
  · rw [if_neg hheld, if_neg fun h => hheld (henabled.mp h)]

theorem step_read (size : ℕ) : step s (.call (.read size)) =
    if s.handle = .held then some (s.withReceiveBuffer fun b => (b.read size).2) else none :=
  step_call_withReceiveBuffer _ s (and_iff_left trivial) rfl

theorem step_setReadpos (pos : ℕ) : step s (.call (.setReadpos pos)) =
    if s.handle = .held then some (s.withReceiveBuffer (Buffer.setReadpos · pos)) else none :=
  step_call_withReceiveBuffer _ s (and_iff_left trivial) rfl

end TcpSession

end FaucetNetworking
