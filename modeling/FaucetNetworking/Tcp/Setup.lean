import FaucetNetworking.Tcp.Lifecycle

/-!
What the setup of a connection consists of, and what leaves it alone. Only the
handlers of a lookup and of a connection attempt carry it on; a call can end it by
closing the socket.
-/
namespace FaucetNetworking

/-- The operations of the setup and the attempts so far are the same. -/
structure SameSetup (s t : TcpSession) : Prop where
  resolves : t.pending.resolves = s.pending.resolves
  connects : t.pending.connects = s.pending.connects
  attempts : t.history.attempts = s.history.attempts

theorem SameSetup.refl (s : TcpSession) : SameSetup s s := ⟨rfl, rfl, rfl⟩

theorem SameSetup.trans {s t u : TcpSession} (h : SameSetup s t) (h' : SameSetup t u) :
    SameSetup s u :=
  ⟨h'.resolves.trans h.resolves, h'.connects.trans h.connects, h'.attempts.trans h.attempts⟩

/-! ### Functions that are not about the setup -/

theorem sameSetup_enterClosed (s : TcpSession) : SameSetup s (TcpClosed.enterClosed s) := by
  unfold TcpClosed.enterClosed
  split <;> exact ⟨rfl, rfl, rfl⟩

theorem sameSetup_abort (s : TcpSession) :
    SameSetup s { TcpSocket.abort s with socket.state := .closed } := by
  unfold TcpSocket.abort
  split <;> exact ⟨rfl, rfl, rfl⟩

theorem sameSetup_enterErrorState (s : TcpSession) (message : String) :
    SameSetup s (TcpSocket.enterErrorState s message) := by
  apply (sameSetup_abort s).trans
  unfold TcpSocket.enterErrorState TcpClosed.enterError
  simp only
  split
  · have hset : ∀ u : TcpSession, SameSetup u { u with socket.tcpClosed := ⟨true, message⟩ } :=
      fun u => ⟨rfl, rfl, rfl⟩
    exact (hset _).trans (sameSetup_enterClosed _)
  · exact sameSetup_enterClosed _

theorem sameSetup_enterClosedState (s : TcpSession) :
    SameSetup s (TcpSocket.enterClosedState s) :=
  (sameSetup_abort s).trans (sameSetup_enterClosed _)

theorem sameSetup_startAsyncSend (s : TcpSession) :
    SameSetup s (TcpConnected.startAsyncSend s) := by
  unfold TcpConnected.startAsyncSend
  split <;> exact ⟨rfl, rfl, rfl⟩

theorem sameSetup_send (s : TcpSession) : SameSetup s (TcpSocket.send s) := by
  have hmarked : SameSetup s { s with
      socket.sendbuffer := s.socket.sendbuffer.commit
      history.sendMark := s.history.accepted.length } := ⟨rfl, rfl, rfl⟩
  apply hmarked.trans
  unfold TcpSocket.send TcpSocket.startAsyncSend
  split
  · exact sameSetup_startAsyncSend _
  · exact SameSetup.refl _

theorem Prepared.sameSetup {s t : TcpSession} (h : Prepared s t) : SameSetup s t := by
  obtain ⟨remoteIp, remotePort, localPort, noDelay, rfl⟩ := h
  exact ⟨rfl, rfl, rfl⟩

theorem EnterCase.sameSetup {s t : TcpSession} (h : EnterCase s t) : SameSetup s t := by
  cases h with
  | failed t message hprepared => exact hprepared.sameSetup.trans (sameSetup_enterErrorState t _)
  | entered t hprepared => exact hprepared.sameSetup.trans (sameSetup_startAsyncSend t)

theorem Fetched.sameSetup {s t : TcpSession} {calls : ReceiveCalls} (h : Fetched s calls t) :
    SameSetup s t := by
  cases h <;> exact ⟨rfl, rfl, rfl⟩

theorem FetchFailed.sameSetup {s t : TcpSession} (h : FetchFailed s t) : SameSetup s t := by
  cases h <;> exact ⟨rfl, rfl, rfl⟩

theorem sameSetup_startAsyncReceive (s : TcpSession) (ammount : ℕ) :
    SameSetup s (TcpConnected.startAsyncReceive s ammount) := by
  unfold TcpConnected.startAsyncReceive
  split <;> exact ⟨rfl, rfl, rfl⟩

theorem sameSetup_deliver (s : TcpSession) (ammount : ℕ) :
    SameSetup s (TcpConnected.deliver s ammount) := ⟨rfl, rfl, rfl⟩

theorem ReceiveCase.sameSetup {s : TcpSession} {ammount : ℕ} {calls : ReceiveCalls}
    {result : Bool × TcpSession} (h : ReceiveCase s ammount calls result) :
    SameSetup s result.2 := by
  cases h with
  | busy _ => exact SameSetup.refl s
  | failed t message _ hfailed => exact hfailed.sameSetup.trans (sameSetup_enterErrorState t _)
  | served t _ hfetched _ => exact hfetched.sameSetup.trans (sameSetup_deliver t _)
  | started t _ hfetched _ => exact hfetched.sameSetup.trans (sameSetup_startAsyncReceive t _)

theorem ReceiveAvailableCase.sameSetup {s t : TcpSession} {calls : ReceiveCalls}
    (h : ReceiveAvailableCase s calls t) : SameSetup s t := by
  cases h with
  | busy _ => exact SameSetup.refl s
  | failed t message _ hfailed => exact hfailed.sameSetup.trans (sameSetup_enterErrorState t _)
  | served t _ hfetched => exact hfetched.sameSetup.trans (sameSetup_deliver t _)

theorem sameSetup_noteRead (s : TcpSession) : SameSetup s (Asio.noteRead s) := ⟨rfl, rfl, rfl⟩

theorem EofCase.sameSetup {s : TcpSession} {peek : PeekResult} {result : Bool × TcpSession}
    (h : EofCase s peek result) : SameSetup s result.2 := by
  cases h with
  | busy _ => exact SameSetup.refl s
  | eof _ _ _ => exact sameSetup_noteRead s
  | «open» _ => exact sameSetup_noteRead s
  | failed message _ => exact (sameSetup_noteRead s).trans (sameSetup_enterErrorState _ _)

theorem sameSetup_write {s t : TcpSession} {data : List UInt8}
    (h : TcpSocket.write s data = .ok t) : SameSetup s t := by
  unfold TcpSocket.write at h
  split at h
  · split at h
    · obtain rfl := Outcome.ok.inj h
      exact sameSetup_enterErrorState s _
    · split at h
      · contradiction
      · contradiction
      · obtain rfl := Outcome.ok.inj h
        exact ⟨rfl, rfl, rfl⟩
  · obtain rfl := Outcome.ok.inj h
    exact SameSetup.refl s

theorem sameSetup_clearReceiveBuffer (s : TcpSession) :
    SameSetup s (TcpSocket.clearReceiveBuffer s) := ⟨rfl, rfl, rfl⟩

theorem sameSetup_handleSend {s t : TcpSession} {error : Option String} {n : ℕ}
    (h : TcpConnected.handleSend s error n = .ok t) : SameSetup s t := by
  have hflag : SameSetup s { s with socket.tcpConnected.asyncSendInProgress := false } :=
    ⟨rfl, rfl, rfl⟩
  apply hflag.trans
  unfold TcpConnected.handleSend at h
  simp only at h
  split at h
  · obtain rfl := Outcome.ok.inj h
    exact SameSetup.refl _
  · split at h
    · obtain rfl := Outcome.ok.inj h
      exact sameSetup_enterErrorState _ _
    · split at h
      · contradiction
      · contradiction
      · rename_i sendbuffer _
        split at h
        · obtain rfl := Outcome.ok.inj h
          have hstarted := sameSetup_startAsyncSend { s with
            socket.tcpConnected.asyncSendInProgress := false
            socket.sendbuffer := sendbuffer }
          exact ⟨hstarted.resolves, hstarted.connects, hstarted.attempts⟩
        · obtain rfl := Outcome.ok.inj h
          exact ⟨rfl, rfl, rfl⟩

theorem sameSetup_handleReceive (s : TcpSession) (error : Option String) :
    SameSetup s (TcpConnected.handleReceive s error) := by
  have hflag : SameSetup s { s with socket.tcpConnected.asyncReceiveInProgress := false } :=
    ⟨rfl, rfl, rfl⟩
  cases error with
  | none => exact hflag
  | some message => exact hflag.trans (sameSetup_enterErrorState _ message)

theorem sameSetup_reap (s : TcpSession) : SameSetup s s.reap := by
  unfold TcpSession.reap
  split <;> exact ⟨rfl, rfl, rfl⟩

theorem sameSetup_call {s t : TcpSession} {c : Call} (h : c.perform s = .ok t) :
    SameSetup s t := by
  cases c with
  | write data => exact sameSetup_write h
  | send =>
    obtain rfl := Outcome.ok.inj h
    exact sameSetup_send s
  | receive ammount calls =>
    obtain rfl := Outcome.ok.inj h
    apply (sameSetup_clearReceiveBuffer s).trans
    rcases tcpSocket_receive_cases s ammount calls with ⟨-, heq⟩ | heq
    · rw [heq]
      exact (receive_case _ ammount calls).sameSetup
    · rw [heq]
      exact SameSetup.refl _
  | receiveAvailable calls =>
    obtain rfl := Outcome.ok.inj h
    apply (sameSetup_clearReceiveBuffer s).trans
    rcases tcpSocket_receiveAvailable_cases s calls with ⟨-, heq⟩ | heq
    · rw [heq]
      exact (receiveAvailable_case _ calls).sameSetup
    · rw [heq]
      exact SameSetup.refl _
  | isEof peek =>
    obtain rfl := Outcome.ok.inj h
    unfold TcpSocket.isEof
    split
    · exact SameSetup.refl s
    · exact (isEof_case s peek).sameSetup
    · exact SameSetup.refl s
  | setNoDelay noDelay error =>
    obtain rfl := Outcome.ok.inj h
    unfold TcpSocket.setNoDelay
    split
    · exact ⟨rfl, rfl, rfl⟩
    · cases error <;> exact ⟨rfl, rfl, rfl⟩
    · exact SameSetup.refl s
  | setSendbufferLimit maxSize | read size | setReadpos pos =>
    obtain rfl := Outcome.ok.inj h
    exact ⟨rfl, rfl, rfl⟩
  | disconnectAbortive =>
    obtain rfl := Outcome.ok.inj h
    exact sameSetup_enterClosedState s
  | destroySocket hard =>
    obtain rfl := Outcome.ok.inj h
    have hreleased : ∀ u : TcpSession, SameSetup u { u with handle := .released hard } :=
      fun u => ⟨rfl, rfl, rfl⟩
    cases hard with
    | false => exact (sameSetup_send s).trans (hreleased _)
    | true => exact (sameSetup_enterClosedState s).trans (hreleased _)

theorem sameSetup_network (s : TcpSession) (n : NetworkEvent) : SameSetup s (n.perform s) := by
  cases n with
  | arrive bytes => exact ⟨rfl, rfl, rfl⟩
  | peerClose => exact ⟨rfl, rfl, rfl⟩
  | asyncReadProgress index count =>
    simp only [NetworkEvent.perform]
    split <;> exact ⟨rfl, rfl, rfl⟩

/-- The handlers of the setup. -/
def Event.IsSetup : Event → Prop
  | .completion (.resolve _ _) => True
  | .completion (.connect _ _ _ _) => True
  | _ => False

/-- Nothing else carries the setup on. -/
theorem sameSetup_step {s t : TcpSession} {e : Event} (he : ¬ e.IsSetup)
    (h : TcpSession.step s e = some t) : SameSetup s t := by
  obtain ⟨-, u, hperform, rfl⟩ := (TcpSession.step_eq_some_iff s t e).mp h
  refine SameSetup.trans ?_ (sameSetup_reap u)
  cases e with
  | call c => exact sameSetup_call hperform
  | network n =>
    obtain rfl := Outcome.ok.inj hperform
    exact sameSetup_network s n
  | completion c =>
    cases c with
    | resolve result closeError => exact absurd trivial he
    | connect index error closeError calls => exact absurd trivial he
    | send index error n =>
      simp only [TcpSession.perform, Completion.perform] at hperform
      split at hperform
      · contradiction
      · rename_i v htransfer
        obtain ⟨transferred, rfl⟩ := transfer_case htransfer
        have hhandled := sameSetup_handleSend hperform
        exact ⟨hhandled.resolves, hhandled.connects, hhandled.attempts⟩
    | receive index error =>
      obtain rfl := Outcome.ok.inj hperform
      have hhandled := sameSetup_handleReceive
        { s with pending.receives := s.pending.receives.eraseIdx index } error
      exact ⟨hhandled.resolves, hhandled.connects, hhandled.attempts⟩

/-! ### A socket that is connecting -/

/-- The call closes the socket: disconnectAbortive, its use by socket_destroy_abortive,
or a write that exceeds the limit. -/
def Call.Closes (s : TcpSession) : Call → Prop
  | .disconnectAbortive => True
  | .destroySocket hard => hard = true
  | .write data => s.socket.sendbufferSizeLimit < s.socket.sendbuffer.totalSize + data.length
  | _ => False

theorem state_enterErrorState (s : TcpSession) (message : String) :
    (TcpSocket.enterErrorState s message).socket.state = .closed :=
  congrArg Core.state (s.core_enterErrorState message)

theorem state_enterClosedState (s : TcpSession) :
    (TcpSocket.enterClosedState s).socket.state = .closed :=
  congrArg Core.state s.core_enterClosedState

/-- What a call does to a socket that is connecting. -/
structure ConnectingCall (s t : TcpSession) (c : Call) : Prop where
  pending : t.pending = s.pending
  state : (c.Closes s ∧ t.socket.state = .closed) ∨
    (¬ c.Closes s ∧ t.socket.state = .connecting)

theorem ConnectingCall.write {s t : TcpSession} {data : List UInt8}
    (hstate : s.socket.state = .connecting) (h : TcpSocket.write s data = .ok t) :
    ConnectingCall s t (.write data) := by
  unfold TcpSocket.write TcpSocket.allowWrite at h
  simp only [hstate, if_true] at h
  split at h
  · rename_i hover
    obtain rfl := Outcome.ok.inj h
    exact ⟨s.pending_enterErrorState _, Or.inl ⟨hover, state_enterErrorState s _⟩⟩
  · rename_i hfits
    split at h
    · contradiction
    · contradiction
    · obtain rfl := Outcome.ok.inj h
      exact ⟨rfl, Or.inr ⟨hfits, rfl⟩⟩

/-- Only a call that closes the socket ends the setup. -/
theorem connectingCall_of_perform {s t : TcpSession} {c : Call}
    (hstate : s.socket.state = .connecting) (h : c.perform s = .ok t) :
    ConnectingCall s t c := by
  have hne : s.socket.state ≠ .connected := by
    rw [hstate]
    decide
  have hsend : (TcpSocket.send s).pending = s.pending ∧
      (TcpSocket.send s).socket.state = .connecting := by
    unfold TcpSocket.send TcpSocket.startAsyncSend
    simp only [hstate, and_self]
  cases c with
  | write data => exact ConnectingCall.write hstate h
  | send =>
    obtain rfl := Outcome.ok.inj h
    exact ⟨hsend.1, Or.inr ⟨not_false, hsend.2⟩⟩
  | receive ammount calls =>
    obtain rfl := Outcome.ok.inj h
    rcases tcpSocket_receive_cases s ammount calls with ⟨hconnected, -⟩ | heq
    · exact absurd hconnected hne
    · rw [heq]
      exact ⟨rfl, Or.inr ⟨not_false, hstate⟩⟩
  | receiveAvailable calls =>
    obtain rfl := Outcome.ok.inj h
    rcases tcpSocket_receiveAvailable_cases s calls with ⟨hconnected, -⟩ | heq
    · exact absurd hconnected hne
    · rw [heq]
      exact ⟨rfl, Or.inr ⟨not_false, hstate⟩⟩
  | isEof peek =>
    obtain rfl := Outcome.ok.inj h
    unfold TcpSocket.isEof
    rw [hstate]
    exact ⟨rfl, Or.inr ⟨not_false, hstate⟩⟩
  | setNoDelay noDelay error =>
    obtain rfl := Outcome.ok.inj h
    unfold TcpSocket.setNoDelay
    rw [hstate]
    exact ⟨rfl, Or.inr ⟨not_false, hstate⟩⟩
  | setSendbufferLimit maxSize | read size | setReadpos pos =>
    obtain rfl := Outcome.ok.inj h
    exact ⟨rfl, Or.inr ⟨not_false, hstate⟩⟩
  | disconnectAbortive =>
    obtain rfl := Outcome.ok.inj h
    exact ⟨s.pending_enterClosedState, Or.inl ⟨trivial, state_enterClosedState s⟩⟩
  | destroySocket hard =>
    obtain rfl := Outcome.ok.inj h
    cases hard with
    | false => exact ⟨hsend.1, Or.inr ⟨Bool.false_ne_true, hsend.2⟩⟩
    | true => exact ⟨s.pending_enterClosedState, Or.inl ⟨rfl, state_enterClosedState s⟩⟩

end FaucetNetworking
