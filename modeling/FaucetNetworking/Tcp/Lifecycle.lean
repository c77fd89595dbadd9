import FaucetNetworking.Tcp.Core

/-!
The three states of a socket over whole runs. A socket moves forward only, and
once it is closed, calls and late handlers start, send and deliver nothing and
keep the first error. The handlers of operations that were pending at an abort
leave the socket as it is, except for that of a read.
-/
namespace FaucetNetworking

/-- The order in which a socket goes through its states. -/
def StateId.rank : StateId → ℕ
  | .connecting => 0
  | .connected => 1
  | .closed => 2

theorem StateId.rank_le_closed (state : StateId) : state.rank ≤ StateId.closed.rank := by
  cases state <;> decide

theorem StateId.eq_closed_of_rank_le {state : StateId}
    (h : StateId.closed.rank ≤ state.rank) : state = .closed := by
  cases state with
  | connecting => exact absurd h (by decide)
  | connected => exact absurd h (by decide)
  | closed => rfl

/-! ### The state and the error -/

namespace Core

/-- The state does not go back, and an error of a closed socket stays. -/
structure Advances (v w : Core) : Prop where
  state : v.state.rank ≤ w.state.rank
  error : v.state = .closed → v.tcpClosed.hasError = true → w.tcpClosed = v.tcpClosed

theorem Advances.refl (v : Core) : v.Advances v := ⟨Nat.le_refl _, fun _ _ => rfl⟩

theorem advances_close (v : Core) (error : Option String) : v.Advances (v.close error) where
  state := StateId.rank_le_closed v.state
  error := by
    intro _ herror
    cases error with
    | none => rfl
    | some message => exact if_pos herror

theorem Advances.of_startAsyncSend {v w : Core} (h : v.Advances w) :
    v.Advances w.startAsyncSend := by
  unfold startAsyncSend
  split
  · exact ⟨h.state, h.error⟩
  · exact h

theorem advances_send (v : Core) : v.Advances v.send := by
  unfold send
  simp only
  split
  · exact Advances.of_startAsyncSend ⟨Nat.le_refl _, fun _ _ => rfl⟩
  · exact ⟨Nat.le_refl _, fun _ _ => rfl⟩

theorem SetupEffect.advances {v w : Core} (h : v.SetupEffect w) : v.Advances w := by
  cases h with
  | aborted _ => exact .refl v
  | closed error _ => exact advances_close v error
  | attempted endpoints _ => exact ⟨Nat.le_refl _, fun _ _ => rfl⟩

theorem SendEffect.advances {v w : Core} {index n : ℕ} {buffers : List ConstBuffer}
    {error : Option String} (h : v.SendEffect index buffers error n w) : v.Advances w := by
  cases h with
  | silenced message n _ => exact ⟨Nat.le_refl _, fun _ _ => rfl⟩
  | failed message n _ =>
    have hclose := advances_close (v.finish index) (some message)
    exact ⟨hclose.state, hclose.error⟩
  | lost n bytes _ _ _ => exact ⟨Nat.le_refl _, fun _ _ => rfl⟩
  | popped n bytes sendbuffer _ _ _ _ _ => exact ⟨Nat.le_refl _, fun _ _ => rfl⟩
  | resumed n bytes sendbuffer _ _ _ _ _ =>
    exact Advances.of_startAsyncSend ⟨Nat.le_refl _, fun _ _ => rfl⟩

/-- Only a socket that is connecting becomes connected. -/
theorem Wired.advances_connect {v w : Core} (h : v.Wired) {index : ℕ}
    (hindex : index < v.connects.length) (habort : v.connectingAborted = false) :
    v.Advances w := by
  have hstate := h.setup_connecting (by omega) habort
  constructor
  · rw [hstate]
    exact Nat.zero_le _
  · intro hclosed _
    rw [hstate] at hclosed
    contradiction

theorem Wired.advances {v w : Core} {e : Event} (h : v.Wired) (heffect : v.Effect e w) :
    v.Advances w := by
  cases heffect with
  | kept _ => exact .refl v
  | closed _ error => exact advances_close v error
  | accepted _ data sendbuffer _ _ _ => exact ⟨Nat.le_refl _, fun _ _ => rfl⟩
  | sent _ _ => exact advances_send v
  | destroyed hard _ =>
    have hbefore : v.Advances (if hard then v.close none else v.send) := by
      cases hard with
      | false => exact advances_send v
      | true => exact advances_close v none
    exact ⟨hbefore.state, hbefore.error⟩
  | resolved _ w _ hsetup => exact ⟨hsetup.advances.state, hsetup.advances.error⟩
  | attempted _ index w _ hsetup => exact ⟨hsetup.advances.state, hsetup.advances.error⟩
  | connected _ index hindex habort => exact h.advances_connect hindex habort
  | connectedClosed _ index error hindex habort => exact h.advances_connect hindex habort
  | sendDone index n buffers error w _ hsend => exact hsend.advances

end Core

namespace TcpSession

/-! ### Closing leaves what is pending -/

@[simp] theorem pending_enterClosed (s : TcpSession) :
    (TcpClosed.enterClosed s).pending = s.pending := by
  unfold TcpClosed.enterClosed
  split <;> rfl

@[simp] theorem pending_abort (s : TcpSession) : (TcpSocket.abort s).pending = s.pending := by
  unfold TcpSocket.abort
  split <;> rfl

theorem pending_enterErrorState (s : TcpSession) (message : String) :
    (TcpSocket.enterErrorState s message).pending = s.pending := by
  unfold TcpSocket.enterErrorState TcpClosed.enterError
  simp only
  rw [pending_enterClosed]
  split <;> exact pending_abort s

theorem pending_enterClosedState (s : TcpSession) :
    (TcpSocket.enterClosedState s).pending = s.pending :=
  (pending_enterClosed _).trans (pending_abort s)

/-! ### A closed socket -/

/-- Nothing is started, no byte enters or leaves the send buffer, and none is
delivered to the receive buffer, which may have been cleared. -/
structure Quiet (s t : TcpSession) : Prop where
  started : t.history.started = s.history.started
  sendbuffer : t.socket.sendbuffer =
    { s.socket.sendbuffer with committedBytes := t.socket.sendbuffer.committedBytes }
  delivered : t.history.delivered = s.history.delivered
  receiveBuffer : t.socket.receiveBuffer.data = s.socket.receiveBuffer.data ∨
    t.socket.receiveBuffer.data = []

theorem Quiet.refl (s : TcpSession) : s.Quiet s := ⟨rfl, rfl, rfl, Or.inl rfl⟩

theorem Quiet.trans {s t u : TcpSession} (hst : s.Quiet t) (htu : t.Quiet u) : s.Quiet u where
  started := htu.started.trans hst.started
  sendbuffer := by
    rw [htu.sendbuffer, hst.sendbuffer]
  delivered := htu.delivered.trans hst.delivered
  receiveBuffer := by
    rcases htu.receiveBuffer with hsame | hempty
    · rw [hsame]
      exact hst.receiveBuffer
    · exact Or.inr hempty

theorem quiet_enterClosed (s : TcpSession) : s.Quiet (TcpClosed.enterClosed s) := by
  unfold TcpClosed.enterClosed
  split
  · exact ⟨rfl, rfl, rfl, Or.inl rfl⟩
  · exact .refl s

theorem quiet_abort (s : TcpSession) :
    s.Quiet { TcpSocket.abort s with socket.state := .closed } := by
  unfold TcpSocket.abort
  split <;> exact ⟨rfl, rfl, rfl, Or.inl rfl⟩

theorem quiet_enterError (s : TcpSession) (message : String) :
    s.Quiet (TcpClosed.enterError s message) := by
  unfold TcpClosed.enterError
  simp only
  split
  · have hset : s.Quiet { s with socket.tcpClosed := ⟨true, message⟩ } :=
      ⟨rfl, rfl, rfl, Or.inl rfl⟩
    exact hset.trans (quiet_enterClosed _)
  · exact quiet_enterClosed s

theorem quiet_enterErrorState (s : TcpSession) (message : String) :
    s.Quiet (TcpSocket.enterErrorState s message) :=
  (quiet_abort s).trans (quiet_enterError _ message)

theorem quiet_enterClosedState (s : TcpSession) : s.Quiet (TcpSocket.enterClosedState s) :=
  (quiet_abort s).trans (quiet_enterClosed _)

theorem quiet_reap (s : TcpSession) : s.Quiet s.reap := by
  unfold reap
  split
  · exact ⟨rfl, rfl, rfl, Or.inl rfl⟩
  · exact .refl s

variable {s : TcpSession}

theorem quiet_send (hclosed : s.socket.state = .closed) : s.Quiet (TcpSocket.send s) := by
  unfold TcpSocket.send TcpSocket.startAsyncSend
  rw [hclosed]
  exact ⟨rfl, rfl, rfl, Or.inl rfl⟩

theorem quiet_clearReceiveBuffer (s : TcpSession) :
    s.Quiet (TcpSocket.clearReceiveBuffer s) := ⟨rfl, rfl, rfl, Or.inr rfl⟩

theorem quiet_call {t : TcpSession} {c : Call} (hclosed : s.socket.state = .closed)
    (h : c.perform s = .ok t) : s.Quiet t := by
  cases c with
  | write data =>
    simp only [Call.perform, TcpSocket.write, TcpSocket.allowWrite, hclosed] at h
    obtain rfl := Outcome.ok.inj h
    exact .refl s
  | send =>
    obtain rfl := Outcome.ok.inj h
    exact quiet_send hclosed
  | receive ammount calls =>
    obtain rfl := Outcome.ok.inj h
    rcases tcpSocket_receive_cases s ammount calls with ⟨hstate, -⟩ | heq
    · rw [hclosed] at hstate
      contradiction
    · rw [heq]
      exact quiet_clearReceiveBuffer s
  | receiveAvailable calls =>
    obtain rfl := Outcome.ok.inj h
    rcases tcpSocket_receiveAvailable_cases s calls with ⟨hstate, -⟩ | heq
    · rw [hclosed] at hstate
      contradiction
    · rw [heq]
      exact quiet_clearReceiveBuffer s
  | isEof peek =>
    obtain rfl := Outcome.ok.inj h
    unfold TcpSocket.isEof
    rw [hclosed]
    exact .refl s
  | setNoDelay noDelay error =>
    obtain rfl := Outcome.ok.inj h
    unfold TcpSocket.setNoDelay
    rw [hclosed]
    exact .refl s
  | setSendbufferLimit maxSize =>
    obtain rfl := Outcome.ok.inj h
    exact ⟨rfl, rfl, rfl, Or.inl rfl⟩
  | read size =>
    obtain rfl := Outcome.ok.inj h
    exact ⟨rfl, rfl, rfl, Or.inl rfl⟩
  | setReadpos pos =>
    obtain rfl := Outcome.ok.inj h
    refine ⟨rfl, rfl, rfl, Or.inl ?_⟩
    change (s.socket.receiveBuffer.setReadpos pos).data = _
    unfold Buffer.setReadpos
    split <;> rfl
  | disconnectAbortive =>
    obtain rfl := Outcome.ok.inj h
    exact quiet_enterClosedState s
  | destroySocket hard =>
    obtain rfl := Outcome.ok.inj h
    cases hard with
    | false => exact (quiet_send hclosed).trans ⟨rfl, rfl, rfl, Or.inl rfl⟩
    | true => exact (quiet_enterClosedState s).trans ⟨rfl, rfl, rfl, Or.inl rfl⟩

/-! ### Late handlers -/

/-- The handlers of the setup find the abort flag of their state object set. -/
theorem perform_resolve_of_closed (hwired : s.core.Wired) (hclosed : s.socket.state = .closed)
    {result : Except String (List Endpoint)} {closeError : Option String}
    (henabled : (Completion.resolve result closeError).Enabled s) :
    (Completion.resolve result closeError).perform s =
      .ok { s with pending.resolves := s.pending.resolves - 1 } := by
  have haborted : s.socket.tcpConnecting.abortRequested = true :=
    hwired.setup_aborted (Nat.add_pos_left henabled _) hclosed
  simp only [Completion.perform, TcpConnecting.handleResolve, haborted, if_true]

theorem perform_connect_of_closed (hwired : s.core.Wired) (hclosed : s.socket.state = .closed)
    {index : ℕ} {error closeError : Option String} {calls : EnterCalls}
    (henabled : (Completion.connect index error closeError calls).Enabled s) :
    (Completion.connect index error closeError calls).perform s =
      .ok { s with pending.connects := s.pending.connects.eraseIdx index } := by
  have haborted : s.socket.tcpConnecting.abortRequested = true :=
    hwired.setup_aborted (Nat.add_pos_right _ (Nat.zero_lt_of_lt henabled)) hclosed
  simp only [Completion.perform, TcpConnecting.handleConnect, haborted, if_true]

theorem handleSend_of_aborted (haborted : s.socket.tcpConnected.abortRequested = true)
    (error : Option String) (n : ℕ) : TcpConnected.handleSend s error n =
      .ok { s with socket.tcpConnected.asyncSendInProgress := false } := by
  unfold TcpConnected.handleSend
  exact if_pos haborted

/-- So does the handler of a send, after it has taken back its own flag. -/
theorem perform_send_of_closed (hwired : s.core.Wired) (hclosed : s.socket.state = .closed)
    {index n : ℕ} {error : Option String} {t : TcpSession}
    (henabled : (Completion.send index error n).Enabled s)
    (h : (Completion.send index error n).perform s = .ok t) :
    ∃ transferred, t = { s with
      socket.tcpConnected.asyncSendInProgress := false
      pending.sends := s.pending.sends.eraseIdx index
      history.transferred := transferred } := by
  have hsends : s.core.sends ≠ [] := by
    intro hnil
    change s.pending.sends = [] at hnil
    simp only [Completion.Enabled, hnil, List.getElem?_nil] at henabled
  have haborted : s.socket.tcpConnected.abortRequested = true := hwired.aborted hsends hclosed
  simp only [Completion.perform] at h
  split at h
  · contradiction
  · rename_i u htransfer
    obtain ⟨transferred, rfl⟩ := transfer_case htransfer
    rw [handleSend_of_aborted] at h
    · exact ⟨transferred, (Outcome.ok.inj h).symm⟩
    · exact haborted

theorem quiet_handleReceive (s : TcpSession) (error : Option String) :
    s.Quiet (TcpConnected.handleReceive s error) := by
  have hflag : s.Quiet { s with socket.tcpConnected.asyncReceiveInProgress := false } :=
    ⟨rfl, rfl, rfl, Or.inl rfl⟩
  cases error with
  | none => exact hflag
  | some message => exact hflag.trans (quiet_enterErrorState _ message)

theorem quiet_completion {t : TcpSession} {c : Completion} (hwired : s.core.Wired)
    (hclosed : s.socket.state = .closed) (henabled : c.Enabled s) (h : c.perform s = .ok t) :
    s.Quiet t := by
  cases c with
  | resolve result closeError =>
    rw [perform_resolve_of_closed hwired hclosed henabled] at h
    obtain rfl := Outcome.ok.inj h
    exact ⟨rfl, rfl, rfl, Or.inl rfl⟩
  | connect index error closeError calls =>
    rw [perform_connect_of_closed hwired hclosed henabled] at h
    obtain rfl := Outcome.ok.inj h
    exact ⟨rfl, rfl, rfl, Or.inl rfl⟩
  | send index error n =>
    obtain ⟨transferred, rfl⟩ := perform_send_of_closed hwired hclosed henabled h
    exact ⟨rfl, rfl, rfl, Or.inl rfl⟩
  | receive index error =>
    obtain rfl := Outcome.ok.inj h
    have hpending : s.Quiet
        { s with pending.receives := s.pending.receives.eraseIdx index } :=
      ⟨rfl, rfl, rfl, Or.inl rfl⟩
    exact hpending.trans (quiet_handleReceive _ error)

theorem quiet_network (s : TcpSession) (n : NetworkEvent) : s.Quiet (n.perform s) := by
  cases n with
  | arrive bytes => exact ⟨rfl, rfl, rfl, Or.inl rfl⟩
  | peerClose => exact ⟨rfl, rfl, rfl, Or.inl rfl⟩
  | asyncReadProgress index count =>
    simp only [NetworkEvent.perform]
    split <;> exact ⟨rfl, rfl, rfl, Or.inl rfl⟩

theorem quiet_step {t : TcpSession} {e : Event} (hwired : s.core.Wired)
    (hclosed : s.socket.state = .closed) (h : step s e = some t) : s.Quiet t := by
  obtain ⟨henabled, u, hperform, rfl⟩ := (step_eq_some_iff s t e).mp h
  refine Quiet.trans ?_ (quiet_reap u)
  cases e with
  | call c => exact quiet_call hclosed hperform
  | completion c => exact quiet_completion hwired hclosed henabled hperform
  | network n =>
    obtain rfl := Outcome.ok.inj hperform
    exact quiet_network s n

/-! ### Runs -/

theorem hasError_iff (s : TcpSession) : TcpSocket.hasError s = true ↔
    s.socket.state = .closed ∧ s.socket.tcpClosed.hasError = true := by
  unfold TcpSocket.hasError
  cases s.socket.state <;> simp

theorem getErrorMessage_of_closed (hclosed : s.socket.state = .closed) :
    TcpSocket.getErrorMessage s = s.socket.tcpClosed.errorMessage := by
  unfold TcpSocket.getErrorMessage
  rw [hclosed]

/-- How the socket at a later point of a run relates to the socket before. -/
structure Follows (s t : TcpSession) : Prop where
  state : s.socket.state.rank ≤ t.socket.state.rank
  error : TcpSocket.hasError s = true → TcpSocket.hasError t = true ∧
    TcpSocket.getErrorMessage t = TcpSocket.getErrorMessage s
  quiet : s.socket.state = .closed → s.Quiet t

theorem Follows.refl (s : TcpSession) : s.Follows s :=
  ⟨Nat.le_refl _, fun herror => ⟨herror, rfl⟩, fun _ => .refl s⟩

theorem Follows.closed {t : TcpSession} (h : s.Follows t) (hclosed : s.socket.state = .closed) :
    t.socket.state = .closed := by
  apply StateId.eq_closed_of_rank_le
  rw [← hclosed]
  exact h.state

theorem Follows.trans {t u : TcpSession} (hst : s.Follows t) (htu : t.Follows u) :
    s.Follows u where
  state := Nat.le_trans hst.state htu.state
  error := by
    intro herror
    obtain ⟨herror', hmessage⟩ := hst.error herror
    obtain ⟨herror'', hmessage'⟩ := htu.error herror'
    exact ⟨herror'', hmessage'.trans hmessage⟩
  quiet := fun hclosed => (hst.quiet hclosed).trans (htu.quiet (hst.closed hclosed))

theorem follows_step {t : TcpSession} {e : Event} (hwired : s.core.Wired)
    (h : step s e = some t) : s.Follows t where
  state := (hwired.advances (core_step h)).state
  error := by
    intro herror
    have hadvances := hwired.advances (core_step h)
    obtain ⟨hclosed, hflag⟩ := (hasError_iff s).mp herror
    have hkept : t.socket.tcpClosed = s.socket.tcpClosed := hadvances.error hclosed hflag
    have hclosed' : t.socket.state = .closed := by
      apply StateId.eq_closed_of_rank_le
      rw [← hclosed]
      exact hadvances.state
    rw [hasError_iff, getErrorMessage_of_closed hclosed, getErrorMessage_of_closed hclosed', hkept]
    exact ⟨⟨hclosed', hflag⟩, rfl⟩
  quiet := fun hclosed => quiet_step hwired hclosed h

/-- Between any two points of any run, whatever is called and however late the
handlers of pending operations come. -/
theorem follows_of_run {r s t : TcpSession} {es fs : List Event} (hr : Created r)
    (hrs : StateMachine.run step r es = some s) (hst : StateMachine.run step s fs = some t) :
    s.Follows t := by
  apply StateMachine.run_relates (fun s => s.core.Wired ∧ s.core.Awake) Follows Follows.refl
    (fun _ _ _ => Follows.trans) _ _ (wired_of_run hr hrs) hst
  · rintro u e v ⟨hwired, hawake⟩ hstep
    exact hwired.effect hawake (core_step hstep)
  · rintro u e v ⟨hwired, -⟩ hstep
    exact follows_step hwired hstep

/-- A send and a read fail one after the other, and the second message is lost. -/
theorem follows_of_run_reset : ∃ es fs s t, StateMachine.run step accepted es = some s ∧
    StateMachine.run step s fs = some t ∧ TcpSocket.getErrorMessage t = "reset" ∧
    s.Follows t := by
  have hrs : StateMachine.run step accepted [.call (.receive 1 ⟨.ok 0, none⟩),
      .completion (.send 0 (some "reset") 0)] = some _ := rfl
  refine ⟨_, [.call (.write [1]), .completion (.receive 0 (some "aborted"))], _, _, hrs,
    rfl, rfl, ?_⟩
  apply follows_of_run created_accepted hrs
  change StateMachine.run step _ [.call (.write [1]),
    .completion (.receive 0 (some "aborted"))] = _
  rfl

end TcpSession

end FaucetNetworking
