import FaucetNetworking.Tcp.Abort
import FaucetNetworking.Tcp.Setup
import FaucetNetworking.Tcp.Shutdown

/-!
The Asio socket under a TCP session. Apart from the network, only the handlers of
the setup open it, and only becoming closed or being destroyed closes it: a
connected session has its socket open as long as anyone owns it.
-/
namespace FaucetNetworking

/-- No byte has arrived, the peer has not closed, and the socket is open as it
was, unless the session has become closed and its socket with it. -/
structure SameAttachment (s t : TcpSession) : Prop where
  arrived : t.history.arrived = s.history.arrived
  peerClosed : t.socket.socket.peerClosed = s.socket.socket.peerClosed
  isOpen : t.socket.socket.isOpen = s.socket.socket.isOpen ∧ t.socket.state = s.socket.state ∨
    t.socket.socket.isOpen = false ∧ t.socket.state = .closed

theorem SameAttachment.refl (s : TcpSession) : SameAttachment s s :=
  ⟨rfl, rfl, Or.inl ⟨rfl, rfl⟩⟩

theorem SameAttachment.trans {s t u : TcpSession} (h : SameAttachment s t)
    (h' : SameAttachment t u) : SameAttachment s u where
  arrived := h'.arrived.trans h.arrived
  peerClosed := h'.peerClosed.trans h.peerClosed
  isOpen := by
    rcases h'.isOpen with ⟨hopen', hstate'⟩ | hclosed
    · rcases h.isOpen with ⟨hopen, hstate⟩ | ⟨hopen, hstate⟩
      · exact Or.inl ⟨hopen'.trans hopen, hstate'.trans hstate⟩
      · exact Or.inr ⟨hopen'.trans hopen, hstate'.trans hstate⟩
    · exact Or.inr hclosed

/-! ### Functions that are not about the setup -/

theorem state_enterClosed (s : TcpSession) :
    (TcpClosed.enterClosed s).socket.state = s.socket.state := by
  unfold TcpClosed.enterClosed
  split <;> rfl

theorem arrived_enterClosed (s : TcpSession) :
    (TcpClosed.enterClosed s).history.arrived = s.history.arrived ∧
      (TcpClosed.enterClosed s).socket.socket.peerClosed = s.socket.socket.peerClosed := by
  unfold TcpClosed.enterClosed
  split <;> exact ⟨rfl, rfl⟩

theorem sameAttachment_closed {s t : TcpSession} (hstate : t.socket.state = .closed)
    (harrived : t.history.arrived = s.history.arrived)
    (hpeer : t.socket.socket.peerClosed = s.socket.socket.peerClosed) :
    SameAttachment s (TcpClosed.enterClosed t) where
  arrived := (arrived_enterClosed t).1.trans harrived
  peerClosed := (arrived_enterClosed t).2.trans hpeer
  isOpen := Or.inr ⟨TcpSession.isOpen_enterClosed t, (state_enterClosed t).trans hstate⟩

theorem sameAttachment_enterErrorState (s : TcpSession) (message : String) :
    SameAttachment s (TcpSocket.enterErrorState s message) := by
  unfold TcpSocket.enterErrorState TcpClosed.enterError TcpSocket.abort
  cases s.socket.state <;> cases s.socket.tcpClosed.hasError <;>
    exact sameAttachment_closed rfl rfl rfl

theorem sameAttachment_enterClosedState (s : TcpSession) :
    SameAttachment s (TcpSocket.enterClosedState s) := by
  unfold TcpSocket.enterClosedState TcpSocket.abort
  cases s.socket.state <;> exact sameAttachment_closed rfl rfl rfl

theorem sameAttachment_startAsyncSend (s : TcpSession) :
    SameAttachment s (TcpConnected.startAsyncSend s) := by
  unfold TcpConnected.startAsyncSend
  split <;> exact ⟨rfl, rfl, Or.inl ⟨rfl, rfl⟩⟩

theorem sameAttachment_send (s : TcpSession) : SameAttachment s (TcpSocket.send s) := by
  have hmarked : SameAttachment s { s with
      socket.sendbuffer := s.socket.sendbuffer.commit
      history.sendMark := s.history.accepted.length } := ⟨rfl, rfl, Or.inl ⟨rfl, rfl⟩⟩
  apply hmarked.trans
  unfold TcpSocket.send TcpSocket.startAsyncSend
  split
  · exact sameAttachment_startAsyncSend _
  · exact SameAttachment.refl _

theorem Prepared.sameAttachment {s t : TcpSession} (h : Prepared s t) : SameAttachment s t := by
  obtain ⟨remoteIp, remotePort, localPort, noDelay, rfl⟩ := h
  exact ⟨rfl, rfl, Or.inl ⟨rfl, rfl⟩⟩

theorem EnterCase.sameAttachment {s t : TcpSession} (h : EnterCase s t) : SameAttachment s t := by
  cases h with
  | failed t message hprepared =>
    exact hprepared.sameAttachment.trans (sameAttachment_enterErrorState t _)
  | entered t hprepared => exact hprepared.sameAttachment.trans (sameAttachment_startAsyncSend t)

theorem Fetched.sameAttachment {s t : TcpSession} {calls : ReceiveCalls}
    (h : Fetched s calls t) : SameAttachment s t := by
  cases h <;> exact ⟨rfl, rfl, Or.inl ⟨rfl, rfl⟩⟩

theorem FetchFailed.sameAttachment {s t : TcpSession} (h : FetchFailed s t) :
    SameAttachment s t := by
  cases h <;> exact ⟨rfl, rfl, Or.inl ⟨rfl, rfl⟩⟩

theorem sameAttachment_startAsyncReceive (s : TcpSession) (ammount : ℕ) :
    SameAttachment s (TcpConnected.startAsyncReceive s ammount) := by
  unfold TcpConnected.startAsyncReceive
  split <;> exact ⟨rfl, rfl, Or.inl ⟨rfl, rfl⟩⟩

theorem sameAttachment_deliver (s : TcpSession) (ammount : ℕ) :
    SameAttachment s (TcpConnected.deliver s ammount) := ⟨rfl, rfl, Or.inl ⟨rfl, rfl⟩⟩

theorem ReceiveCase.sameAttachment {s : TcpSession} {ammount : ℕ} {calls : ReceiveCalls}
    {result : Bool × TcpSession} (h : ReceiveCase s ammount calls result) :
    SameAttachment s result.2 := by
  cases h with
  | busy _ => exact SameAttachment.refl s
  | failed t message _ hfailed =>
    exact hfailed.sameAttachment.trans (sameAttachment_enterErrorState t _)
  | served t _ hfetched _ => exact hfetched.sameAttachment.trans (sameAttachment_deliver t _)
  | started t _ hfetched _ =>
    exact hfetched.sameAttachment.trans (sameAttachment_startAsyncReceive t _)

theorem ReceiveAvailableCase.sameAttachment {s t : TcpSession} {calls : ReceiveCalls}
    (h : ReceiveAvailableCase s calls t) : SameAttachment s t := by
  cases h with
  | busy _ => exact SameAttachment.refl s
  | failed t message _ hfailed =>
    exact hfailed.sameAttachment.trans (sameAttachment_enterErrorState t _)
  | served t _ hfetched => exact hfetched.sameAttachment.trans (sameAttachment_deliver t _)

theorem EofCase.sameAttachment {s : TcpSession} {peek : PeekResult} {result : Bool × TcpSession}
    (h : EofCase s peek result) : SameAttachment s result.2 := by
  have hnoted : SameAttachment s (Asio.noteRead s) := ⟨rfl, rfl, Or.inl ⟨rfl, rfl⟩⟩
  cases h with
  | busy _ => exact SameAttachment.refl s
  | eof _ _ _ => exact hnoted
  | «open» _ => exact hnoted
  | failed message _ => exact hnoted.trans (sameAttachment_enterErrorState _ _)

theorem sameAttachment_write {s t : TcpSession} {data : List UInt8}
    (h : TcpSocket.write s data = .ok t) : SameAttachment s t := by
  unfold TcpSocket.write at h
  split at h
  · split at h
    · obtain rfl := Outcome.ok.inj h
      exact sameAttachment_enterErrorState s _
    · split at h
      · contradiction
      · contradiction
      · obtain rfl := Outcome.ok.inj h
        exact ⟨rfl, rfl, Or.inl ⟨rfl, rfl⟩⟩
  · obtain rfl := Outcome.ok.inj h
    exact SameAttachment.refl s

theorem sameAttachment_clearReceiveBuffer (s : TcpSession) :
    SameAttachment s (TcpSocket.clearReceiveBuffer s) := ⟨rfl, rfl, Or.inl ⟨rfl, rfl⟩⟩

theorem sameAttachment_handleSend {s t : TcpSession} {error : Option String} {n : ℕ}
    (h : TcpConnected.handleSend s error n = .ok t) : SameAttachment s t := by
  have hflag : SameAttachment s { s with socket.tcpConnected.asyncSendInProgress := false } :=
    ⟨rfl, rfl, Or.inl ⟨rfl, rfl⟩⟩
  apply hflag.trans
  unfold TcpConnected.handleSend at h
  simp only at h
  split at h
  · obtain rfl := Outcome.ok.inj h
    exact SameAttachment.refl _
  · split at h
    · obtain rfl := Outcome.ok.inj h
      exact sameAttachment_enterErrorState _ _
    · split at h
      · contradiction
      · contradiction
      · rename_i sendbuffer _
        have hpopped : SameAttachment
            { s with socket.tcpConnected.asyncSendInProgress := false }
            { s with
              socket.tcpConnected.asyncSendInProgress := false
              socket.sendbuffer := sendbuffer } := ⟨rfl, rfl, Or.inl ⟨rfl, rfl⟩⟩
        split at h
        · obtain rfl := Outcome.ok.inj h
          exact hpopped.trans (sameAttachment_startAsyncSend _)
        · obtain rfl := Outcome.ok.inj h
          exact hpopped

theorem sameAttachment_handleReceive (s : TcpSession) (error : Option String) :
    SameAttachment s (TcpConnected.handleReceive s error) := by
  have hflag : SameAttachment s { s with socket.tcpConnected.asyncReceiveInProgress := false } :=
    ⟨rfl, rfl, Or.inl ⟨rfl, rfl⟩⟩
  cases error with
  | none => exact hflag
  | some message => exact hflag.trans (sameAttachment_enterErrorState _ message)

theorem sameAttachment_call {s t : TcpSession} {c : Call} (h : c.perform s = .ok t) :
    SameAttachment s t := by
  cases c with
  | write data => exact sameAttachment_write h
  | send =>
    obtain rfl := Outcome.ok.inj h
    exact sameAttachment_send s
  | receive ammount calls =>
    obtain rfl := Outcome.ok.inj h
    apply (sameAttachment_clearReceiveBuffer s).trans
    rcases tcpSocket_receive_cases s ammount calls with ⟨-, heq⟩ | heq
    · rw [heq]
      exact (receive_case _ ammount calls).sameAttachment
    · rw [heq]
      exact SameAttachment.refl _
  | receiveAvailable calls =>
    obtain rfl := Outcome.ok.inj h
    apply (sameAttachment_clearReceiveBuffer s).trans
    rcases tcpSocket_receiveAvailable_cases s calls with ⟨-, heq⟩ | heq
    · rw [heq]
      exact (receiveAvailable_case _ calls).sameAttachment
    · rw [heq]
      exact SameAttachment.refl _
  | isEof peek =>
    obtain rfl := Outcome.ok.inj h
    unfold TcpSocket.isEof
    split
    · exact SameAttachment.refl s
    · exact (isEof_case s peek).sameAttachment
    · exact SameAttachment.refl s
  | setNoDelay noDelay error =>
    obtain rfl := Outcome.ok.inj h
    unfold TcpSocket.setNoDelay
    split
    · exact ⟨rfl, rfl, Or.inl ⟨rfl, rfl⟩⟩
    · cases error <;> exact ⟨rfl, rfl, Or.inl ⟨rfl, rfl⟩⟩
    · exact SameAttachment.refl s
  | setSendbufferLimit maxSize | read size | setReadpos pos =>
    obtain rfl := Outcome.ok.inj h
    exact ⟨rfl, rfl, Or.inl ⟨rfl, rfl⟩⟩
  | disconnectAbortive =>
    obtain rfl := Outcome.ok.inj h
    exact sameAttachment_enterClosedState s
  | destroySocket hard =>
    obtain rfl := Outcome.ok.inj h
    have hreleased : ∀ u : TcpSession, SameAttachment u { u with handle := .released hard } :=
      fun u => ⟨rfl, rfl, Or.inl ⟨rfl, rfl⟩⟩
    cases hard with
    | false => exact (sameAttachment_send s).trans (hreleased _)
    | true => exact (sameAttachment_enterClosedState s).trans (hreleased _)

/-! ### The handlers of the setup -/

/-- No byte has arrived and the peer has not closed; a socket that has been opened
belongs to a session that is connecting. -/
structure SetupAttachment (s t : TcpSession) : Prop where
  arrived : t.history.arrived = s.history.arrived
  peerClosed : t.socket.socket.peerClosed = s.socket.socket.peerClosed
  isOpen : t.socket.socket.isOpen = s.socket.socket.isOpen ∧ t.socket.state = s.socket.state ∧
      t.pending.connects = s.pending.connects ∨
    t.socket.socket.isOpen = false ∧ t.socket.state = .closed ∨
    t.socket.socket.isOpen = true ∧ t.socket.state = s.socket.state ∧
      s.socket.tcpConnecting.abortRequested = false

theorem SetupAttachment.of_error (s : TcpSession) (message : String) :
    SetupAttachment s (TcpSocket.enterErrorState s message) := by
  obtain ⟨harrived, hpeer, hopen⟩ := sameAttachment_enterErrorState s message
  have hstate := state_enterErrorState s message
  refine ⟨harrived, hpeer, Or.inr (Or.inl ⟨?_, hstate⟩)⟩
  unfold TcpSocket.enterErrorState TcpClosed.enterError
  exact TcpSession.isOpen_enterClosed _

theorem AttemptCase.attachment {s t : TcpSession} {endpoints : V4FirstIterator}
    (h : AttemptCase s endpoints t) (habort : s.socket.tcpConnecting.abortRequested = false) :
    SetupAttachment s t := by
  cases h with
  | failed message => exact .of_error s message
  | attempted => exact ⟨rfl, rfl, Or.inr (Or.inr ⟨rfl, rfl, habort⟩)⟩

theorem ResolveCase.attachment {s t : TcpSession} (h : ResolveCase s t) :
    SetupAttachment s t := by
  cases h with
  | aborted _ => exact ⟨rfl, rfl, Or.inl ⟨rfl, rfl, rfl⟩⟩
  | failed message _ => exact .of_error s message
  | attempt endpoints _ habort hattempt => exact AttemptCase.attachment hattempt habort

theorem ConnectCase.attachment {s t : TcpSession} (h : ConnectCase s t) :
    SetupAttachment s t ∨ s.socket.tcpConnecting.abortRequested = false ∧
      SameAttachment { s with socket.state := .connected } t := by
  cases h with
  | aborted _ => exact Or.inl ⟨rfl, rfl, Or.inl ⟨rfl, rfl, rfl⟩⟩
  | failed message _ => exact Or.inl (.of_error s message)
  | attempt endpoints _ habort hattempt => exact Or.inl (AttemptCase.attachment hattempt habort)
  | connected _ habort henter => exact Or.inr ⟨habort, EnterCase.sameAttachment henter⟩

namespace TcpSession

variable {s t : TcpSession}

/-! ### Steps -/

/-- The socket is open if an attempt to connect is pending, and as long as the
session is connected. -/
structure Attached (s : TcpSession) : Prop where
  connecting : s.socket.state = .connecting → s.pending.connects ≠ [] →
    s.socket.socket.isOpen = true
  connected : s.socket.state = .connected → s.socket.socket.isOpen = true

/-- What an event that does not come from the peer does to the attachment. -/
structure Moves (s t : TcpSession) : Prop where
  arrived : t.history.arrived = s.history.arrived
  peerClosed : t.socket.socket.peerClosed = s.socket.socket.peerClosed
  opened : t.socket.socket.isOpen = true →
    s.socket.socket.isOpen = true ∨ s.socket.state = .connecting
  attached : s.Attached → t.Attached

theorem attached_of_closed (hstate : s.socket.state = .closed) : s.Attached := by
  constructor
  · intro hconnecting
    rw [hstate] at hconnecting
    contradiction
  · intro hconnected
    rw [hstate] at hconnected
    contradiction

theorem SameAttachment.moves (h : SameAttachment s t)
    (hconnects : t.pending.connects = s.pending.connects) : s.Moves t where
  arrived := h.arrived
  peerClosed := h.peerClosed
  opened := by
    intro hopen
    rcases h.isOpen with ⟨hsame, -⟩ | ⟨hclosed, -⟩
    · exact Or.inl (hsame.symm.trans hopen)
    · rw [hclosed] at hopen
      contradiction
  attached := by
    intro hs
    rcases h.isOpen with ⟨hsame, hstate⟩ | ⟨-, hclosed⟩
    · constructor
      · rw [hstate, hconnects, hsame]
        exact hs.connecting
      · rw [hstate, hsame]
        exact hs.connected
    · exact attached_of_closed hclosed

/-- The handlers of the setup, when the operation they belong to is still counted. -/
theorem moves_of_setup {u : TcpSession} (h : SetupAttachment u t) (harrived : u.history = s.history)
    (hsocket : u.socket = s.socket)
    (hconnecting : s.socket.tcpConnecting.abortRequested = false → s.socket.state = .connecting)
    (hconnects : u.pending.connects ≠ [] → s.pending.connects ≠ []) : s.Moves t where
  arrived := by rw [h.arrived, harrived]
  peerClosed := by rw [h.peerClosed, hsocket]
  opened := by
    intro hopen
    rcases h.isOpen with ⟨hsame, -, -⟩ | ⟨hclosed, -⟩ | ⟨-, -, habort⟩
    · rw [hsame, hsocket] at hopen
      exact Or.inl hopen
    · rw [hclosed] at hopen
      contradiction
    · rw [hsocket] at habort
      exact Or.inr (hconnecting habort)
  attached := by
    intro hs
    rcases h.isOpen with ⟨hsame, hstate, hkept⟩ | ⟨-, hclosed⟩ | ⟨hopen, -, -⟩
    · constructor
      · rw [hstate, hsame, hkept, hsocket]
        exact fun hstate hmore => hs.connecting hstate (hconnects hmore)
      · rw [hstate, hsame, hsocket]
        exact hs.connected
    · exact attached_of_closed hclosed
    · exact ⟨fun _ _ => hopen, fun _ => hopen⟩

theorem moves_completion {c : Completion} (hwired : s.core.Wired) (hs : s.Attached)
    (henabled : c.Enabled s) (h : c.perform s = .ok t) : s.Moves t := by
  have hconnecting : 0 < s.pending.resolves + s.pending.connects.length →
      s.socket.tcpConnecting.abortRequested = false → s.socket.state = .connecting :=
    fun hpending habort => hwired.setup_connecting hpending habort
  cases c with
  | resolve result closeError =>
    obtain rfl := Outcome.ok.inj h
    exact moves_of_setup (ResolveCase.attachment (handleResolve_case
      { s with pending.resolves := s.pending.resolves - 1 } result closeError)) rfl rfl
      (hconnecting (Nat.add_pos_left henabled _)) id
  | connect index error closeError calls =>
    obtain rfl := Outcome.ok.inj h
    have hmore : s.pending.connects ≠ [] := List.ne_nil_of_length_pos (Nat.zero_lt_of_lt henabled)
    have hsetup := hconnecting (Nat.add_pos_right _ (List.length_pos_iff.mpr hmore))
    rcases ConnectCase.attachment (handleConnect_case
        { s with pending.connects := s.pending.connects.eraseIdx index } error
        (s.pending.connects.getD index ⟨[], []⟩) closeError calls) with hcase | ⟨habort, hcase⟩
    · exact moves_of_setup hcase rfl rfl hsetup fun _ => hmore
    · have hopen : s.socket.socket.isOpen = true := hs.connecting (hsetup habort) hmore
      refine ⟨hcase.arrived, hcase.peerClosed, fun _ => Or.inl hopen, fun _ => ?_⟩
      rcases hcase.isOpen with ⟨hsame, hstate⟩ | ⟨-, hclosed⟩
      · exact ⟨fun _ _ => hsame.trans hopen, fun _ => hsame.trans hopen⟩
      · exact attached_of_closed hclosed
  | send index error n =>
    simp only [Completion.perform] at h
    split at h
    · contradiction
    · rename_i v htransfer
      obtain ⟨transferred, rfl⟩ := transfer_case htransfer
      obtain ⟨harrived, hpeer, hopen⟩ := sameAttachment_handleSend h
      exact SameAttachment.moves ⟨harrived, hpeer, hopen⟩ (sameSetup_handleSend h).connects
  | receive index error =>
    obtain rfl := Outcome.ok.inj h
    obtain ⟨harrived, hpeer, hopen⟩ := sameAttachment_handleReceive
      { s with pending.receives := s.pending.receives.eraseIdx index } error
    have hconnects := (sameSetup_handleReceive
      { s with pending.receives := s.pending.receives.eraseIdx index } error).connects
    exact SameAttachment.moves ⟨harrived, hpeer, hopen⟩ hconnects

end TcpSession

/-- The peer has no part in the event. -/
def Event.IsLocal : Event → Prop
  | .network (.arrive _) => False
  | .network .peerClose => False
  | _ => True

instance (e : Event) : Decidable e.IsLocal := by
  unfold Event.IsLocal
  split <;> infer_instance

namespace TcpSession

variable {s t : TcpSession}

theorem moves_perform {e : Event} (hlocal : e.IsLocal) (hwired : s.core.Wired) (hs : s.Attached)
    (henabled : Enabled s e) (h : perform s e = .ok t) : s.Moves t := by
  cases e with
  | call c => exact SameAttachment.moves (sameAttachment_call h) (sameSetup_call h).connects
  | completion c => exact moves_completion hwired hs henabled h
  | network n =>
    obtain rfl := Outcome.ok.inj h
    cases n with
    | arrive bytes => exact hlocal.elim
    | peerClose => exact hlocal.elim
    | asyncReadProgress index count =>
      have hconnects := (sameSetup_network s (.asyncReadProgress index count)).connects
      refine SameAttachment.moves ?_ hconnects
      simp only [NetworkEvent.perform]
      split <;> exact ⟨rfl, rfl, Or.inl ⟨rfl, rfl⟩⟩

theorem reap_cases (s : TcpSession) :
    s.reap = s ∨ s.reap = { s with socket.socket.isOpen := false } ∧ s.reap.destroyed = true := by
  unfold reap
  split
  · rename_i hdestroyed
    exact Or.inr ⟨rfl, hdestroyed⟩
  · exact Or.inl rfl

/-- Nobody owns a destroyed socket, so only the peer can still do something. -/
theorem not_enabled_of_destroyed {e : Event} (hdestroyed : s.destroyed = true)
    (hlocal : e.IsLocal) : ¬ Enabled s e := by
  obtain ⟨hhandle, hresolves, hconnects, hsends, hreceives⟩ := (destroyed_iff s).mp hdestroyed
  intro henabled
  cases e with
  | call c => exact hhandle henabled.1
  | completion c =>
    cases c with
    | resolve result closeError =>
      have hpending : 0 < s.pending.resolves := henabled
      omega
    | connect index error closeError calls =>
      have hpending : index < s.pending.connects.length := henabled
      rw [hconnects] at hpending
      contradiction
    | send index error n =>
      simp only [Enabled, Completion.Enabled, hsends, List.getElem?_nil] at henabled
    | receive index error =>
      simp only [Enabled, Completion.Enabled, hreceives, List.getElem?_nil] at henabled
  | network n =>
    cases n with
    | arrive bytes => exact hlocal
    | peerClose => exact hlocal
    | asyncReadProgress index count =>
      simp only [Enabled, NetworkEvent.Enabled, hreceives, List.getElem?_nil] at henabled

/-- As long as there is an owner, the socket is attached. -/
def AttachedWhileOwned (s : TcpSession) : Prop := s.destroyed = false → s.Attached

theorem owned_of_enabled {e : Event} (hlocal : e.IsLocal) (henabled : Enabled s e) :
    s.destroyed = false :=
  Bool.eq_false_iff.mpr fun hdestroyed => not_enabled_of_destroyed hdestroyed hlocal henabled

/-- The peer does not touch the attachment. -/
structure LeavesAttached (s t : TcpSession) : Prop where
  attached : s.Attached → t.Attached
  destroyed : t.destroyed = s.destroyed
  isOpen : t.socket.socket.isOpen = s.socket.socket.isOpen

theorem leavesAttached_of_peer {e : Event} (hpeer : ¬ e.IsLocal) (h : perform s e = .ok t) :
    s.LeavesAttached t := by
  unfold Event.IsLocal at hpeer
  split at hpeer
  · obtain rfl := Outcome.ok.inj h
    exact ⟨fun hs => ⟨hs.connecting, hs.connected⟩, rfl, rfl⟩
  · obtain rfl := Outcome.ok.inj h
    exact ⟨fun hs => ⟨hs.connecting, hs.connected⟩, rfl, rfl⟩
  · exact absurd trivial hpeer

/-- Without the peer, nothing arrives. -/
theorem arrived_of_step {e : Event} (hlocal : e.IsLocal) (hwired : s.core.Wired)
    (hs : s.AttachedWhileOwned) (h : step s e = some t) :
    t.history.arrived = s.history.arrived ∧
      t.socket.socket.peerClosed = s.socket.socket.peerClosed := by
  obtain ⟨henabled, u, hperform, rfl⟩ := (step_eq_some_iff s t e).mp h
  have hmoves := moves_perform hlocal hwired (hs (owned_of_enabled hlocal henabled)) henabled
    hperform
  rcases u.reap_cases with heq | ⟨heq, -⟩
  · rw [heq]
    exact ⟨hmoves.arrived, hmoves.peerClosed⟩
  · rw [heq]
    exact ⟨hmoves.arrived, hmoves.peerClosed⟩

/-- Bytes arrive as long as the peer has not closed its direction. -/
theorem step_arrive {bytes : List UInt8} (h : step s (.network (.arrive bytes)) = some t) :
    t.history.arrived = s.history.arrived ++ bytes ∧ t.socket.socket.peerClosed = false := by
  obtain ⟨henabled, u, hperform, rfl⟩ := (step_eq_some_iff s t _).mp h
  obtain rfl := Outcome.ok.inj hperform
  have hpeer : s.socket.socket.peerClosed = false := henabled
  rcases reap_cases (NetworkEvent.perform s (.arrive bytes)) with heq | ⟨heq, -⟩
  · rw [heq]
    exact ⟨rfl, hpeer⟩
  · rw [heq]
    exact ⟨rfl, hpeer⟩

theorem step_peerClose (h : step s (.network .peerClose) = some t) :
    t.history.arrived = s.history.arrived := by
  obtain ⟨-, u, hperform, rfl⟩ := (step_eq_some_iff s t _).mp h
  obtain rfl := Outcome.ok.inj hperform
  rcases reap_cases (NetworkEvent.perform s .peerClose) with heq | ⟨heq, -⟩
  · rw [heq]
    rfl
  · rw [heq]
    rfl

/-- Only a session that is connecting opens its socket. -/
theorem opened_of_step {e : Event} (hwired : s.core.Wired) (hs : s.AttachedWhileOwned)
    (h : step s e = some t) (hopen : t.socket.socket.isOpen = true) :
    s.socket.socket.isOpen = true ∨ s.socket.state = .connecting := by
  obtain ⟨henabled, u, hperform, rfl⟩ := (step_eq_some_iff s t e).mp h
  rcases u.reap_cases with heq | ⟨heq, -⟩
  · rw [heq] at hopen
    by_cases hlocal : e.IsLocal
    · exact (moves_perform hlocal hwired (hs (owned_of_enabled hlocal henabled)) henabled
        hperform).opened hopen
    · exact Or.inl ((leavesAttached_of_peer hlocal hperform).isOpen.symm.trans hopen)
  · rw [heq] at hopen
    contradiction

theorem AttachedWhileOwned.step {e : Event} (hwired : s.core.Wired) (hs : s.AttachedWhileOwned)
    (h : step s e = some t) : t.AttachedWhileOwned := by
  obtain ⟨henabled, u, hperform, rfl⟩ := (step_eq_some_iff s t e).mp h
  intro howned
  rcases u.reap_cases with heq | ⟨-, hdestroyed⟩
  · rw [heq] at howned ⊢
    by_cases hlocal : e.IsLocal
    · have hattached := hs (owned_of_enabled hlocal henabled)
      exact (moves_perform hlocal hwired hattached henabled hperform).attached hattached
    · have hleaves := leavesAttached_of_peer hlocal hperform
      exact hleaves.attached (hs (hleaves.destroyed.symm.trans howned))
  · rw [hdestroyed] at howned
    contradiction

/-- A new socket is attached, if the one that was accepted is open. -/
theorem attached_of_created (h : Created s)
    (hopen : s.socket.state = .connected → s.socket.socket.isOpen = true) : s.Attached := by
  refine ⟨?_, hopen⟩
  cases h with
  | connectTo literal closeError =>
    have hcreate : (TcpSocket.create TcpSocket.newAsioSocket .connecting).Attached :=
      ⟨fun _ hmore => absurd rfl hmore, fun hstate => by contradiction⟩
    cases literal with
    | none => exact fun _ hmore => absurd rfl hmore
    | some endpoint =>
      have hcase := handleResolve_case (TcpSocket.create TcpSocket.newAsioSocket .connecting)
        (.ok [endpoint]) closeError
      exact ((moves_of_setup (ResolveCase.attachment hcase) rfl rfl (fun _ => rfl) id).attached
        hcreate).connecting
  | error message => exact fun hstate => by contradiction
  | fromConnectedSocket connectedSocket calls =>
    have hcase := enter_case (TcpSocket.create connectedSocket .connected)
      TcpSocket.DEFAULT_TCP_NODELAY calls
    intro _ hmore
    exact absurd (EnterCase.sameSetup hcase).connects hmore

end TcpSession

end FaucetNetworking
