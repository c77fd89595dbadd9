import FaucetNetworking.Tcp.Abort
import FaucetNetworking.Tcp.ReceiveStream

/-!
Why a socket is closed. Unless the client gives up the connection itself, with an abortive
disconnect, a socket is closed only because of an error, and has it from then on.
-/
namespace FaucetNetworking

namespace TcpSession

/-- The socket has an error if it is closed. -/
def Blamed (s : TcpSession) : Prop :=
  s.socket.state = .closed → s.socket.tcpClosed.hasError = true

/-- Neither the state nor the error has changed. -/
structure SameBlame (s t : TcpSession) : Prop where
  state : t.socket.state = s.socket.state
  tcpClosed : t.socket.tcpClosed = s.socket.tcpClosed

variable {s t : TcpSession}

theorem SameBlame.blamed (h : s.SameBlame t) (hs : s.Blamed) : t.Blamed := by
  intro hclosed
  rw [h.tcpClosed]
  exact hs (h.state.symm.trans hclosed)

theorem blamed_enterErrorState (s : TcpSession) (message : String) :
    (TcpSocket.enterErrorState s message).Blamed := fun _ => hasError_enterErrorState s message

theorem blamed_of_open (h : s.socket.state ≠ .closed) : s.Blamed :=
  fun hclosed => absurd hclosed h

theorem sameBlame_startAsyncSend (s : TcpSession) :
    s.SameBlame (TcpConnected.startAsyncSend s) := by
  unfold TcpConnected.startAsyncSend
  split <;> exact ⟨rfl, rfl⟩

theorem sameBlame_send (s : TcpSession) : s.SameBlame (TcpSocket.send s) := by
  unfold TcpSocket.send TcpSocket.startAsyncSend
  split
  · have hstart := sameBlame_startAsyncSend { s with
      socket.sendbuffer := s.socket.sendbuffer.commit
      history.sendMark := s.history.accepted.length }
    exact ⟨hstart.state, hstart.tcpClosed⟩
  · exact ⟨rfl, rfl⟩

theorem sameBlame_reap (s : TcpSession) : s.SameBlame s.reap := by
  unfold reap
  split <;> exact ⟨rfl, rfl⟩

theorem sameBlame_fetched {calls : ReceiveCalls} (h : Fetched s calls t) : s.SameBlame t := by
  cases h <;> exact ⟨rfl, rfl⟩

theorem sameBlame_startAsyncReceive (s : TcpSession) (ammount : ℕ) :
    s.SameBlame (TcpConnected.startAsyncReceive s ammount) := by
  unfold TcpConnected.startAsyncReceive
  split <;> exact ⟨rfl, rfl⟩

/-! ### The handlers -/

theorem AttemptCase.blamed {endpoints : V4FirstIterator} (h : AttemptCase s endpoints t)
    (hs : s.Blamed) : t.Blamed := by
  cases h with
  | failed message => exact blamed_enterErrorState s message
  | attempted => exact hs

theorem ResolveCase.blamed (h : ResolveCase s t) (hs : s.Blamed) : t.Blamed := by
  cases h with
  | aborted _ => exact hs
  | failed message _ => exact blamed_enterErrorState s message
  | attempt endpoints _ _ hattempt => exact AttemptCase.blamed hattempt hs

theorem EnterCase.blamed (h : EnterCase s t) (hs : s.Blamed) : t.Blamed := by
  cases h with
  | failed u message hprepared => exact blamed_enterErrorState u message
  | entered u hprepared =>
    obtain ⟨_, _, _, _, rfl⟩ := hprepared
    exact (sameBlame_startAsyncSend _).blamed hs

theorem ConnectCase.blamed (h : ConnectCase s t) (hs : s.Blamed) : t.Blamed := by
  cases h with
  | aborted _ => exact hs
  | failed message _ => exact blamed_enterErrorState s message
  | attempt endpoints _ _ hattempt => exact AttemptCase.blamed hattempt hs
  | connected _ _ henter =>
    have hconnected : { s with socket.state := .connected }.Blamed :=
      blamed_of_open fun hclosed => StateId.noConfusion hclosed
    exact EnterCase.blamed henter hconnected

theorem blamed_handleSend {error : Option String} {n : ℕ} (hs : s.Blamed)
    (h : TcpConnected.handleSend s error n = .ok t) : t.Blamed := by
  unfold TcpConnected.handleSend at h
  simp only at h
  split at h
  · obtain rfl := Outcome.ok.inj h
    exact hs
  · split at h
    · obtain rfl := Outcome.ok.inj h
      exact blamed_enterErrorState _ _
    · split at h
      · contradiction
      · contradiction
      · split at h
        · obtain rfl := Outcome.ok.inj h
          exact (sameBlame_startAsyncSend _).blamed hs
        · obtain rfl := Outcome.ok.inj h
          exact hs

theorem blamed_completion {c : Completion} (hs : s.Blamed) (h : c.perform s = .ok t) :
    t.Blamed := by
  cases c with
  | resolve result closeError =>
    obtain rfl := Outcome.ok.inj h
    have hbefore : { s with pending.resolves := s.pending.resolves - 1 }.Blamed := hs
    exact ResolveCase.blamed (handleResolve_case _ result closeError) hbefore
  | connect index error closeError calls =>
    obtain rfl := Outcome.ok.inj h
    have hbefore : { s with pending.connects := s.pending.connects.eraseIdx index }.Blamed := hs
    exact ConnectCase.blamed (handleConnect_case _ error _ closeError calls) hbefore
  | send index error n =>
    simp only [Completion.perform] at h
    split at h
    · contradiction
    · rename_i r htransfer
      obtain ⟨transferred, rfl⟩ := transfer_case htransfer
      have hbefore : { s with
        history.transferred := transferred
        pending.sends := s.pending.sends.eraseIdx index }.Blamed := hs
      exact blamed_handleSend hbefore h
  | receive index error =>
    obtain rfl := Outcome.ok.inj h
    cases error with
    | none => exact hs
    | some message => exact blamed_enterErrorState _ message

/-! ### The calls -/

theorem blamed_write {data : List UInt8} (hs : s.Blamed) (h : TcpSocket.write s data = .ok t) :
    t.Blamed := by
  unfold TcpSocket.write at h
  split at h
  · split at h
    · obtain rfl := Outcome.ok.inj h
      exact blamed_enterErrorState s _
    · split at h
      · contradiction
      · contradiction
      · obtain rfl := Outcome.ok.inj h
        exact hs
  · obtain rfl := Outcome.ok.inj h
    exact hs

theorem blamed_receive (hs : s.Blamed) (ammount : ℕ) (calls : ReceiveCalls) :
    (TcpSocket.receive s ammount calls).2.Blamed := by
  have hcleared : (TcpSocket.clearReceiveBuffer s).Blamed := hs
  rcases tcpSocket_receive_cases s ammount calls with ⟨-, heq⟩ | heq
  · rw [heq]
    have hcase := receive_case (TcpSocket.clearReceiveBuffer s) ammount calls
    revert hcase
    generalize TcpConnected.receive (TcpSocket.clearReceiveBuffer s) ammount calls = result
    intro hcase
    cases hcase with
    | busy _ => exact hcleared
    | failed u message _ _ => exact blamed_enterErrorState u message
    | served u _ hfetched _ =>
      have hfilled := (sameBlame_fetched hfetched).blamed hcleared
      exact hfilled
    | started u _ hfetched _ =>
      exact (sameBlame_startAsyncReceive u _).blamed ((sameBlame_fetched hfetched).blamed hcleared)
  · rw [heq]
    exact hcleared

theorem blamed_receiveAvailable (hs : s.Blamed) (calls : ReceiveCalls) :
    (TcpSocket.receiveAvailable s calls).2.Blamed := by
  have hcleared : (TcpSocket.clearReceiveBuffer s).Blamed := hs
  rcases tcpSocket_receiveAvailable_cases s calls with ⟨-, heq⟩ | heq
  · rw [heq]
    have hcase := receiveAvailable_case (TcpSocket.clearReceiveBuffer s) calls
    revert hcase
    generalize TcpConnected.receiveAvailable (TcpSocket.clearReceiveBuffer s) calls = result
    intro hcase
    cases hcase with
    | busy _ => exact hcleared
    | failed u message _ _ => exact blamed_enterErrorState u message
    | served u _ hfetched =>
      have hfilled := (sameBlame_fetched hfetched).blamed hcleared
      exact hfilled
  · rw [heq]
    exact hcleared

theorem blamed_isEof (hs : s.Blamed) (peek : PeekResult) : (TcpSocket.isEof s peek).2.Blamed := by
  unfold TcpSocket.isEof
  split
  · exact hs
  · have hcase := isEof_case s peek
    revert hcase
    generalize TcpConnected.isEof s peek = result
    intro hcase
    cases hcase with
    | failed message _ => exact blamed_enterErrorState _ message
    | busy _ | eof _ _ _ | «open» _ => exact hs
  · exact hs

theorem blamed_setNoDelay (hs : s.Blamed) (noDelay : Bool) (error : Option String) :
    (TcpSocket.setNoDelay s noDelay error).2.Blamed := by
  unfold TcpSocket.setNoDelay
  split
  · exact hs
  · cases error <;> exact hs
  · exact hs

end TcpSession

/-- The client gives up the connection. -/
def Event.Aborts : Event → Prop
  | .call c => c.Aborts
  | _ => False

namespace TcpSession

variable {s t : TcpSession}

theorem blamed_call {c : Call} (hc : ¬c.Aborts) (hs : s.Blamed) (h : c.perform s = .ok t) :
    t.Blamed := by
  cases c with
  | write data => exact blamed_write hs h
  | send =>
    obtain rfl := Outcome.ok.inj h
    exact (sameBlame_send s).blamed hs
  | receive ammount calls =>
    obtain rfl := Outcome.ok.inj h
    exact blamed_receive hs ammount calls
  | receiveAvailable calls =>
    obtain rfl := Outcome.ok.inj h
    exact blamed_receiveAvailable hs calls
  | isEof peek =>
    obtain rfl := Outcome.ok.inj h
    exact blamed_isEof hs peek
  | setNoDelay noDelay error =>
    obtain rfl := Outcome.ok.inj h
    exact blamed_setNoDelay hs noDelay error
  | setSendbufferLimit maxSize | read size | setReadpos pos =>
    obtain rfl := Outcome.ok.inj h
    exact hs
  | disconnectAbortive => exact absurd trivial hc
  | destroySocket hard =>
    obtain rfl := Outcome.ok.inj h
    cases hard with
    | false =>
      have hsent := (sameBlame_send s).blamed hs
      exact hsent
    | true => exact absurd rfl hc

theorem Blamed.step {e : Event} (hs : s.Blamed) (he : ¬e.Aborts)
    (h : TcpSession.step s e = some t) : t.Blamed := by
  obtain ⟨-, u, hperform, rfl⟩ := (step_eq_some_iff s t e).mp h
  apply (sameBlame_reap u).blamed
  cases e with
  | call c => exact blamed_call he hs hperform
  | completion c => exact blamed_completion hs hperform
  | network n =>
    obtain rfl := Outcome.ok.inj hperform
    cases n with
    | arrive bytes => exact hs
    | peerClose => exact hs
    | asyncReadProgress index count =>
      unfold NetworkEvent.perform
      simp only
      split <;> exact hs

theorem blamed_created (h : Created s) : s.Blamed := by
  have hcreate : (TcpSocket.create TcpSocket.newAsioSocket .connecting).Blamed :=
    blamed_of_open fun hclosed => StateId.noConfusion hclosed
  cases h with
  | connectTo literal closeError =>
    cases literal with
    | none => exact hcreate
    | some endpoint =>
      exact ResolveCase.blamed (handleResolve_case _ (.ok [endpoint]) closeError) hcreate
  | error message => exact fun _ => rfl
  | fromConnectedSocket connectedSocket calls =>
    have hconnected : (TcpSocket.create connectedSocket .connected).Blamed :=
      blamed_of_open fun hclosed => StateId.noConfusion hclosed
    exact EnterCase.blamed (enter_case _ TcpSocket.DEFAULT_TCP_NODELAY calls) hconnected

/-! ### Runs -/

theorem blamed_or_aborts {es : List Event} (hs : s.Blamed)
    (hrun : StateMachine.run TcpSession.step s es = some t) :
    t.Blamed ∨ ∃ e ∈ es, e.Aborts := by
  induction es generalizing s with
  | nil =>
    rw [← Option.some.inj hrun]
    exact Or.inl hs
  | cons e es ih =>
    obtain ⟨r, hr, hrest⟩ := (StateMachine.run_cons_eq_some_iff _ _ _ e es).mp hrun
    by_cases he : e.Aborts
    · exact Or.inr ⟨e, List.mem_cons_self, he⟩
    · rcases ih (hs.step he hr) hrest with hblamed | ⟨f, hf, haborts⟩
      · exact Or.inl hblamed
      · exact Or.inr ⟨f, List.mem_cons_of_mem e hf, haborts⟩

/-- A socket that shows an error is closed, and one that is closed shows an error or has been
disconnected abortively by the client. -/
theorem closed_has_cause {es : List Event} (hs : Created s)
    (hrun : StateMachine.run TcpSession.step s es = some t) :
    (TcpSocket.hasError t = true → t.socket.state = .closed) ∧
      (t.socket.state = .closed → TcpSocket.hasError t = true ∨ ∃ e ∈ es, e.Aborts) := by
  refine ⟨fun herror => ((hasError_iff t).mp herror).1, fun hclosed => ?_⟩
  rcases blamed_or_aborts (blamed_created hs) hrun with hblamed | haborts
  · exact Or.inl ((hasError_iff t).mpr ⟨hclosed, hblamed hclosed⟩)
  · exact Or.inr haborts

/-- A write that exceeds the limit closes the socket with an error. -/
theorem closed_has_cause_limit : ∃ t, StateMachine.run TcpSession.step accepted
    [.call (.setSendbufferLimit 0), .call (.write [7])] = some t ∧ t.socket.state = .closed ∧
      (TcpSocket.hasError t = true ∨
        ∃ e ∈ [Event.call (.setSendbufferLimit 0), .call (.write [7])], e.Aborts) :=
  ⟨_, rfl, rfl, (closed_has_cause created_accepted rfl).2 rfl⟩

end TcpSession

end FaucetNetworking
