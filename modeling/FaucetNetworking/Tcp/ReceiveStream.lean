import FaucetNetworking.Tcp.Core
import FaucetNetworking.Tcp.ReceiveView

/-!
The receiving direction in the runs of a session. Every function that fetches or
delivers bytes acts on the receiving direction as one of its updates, so the
order of the stream holds in every state, and the client is given what arrived.
-/
namespace FaucetNetworking

def TcpSession.receiveView (s : TcpSession) : ReceiveView where
  state := s.socket.state
  asyncReceiveInProgress := s.socket.tcpConnected.asyncReceiveInProgress
  partialReceiveBuffer := s.socket.tcpConnected.partialReceiveBuffer
  inbox := s.socket.socket.inbox
  receives := s.pending.receives
  arrived := s.history.arrived
  delivered := s.history.delivered
  readOverlap := s.history.readOverlap

namespace TcpSession

/-! ### The functions that do not receive -/

@[simp] theorem receiveView_enterClosed (s : TcpSession) :
    (TcpClosed.enterClosed s).receiveView = s.receiveView := by
  unfold TcpClosed.enterClosed
  split <;> rfl

theorem receiveView_enterErrorState (s : TcpSession) (message : String) :
    (TcpSocket.enterErrorState s message).receiveView = s.receiveView.close := by
  unfold TcpSocket.enterErrorState TcpClosed.enterError TcpSocket.abort ReceiveView.close
  rw [receiveView_enterClosed]
  cases hstate : s.socket.state <;> cases herror : s.socket.tcpClosed.hasError <;>
    simp [receiveView]

theorem receiveView_enterClosedState (s : TcpSession) :
    (TcpSocket.enterClosedState s).receiveView = s.receiveView.close := by
  unfold TcpSocket.enterClosedState TcpSocket.abort ReceiveView.close
  rw [receiveView_enterClosed]
  cases hstate : s.socket.state <;> rfl

@[simp] theorem receiveView_startAsyncSend (s : TcpSession) :
    (TcpConnected.startAsyncSend s).receiveView = s.receiveView := by
  unfold TcpConnected.startAsyncSend
  split <;> rfl

@[simp] theorem receiveView_send (s : TcpSession) :
    (TcpSocket.send s).receiveView = s.receiveView := by
  unfold TcpSocket.send TcpSocket.startAsyncSend
  split
  · rw [receiveView_startAsyncSend]
    rfl
  · rfl

@[simp] theorem receiveView_reap (s : TcpSession) : s.reap.receiveView = s.receiveView := by
  unfold reap
  split <;> rfl

theorem receiveView_write {s t : TcpSession} {data : List UInt8}
    (h : TcpSocket.write s data = .ok t) : s.receiveView.KeptOrClosed t.receiveView := by
  unfold TcpSocket.write at h
  split at h
  · split at h
    · obtain rfl := Outcome.ok.inj h
      exact Or.inr (receiveView_enterErrorState s _)
    · split at h
      · contradiction
      · contradiction
      · obtain rfl := Outcome.ok.inj h
        exact Or.inl rfl
  · obtain rfl := Outcome.ok.inj h
    exact Or.inl rfl

theorem receiveView_handleSend {s t : TcpSession} {error : Option String} {n : ℕ}
    (h : TcpConnected.handleSend s error n = .ok t) :
    s.receiveView.KeptOrClosed t.receiveView := by
  simp only [TcpConnected.handleSend] at h
  split at h
  · obtain rfl := Outcome.ok.inj h
    exact Or.inl rfl
  · split at h
    · obtain rfl := Outcome.ok.inj h
      exact Or.inr (receiveView_enterErrorState _ _)
    · split at h
      · contradiction
      · contradiction
      · split at h
        · obtain rfl := Outcome.ok.inj h
          exact Or.inl (receiveView_startAsyncSend _)
        · obtain rfl := Outcome.ok.inj h
          exact Or.inl rfl

theorem AttemptCase.receiveView {s t : TcpSession} {endpoints : V4FirstIterator}
    (h : AttemptCase s endpoints t) : s.receiveView.KeptOrClosed t.receiveView := by
  cases h with
  | failed message => exact Or.inr (receiveView_enterErrorState s message)
  | attempted => exact Or.inl rfl

theorem ResolveCase.receiveView {s t : TcpSession} (h : ResolveCase s t) :
    s.receiveView.KeptOrClosed t.receiveView := by
  cases h with
  | aborted _ => exact Or.inl rfl
  | failed message _ => exact Or.inr (receiveView_enterErrorState s message)
  | attempt endpoints _ _ hattempt => exact AttemptCase.receiveView hattempt

theorem EnterCase.receiveView {s t : TcpSession} (h : EnterCase s t) :
    s.receiveView.KeptOrClosed t.receiveView := by
  cases h with
  | failed u message hprepared =>
    obtain ⟨_, _, _, _, rfl⟩ := hprepared
    exact Or.inr (receiveView_enterErrorState _ message)
  | entered u hprepared =>
    obtain ⟨_, _, _, _, rfl⟩ := hprepared
    exact Or.inl (receiveView_startAsyncSend _)

theorem ConnectCase.receiveView {s t : TcpSession} (h : ConnectCase s t) :
    s.receiveView.KeptOrClosed t.receiveView ∨ s.socket.tcpConnecting.abortRequested = false ∧
      ReceiveView.KeptOrClosed { s.receiveView with state := .connected } t.receiveView := by
  cases h with
  | aborted _ => exact Or.inl (Or.inl rfl)
  | failed message _ => exact Or.inl (Or.inr (receiveView_enterErrorState s message))
  | attempt endpoints _ _ hattempt => exact Or.inl (AttemptCase.receiveView hattempt)
  | connected _ habort henter => exact Or.inr ⟨habort, EnterCase.receiveView henter⟩

/-! ### The functions that receive -/

theorem Fetched.receiveView {s t : TcpSession} {calls : ReceiveCalls} (h : Fetched s calls t)
    (hidle : s.pending.receives = []) :
    ∃ count, t.receiveView = s.receiveView.fetch count := by
  cases h with
  | nothing =>
    refine ⟨0, ?_⟩
    simp only [ReceiveView.fetch, List.take_zero, List.map_nil, List.append_nil, List.drop_zero]
  | bytes available count havailable hcount =>
    refine ⟨count, ?_⟩
    have hdrop : s.socket.tcpConnected.partialReceiveBuffer.length + count =
        (s.socket.tcpConnected.partialReceiveBuffer ++
          List.replicate count ReceiveCell.placeholder).length := by
      rw [List.length_append, List.length_replicate]
    simp only [TcpSession.receiveView, ReceiveView.fetch, Asio.moveBytes, Asio.noteRead,
      TcpConnected.insertPlaceholders, List.take_left, hidle, List.isEmpty_nil, Bool.not_true,
      Bool.or_false, hdrop, List.drop_length, List.append_nil]

theorem FetchFailed.flow {s t : TcpSession} (h : FetchFailed s t) (hflow : s.receiveView.Flow)
    (hidle : s.pending.receives = []) (message : String) :
    (TcpSocket.enterErrorState t message).receiveView.Flow := by
  rw [receiveView_enterErrorState]
  cases h with
  | available => exact hflow.close
  | read count =>
    have hnone : ∀ r ∈ s.receiveView.receives, r ∈ ([] : List AsyncRead) := by
      intro r hr
      rwa [← hidle]
    exact { hflow.close with
      placed := fun r hr => absurd (hnone r hr) List.not_mem_nil
      in_order := fun hopen => absurd rfl hopen
      no_overlap := by
        change (s.history.readOverlap || !s.pending.receives.isEmpty) = false
        rw [hidle, Bool.or_eq_false_iff]
        exact ⟨hflow.no_overlap, rfl⟩ }

theorem receiveView_startAsyncReceive {s : TcpSession}
    (hflag : s.socket.tcpConnected.asyncReceiveInProgress = false) (ammount : ℕ) :
    (TcpConnected.startAsyncReceive s ammount).receiveView = s.receiveView.startRead ammount := by
  unfold TcpConnected.startAsyncReceive
  rw [hflag]
  rfl

/-- What a call of one of the receive functions puts into the receive buffer. -/
structure Receives (s t : TcpSession) (bytes : List UInt8) : Prop where
  flow : t.receiveView.Flow
  buffer : t.socket.receiveBuffer = ⟨bytes, 0⟩
  delivered : t.history.delivered = s.history.delivered ++ bytes.map .received
  arrived : t.history.arrived = s.history.arrived

/-- These bytes continue the stream where the last delivery ended. -/
theorem Receives.eq_take {s t : TcpSession} {bytes : List UInt8} (h : Receives s t bytes)
    (hs : s.receiveView.Flow) :
    bytes = (s.history.arrived.drop s.history.delivered.length).take bytes.length := by
  have hbefore : s.history.delivered =
      (s.history.arrived.take s.history.delivered.length).map .received := hs.stream
  have hafter : t.history.delivered =
      (t.history.arrived.take t.history.delivered.length).map .received := h.flow.stream
  rw [h.delivered, h.arrived, List.length_append, List.length_map, List.take_add,
    List.map_append, ← hbefore] at hafter
  exact List.map_injective_iff.mpr (fun _ _ => ReceiveCell.received.inj)
    (List.append_cancel_left hafter)

/-- A receive begins by clearing the receive buffer. -/
theorem Receives.of_cleared {s t : TcpSession} {bytes : List UInt8}
    (h : Receives (TcpSocket.clearReceiveBuffer s) t bytes) : Receives s t bytes :=
  ⟨h.flow, h.buffer, h.delivered, h.arrived⟩

theorem receives_nothing {s t : TcpSession} (hflow : t.receiveView.Flow)
    (hbuffer : t.socket.receiveBuffer = s.socket.receiveBuffer)
    (hclear : s.socket.receiveBuffer = ⟨[], 0⟩)
    (hdelivered : t.history.delivered = s.history.delivered)
    (harrived : t.history.arrived = s.history.arrived) : Receives s t [] :=
  ⟨hflow, hbuffer.trans hclear, by rw [hdelivered, List.map_nil, List.append_nil], harrived⟩

@[simp] theorem receiveBuffer_enterClosed (s : TcpSession) :
    (TcpClosed.enterClosed s).socket.receiveBuffer = s.socket.receiveBuffer := by
  unfold TcpClosed.enterClosed
  split <;> rfl

@[simp] theorem receiveBuffer_enterErrorState (s : TcpSession) (message : String) :
    (TcpSocket.enterErrorState s message).socket.receiveBuffer = s.socket.receiveBuffer := by
  unfold TcpSocket.enterErrorState TcpClosed.enterError TcpSocket.abort
  rw [receiveBuffer_enterClosed]
  cases s.socket.state <;> cases s.socket.tcpClosed.hasError <;> rfl

/-- A fetch that fails delivers nothing. -/
theorem FetchFailed.receives {s t : TcpSession} (h : FetchFailed s t)
    (hflow : s.receiveView.Flow) (hidle : s.pending.receives = [])
    (hclear : s.socket.receiveBuffer = ⟨[], 0⟩) (message : String) :
    Receives s (TcpSocket.enterErrorState t message) [] := by
  have hview := receiveView_enterErrorState t message
  apply receives_nothing (FetchFailed.flow h hflow hidle message) _ hclear
  · have hdelivered := congrArg ReceiveView.delivered hview
    cases h <;> exact hdelivered
  · have harrived := congrArg ReceiveView.arrived hview
    cases h <;> exact harrived
  · rw [receiveBuffer_enterErrorState]
    cases h <;> rfl

/-- After a fetch the receive buffer can be filled from the partial one. -/
theorem Fetched.deliver {s t : TcpSession} {calls : ReceiveCalls} (h : Fetched s calls t)
    (hflow : s.receiveView.Flow) (hopen : s.socket.state ≠ .closed)
    (hidle : s.socket.tcpConnected.asyncReceiveInProgress = false)
    (hclear : s.socket.receiveBuffer = ⟨[], 0⟩) (ammount : ℕ) :
    ∃ bytes, Receives s (TcpConnected.deliver t ammount) bytes ∧
      bytes.length = min ammount t.socket.tcpConnected.partialReceiveBuffer.length := by
  obtain ⟨count, hview⟩ := Fetched.receiveView h (hflow.idle hidle)
  have hfetched : t.receiveView.Flow := by
    rw [hview]
    exact hflow.fetch hopen hidle count
  have hflag : t.receiveView.asyncReceiveInProgress = false := by
    rw [hview]
    exact hidle
  have hstate : t.receiveView.state ≠ .closed := by
    rw [hview]
    exact hopen
  have hsent : t.history.delivered = s.history.delivered :=
    congrArg ReceiveView.delivered hview
  have harrived : t.history.arrived = s.history.arrived := congrArg ReceiveView.arrived hview
  have hbuffer : t.socket.receiveBuffer = ⟨[], 0⟩ := by
    rw [← hclear]
    cases h <;> rfl
  obtain ⟨bytes, hbytes⟩ : ∃ bytes : List UInt8,
      t.socket.tcpConnected.partialReceiveBuffer = bytes.map .received := by
    obtain ⟨consumed, -, hcells⟩ := hfetched.cells_of_idle hstate hflag
    refine ⟨consumed.drop t.history.delivered.length, ?_⟩
    rw [List.map_drop, ← hcells]
    exact List.drop_left.symm
  refine ⟨bytes.take ammount, ⟨hfetched.deliver hstate hflag ammount, ?_, ?_, harrived⟩, ?_⟩
  · change t.socket.receiveBuffer.write
      ((t.socket.tcpConnected.partialReceiveBuffer.take ammount).map
        ReceiveCell.toByte) = _
    rw [hbuffer, hbytes, ← List.map_take, List.map_map]
    exact congrArg (Buffer.mk · 0) (List.map_id _)
  · change t.history.delivered ++ t.socket.tcpConnected.partialReceiveBuffer.take ammount = _
    rw [hsent, hbytes, List.map_take]
  · rw [List.length_take, hbytes, List.length_map]

/-- The receive of the connected state: all that was asked for, or nothing. -/
theorem ReceiveCase.receives {s : TcpSession} {ammount : ℕ} {calls : ReceiveCalls}
    {result : Bool × TcpSession} (h : ReceiveCase s ammount calls result)
    (hflow : s.receiveView.Flow) (hstate : s.socket.state = .connected)
    (hclear : s.socket.receiveBuffer = ⟨[], 0⟩) :
    ∃ bytes, Receives s result.2 bytes ∧ bytes.length = if result.1 then ammount else 0 := by
  have hopen : s.socket.state ≠ .closed := StateId.ne_closed_of_connected hstate
  cases h with
  | busy hbusy => exact ⟨[], receives_nothing hflow rfl hclear rfl rfl, rfl⟩
  | failed t message hidle hfailed =>
    exact ⟨[], FetchFailed.receives hfailed hflow (hflow.idle hidle) hclear message, rfl⟩
  | served t hidle hfetched hle =>
    obtain ⟨bytes, hreceives, hlength⟩ :=
      Fetched.deliver hfetched hflow hopen hidle hclear ammount
    exact ⟨bytes, hreceives, hlength.trans (Nat.min_eq_left hle)⟩
  | started t hidle hfetched hlt =>
    obtain ⟨count, hview⟩ := Fetched.receiveView hfetched (hflow.idle hidle)
    have hflag : t.socket.tcpConnected.asyncReceiveInProgress = false :=
      (congrArg ReceiveView.asyncReceiveInProgress hview).trans hidle
    have hconnected : t.socket.state = .connected :=
      (congrArg ReceiveView.state hview).trans hstate
    have hfetch : t.receiveView.Flow := by
      rw [hview]
      exact hflow.fetch hopen hidle count
    have hstarted := receiveView_startAsyncReceive hflag
      (ammount - t.socket.tcpConnected.partialReceiveBuffer.length)
    refine ⟨[], receives_nothing ?_ ?_ hclear ?_ ?_, rfl⟩
    · rw [hstarted]
      exact hfetch.startRead hconnected hflag _
    · unfold TcpConnected.startAsyncReceive
      rw [hflag]
      cases hfetched <;> rfl
    · exact (congrArg ReceiveView.delivered hstarted).trans
        (congrArg ReceiveView.delivered hview)
    · exact (congrArg ReceiveView.arrived hstarted).trans (congrArg ReceiveView.arrived hview)

theorem ReceiveAvailableCase.receives {s t : TcpSession} {calls : ReceiveCalls}
    (h : ReceiveAvailableCase s calls t) (hflow : s.receiveView.Flow)
    (hopen : s.socket.state ≠ .closed) (hclear : s.socket.receiveBuffer = ⟨[], 0⟩) :
    ∃ bytes, Receives s t bytes := by
  cases h with
  | busy hbusy => exact ⟨[], receives_nothing hflow rfl hclear rfl rfl⟩
  | failed t message hidle hfailed =>
    exact ⟨[], FetchFailed.receives hfailed hflow (hflow.idle hidle) hclear message⟩
  | served t hidle hfetched =>
    obtain ⟨bytes, hreceives, -⟩ := Fetched.deliver hfetched hflow hopen hidle hclear
      t.socket.tcpConnected.partialReceiveBuffer.length
    exact ⟨bytes, hreceives⟩

/-- The call with an amount, in any state of the socket. -/
theorem receives_receive {s : TcpSession} (hflow : s.receiveView.Flow) (ammount : ℕ)
    (calls : ReceiveCalls) :
    ∃ bytes, Receives s (TcpSocket.receive s ammount calls).2 bytes ∧
      bytes.length = if (TcpSocket.receive s ammount calls).1 then ammount else 0 := by
  rcases tcpSocket_receive_cases s ammount calls with ⟨hstate, heq⟩ | heq
  · rw [heq]
    obtain ⟨bytes, hreceives, hlength⟩ :=
      ReceiveCase.receives (receive_case (TcpSocket.clearReceiveBuffer s) ammount calls)
        hflow hstate rfl
    exact ⟨bytes, hreceives.of_cleared, hlength⟩
  · rw [heq]
    exact ⟨[], Receives.of_cleared (receives_nothing hflow rfl rfl rfl rfl), rfl⟩

theorem receives_receiveAvailable {s : TcpSession} (hflow : s.receiveView.Flow)
    (calls : ReceiveCalls) :
    ∃ bytes, Receives s (TcpSocket.receiveAvailable s calls).2 bytes := by
  rcases tcpSocket_receiveAvailable_cases s calls with ⟨hstate, heq⟩ | heq
  · rw [heq]
    have hopen : s.socket.state ≠ .closed := StateId.ne_closed_of_connected hstate
    obtain ⟨bytes, hreceives⟩ := ReceiveAvailableCase.receives
      (receiveAvailable_case (TcpSocket.clearReceiveBuffer s) calls) hflow hopen rfl
    exact ⟨bytes, hreceives.of_cleared⟩
  · rw [heq]
    exact ⟨[], Receives.of_cleared (receives_nothing hflow rfl rfl rfl rfl)⟩

theorem receiveView_noteRead {s : TcpSession} (hidle : s.pending.receives = []) :
    (Asio.noteRead s).receiveView = s.receiveView := by
  simp only [receiveView, Asio.noteRead, hidle, List.isEmpty_nil, Bool.not_true, Bool.or_false]

theorem EofCase.receiveView {s : TcpSession} {peek : PeekResult} {result : Bool × TcpSession}
    (h : EofCase s peek result) (hflow : s.receiveView.Flow) :
    s.receiveView.KeptOrClosed result.2.receiveView := by
  cases h with
  | busy _ => exact Or.inl rfl
  | eof _ hidle _ => exact Or.inl (receiveView_noteRead (hflow.idle hidle))
  | «open» hidle => exact Or.inl (receiveView_noteRead (hflow.idle hidle))
  | failed message hidle =>
    right
    change (TcpSocket.enterErrorState _ _).receiveView = _
    rw [receiveView_enterErrorState, receiveView_noteRead (hflow.idle hidle)]

theorem receiveView_isEof {s : TcpSession} (hflow : s.receiveView.Flow) (peek : PeekResult) :
    s.receiveView.KeptOrClosed (TcpSocket.isEof s peek).2.receiveView := by
  unfold TcpSocket.isEof
  split
  · exact Or.inl rfl
  · exact EofCase.receiveView (isEof_case s peek) hflow
  · exact Or.inl rfl

theorem receiveView_setNoDelay (s : TcpSession) (noDelay : Bool) (error : Option String) :
    (TcpSocket.setNoDelay s noDelay error).2.receiveView = s.receiveView := by
  unfold TcpSocket.setNoDelay
  split
  · rfl
  · cases error <;> rfl
  · rfl

theorem receiveView_destroySocket (s : TcpSession) (hard : Bool) :
    s.receiveView.KeptOrClosed (destroySocket s hard).receiveView := by
  cases hard with
  | false => exact Or.inl (receiveView_send s)
  | true => exact Or.inr (receiveView_enterClosedState s)

/-! ### Steps -/

/-- The invariant holds afterwards, and the given bytes have been delivered. -/
structure Delivers (s t : TcpSession) (bytes : List UInt8) : Prop where
  flow : t.receiveView.Flow
  delivered : t.history.delivered = s.history.delivered ++ bytes.map .received

theorem Delivers.of_eq {s t : TcpSession} (hflow : t.receiveView.Flow)
    (hdelivered : t.receiveView.delivered = s.receiveView.delivered) : Delivers s t [] :=
  ⟨hflow, hdelivered.trans (List.append_nil _).symm⟩

theorem Delivers.of_keptOrClosed {s t : TcpSession} (hflow : s.receiveView.Flow)
    (h : s.receiveView.KeptOrClosed t.receiveView) : Delivers s t [] :=
  Delivers.of_eq (hflow.keptOrClosed h) h.delivered

theorem Receives.delivers {s t : TcpSession} {bytes : List UInt8} (h : Receives s t bytes) :
    Delivers s t t.socket.receiveBuffer.data := by
  rw [h.buffer]
  exact ⟨h.flow, h.delivered⟩

end TcpSession

/-- What an event delivers to the client: the receive buffer after a receive. -/
def Event.deliveredBytes (e : Event) (t : TcpSession) : List UInt8 :=
  match e with
  | .call (.receive _ _) => t.socket.receiveBuffer.data
  | .call (.receiveAvailable _) => t.socket.receiveBuffer.data
  | _ => []

namespace TcpSession

theorem delivers_call {s t : TcpSession} {c : Call} (hflow : s.receiveView.Flow)
    (h : c.perform s = .ok t) : Delivers s t (Event.deliveredBytes (.call c) t) := by
  cases c with
  | write data => exact .of_keptOrClosed hflow (receiveView_write h)
  | send =>
    obtain rfl := Outcome.ok.inj h
    exact .of_keptOrClosed hflow (Or.inl (receiveView_send s))
  | receive ammount calls =>
    obtain rfl := Outcome.ok.inj h
    obtain ⟨bytes, hreceives, -⟩ := receives_receive hflow ammount calls
    exact hreceives.delivers
  | receiveAvailable calls =>
    obtain rfl := Outcome.ok.inj h
    obtain ⟨bytes, hreceives⟩ := receives_receiveAvailable hflow calls
    exact hreceives.delivers
  | isEof peek =>
    obtain rfl := Outcome.ok.inj h
    exact .of_keptOrClosed hflow (receiveView_isEof hflow peek)
  | setNoDelay noDelay error =>
    obtain rfl := Outcome.ok.inj h
    exact .of_keptOrClosed hflow (Or.inl (receiveView_setNoDelay s noDelay error))
  | setSendbufferLimit maxSize =>
    obtain rfl := Outcome.ok.inj h
    exact .of_keptOrClosed hflow (Or.inl rfl)
  | read size =>
    obtain rfl := Outcome.ok.inj h
    exact .of_keptOrClosed hflow (Or.inl rfl)
  | setReadpos pos =>
    obtain rfl := Outcome.ok.inj h
    exact .of_keptOrClosed hflow (Or.inl rfl)
  | disconnectAbortive =>
    obtain rfl := Outcome.ok.inj h
    exact .of_keptOrClosed hflow (Or.inr (receiveView_enterClosedState s))
  | destroySocket hard =>
    obtain rfl := Outcome.ok.inj h
    exact .of_keptOrClosed hflow (receiveView_destroySocket s hard)

theorem delivers_receiveDone {s : TcpSession} {index : ℕ} {error : Option String}
    (hflow : s.receiveView.Flow) (henabled : (Completion.receive index error).Enabled s) :
    Delivers s (TcpConnected.handleReceive
      { s with pending.receives := s.pending.receives.eraseIdx index } error) [] := by
  simp only [Completion.Enabled] at henabled
  cases hindex : s.pending.receives[index]? with
  | none =>
    rw [hindex] at henabled
    exact henabled.elim
  | some r =>
    rw [hindex] at henabled
    cases error with
    | none =>
      exact Delivers.of_eq (hflow.finishRead hindex fun _ => henabled rfl) rfl
    | some message =>
      have hview := receiveView_enterErrorState { s with
        pending.receives := s.pending.receives.eraseIdx index
        socket.tcpConnected.asyncReceiveInProgress := false } message
      have hclosed : (s.receiveView.close.finishRead index).Flow :=
        hflow.close.finishRead hindex fun hopen => absurd rfl hopen
      apply Delivers.of_eq
      · change (TcpSocket.enterErrorState _ _).receiveView.Flow
        rw [hview]
        exact hclosed
      · have hdelivered := congrArg ReceiveView.delivered hview
        exact hdelivered

/-- A completion other than that of a read changes at most the state. -/
theorem receiveView_completion {s t : TcpSession} {c : Completion} (henabled : c.Enabled s)
    (h : c.perform s = .ok t) :
    (∃ index error, c = .receive index error) ∨ s.receiveView.KeptOrClosed t.receiveView ∨
      0 < s.core.connects.length ∧ s.core.connectingAborted = false ∧
        ReceiveView.KeptOrClosed { s.receiveView with state := .connected } t.receiveView := by
  cases c with
  | resolve result closeError =>
    obtain rfl := Outcome.ok.inj h
    have hkept := ResolveCase.receiveView (handleResolve_case
      { s with pending.resolves := s.pending.resolves - 1 } result closeError)
    exact Or.inr (Or.inl hkept)
  | connect index error closeError calls =>
    obtain rfl := Outcome.ok.inj h
    rcases ConnectCase.receiveView (handleConnect_case
        { s with pending.connects := s.pending.connects.eraseIdx index } error
        (s.pending.connects.getD index ⟨[], []⟩) closeError calls) with hkept | ⟨habort, hkept⟩
    · exact Or.inr (Or.inl hkept)
    · exact Or.inr (Or.inr ⟨Nat.zero_lt_of_lt henabled, habort, hkept⟩)
  | send index error n =>
    simp only [Completion.perform] at h
    split at h
    · contradiction
    · rename_i u htransfer
      obtain ⟨transferred, rfl⟩ := transfer_case htransfer
      have hkept := receiveView_handleSend h
      exact Or.inr (Or.inl hkept)
  | receive index error => exact Or.inl ⟨index, error, rfl⟩

theorem delivers_completion {s t : TcpSession} {c : Completion} (hwired : s.core.Wired)
    (hflow : s.receiveView.Flow) (henabled : c.Enabled s) (h : c.perform s = .ok t) :
    Delivers s t [] := by
  rcases receiveView_completion henabled h with
    ⟨index, error, rfl⟩ | hkept | ⟨hpending, habort, hkept⟩
  · obtain rfl := Outcome.ok.inj h
    exact delivers_receiveDone hflow henabled
  · exact .of_keptOrClosed hflow hkept
  · have hconnecting := hwired.setup_connecting (Nat.add_pos_right _ hpending) habort
    exact .of_eq ((hflow.connect hconnecting).keptOrClosed hkept) hkept.delivered

theorem delivers_network {s : TcpSession} {n : NetworkEvent} (hflow : s.receiveView.Flow)
    (henabled : n.Enabled s) : Delivers s (n.perform s) [] := by
  cases n with
  | arrive bytes => exact .of_eq (hflow.arrive bytes) rfl
  | peerClose => exact .of_keptOrClosed hflow (Or.inl rfl)
  | asyncReadProgress index count =>
    simp only [NetworkEvent.Enabled] at henabled
    simp only [NetworkEvent.perform]
    cases hindex : s.pending.receives[index]? with
    | none =>
      rw [hindex] at henabled
      exact henabled.elim
    | some r =>
      rw [hindex] at henabled
      exact .of_eq (hflow.progress hindex henabled.1 henabled.2) rfl

theorem Delivers.reap {s t : TcpSession} {bytes : List UInt8} (h : Delivers s t bytes) :
    Delivers s t.reap bytes := by
  refine ⟨?_, ?_⟩
  · rw [receiveView_reap]
    exact h.flow
  · exact (congrArg ReceiveView.delivered (receiveView_reap t)).trans h.delivered

theorem deliveredBytes_reap (e : Event) (t : TcpSession) :
    e.deliveredBytes t.reap = e.deliveredBytes t := by
  unfold Event.deliveredBytes reap
  split
  · split <;> rfl
  · split <;> rfl
  · rfl

theorem delivers_step {s t : TcpSession} {e : Event} (hwired : s.core.Wired)
    (hflow : s.receiveView.Flow) (h : step s e = some t) :
    Delivers s t (e.deliveredBytes t) := by
  obtain ⟨henabled, u, hperform, rfl⟩ := (step_eq_some_iff s t e).mp h
  rw [deliveredBytes_reap]
  apply Delivers.reap
  cases e with
  | call c => exact delivers_call hflow hperform
  | completion c => exact delivers_completion hwired hflow henabled hperform
  | network n =>
    obtain rfl := Outcome.ok.inj hperform
    exact delivers_network hflow henabled

/-! ### Runs -/

/-- The concatenation of what the events of a run deliver. -/
def deliveredBytes (s : TcpSession) : List Event → List UInt8
  | [] => []
  | e :: es =>
    match step s e with
    | none => []
    | some t => e.deliveredBytes t ++ deliveredBytes t es

theorem flow_create (asioSocket : AsioSocket) (state : StateId) :
    (TcpSocket.create asioSocket state).receiveView.Flow :=
  ReceiveView.Flow.of_idle rfl rfl [] rfl rfl rfl

theorem delivers_created {s : TcpSession} (h : Created s) :
    s.receiveView.Flow ∧ s.history.delivered = [] := by
  cases h with
  | connectTo literal closeError =>
    have hcreate := flow_create TcpSocket.newAsioSocket .connecting
    cases literal with
    | none => exact ⟨hcreate, rfl⟩
    | some endpoint =>
      have hstart := Delivers.of_keptOrClosed hcreate (ResolveCase.receiveView
        (handleResolve_case _ (.ok [endpoint]) closeError))
      exact ⟨hstart.flow, hstart.delivered⟩
  | error message =>
    exact ⟨(flow_create TcpSocket.newAsioSocket .closed), rfl⟩
  | fromConnectedSocket connectedSocket calls =>
    have hstart := Delivers.of_keptOrClosed (flow_create connectedSocket .connected)
      (EnterCase.receiveView (enter_case _ TcpSocket.DEFAULT_TCP_NODELAY calls))
    exact ⟨hstart.flow, hstart.delivered⟩

theorem delivers_run {s t : TcpSession} {es : List Event} (hwired : s.core.Wired)
    (hawake : s.core.Awake) (hflow : s.receiveView.Flow)
    (hrun : StateMachine.run step s es = some t) : Delivers s t (deliveredBytes s es) := by
  induction es generalizing s with
  | nil =>
    rw [← Option.some.inj hrun]
    exact Delivers.of_eq hflow rfl
  | cons e es ih =>
    obtain ⟨r, hr, hrest⟩ := (StateMachine.run_cons_eq_some_iff step s t e es).mp hrun
    obtain ⟨hwired', hawake'⟩ := hwired.effect hawake (core_step hr)
    have hfirst := delivers_step hwired hflow hr
    have hlast := ih hwired' hawake' hfirst.flow hrest
    refine ⟨hlast.flow, ?_⟩
    simp only [deliveredBytes, hr]
    rw [hlast.delivered, hfirst.delivered, List.append_assoc, List.map_append]

/-- The receiving side of a session, given all bytes delivered to the client so
far: they are the front of the stream that has arrived, whichever reads fetched
them, and every call of the client continues where they end. -/
structure ReceiveIntegrity (s : TcpSession) (delivered : List UInt8) : Prop where
  front : delivered <+: s.history.arrived
  no_placeholder : s.history.delivered = delivered.map .received
  exclusive : s.history.readOverlap = false
  receive : ∀ ammount calls, (Call.receive ammount calls).Enabled s →
    (TcpSocket.receive s ammount calls).2.socket.receiveBuffer =
      (if (TcpSocket.receive s ammount calls).1 then
        ⟨(s.history.arrived.drop delivered.length).take ammount, 0⟩ else ⟨[], 0⟩) ∧
    (TcpSocket.receive s ammount calls).2.socket.receiveBuffer.size =
      if (TcpSocket.receive s ammount calls).1 then ammount else 0
  receiveAvailable : ∀ calls, (Call.receiveAvailable calls).Enabled s →
    (TcpSocket.receiveAvailable s calls).2.socket.receiveBuffer =
      ⟨(s.history.arrived.drop delivered.length).take (TcpSocket.receiveAvailable s calls).1, 0⟩
  isEof : ∀ peek, (Call.isEof peek).Enabled s → (TcpSocket.isEof s peek).1 = true →
    (TcpSocket.isEof s peek).2.socket.state = .connected →
    delivered = s.history.arrived ∧ s.socket.socket.peerClosed = true

/-- At the end of the stream nothing is left over. -/
theorem isEof_drained {s : TcpSession} {peek : PeekResult} (hflow : s.receiveView.Flow)
    (hsound : peek.Sound s.socket.socket) (heof : (TcpSocket.isEof s peek).1 = true)
    (hstate : (TcpSocket.isEof s peek).2.socket.state = .connected) :
    s.history.delivered = s.history.arrived.map .received ∧
      s.socket.socket.peerClosed = true := by
  have hcase := isEof_case s peek
  unfold TcpSocket.isEof at heof hstate
  cases hbefore : s.socket.state with
  | connecting =>
    rw [hbefore] at heof
    contradiction
  | closed =>
    rw [hbefore] at hstate
    exact absurd (hbefore.symm.trans hstate) (by decide)
  | connected =>
    rw [hbefore] at heof hstate
    simp only at heof hstate
    generalize TcpConnected.isEof s peek = result at hcase heof hstate
    cases hcase with
    | busy _ => contradiction
    | «open» _ => contradiction
    | failed message _ =>
      have hclosed := congrArg Core.state (core_enterErrorState (Asio.noteRead s) message)
      have hclosed' : StateId.closed = .connected := hclosed.symm.trans hstate
      contradiction
    | eof hstored hidle hpeek =>
      subst hpeek
      have hopen : s.receiveView.state ≠ .closed := StateId.ne_closed_of_connected hbefore
      obtain ⟨consumed, harrived, hcells⟩ := hflow.cells_of_idle hopen hidle
      change s.history.arrived = consumed ++ s.socket.socket.inbox at harrived
      change s.history.delivered ++ s.socket.tcpConnected.partialReceiveBuffer = _ at hcells
      rw [hsound.1, List.append_nil] at harrived
      rw [hstored, List.append_nil] at hcells
      rw [hcells, harrived]
      exact ⟨rfl, hsound.2⟩

theorem map_received_injective : Function.Injective (List.map ReceiveCell.received) :=
  List.map_injective_iff.mpr fun _ _ => ReceiveCell.received.inj

theorem receiveIntegrity_of_flow {s : TcpSession} {delivered : List UInt8}
    (hflow : s.receiveView.Flow) (hdelivered : s.history.delivered = delivered.map .received) :
    s.ReceiveIntegrity delivered where
  front := by
    have hstream : s.history.delivered =
        (s.history.arrived.take s.history.delivered.length).map .received := hflow.stream
    rw [hdelivered] at hstream
    rw [map_received_injective hstream]
    exact List.take_prefix _ _
  no_placeholder := hdelivered
  exclusive := hflow.no_overlap
  receive := by
    intro ammount calls _
    obtain ⟨bytes, hreceives, hlength⟩ := receives_receive hflow ammount calls
    have hbytes := hreceives.eq_take hflow
    rw [hdelivered, List.length_map] at hbytes
    rw [hreceives.buffer]
    refine ⟨?_, hlength⟩
    cases hsuccess : (TcpSocket.receive s ammount calls).1 with
    | false =>
      rw [hsuccess] at hlength
      rw [List.length_eq_zero_iff.mp hlength]
      rfl
    | true =>
      rw [hsuccess] at hlength
      rw [hlength] at hbytes
      rw [hbytes]
      rfl
  receiveAvailable := by
    intro calls _
    obtain ⟨bytes, hreceives⟩ := receives_receiveAvailable hflow calls
    have hbytes := hreceives.eq_take hflow
    rw [hdelivered, List.length_map] at hbytes
    have hsize : (TcpSocket.receiveAvailable s calls).1 = bytes.length :=
      congrArg Buffer.size hreceives.buffer
    rw [hreceives.buffer, hsize, ← hbytes]
  isEof := by
    intro peek henabled heof hstate
    obtain ⟨hall, hclosed⟩ := isEof_drained hflow henabled.2 heof hstate
    exact ⟨map_received_injective (hdelivered.symm.trans hall), hclosed⟩

/-- In every run, with every timing of arrivals and completions, the client
receives the stream of its peer. -/
theorem receive_stream_integrity {s t : TcpSession} {es : List Event} (hs : Created s)
    (hrun : StateMachine.run step s es = some t) :
    t.ReceiveIntegrity (deliveredBytes s es) := by
  obtain ⟨hwired, hawake⟩ := (core_created hs).wired
  obtain ⟨hflow, hnone⟩ := delivers_created hs
  have hdelivers := delivers_run hwired hawake hflow hrun
  apply receiveIntegrity_of_flow hdelivers.flow
  rw [hdelivers.delivered, hnone, List.nil_append]

/-- Two of three bytes are requested before they arrive. -/
theorem receive_stream_integrity_two : ∃ es t, StateMachine.run step accepted es = some t ∧
    deliveredBytes accepted es = [7, 8] ∧ t.socket.socket.inbox = [9] ∧
    t.ReceiveIntegrity [7, 8] := by
  have hrun : StateMachine.run step accepted [.call (.receive 2 ⟨.ok 0, none⟩),
      .network (.arrive [7, 8, 9]), .network (.asyncReadProgress 0 2),
      .completion (.receive 0 none), .call (.receive 2 ⟨.ok 1, none⟩)] = some _ := rfl
  exact ⟨_, _, hrun, rfl, rfl, receive_stream_integrity created_accepted hrun⟩

end TcpSession

end FaucetNetworking
