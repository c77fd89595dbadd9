import FaucetNetworking.Tcp.Run

/-!
What the functions of a TCP session can do, once for all invariants. A function
that calls into Asio several times is described by the sessions in which it can
end, each written with the primitive updates of the model.
-/
namespace FaucetNetworking

/-- The updates of the calls in TcpConnected::enter, up to any of them. -/
def Prepared (s t : TcpSession) : Prop :=
  ∃ remoteIp remotePort localPort noDelay, t = { s with
    socket.remoteIp := remoteIp
    socket.remotePort := remotePort
    socket.localPort := localPort
    socket.socket.noDelay := noDelay }

theorem Prepared.refl (s : TcpSession) : Prepared s s :=
  ⟨s.socket.remoteIp, s.socket.remotePort, s.socket.localPort, s.socket.socket.noDelay, rfl⟩

inductive EnterCase (s : TcpSession) : TcpSession → Prop where
  | failed (t : TcpSession) (message : String) :
      Prepared s t → EnterCase s (TcpSocket.enterErrorState t message)
  | entered (t : TcpSession) : Prepared s t → EnterCase s (TcpConnected.startAsyncSend t)

/-- What a read without waiting leaves behind if it succeeds. -/
inductive Fetched (s : TcpSession) (calls : ReceiveCalls) : TcpSession → Prop where
  | nothing : Fetched s calls s
  | bytes (available count : ℕ) : calls.available = .ok available → count ≤ available →
      Fetched s calls (Asio.moveBytes
        (Asio.noteRead (TcpConnected.insertPlaceholders s count))
        s.socket.tcpConnected.partialReceiveBuffer.length count)

/-- What it leaves behind if one of its calls throws. -/
inductive FetchFailed (s : TcpSession) : TcpSession → Prop where
  | available : FetchFailed s s
  | read (count : ℕ) :
      FetchFailed s (Asio.noteRead (TcpConnected.insertPlaceholders s count))

inductive ReceiveCase (s : TcpSession) (ammount : ℕ) (calls : ReceiveCalls) :
    Bool × TcpSession → Prop where
  | busy : s.socket.tcpConnected.asyncReceiveInProgress = true →
      ReceiveCase s ammount calls (false, s)
  | failed (t : TcpSession) (message : String) :
      s.socket.tcpConnected.asyncReceiveInProgress = false → FetchFailed s t →
      ReceiveCase s ammount calls (false, TcpSocket.enterErrorState t message)
  | served (t : TcpSession) : s.socket.tcpConnected.asyncReceiveInProgress = false →
      Fetched s calls t → ammount ≤ t.socket.tcpConnected.partialReceiveBuffer.length →
      ReceiveCase s ammount calls (true, TcpConnected.deliver t ammount)
  | started (t : TcpSession) : s.socket.tcpConnected.asyncReceiveInProgress = false →
      Fetched s calls t → t.socket.tcpConnected.partialReceiveBuffer.length < ammount →
      ReceiveCase s ammount calls (false, TcpConnected.startAsyncReceive t
        (ammount - t.socket.tcpConnected.partialReceiveBuffer.length))

inductive ReceiveAvailableCase (s : TcpSession) (calls : ReceiveCalls) : TcpSession → Prop where
  | busy : s.socket.tcpConnected.asyncReceiveInProgress = true →
      ReceiveAvailableCase s calls s
  | failed (t : TcpSession) (message : String) :
      s.socket.tcpConnected.asyncReceiveInProgress = false → FetchFailed s t →
      ReceiveAvailableCase s calls (TcpSocket.enterErrorState t message)
  | served (t : TcpSession) : s.socket.tcpConnected.asyncReceiveInProgress = false →
      Fetched s calls t → ReceiveAvailableCase s calls
        (TcpConnected.deliver t t.socket.tcpConnected.partialReceiveBuffer.length)

inductive EofCase (s : TcpSession) (peek : PeekResult) : Bool × TcpSession → Prop where
  | busy : s.socket.tcpConnected.partialReceiveBuffer ≠ [] ∨
      s.socket.tcpConnected.asyncReceiveInProgress = true → EofCase s peek (false, s)
  | eof : s.socket.tcpConnected.partialReceiveBuffer = [] →
      s.socket.tcpConnected.asyncReceiveInProgress = false → peek = .eof →
      EofCase s peek (true, Asio.noteRead s)
  | open : s.socket.tcpConnected.asyncReceiveInProgress = false →
      EofCase s peek (false, Asio.noteRead s)
  | failed (message : String) : s.socket.tcpConnected.asyncReceiveInProgress = false →
      EofCase s peek (true, TcpSocket.enterErrorState (Asio.noteRead s) message)

inductive AttemptCase (s : TcpSession) (endpoints : V4FirstIterator) : TcpSession → Prop where
  | failed (message : String) :
      AttemptCase s endpoints (TcpSocket.enterErrorState s message)
  | attempted : AttemptCase s endpoints (Asio.asyncConnect
      { s with socket.socket.isOpen := false } endpoints.next.1 endpoints.next.2)

inductive ResolveCase (s : TcpSession) : TcpSession → Prop where
  | aborted : s.socket.tcpConnecting.abortRequested = true → ResolveCase s s
  | failed (message : String) : s.socket.tcpConnecting.abortRequested = false →
      ResolveCase s (TcpSocket.enterErrorState s message)
  | attempt (endpoints : V4FirstIterator) (t : TcpSession) :
      s.socket.tcpConnecting.abortRequested = false →
      AttemptCase s endpoints t → ResolveCase s t

inductive ConnectCase (s : TcpSession) : TcpSession → Prop where
  | aborted : s.socket.tcpConnecting.abortRequested = true → ConnectCase s s
  | failed (message : String) : s.socket.tcpConnecting.abortRequested = false →
      ConnectCase s (TcpSocket.enterErrorState s message)
  | attempt (endpoints : V4FirstIterator) (t : TcpSession) :
      s.socket.tcpConnecting.abortRequested = false →
      AttemptCase s endpoints t → ConnectCase s t
  | connected (t : TcpSession) : s.socket.tcpConnecting.abortRequested = false →
      EnterCase { s with socket.state := .connected } t → ConnectCase s t

/-! ### The functions end in these cases -/

theorem prepared_prepare (s : TcpSession) (noDelay : Bool) (calls : EnterCalls) :
    match TcpConnected.prepare s noDelay calls with
    | .error (_, t) => Prepared s t
    | .ok t => Prepared s t := by
  unfold TcpConnected.prepare
  cases calls.remoteEndpoint with
  | error message => exact Prepared.refl s
  | ok remoteEndpoint =>
    cases calls.localEndpoint with
    | error message => exact Prepared.refl s
    | ok localEndpoint =>
      cases calls.addressString with
      | error message => exact Prepared.refl s
      | ok address =>
        cases calls.setOption with
        | error message => exact ⟨address, _, _, _, rfl⟩
        | ok _ =>
          cases calls.nonBlocking with
          | error message => exact ⟨address, _, _, _, rfl⟩
          | ok _ => exact ⟨address, _, _, _, rfl⟩

theorem enter_case (s : TcpSession) (noDelay : Bool) (calls : EnterCalls) :
    EnterCase s (TcpConnected.enter s noDelay calls) := by
  have hprepared := prepared_prepare s noDelay calls
  unfold TcpConnected.enter
  cases h : TcpConnected.prepare s noDelay calls with
  | error thrown =>
    rw [h] at hprepared
    exact .failed thrown.2 thrown.1 hprepared
  | ok t =>
    rw [h] at hprepared
    exact .entered t hprepared

theorem nonblockReceive_case (s : TcpSession) (maxData : ℕ) (calls : ReceiveCalls) :
    match TcpConnected.nonblockReceive s maxData calls with
    | .error (_, t) => FetchFailed s t
    | .ok t => Fetched s calls t := by
  unfold TcpConnected.nonblockReceive
  cases s.socket.tcpConnected.asyncReceiveInProgress with
  | true => exact .nothing
  | false =>
    cases havailable : calls.available with
    | error message => exact .available
    | ok available =>
      cases hread : calls.readError with
      | some message => exact .read (min maxData available)
      | none => exact .bytes available (min maxData available) havailable (Nat.min_le_right _ _)

theorem receive_case (s : TcpSession) (ammount : ℕ) (calls : ReceiveCalls) :
    ReceiveCase s ammount calls (TcpConnected.receive s ammount calls) := by
  unfold TcpConnected.receive
  cases hbusy : s.socket.tcpConnected.asyncReceiveInProgress with
  | true => exact .busy hbusy
  | false =>
    have hserve : ∀ t, Fetched s calls t → ReceiveCase s ammount calls
        (if t.socket.tcpConnected.partialReceiveBuffer.length ≥ ammount then
          (true, TcpConnected.deliver t ammount)
        else (false, TcpConnected.startAsyncReceive t
          (ammount - t.socket.tcpConnected.partialReceiveBuffer.length))) := by
      intro t ht
      split
      · rename_i hle
        exact .served t hbusy ht hle
      · rename_i hlt
        exact .started t hbusy ht (Nat.lt_of_not_le hlt)
    simp only [Bool.false_eq_true, if_false]
    by_cases hshort : s.socket.tcpConnected.partialReceiveBuffer.length < ammount
    · rw [if_pos hshort]
      have hcase := nonblockReceive_case s
        (ammount - s.socket.tcpConnected.partialReceiveBuffer.length) calls
      cases h : TcpConnected.nonblockReceive s
          (ammount - s.socket.tcpConnected.partialReceiveBuffer.length) calls with
      | error thrown =>
        rw [h] at hcase
        exact .failed thrown.2 thrown.1 hbusy hcase
      | ok t =>
        rw [h] at hcase
        exact hserve t hcase
    · rw [if_neg hshort]
      exact hserve s .nothing

theorem receiveAvailable_case (s : TcpSession) (calls : ReceiveCalls) :
    ReceiveAvailableCase s calls (TcpConnected.receiveAvailable s calls) := by
  have hcase := nonblockReceive_case s TcpConnected.sizeMax calls
  unfold TcpConnected.receiveAvailable
  cases hbusy : s.socket.tcpConnected.asyncReceiveInProgress with
  | true => exact .busy hbusy
  | false =>
    simp only [Bool.false_eq_true, if_false]
    cases h : TcpConnected.nonblockReceive s TcpConnected.sizeMax calls with
    | error thrown =>
      rw [h] at hcase
      exact .failed thrown.2 thrown.1 hbusy hcase
    | ok t =>
      rw [h] at hcase
      exact .served t hbusy hcase

theorem isEof_case (s : TcpSession) (peek : PeekResult) :
    EofCase s peek (TcpConnected.isEof s peek) := by
  unfold TcpConnected.isEof
  split
  · rename_i hbusy
    apply EofCase.busy
    rcases Bool.or_eq_true_iff.mp hbusy with hstored | hreceive
    · exact Or.inl (List.ne_nil_of_length_pos (of_decide_eq_true hstored))
    · exact Or.inr hreceive
  · rename_i hidle
    simp only [Bool.or_eq_true, decide_eq_true_eq, not_or, Bool.not_eq_true] at hidle
    have hstored : s.socket.tcpConnected.partialReceiveBuffer = [] :=
      List.length_eq_zero_iff.mp (Nat.eq_zero_of_not_pos hidle.1)
    cases peek with
    | data => exact .open hidle.2
    | eof => exact .eof hstored hidle.2 rfl
    | wouldBlock => exact .open hidle.2
    | error message => exact .failed message hidle.2

/-- Only a connected socket receives, into a receive buffer that has been cleared. -/
theorem tcpSocket_receive_cases (s : TcpSession) (ammount : ℕ) (calls : ReceiveCalls) :
    (s.socket.state = .connected ∧ TcpSocket.receive s ammount calls =
        TcpConnected.receive (TcpSocket.clearReceiveBuffer s) ammount calls) ∨
      TcpSocket.receive s ammount calls = (false, TcpSocket.clearReceiveBuffer s) := by
  simp only [TcpSocket.receive, TcpSocket.clearReceiveBuffer]
  cases s.socket.state with
  | connecting => exact Or.inr rfl
  | connected => exact Or.inl ⟨rfl, rfl⟩
  | closed => exact Or.inr rfl

theorem tcpSocket_receiveAvailable_cases (s : TcpSession) (calls : ReceiveCalls) :
    (s.socket.state = .connected ∧ (TcpSocket.receiveAvailable s calls).2 =
        TcpConnected.receiveAvailable (TcpSocket.clearReceiveBuffer s) calls) ∨
      (TcpSocket.receiveAvailable s calls).2 = TcpSocket.clearReceiveBuffer s := by
  simp only [TcpSocket.receiveAvailable, TcpSocket.clearReceiveBuffer]
  cases s.socket.state with
  | connecting => exact Or.inr rfl
  | connected => exact Or.inl ⟨rfl, rfl⟩
  | closed => exact Or.inr rfl

theorem tryNext_case (s : TcpSession) (endpoints : V4FirstIterator)
    (closeError : Option String) :
    AttemptCase s endpoints (TcpConnecting.tryNext s endpoints closeError) := by
  unfold TcpConnecting.tryNext TcpConnecting.startConnectionAttempt
  cases closeError with
  | some message => exact .failed message
  | none => exact .attempted

theorem handleResolve_case (s : TcpSession) (result : Except String (List Endpoint))
    (closeError : Option String) :
    ResolveCase s (TcpConnecting.handleResolve s result closeError) := by
  unfold TcpConnecting.handleResolve
  cases habort : s.socket.tcpConnecting.abortRequested with
  | true => exact .aborted habort
  | false =>
    cases result with
    | error message => exact .failed message habort
    | ok endpointIterator => exact .attempt _ _ habort (tryNext_case s _ closeError)

theorem handleConnect_case (s : TcpSession) (error : Option String)
    (endpoints : V4FirstIterator) (closeError : Option String) (calls : EnterCalls) :
    ConnectCase s (TcpConnecting.handleConnect s error endpoints closeError calls) := by
  unfold TcpConnecting.handleConnect
  cases habort : s.socket.tcpConnecting.abortRequested with
  | true => exact .aborted habort
  | false =>
    cases error with
    | none => exact .connected _ habort (enter_case _ _ calls)
    | some message =>
      simp only [Bool.false_eq_true, if_false]
      split
      · exact .attempt endpoints _ habort (tryNext_case s endpoints closeError)
      · exact .failed message habort

/-- The transfer of bytes only shows in the history. -/
theorem transfer_case {s t : TcpSession} {buffers : List ConstBuffer} {error : Option String}
    {n : ℕ} (h : Completion.transfer s buffers error n = some t) :
    ∃ transferred, t = { s with history.transferred := transferred } := by
  unfold Completion.transfer at h
  cases error with
  | some message => exact ⟨s.history.transferred, (Option.some.inj h).symm⟩
  | none =>
    obtain ⟨bytes, -, rfl⟩ := Option.map_eq_some_iff.mp h
    exact ⟨_, rfl⟩

end FaucetNetworking
