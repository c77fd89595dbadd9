import FaucetNetworking.Tcp.Cases
import Mathlib.Tactic.ByContra

/-!
The core of a TCP session: all that the receiving direction does not touch. A
step changes the core in one of a few ways, and every invariant about the
connection and the sending direction is derived from these.
-/
namespace FaucetNetworking

structure Core where
  state : StateId
  connectingAborted : Bool
  asyncSendInProgress : Bool
  abortRequested : Bool
  tcpClosed : TcpClosed
  sendbuffer : SendBuffer
  resolves : ℕ
  connects : List V4FirstIterator
  sends : List (List ConstBuffer)
  accepted : List UInt8
  sendMark : ℕ
  transferred : List UInt8
  handle : HandleState

def TcpSession.core (s : TcpSession) : Core where
  state := s.socket.state
  connectingAborted := s.socket.tcpConnecting.abortRequested
  asyncSendInProgress := s.socket.tcpConnected.asyncSendInProgress
  abortRequested := s.socket.tcpConnected.abortRequested
  tcpClosed := s.socket.tcpClosed
  sendbuffer := s.socket.sendbuffer
  resolves := s.pending.resolves
  connects := s.pending.connects
  sends := s.pending.sends
  accepted := s.history.accepted
  sendMark := s.history.sendMark
  transferred := s.history.transferred
  handle := s.handle

namespace Core

/-- The state object is told to abort, and the socket is closed, with an error
unless there is one already. -/
def close (v : Core) (error : Option String) : Core :=
  { v with
    state := .closed
    connectingAborted := v.connectingAborted || v.state == .connecting
    abortRequested := v.abortRequested || v.state == .connected
    tcpClosed := match error with
      | none => v.tcpClosed
      | some message => if v.tcpClosed.hasError then v.tcpClosed else ⟨true, message⟩ }

def startAsyncSend (v : Core) : Core :=
  if !v.asyncSendInProgress then
    { v with
      asyncSendInProgress := true
      sends := v.sends ++ [v.sendbuffer.committedAsConstBufferSequence] }
  else v

/-- Everything is committed, and sent if the socket is connected. -/
def send (v : Core) : Core :=
  let v := { v with
    sendbuffer := v.sendbuffer.commit
    sendMark := v.accepted.length }
  if v.state = .connected then v.startAsyncSend else v

/-- A send is no longer pending. -/
def finish (v : Core) (index : ℕ) : Core :=
  { v with asyncSendInProgress := false, sends := v.sends.eraseIdx index }

/-- Nothing has changed, or the socket was closed. -/
def KeptOrClosed (v w : Core) : Prop := w = v ∨ ∃ error, w = v.close error

/-- A handler of the connecting state that goes on to the next attempt or closes. -/
inductive SetupEffect (v : Core) : Core → Prop where
  | aborted : v.connectingAborted = true → SetupEffect v v
  | closed (error : Option String) : v.connectingAborted = false →
      SetupEffect v (v.close error)
  | attempted (endpoints : V4FirstIterator) : v.connectingAborted = false →
      SetupEffect v { v with connects := v.connects ++ [endpoints] }

/-- The handler of a send that was pending with the given buffers. -/
inductive SendEffect (v : Core) (index : ℕ) (buffers : List ConstBuffer) :
    Option String → ℕ → Core → Prop where
  | silenced (message : String) (n : ℕ) : v.abortRequested = true →
      SendEffect v index buffers (some message) n (v.finish index)
  | failed (message : String) (n : ℕ) : v.abortRequested = false →
      SendEffect v index buffers (some message) n ((v.finish index).close (some message))
  | lost (n : ℕ) (bytes : List UInt8) : v.abortRequested = true →
      n ≤ sequenceSize buffers → gather v.sendbuffer.buffers buffers = some bytes →
      SendEffect v index buffers none n
        (finish { v with transferred := v.transferred ++ bytes.take n } index)
  | popped (n : ℕ) (bytes : List UInt8) (sendbuffer : SendBuffer) :
      v.abortRequested = false → n ≤ sequenceSize buffers →
      gather v.sendbuffer.buffers buffers = some bytes →
      v.sendbuffer.pop n = .ok sendbuffer → sendbuffer.committedSize = 0 →
      SendEffect v index buffers none n (finish { v with
        transferred := v.transferred ++ bytes.take n
        sendbuffer := sendbuffer } index)
  | resumed (n : ℕ) (bytes : List UInt8) (sendbuffer : SendBuffer) :
      v.abortRequested = false → n ≤ sequenceSize buffers →
      gather v.sendbuffer.buffers buffers = some bytes →
      v.sendbuffer.pop n = .ok sendbuffer → 0 < sendbuffer.committedSize →
      SendEffect v index buffers none n (finish { v with
        transferred := v.transferred ++ bytes.take n
        sendbuffer := sendbuffer } index).startAsyncSend

/-- All that a step can do to the core. -/
inductive Effect (v : Core) : Event → Core → Prop where
  | kept (e : Event) : Effect v e v
  | closed (e : Event) (error : Option String) : Effect v e (v.close error)
  | accepted (e : Event) (data : List UInt8) (sendbuffer : SendBuffer) : v.handle = .held →
      v.state ≠ .closed → v.sendbuffer.push data = .ok sendbuffer →
      Effect v e { v with sendbuffer := sendbuffer, accepted := v.accepted ++ data }
  | sent (e : Event) : v.handle = .held → Effect v e v.send
  | destroyed (hard : Bool) : v.handle = .held →
      Effect v (.call (.destroySocket hard))
        { (if hard then v.close none else v.send) with handle := .released hard }
  | resolved (e : Event) (w : Core) : 0 < v.resolves →
      SetupEffect { v with resolves := v.resolves - 1 } w → Effect v e w
  | attempted (e : Event) (index : ℕ) (w : Core) : index < v.connects.length →
      SetupEffect { v with connects := v.connects.eraseIdx index } w → Effect v e w
  | connected (e : Event) (index : ℕ) : index < v.connects.length →
      v.connectingAborted = false → Effect v e (startAsyncSend
        { v with connects := v.connects.eraseIdx index, state := .connected })
  | connectedClosed (e : Event) (index : ℕ) (error : Option String) :
      index < v.connects.length → v.connectingAborted = false → Effect v e (close
        { v with connects := v.connects.eraseIdx index, state := .connected } error)
  | sendDone (index n : ℕ) (buffers : List ConstBuffer) (error : Option String) (w : Core) :
      v.sends[index]? = some buffers → SendEffect v index buffers error n w →
      Effect v (.completion (.send index error n)) w

/-- The core of a socket as its constructor leaves it. -/
def initial (state : StateId) : Core :=
  ⟨state, false, false, false, ⟨false, ""⟩, .new, 0, [], [], [], 0, [], .held⟩

/-- How a socket can start out. -/
inductive Initial : Core → Prop where
  | resolving : Initial { initial .connecting with resolves := 1 }
  | attempted (w : Core) : SetupEffect (initial .connecting) w → Initial w
  | connected : Initial (initial .connected).startAsyncSend
  | closed (state : StateId) (error : Option String) : Initial ((initial state).close error)

end Core

/-! ### What the functions do to the core -/

namespace TcpSession

@[simp] theorem core_enterClosed (s : TcpSession) :
    (TcpClosed.enterClosed s).core = s.core := by
  unfold TcpClosed.enterClosed
  split <;> rfl

theorem core_enterErrorState (s : TcpSession) (message : String) :
    (TcpSocket.enterErrorState s message).core = s.core.close (some message) := by
  unfold TcpSocket.enterErrorState TcpClosed.enterError TcpSocket.abort Core.close
  rw [core_enterClosed]
  cases hstate : s.socket.state <;> cases herror : s.socket.tcpClosed.hasError <;>
    simp [core, hstate, herror]

theorem core_enterClosedState (s : TcpSession) :
    (TcpSocket.enterClosedState s).core = s.core.close none := by
  unfold TcpSocket.enterClosedState TcpSocket.abort Core.close
  rw [core_enterClosed]
  cases hstate : s.socket.state <;> simp [core, hstate]

theorem core_startAsyncSend (s : TcpSession) :
    (TcpConnected.startAsyncSend s).core = s.core.startAsyncSend := by
  unfold TcpConnected.startAsyncSend Core.startAsyncSend
  by_cases h : s.socket.tcpConnected.asyncSendInProgress = true
  · simp [core, h]
  · simp [core, h, Asio.asyncSend]

theorem core_send (s : TcpSession) : (TcpSocket.send s).core = s.core.send := by
  unfold TcpSocket.send TcpSocket.startAsyncSend Core.send
  cases hstate : s.socket.state with
  | connecting => simp [core, hstate]
  | connected =>
    simp only [core_startAsyncSend]
    simp [core, hstate]
  | closed => simp [core, hstate]

@[simp] theorem core_reap (s : TcpSession) : s.reap.core = s.core := by
  unfold reap
  split <;> rfl

theorem core_network (s : TcpSession) (n : NetworkEvent) : (n.perform s).core = s.core := by
  cases n with
  | arrive bytes => rfl
  | peerClose => rfl
  | asyncReadProgress index count =>
    simp only [NetworkEvent.perform]
    split <;> rfl

theorem Prepared.core {s t : TcpSession} (h : Prepared s t) : t.core = s.core := by
  obtain ⟨remoteIp, remotePort, localPort, noDelay, rfl⟩ := h
  rfl

theorem EnterCase.core {s t : TcpSession} (h : EnterCase s t) :
    (∃ error, t.core = s.core.close error) ∨ t.core = s.core.startAsyncSend := by
  cases h with
  | failed t message hprepared =>
    left
    rw [core_enterErrorState, Prepared.core hprepared]
    exact ⟨some message, rfl⟩
  | entered t hprepared =>
    right
    rw [core_startAsyncSend, Prepared.core hprepared]

theorem ResolveCase.core {s t : TcpSession} (h : ResolveCase s t) :
    s.core.SetupEffect t.core := by
  cases h with
  | aborted habort => exact .aborted habort
  | failed message habort =>
    rw [core_enterErrorState]
    exact .closed _ habort
  | attempt endpoints _ habort hattempt =>
    cases hattempt with
    | failed message =>
      rw [core_enterErrorState]
      exact .closed _ habort
    | attempted => exact .attempted _ habort

theorem ConnectCase.core {s t : TcpSession} (h : ConnectCase s t) :
    s.core.SetupEffect t.core ∨ s.core.connectingAborted = false ∧
      ((∃ error, t.core = Core.close { s.core with state := .connected } error) ∨
        t.core = Core.startAsyncSend { s.core with state := .connected }) := by
  cases h with
  | aborted habort => exact Or.inl (.aborted habort)
  | failed message habort =>
    left
    rw [core_enterErrorState]
    exact .closed _ habort
  | attempt endpoints _ habort hattempt =>
    left
    cases hattempt with
    | failed message =>
      rw [core_enterErrorState]
      exact .closed _ habort
    | attempted => exact .attempted _ habort
  | connected _ habort henter => exact Or.inr ⟨habort, EnterCase.core henter⟩

theorem core_handleReceive (s : TcpSession) (error : Option String) :
    s.core.KeptOrClosed (TcpConnected.handleReceive s error).core := by
  cases error with
  | none => exact Or.inl rfl
  | some message => exact Or.inr ⟨some message, core_enterErrorState _ message⟩

@[simp] theorem core_deliver (s : TcpSession) (ammount : ℕ) :
    (TcpConnected.deliver s ammount).core = s.core := rfl

@[simp] theorem core_startAsyncReceive (s : TcpSession) (ammount : ℕ) :
    (TcpConnected.startAsyncReceive s ammount).core = s.core := by
  unfold TcpConnected.startAsyncReceive
  split <;> rfl

theorem Fetched.core {s t : TcpSession} {calls : ReceiveCalls} (h : Fetched s calls t) :
    t.core = s.core := by
  cases h <;> rfl

theorem FetchFailed.core {s t : TcpSession} (h : FetchFailed s t) : t.core = s.core := by
  cases h <;> rfl

theorem core_failed {s t : TcpSession} (h : FetchFailed s t) (message : String) :
    s.core.KeptOrClosed (TcpSocket.enterErrorState t message).core := by
  right
  rw [core_enterErrorState, FetchFailed.core h]
  exact ⟨some message, rfl⟩

theorem ReceiveCase.core {s : TcpSession} {ammount : ℕ} {calls : ReceiveCalls}
    {result : Bool × TcpSession} (h : ReceiveCase s ammount calls result) :
    s.core.KeptOrClosed result.2.core := by
  cases h with
  | busy _ => exact Or.inl rfl
  | failed t message _ hfailed => exact core_failed hfailed message
  | served t _ hfetched _ =>
    left
    rw [core_deliver, Fetched.core hfetched]
  | started t _ hfetched _ =>
    left
    rw [core_startAsyncReceive, Fetched.core hfetched]

theorem ReceiveAvailableCase.core {s t : TcpSession} {calls : ReceiveCalls}
    (h : ReceiveAvailableCase s calls t) : s.core.KeptOrClosed t.core := by
  cases h with
  | busy _ => exact Or.inl rfl
  | failed t message _ hfailed => exact core_failed hfailed message
  | served t _ hfetched =>
    left
    rw [core_deliver, Fetched.core hfetched]

theorem EofCase.core {s : TcpSession} {peek : PeekResult} {result : Bool × TcpSession}
    (h : EofCase s peek result) : s.core.KeptOrClosed result.2.core := by
  cases h with
  | busy _ => exact Or.inl rfl
  | eof _ _ _ => exact Or.inl rfl
  | «open» _ => exact Or.inl rfl
  | failed message _ => exact Or.inr ⟨some message, core_enterErrorState _ message⟩

theorem core_receive (s : TcpSession) (ammount : ℕ) (calls : ReceiveCalls) :
    s.core.KeptOrClosed (TcpSocket.receive s ammount calls).2.core := by
  change (TcpSocket.clearReceiveBuffer s).core.KeptOrClosed _
  rcases tcpSocket_receive_cases s ammount calls with ⟨-, heq⟩ | heq
  · rw [heq]
    exact ReceiveCase.core (receive_case (TcpSocket.clearReceiveBuffer s) ammount calls)
  · rw [heq]
    exact Or.inl rfl

theorem core_receiveAvailable (s : TcpSession) (calls : ReceiveCalls) :
    s.core.KeptOrClosed (TcpSocket.receiveAvailable s calls).2.core := by
  change (TcpSocket.clearReceiveBuffer s).core.KeptOrClosed _
  rcases tcpSocket_receiveAvailable_cases s calls with ⟨-, heq⟩ | heq
  · rw [heq]
    exact ReceiveAvailableCase.core
      (receiveAvailable_case (TcpSocket.clearReceiveBuffer s) calls)
  · rw [heq]
    exact Or.inl rfl

theorem core_isEof (s : TcpSession) (peek : PeekResult) :
    s.core.KeptOrClosed (TcpSocket.isEof s peek).2.core := by
  unfold TcpSocket.isEof
  split
  · exact Or.inl rfl
  · exact EofCase.core (isEof_case s peek)
  · exact Or.inl rfl

theorem core_setNoDelay (s : TcpSession) (noDelay : Bool) (error : Option String) :
    (TcpSocket.setNoDelay s noDelay error).2.core = s.core := by
  unfold TcpSocket.setNoDelay
  split
  · rfl
  · cases error <;> rfl
  · rfl

theorem core_write {s t : TcpSession} {data : List UInt8} (hheld : s.handle = .held)
    (h : TcpSocket.write s data = .ok t) (e : Event) : s.core.Effect e t.core := by
  unfold TcpSocket.write TcpSocket.allowWrite at h
  cases hstate : s.socket.state with
  | closed =>
    rw [hstate] at h
    obtain rfl := Outcome.ok.inj h
    exact .kept e
  | connecting | connected =>
    rw [hstate] at h
    simp only [if_true] at h
    split at h
    · obtain rfl := Outcome.ok.inj h
      rw [core_enterErrorState]
      exact .closed e _
    · split at h
      · contradiction
      · contradiction
      · rename_i sendbuffer hpush
        obtain rfl := Outcome.ok.inj h
        have hopen : s.core.state ≠ .closed := by
          change s.socket.state ≠ .closed
          rw [hstate]
          decide
        exact .accepted e data sendbuffer hheld hopen hpush

theorem core_destroySocket (s : TcpSession) (hard : Bool) (hheld : s.handle = .held) :
    s.core.Effect (.call (.destroySocket hard)) (destroySocket s hard).core := by
  have hcore : (destroySocket s hard).core =
      { (if hard then s.core.close none else s.core.send) with handle := .released hard } := by
    unfold destroySocket
    cases hard with
    | false =>
      rw [if_neg (by decide), if_neg (by decide), ← core_send]
      rfl
    | true =>
      rw [if_pos rfl, if_pos rfl, ← core_enterClosedState]
      rfl
  rw [hcore]
  exact .destroyed hard hheld

theorem core_call {s t : TcpSession} {c : Call} (henabled : c.Enabled s)
    (h : c.perform s = .ok t) : s.core.Effect (.call c) t.core := by
  have hheld : s.handle = .held := henabled.1
  have hkept : ∀ {w : Core}, s.core.KeptOrClosed w → s.core.Effect (.call c) w := by
    rintro w (rfl | ⟨error, rfl⟩)
    · exact .kept _
    · exact .closed _ error
  cases c with
  | write data => exact core_write hheld h _
  | send =>
    obtain rfl := Outcome.ok.inj h
    rw [core_send]
    exact .sent _ hheld
  | receive ammount calls =>
    obtain rfl := Outcome.ok.inj h
    exact hkept (core_receive s ammount calls)
  | receiveAvailable calls =>
    obtain rfl := Outcome.ok.inj h
    exact hkept (core_receiveAvailable s calls)
  | isEof peek =>
    obtain rfl := Outcome.ok.inj h
    exact hkept (core_isEof s peek)
  | setNoDelay noDelay error =>
    obtain rfl := Outcome.ok.inj h
    rw [core_setNoDelay]
    exact .kept _
  | setSendbufferLimit maxSize =>
    obtain rfl := Outcome.ok.inj h
    exact .kept _
  | read size =>
    obtain rfl := Outcome.ok.inj h
    exact .kept _
  | setReadpos pos =>
    obtain rfl := Outcome.ok.inj h
    exact .kept _
  | disconnectAbortive =>
    obtain rfl := Outcome.ok.inj h
    exact hkept (Or.inr ⟨none, core_enterClosedState s⟩)
  | destroySocket hard =>
    obtain rfl := Outcome.ok.inj h
    exact core_destroySocket s hard hheld

/-- What the handler of a send does once the pending entry has been taken out. -/
theorem core_handleSend {s t : TcpSession} {v : Core} {n : ℕ} {error : Option String}
    (hv : v = { s.core with asyncSendInProgress := false })
    (h : TcpConnected.handleSend s error n = .ok t) :
    (v.abortRequested = true ∧ t.core = v) ∨ v.abortRequested = false ∧
      ((∃ message, error = some message ∧ t.core = v.close (some message)) ∨
        ∃ sendbuffer, error = none ∧ v.sendbuffer.pop n = .ok sendbuffer ∧
          t.core = if sendbuffer.committedSize > 0 then
            Core.startAsyncSend { v with sendbuffer := sendbuffer }
          else { v with sendbuffer := sendbuffer }) := by
  have habort : v.abortRequested = s.socket.tcpConnected.abortRequested := by rw [hv]; rfl
  have hbuffer : v.sendbuffer = s.socket.sendbuffer := by rw [hv]; rfl
  unfold TcpConnected.handleSend at h
  cases hrequested : s.socket.tcpConnected.abortRequested with
  | true =>
    rw [if_pos hrequested] at h
    obtain rfl := Outcome.ok.inj h
    exact Or.inl ⟨habort.trans hrequested, hv.symm⟩
  | false =>
    refine Or.inr ⟨habort.trans hrequested, ?_⟩
    rw [if_neg (by simp [hrequested])] at h
    cases error with
    | some message =>
      obtain rfl := Outcome.ok.inj h
      left
      rw [core_enterErrorState, hv]
      exact ⟨message, rfl, rfl⟩
    | none =>
      right
      simp only at h
      split at h
      · contradiction
      · contradiction
      · rename_i sendbuffer hpop
        refine ⟨sendbuffer, rfl, hbuffer ▸ hpop, ?_⟩
        split at h
        · rename_i hmore
          obtain rfl := Outcome.ok.inj h
          rw [if_pos hmore, core_startAsyncSend, hv]
          rfl
        · rename_i hdone
          obtain rfl := Outcome.ok.inj h
          rw [if_neg hdone, hv]
          rfl

theorem sendEffect_sendDone {s t : TcpSession} {index n : ℕ} {error : Option String}
    (henabled : (Completion.send index error n).Enabled s)
    (h : (Completion.send index error n).perform s = .ok t) :
    ∃ buffers, s.pending.sends[index]? = some buffers ∧
      s.core.SendEffect index buffers error n t.core := by
  simp only [Completion.Enabled] at henabled
  simp only [Completion.perform] at h
  cases hbuffers : s.pending.sends[index]? with
  | none =>
    rw [hbuffers] at henabled
    exact henabled.elim
  | some buffers =>
    rw [hbuffers] at henabled
    rw [List.getD_eq_getElem?_getD, hbuffers, Option.getD_some] at h
    refine ⟨buffers, rfl, ?_⟩
    cases error with
    | some message =>
      simp only [Completion.transfer] at h
      rcases core_handleSend (v := s.core.finish index) rfl h with
        ⟨habort, heq⟩ | ⟨habort, ⟨_, hmessage, heq⟩ | ⟨_, hnone, -⟩⟩
      · rw [heq]
        exact .silenced message n habort
      · rw [heq, ← Option.some.inj hmessage]
        exact .failed message n habort
      · contradiction
    | none =>
      simp only [Completion.transfer] at h
      cases hgather : gather s.socket.sendbuffer.buffers buffers with
      | none =>
        rw [hgather] at h
        contradiction
      | some bytes =>
        rw [hgather] at h
        have hsize := henabled rfl
        rcases core_handleSend (v := Core.finish { s.core with
            transferred := s.core.transferred ++ bytes.take n } index) rfl h with
          ⟨habort, heq⟩ | ⟨habort, ⟨_, hsome, -⟩ | ⟨sendbuffer, -, hpop, heq⟩⟩
        · rw [heq]
          exact .lost n bytes habort hsize hgather
        · contradiction
        · rw [heq]
          split
          · rename_i hmore
            exact .resumed n bytes sendbuffer habort hsize hgather hpop hmore
          · rename_i hdone
            exact .popped n bytes sendbuffer habort hsize hgather hpop
              (Nat.eq_zero_of_not_pos hdone)

theorem core_sendDone {s t : TcpSession} {index n : ℕ} {error : Option String}
    (henabled : (Completion.send index error n).Enabled s)
    (h : (Completion.send index error n).perform s = .ok t) :
    s.core.Effect (.completion (.send index error n)) t.core := by
  obtain ⟨buffers, hbuffers, heffect⟩ := sendEffect_sendDone henabled h
  exact .sendDone index n buffers error _ hbuffers heffect

theorem core_completion {s t : TcpSession} {c : Completion} (henabled : c.Enabled s)
    (h : c.perform s = .ok t) : s.core.Effect (.completion c) t.core := by
  cases c with
  | resolve result closeError =>
    obtain rfl := Outcome.ok.inj h
    have heffect := ResolveCase.core (handleResolve_case
      { s with pending.resolves := s.pending.resolves - 1 } result closeError)
    exact .resolved _ _ henabled heffect
  | connect index error closeError calls =>
    obtain rfl := Outcome.ok.inj h
    rcases ConnectCase.core (handleConnect_case
        { s with pending.connects := s.pending.connects.eraseIdx index } error
        (s.pending.connects.getD index ⟨[], []⟩) closeError calls) with
      hsetup | ⟨habort, ⟨error, heq⟩ | heq⟩
    · exact .attempted _ index _ henabled hsetup
    · rw [heq]
      exact .connectedClosed _ index error henabled habort
    · rw [heq]
      exact .connected _ index henabled habort
  | send index error n => exact core_sendDone henabled h
  | receive index error =>
    obtain rfl := Outcome.ok.inj h
    rcases core_handleReceive
        { s with pending.receives := s.pending.receives.eraseIdx index } error with
      heq | ⟨error, heq⟩
    · rw [heq]
      exact .kept _
    · rw [heq]
      exact .closed _ error

theorem core_created {s : TcpSession} (h : Created s) : s.core.Initial := by
  cases h with
  | connectTo literal closeError =>
    cases literal with
    | none => exact .resolving
    | some endpoint =>
      have hsetup := ResolveCase.core (handleResolve_case
        (TcpSocket.create TcpSocket.newAsioSocket .connecting) (.ok [endpoint]) closeError)
      exact .attempted _ hsetup
  | error message => exact .closed .closed (some message)
  | fromConnectedSocket connectedSocket calls =>
    rcases EnterCase.core (enter_case (TcpSocket.create connectedSocket .connected)
        TcpSocket.DEFAULT_TCP_NODELAY calls) with ⟨error, heq⟩ | heq
    · change (TcpConnected.enter _ _ _).core.Initial
      rw [heq]
      exact .closed .connected error
    · change (TcpConnected.enter _ _ _).core.Initial
      rw [heq]
      exact .connected

/-- Every step has one of the effects on the core. -/
theorem core_step {s t : TcpSession} {e : Event} (h : step s e = some t) :
    s.core.Effect e t.core := by
  obtain ⟨henabled, u, hperform, rfl⟩ := (step_eq_some_iff s t e).mp h
  rw [core_reap]
  cases e with
  | call c => exact core_call henabled hperform
  | completion c => exact core_completion henabled hperform
  | network n =>
    obtain rfl := Outcome.ok.inj hperform
    rw [core_network]
    exact .kept _

end TcpSession

namespace Core

/-! ### Control: one send at a time, and committed data does not wait -/

structure Wired (v : Core) : Prop where
  flag : v.asyncSendInProgress = true ↔ v.sends ≠ []
  single : v.sends.length ≤ 1
  setup_single : v.resolves + v.connects.length ≤ 1
  setup : 0 < v.resolves + v.connects.length →
    v.state = .connecting ∨ v.connectingAborted = true
  connecting : v.state = .connecting → v.sends = []
  open_not_aborted : v.state ≠ .closed → v.abortRequested = false
  open_setup_not_aborted : v.state ≠ .closed → v.connectingAborted = false
  aborted : v.sends ≠ [] → v.state = .closed → v.abortRequested = true
  no_error : v.state ≠ .closed → v.tcpClosed.hasError = false

/-- Nothing that is committed is left without a send in progress. -/
def Awake (v : Core) : Prop :=
  v.state = .connected → v.sends = [] → v.sendbuffer.committedSize = 0

theorem awake_close (v : Core) (error : Option String) : (v.close error).Awake := by
  intro hstate
  contradiction

theorem Wired.close {v : Core} (h : v.Wired) (error : Option String) :
    (v.close error).Wired where
  flag := h.flag
  single := h.single
  setup_single := h.setup_single
  setup := by
    intro hpending
    right
    change (v.connectingAborted || v.state == .connecting) = true
    rcases h.setup hpending with hstate | haborted
    · rw [hstate]
      exact Bool.or_true _
    · rw [haborted]
      rfl
  connecting := fun hstate => by contradiction
  open_not_aborted := fun hstate => absurd rfl hstate
  open_setup_not_aborted := fun hstate => absurd rfl hstate
  aborted := by
    intro hsends _
    change (v.abortRequested || v.state == .connected) = true
    cases hstate : v.state with
    | connecting => exact absurd (h.connecting hstate) hsends
    | connected => exact Bool.or_true _
    | closed =>
      rw [h.aborted hsends hstate]
      rfl
  no_error := fun hstate => absurd rfl hstate

theorem Wired.startAsyncSend_cases {v : Core} (h : v.Wired) :
    (v.sends ≠ [] ∧ v.startAsyncSend = v) ∨ (v.sends = [] ∧ v.startAsyncSend = { v with
      asyncSendInProgress := true
      sends := [v.sendbuffer.committedAsConstBufferSequence] }) := by
  unfold startAsyncSend
  cases hflag : v.asyncSendInProgress with
  | true => exact Or.inl ⟨h.flag.mp hflag, rfl⟩
  | false =>
    have hnil : v.sends = [] := by
      by_contra hne
      rw [h.flag.mpr hne] at hflag
      contradiction
    right
    rw [hnil]
    exact ⟨rfl, rfl⟩

/-- Starting a send in the connected state leaves one in progress. -/
theorem Wired.startAsyncSend {v : Core} (h : v.Wired) (hstate : v.state = .connected) :
    v.startAsyncSend.Wired ∧ v.startAsyncSend.Awake := by
  rcases h.startAsyncSend_cases with ⟨hsends, heq⟩ | ⟨hnil, heq⟩
  · rw [heq]
    exact ⟨h, fun _ hnil => absurd hnil hsends⟩
  · rw [heq]
    constructor
    · exact { h with
        flag := by simp
        single := Nat.le_refl 1
        connecting := by
          intro hconnecting
          rw [hstate] at hconnecting
          contradiction
        aborted := by
          intro _ hclosed
          rw [hstate] at hclosed
          contradiction }
    · intro _ hnil'
      contradiction

/-- The only pending send is the one that completes. -/
theorem Wired.eraseIdx_sends {v : Core} (h : v.Wired) {index : ℕ}
    {buffers : List ConstBuffer} (hindex : v.sends[index]? = some buffers) :
    v.sends = [buffers] ∧ v.sends.eraseIdx index = [] := by
  obtain ⟨hlt, -⟩ := List.getElem?_eq_some_iff.mp hindex
  have hone : v.sends.length = 1 := by
    have hsingle := h.single
    omega
  obtain ⟨only, honly⟩ := List.length_eq_one_iff.mp hone
  have hzero : index = 0 := by omega
  subst hzero
  rw [honly] at hindex ⊢
  simp only [List.getElem?_cons_zero, Option.some.injEq] at hindex
  rw [hindex]
  exact ⟨rfl, rfl⟩

theorem Wired.finish {v : Core} (h : v.Wired) {index : ℕ} {buffers : List ConstBuffer}
    (hindex : v.sends[index]? = some buffers) : (v.finish index).Wired := by
  obtain ⟨-, herase⟩ := h.eraseIdx_sends hindex
  have hsends : (v.finish index).sends = [] := herase
  exact { h with
    flag := by
      rw [hsends]
      exact ⟨fun hflag => by contradiction, fun hne => absurd rfl hne⟩
    single := by
      rw [hsends]
      exact Nat.zero_le 1
    connecting := fun _ => hsends
    aborted := fun hne => absurd hsends hne }

/-- One operation of the setup fewer is pending. -/
theorem Wired.setup_done {v : Core} (h : v.Wired) {index : ℕ}
    (hindex : index < v.connects.length) :
    v.resolves = 0 ∧ v.connects.eraseIdx index = [] := by
  have hsingle := h.setup_single
  refine ⟨by omega, ?_⟩
  rw [← List.length_eq_zero_iff, List.length_eraseIdx_of_lt hindex]
  omega

/-- A handler of the setup that is not silenced finds the socket connecting. -/
theorem Wired.setup_connecting {v : Core} (h : v.Wired)
    (hpending : 0 < v.resolves + v.connects.length) (habort : v.connectingAborted = false) :
    v.state = .connecting := by
  rcases h.setup hpending with hstate | haborted
  · exact hstate
  · rw [habort] at haborted
    contradiction

/-- One that comes after the socket has been closed is silenced. -/
theorem Wired.setup_aborted {v : Core} (h : v.Wired)
    (hpending : 0 < v.resolves + v.connects.length) (hclosed : v.state = .closed) :
    v.connectingAborted = true := by
  rcases h.setup hpending with hstate | haborted
  · rw [hclosed] at hstate
    contradiction
  · exact haborted

theorem Wired.awake_of_aborted {v w : Core} (h : v.Wired) (haborted : v.abortRequested = true)
    (hstate : w.state = v.state) : w.Awake := by
  intro hconnected
  rw [hstate] at hconnected
  have hopen : v.state ≠ .closed := StateId.ne_closed_of_connected hconnected
  rw [h.open_not_aborted hopen] at haborted
  contradiction

/-- A send that completes without an abort finds the socket connected. -/
theorem Wired.connected_of_send {v : Core} (h : v.Wired) {index : ℕ}
    {buffers : List ConstBuffer} (hindex : v.sends[index]? = some buffers)
    (hrunning : v.abortRequested = false) : v.state = .connected := by
  have hsends : v.sends ≠ [] := by
    rw [(h.eraseIdx_sends hindex).1]
    exact List.cons_ne_nil _ _
  cases hstate : v.state with
  | connecting => exact absurd (h.connecting hstate) hsends
  | connected => rfl
  | closed =>
    rw [h.aborted hsends hstate] at hrunning
    contradiction

theorem Wired.setupEffect {v w : Core} (h : v.Wired) (hdone : v.resolves + v.connects.length = 0)
    (hawake : v.Awake) (hstate : v.connectingAborted = false → v.state = .connecting)
    (heffect : v.SetupEffect w) : w.Wired ∧ w.Awake := by
  cases heffect with
  | aborted _ => exact ⟨h, hawake⟩
  | closed error _ => exact ⟨h.close error, awake_close v error⟩
  | attempted endpoints habort =>
    refine ⟨?_, hawake⟩
    exact { h with
      setup_single := by
        simp only [List.length_append, List.length_singleton]
        omega
      setup := fun _ => Or.inl (hstate habort) }

theorem Wired.send {v : Core} (h : v.Wired) : v.send.Wired ∧ v.send.Awake := by
  unfold Core.send
  simp only
  split
  · rename_i hstate
    exact Wired.startAsyncSend { h with } hstate
  · rename_i hstate
    exact ⟨{ h with }, fun hconnected => absurd hconnected hstate⟩

/-- The socket becomes connected with nothing pending. -/
theorem Wired.connect {v : Core} (h : v.Wired) {index : ℕ} (hindex : index < v.connects.length)
    (habort : v.connectingAborted = false) :
    Wired { v with connects := v.connects.eraseIdx index, state := .connected } := by
  have hstate := h.setup_connecting (by omega) habort
  obtain ⟨hzero, hnil⟩ := h.setup_done hindex
  have hopen : v.state ≠ .closed := StateId.ne_closed_of_connecting hstate
  exact { h with
    setup_single := by
      rw [hnil, hzero]
      exact Nat.zero_le 1
    setup := fun hmore => by
      rw [hnil, hzero] at hmore
      contradiction
    connecting := fun hconnecting => by contradiction
    open_not_aborted := fun _ => h.open_not_aborted hopen
    open_setup_not_aborted := fun _ => habort
    aborted := fun _ hclosed => by contradiction
    no_error := fun _ => h.no_error hopen }

/-- Every step keeps the control invariant and leaves nothing asleep. -/
theorem Wired.effect {v w : Core} {e : Event} (h : v.Wired) (hawake : v.Awake)
    (heffect : v.Effect e w) :
    w.Wired ∧ w.Awake := by
  cases heffect with
  | kept _ => exact ⟨h, hawake⟩
  | closed _ error => exact ⟨h.close error, awake_close v error⟩
  | accepted _ data sendbuffer hheld hopen hpush =>
    refine ⟨{ h with }, fun hstate hnil => ?_⟩
    exact (SendBuffer.fields_of_push hpush).1.trans (hawake hstate hnil)
  | sent _ hheld => exact h.send
  | destroyed hard hheld =>
    have hbefore : (if hard then v.close none else v.send).Wired ∧
        (if hard then v.close none else v.send).Awake := by
      cases hard with
      | false => exact h.send
      | true => exact ⟨h.close none, awake_close v none⟩
    exact ⟨{ hbefore.1 with }, hbefore.2⟩
  | resolved _ w hpending hsetup =>
    have hsingle := h.setup_single
    have hwired : Wired { v with resolves := v.resolves - 1 } := { h with
      setup_single := by
        change v.resolves - 1 + v.connects.length ≤ 1
        omega
      setup := fun _ => h.setup (by omega) }
    apply hwired.setupEffect _ hawake (h.setup_connecting (by omega)) hsetup
    change v.resolves - 1 + v.connects.length = 0
    omega
  | attempted _ index w hindex hsetup =>
    obtain ⟨hzero, hnil⟩ := h.setup_done hindex
    have hwired : Wired { v with connects := v.connects.eraseIdx index } := { h with
      setup_single := by
        rw [hnil, hzero]
        exact Nat.zero_le 1
      setup := fun _ => h.setup (by omega) }
    apply hwired.setupEffect _ hawake (h.setup_connecting (by omega)) hsetup
    rw [hnil, hzero]
    rfl
  | connected _ index hindex habort => exact (h.connect hindex habort).startAsyncSend rfl
  | connectedClosed _ index error hindex habort =>
    exact ⟨(h.connect hindex habort).close error, awake_close _ error⟩
  | sendDone index n buffers error w hindex hsend =>
    cases hsend with
    | silenced message n haborted => exact ⟨h.finish hindex, h.awake_of_aborted haborted rfl⟩
    | failed message n hrunning => exact ⟨(h.finish hindex).close _, awake_close _ _⟩
    | lost n bytes haborted hsize hgather =>
      exact ⟨{ h.finish hindex with }, h.awake_of_aborted haborted rfl⟩
    | popped n bytes sendbuffer hrunning hsize hgather hpop hdone =>
      exact ⟨{ h.finish hindex with }, fun _ _ => hdone⟩
    | resumed n bytes sendbuffer hrunning hsize hgather hpop hmore =>
      exact Wired.startAsyncSend { h.finish hindex with }
        (h.connected_of_send hindex hrunning)

theorem wired_initial (state : StateId) : (initial state).Wired where
  flag := ⟨fun hflag => by contradiction, fun hne => absurd rfl hne⟩
  single := Nat.zero_le 1
  setup_single := Nat.zero_le 1
  setup := fun hpending => absurd hpending (Nat.lt_irrefl 0)
  connecting := fun _ => rfl
  open_not_aborted := fun _ => rfl
  open_setup_not_aborted := fun _ => rfl
  aborted := fun hne => absurd rfl hne
  no_error := fun _ => rfl

theorem Initial.wired {v : Core} (h : v.Initial) : v.Wired ∧ v.Awake := by
  have hawake : (initial .connecting).Awake := fun _ _ => rfl
  cases h with
  | resolving =>
    refine ⟨?_, fun _ _ => rfl⟩
    exact { wired_initial .connecting with
      setup_single := Nat.le_refl 1
      setup := fun _ => Or.inl rfl }
  | attempted w hsetup =>
    exact (wired_initial .connecting).setupEffect rfl hawake (fun _ => rfl) hsetup
  | connected => exact (wired_initial .connected).startAsyncSend rfl
  | closed state error => exact ⟨(wired_initial state).close error, awake_close _ error⟩

end Core

namespace TcpSession

/-- The control invariant holds in every state of every run. -/
theorem wired_of_run {s t : TcpSession} {es : List Event} (hs : Created s)
    (hrun : StateMachine.run step s es = some t) : t.core.Wired ∧ t.core.Awake := by
  apply StateMachine.run_preserves (fun s => s.core.Wired ∧ s.core.Awake) _
    (core_created hs).wired hrun
  rintro r e u ⟨hwired, hawake⟩ hstep
  exact hwired.effect hawake (core_step hstep)

end TcpSession

end FaucetNetworking
