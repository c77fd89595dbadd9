import FaucetNetworking.ReadPosition
import FaucetNetworking.Tcp.ReceiveStream
import FaucetNetworking.Udp.Ownership

/-!
The objects that a script can come by. A TCP socket only fills a receive buffer that it
has cleared, and a UDP socket exposes buffers that were filled when they were new; all
else that happens to a socket leaves the read position alone.
-/
namespace FaucetNetworking

theorem Buffer.positioned_clear (b : Buffer) : b.clear.Positioned := Nat.le_refl 0

theorem Buffer.positioned_new : Buffer.new.Positioned := Nat.le_refl 0

namespace TcpSession

/-! ### What leaves the receive buffer alone -/

/-- The receive buffer is as it was. -/
def SameReceiveBuffer (s t : TcpSession) : Prop :=
  t.socket.receiveBuffer = s.socket.receiveBuffer

theorem SameReceiveBuffer.positioned {s t : TcpSession} (h : SameReceiveBuffer s t)
    (hs : s.socket.receiveBuffer.Positioned) : t.socket.receiveBuffer.Positioned := by
  rw [h]
  exact hs

theorem receiveBuffer_enterClosedState (s : TcpSession) :
    SameReceiveBuffer s (TcpSocket.enterClosedState s) := by
  unfold SameReceiveBuffer TcpSocket.enterClosedState TcpSocket.abort
  rw [receiveBuffer_enterClosed]
  cases s.socket.state <;> rfl

theorem receiveBuffer_startAsyncSend (s : TcpSession) :
    SameReceiveBuffer s (TcpConnected.startAsyncSend s) := by
  unfold TcpConnected.startAsyncSend
  split <;> rfl

theorem receiveBuffer_send (s : TcpSession) : SameReceiveBuffer s (TcpSocket.send s) := by
  unfold TcpSocket.send TcpSocket.startAsyncSend
  split
  · exact receiveBuffer_startAsyncSend _
  · rfl

theorem receiveBuffer_enter {s t : TcpSession} (h : EnterCase s t) : SameReceiveBuffer s t := by
  cases h with
  | failed t message hprepared =>
    obtain ⟨remoteIp, remotePort, localPort, noDelay, rfl⟩ := hprepared
    exact receiveBuffer_enterErrorState _ message
  | entered t hprepared =>
    obtain ⟨remoteIp, remotePort, localPort, noDelay, rfl⟩ := hprepared
    exact receiveBuffer_startAsyncSend _

theorem receiveBuffer_attempt {s t : TcpSession} {endpoints : V4FirstIterator}
    (h : AttemptCase s endpoints t) : SameReceiveBuffer s t := by
  cases h with
  | failed message => exact receiveBuffer_enterErrorState s message
  | attempted => rfl

theorem receiveBuffer_resolve {s t : TcpSession} (h : ResolveCase s t) :
    SameReceiveBuffer s t := by
  cases h with
  | aborted _ => rfl
  | failed message _ => exact receiveBuffer_enterErrorState s message
  | attempt endpoints _ _ hattempt => exact receiveBuffer_attempt hattempt

theorem receiveBuffer_connect {s t : TcpSession} (h : ConnectCase s t) :
    SameReceiveBuffer s t := by
  cases h with
  | aborted _ => rfl
  | failed message _ => exact receiveBuffer_enterErrorState s message
  | attempt endpoints _ _ hattempt => exact receiveBuffer_attempt hattempt
  | connected _ _ henter =>
    have hentered := receiveBuffer_enter henter
    exact hentered

theorem receiveBuffer_write {s t : TcpSession} {data : List UInt8}
    (h : TcpSocket.write s data = .ok t) : SameReceiveBuffer s t := by
  unfold TcpSocket.write at h
  split at h
  · split at h
    · obtain rfl := Outcome.ok.inj h
      exact receiveBuffer_enterErrorState s _
    · split at h
      · contradiction
      · contradiction
      · obtain rfl := Outcome.ok.inj h
        rfl
  · obtain rfl := Outcome.ok.inj h
    rfl

theorem receiveBuffer_handleSend {s t : TcpSession} {error : Option String} {n : ℕ}
    (h : TcpConnected.handleSend s error n = .ok t) : SameReceiveBuffer s t := by
  unfold TcpConnected.handleSend at h
  simp only at h
  split at h
  · obtain rfl := Outcome.ok.inj h
    rfl
  · split at h
    · obtain rfl := Outcome.ok.inj h
      exact receiveBuffer_enterErrorState _ _
    · split at h
      · contradiction
      · contradiction
      · split at h
        · obtain rfl := Outcome.ok.inj h
          exact receiveBuffer_startAsyncSend _
        · obtain rfl := Outcome.ok.inj h
          rfl

theorem receiveBuffer_handleReceive (s : TcpSession) (error : Option String) :
    SameReceiveBuffer s (TcpConnected.handleReceive s error) := by
  cases error with
  | none => rfl
  | some message => exact receiveBuffer_enterErrorState _ message

theorem receiveBuffer_isEof (s : TcpSession) (peek : PeekResult) :
    SameReceiveBuffer s (TcpSocket.isEof s peek).2 := by
  unfold TcpSocket.isEof
  split
  · rfl
  · have hcase := isEof_case s peek
    revert hcase
    generalize TcpConnected.isEof s peek = result
    intro hcase
    cases hcase with
    | failed message _ => exact receiveBuffer_enterErrorState _ message
    | _ => rfl
  · rfl

theorem receiveBuffer_setNoDelay (s : TcpSession) (noDelay : Bool) (error : Option String) :
    SameReceiveBuffer s (TcpSocket.setNoDelay s noDelay error).2 := by
  unfold TcpSocket.setNoDelay
  split
  · rfl
  · cases error <;> rfl
  · rfl

theorem receiveBuffer_completion {s t : TcpSession} {c : Completion} (h : c.perform s = .ok t) :
    SameReceiveBuffer s t := by
  cases c with
  | resolve result closeError =>
    obtain rfl := Outcome.ok.inj h
    have hhandled := receiveBuffer_resolve (handleResolve_case
      { s with pending.resolves := s.pending.resolves - 1 } result closeError)
    exact hhandled
  | connect index error closeError calls =>
    obtain rfl := Outcome.ok.inj h
    have hhandled := receiveBuffer_connect (handleConnect_case
      { s with pending.connects := s.pending.connects.eraseIdx index } error
      (s.pending.connects.getD index ⟨[], []⟩) closeError calls)
    exact hhandled
  | send index error n =>
    simp only [Completion.perform] at h
    split at h
    · contradiction
    · rename_i u htransfer
      obtain ⟨transferred, rfl⟩ := transfer_case htransfer
      have hhandled := receiveBuffer_handleSend h
      exact hhandled
  | receive index error =>
    obtain rfl := Outcome.ok.inj h
    have hhandled := receiveBuffer_handleReceive
      { s with pending.receives := s.pending.receives.eraseIdx index } error
    exact hhandled

theorem receiveBuffer_network (s : TcpSession) (n : NetworkEvent) :
    SameReceiveBuffer s (n.perform s) := by
  cases n with
  | arrive bytes => rfl
  | peerClose => rfl
  | asyncReadProgress index count =>
    simp only [NetworkEvent.perform]
    split <;> rfl

theorem receiveBuffer_reap (s : TcpSession) : SameReceiveBuffer s s.reap := by
  unfold reap
  split <;> rfl

/-! ### What fills it -/

theorem receiveBuffer_fetched {s t : TcpSession} {calls : ReceiveCalls}
    (h : Fetched s calls t) : SameReceiveBuffer s t := by
  cases h <;> rfl

theorem receiveBuffer_fetchFailed {s t : TcpSession} (h : FetchFailed s t) (message : String) :
    SameReceiveBuffer s (TcpSocket.enterErrorState t message) := by
  have hsame : SameReceiveBuffer s t := by
    cases h <;> rfl
  exact (receiveBuffer_enterErrorState t message).trans hsame

theorem receiveBuffer_startAsyncReceive (s : TcpSession) (ammount : ℕ) :
    SameReceiveBuffer s (TcpConnected.startAsyncReceive s ammount) := by
  unfold TcpConnected.startAsyncReceive
  split <;> rfl

/-- Delivered bytes are written to the end of the buffer. -/
theorem positioned_deliver {s t : TcpSession} {calls : ReceiveCalls}
    (h : Fetched s calls t) (hs : s.socket.receiveBuffer.Positioned) (ammount : ℕ) :
    (TcpConnected.deliver t ammount).socket.receiveBuffer.Positioned :=
  ((receiveBuffer_fetched h).positioned hs).write _

theorem positioned_receive {s : TcpSession} (hs : s.socket.receiveBuffer.Positioned)
    (ammount : ℕ) (calls : ReceiveCalls) :
    (TcpConnected.receive s ammount calls).2.socket.receiveBuffer.Positioned := by
  have hcase := receive_case s ammount calls
  revert hcase
  generalize TcpConnected.receive s ammount calls = result
  intro hcase
  cases hcase with
  | busy _ => exact hs
  | failed t message _ hfailed => exact (receiveBuffer_fetchFailed hfailed message).positioned hs
  | served t _ hfetched _ => exact positioned_deliver hfetched hs ammount
  | started t _ hfetched _ =>
    exact (receiveBuffer_startAsyncReceive t _).positioned
      ((receiveBuffer_fetched hfetched).positioned hs)

theorem positioned_receiveAvailable {s : TcpSession} (hs : s.socket.receiveBuffer.Positioned)
    (calls : ReceiveCalls) :
    (TcpConnected.receiveAvailable s calls).socket.receiveBuffer.Positioned := by
  have hcase := receiveAvailable_case s calls
  revert hcase
  generalize TcpConnected.receiveAvailable s calls = result
  intro hcase
  cases hcase with
  | busy _ => exact hs
  | failed t message _ hfailed => exact (receiveBuffer_fetchFailed hfailed message).positioned hs
  | served t _ hfetched => exact positioned_deliver hfetched hs _

theorem positioned_clearReceiveBuffer (s : TcpSession) :
    (TcpSocket.clearReceiveBuffer s).socket.receiveBuffer.Positioned :=
  Buffer.positioned_clear s.socket.receiveBuffer

/-! ### Runs -/

theorem positioned_call {s t : TcpSession} {c : Call}
    (hs : s.socket.receiveBuffer.Positioned) (h : c.perform s = .ok t) :
    t.socket.receiveBuffer.Positioned := by
  cases c with
  | write data => exact (receiveBuffer_write h).positioned hs
  | send =>
    obtain rfl := Outcome.ok.inj h
    exact (receiveBuffer_send s).positioned hs
  | receive ammount calls =>
    obtain rfl := Outcome.ok.inj h
    have hclear := positioned_clearReceiveBuffer s
    rcases tcpSocket_receive_cases s ammount calls with ⟨-, heq⟩ | heq
    · rw [heq]
      exact positioned_receive hclear ammount calls
    · rw [heq]
      exact hclear
  | receiveAvailable calls =>
    obtain rfl := Outcome.ok.inj h
    have hclear := positioned_clearReceiveBuffer s
    rcases tcpSocket_receiveAvailable_cases s calls with ⟨-, heq⟩ | heq
    · rw [heq]
      exact positioned_receiveAvailable hclear calls
    · rw [heq]
      exact hclear
  | isEof peek =>
    obtain rfl := Outcome.ok.inj h
    exact (receiveBuffer_isEof s peek).positioned hs
  | setNoDelay noDelay error =>
    obtain rfl := Outcome.ok.inj h
    exact (receiveBuffer_setNoDelay s noDelay error).positioned hs
  | setSendbufferLimit maxSize =>
    obtain rfl := Outcome.ok.inj h
    exact hs
  | read size =>
    obtain rfl := Outcome.ok.inj h
    exact hs.advance size
  | setReadpos pos =>
    obtain rfl := Outcome.ok.inj h
    exact Buffer.positioned_setReadpos _ pos
  | disconnectAbortive =>
    obtain rfl := Outcome.ok.inj h
    exact (receiveBuffer_enterClosedState s).positioned hs
  | destroySocket hard =>
    obtain rfl := Outcome.ok.inj h
    cases hard with
    | false => exact (receiveBuffer_send s).positioned hs
    | true => exact (receiveBuffer_enterClosedState s).positioned hs

theorem positioned_step {s t : TcpSession} {e : Event}
    (hs : s.socket.receiveBuffer.Positioned) (h : step s e = some t) :
    t.socket.receiveBuffer.Positioned := by
  obtain ⟨-, u, hperform, rfl⟩ := (step_eq_some_iff s t e).mp h
  apply (receiveBuffer_reap u).positioned
  cases e with
  | call c => exact positioned_call hs hperform
  | completion c => exact (receiveBuffer_completion hperform).positioned hs
  | network n =>
    obtain rfl := Outcome.ok.inj hperform
    exact (receiveBuffer_network s n).positioned hs

theorem positioned_create (asioSocket : AsioSocket) (state : StateId) :
    (TcpSocket.create asioSocket state).socket.receiveBuffer.Positioned :=
  Buffer.positioned_new

theorem positioned_created {s : TcpSession} (h : Created s) :
    s.socket.receiveBuffer.Positioned := by
  cases h with
  | connectTo literal closeError =>
    have hcreate := positioned_create TcpSocket.newAsioSocket .connecting
    cases literal with
    | none => exact hcreate
    | some endpoint =>
      exact (receiveBuffer_resolve (handleResolve_case _ (.ok [endpoint]) closeError)).positioned
        hcreate
  | error message => exact positioned_create TcpSocket.newAsioSocket .closed
  | fromConnectedSocket connectedSocket calls =>
    exact (receiveBuffer_enter (enter_case _ TcpSocket.DEFAULT_TCP_NODELAY calls)).positioned
      (positioned_create connectedSocket .connected)

theorem positioned_of_run {s t : TcpSession} {es : List Event} (hs : Created s)
    (hrun : StateMachine.run step s es = some t) : t.socket.receiveBuffer.Positioned :=
  StateMachine.run_preserves (fun s : TcpSession => s.socket.receiveBuffer.Positioned)
    (fun _ _ _ => positioned_step) (positioned_created hs) hrun

end TcpSession

namespace UdpSession

/-- The read position of every buffer on the heap is in it. -/
def Positioned (s : UdpSession) : Prop := ∀ b ∈ s.buffers, b.Positioned

variable {s : UdpSession}

theorem Positioned.buffer (h : s.Positioned) (place : ℕ) : (s.buffer place).Positioned := by
  unfold UdpSession.buffer
  rw [List.getD_eq_getElem?_getD]
  cases hplace : s.buffers[place]? with
  | none => exact Buffer.positioned_new
  | some b => exact h b (List.mem_of_getElem? hplace)

theorem Positioned.setBuffer (h : s.Positioned) (place : ℕ) {b : Buffer} (hb : b.Positioned) :
    (s.setBuffer place b).Positioned := by
  intro c hc
  rcases List.mem_or_eq_of_mem_set hc with hold | rfl
  · exact h c hold
  · exact hb

theorem Positioned.allocate (h : s.Positioned) : s.allocate.Positioned := by
  intro b hb
  rcases List.mem_append.mp hb with hold | hnew
  · exact h b hold
  · rw [List.mem_singleton.mp hnew]
    exact Buffer.positioned_new

theorem Kept.positioned {t : UdpSession} (h : Kept s t) (hs : s.Positioned) : t.Positioned := by
  unfold Positioned
  rw [h.buffers]
  exact hs

theorem Positioned.flush (h : s.Positioned) (P : Platform) : (s.flush P).Positioned := by
  unfold UdpSession.flush
  cases s.socket.asyncSendInProgress with
  | true => exact h.allocate
  | false => exact ((asyncSend_pumped P s).kept.positioned h).allocate

theorem Positioned.broadcast (h : s.Positioned) (P : Platform) (addrs : List String)
    (port : ℕ) : (s.broadcast P addrs port).2.Positioned := by
  have henqueued : (s.enqueueAll P port addrs).2.Positioned := by
    obtain ⟨r, hqueue⟩ := (s.enqueueAll_offers P port addrs).queue
    rw [hqueue]
    exact h
  exact henqueued.flush P

theorem Positioned.close (h : s.Positioned) : s.close.Positioned := by
  have hcleared : UdpSession.Positioned { s with
      socket.sendqueue := s.socket.sendqueue.clear
      socket.receivequeue := s.socket.receivequeue.clear } := h
  exact (hcleared.setBuffer _ (Buffer.positioned_clear _)).setBuffer _
    (Buffer.positioned_clear _)

theorem Positioned.receive (h : s.Positioned) : s.receive.2.Positioned := by
  unfold UdpSession.receive
  cases s.socket.receivequeue.queue.peek with
  | none => exact h.setBuffer _ (Buffer.positioned_clear _)
  | some item => exact h

theorem Positioned.storeDatagram (h : s.Positioned) (P : Platform) (bytes : List UInt8)
    (endpoint : Endpoint) : (s.storeDatagram P bytes endpoint).Positioned :=
  h.allocate.setBuffer _ (Buffer.positioned_new.write bytes)

theorem Positioned.handleReceive (h : s.Positioned) (P : Platform) (err : Option String)
    (bytesTransferred : ℕ) (endpoint : Endpoint) (protocol : Protocol)
    (recvbuffer : List UInt8) :
    (s.handleReceive P err bytesTransferred endpoint protocol recvbuffer).Positioned := by
  unfold UdpSession.handleReceive
  cases err with
  | none =>
    have hstored := h.storeDatagram P (recvbuffer.take bytesTransferred) endpoint
    simp only
    split <;> exact hstored
  | some message =>
    simp only
    split <;> exact h

theorem Positioned.call (h : s.Positioned) (P : Platform) (c : UdpCall) :
    (c.perform P s).Positioned := by
  cases c with
  | write data => exact h.setBuffer _ ((h.buffer _).write data)
  | send host port => exact h.broadcast P [host] port
  | broadcast addrs port => exact h.broadcast P addrs port
  | setSendbufferLimit maxSize => exact h
  | close => exact h.close
  | receive => exact h.receive
  | read size => exact h.setBuffer _ ((h.buffer _).advance size)
  | readString size => exact h.setBuffer _ ((h.buffer _).advance size)
  | setReadpos pos => exact h.setBuffer _ (Buffer.positioned_setReadpos _ pos)

theorem Positioned.completion (h : s.Positioned) (P : Platform) (c : UdpCompletion) :
    (c.perform P s).Positioned := by
  cases c with
  | resolve index error results =>
    have hkept := (kept_resolved s index results).trans
      (perform_resolve_case P s index error results).kept
    exact hkept.positioned h
  | send index error =>
    have hkept := (kept_sent s index error).trans (perform_send_case P s index error).kept
    exact hkept.positioned h
  | receive index error bytes endpoint =>
    have hrest : UdpSession.Positioned
        { s with pending.receives := s.pending.receives.eraseIdx index } := h
    exact hrest.handleReceive P error bytes.length endpoint _ _

theorem Positioned.step {t : UdpSession} (h : s.Positioned) {P : Platform} {e : UdpEvent}
    (hstep : step P s e = some t) : t.Positioned := by
  obtain ⟨-, rfl⟩ := (step_eq_some_iff P s t e).mp hstep
  cases e with
  | call c => exact h.call P c
  | completion c => exact h.completion P c

theorem positioned_bind (ipv4Open ipv6Open : Bool) : (bind ipv4Open ipv6Open).Positioned := by
  have hcreate : (create ipv4Open ipv6Open).Positioned := by
    intro b hb
    have hnew : b = .new := by simpa [create] using hb
    rw [hnew]
    exact Buffer.positioned_new
  cases ipv4Open <;> cases ipv6Open <;> exact hcreate

/-- The exposed buffer is on the heap, and its read position in it. -/
theorem positioned_of_run {t : UdpSession} {P : Platform} {ipv4Open ipv6Open : Bool}
    {es : List UdpEvent} (hrun : StateMachine.run (step P) (bind ipv4Open ipv6Open) es = some t) :
    t.Owned ∧ t.Positioned := by
  apply StateMachine.run_preserves (fun s : UdpSession => s.Owned ∧ s.Positioned) _ _ hrun
  · rintro u e v ⟨howned, hpos⟩ hstep
    exact ⟨howned.step hstep, hpos.step hstep⟩
  · exact ⟨owned_bind ipv4Open ipv6Open, positioned_bind ipv4Open ipv6Open⟩

end UdpSession

/-! ### The handles of a script -/

/-- An object after any operations on it. -/
inductive ReadWritable.Object.Reached (P : Platform) : ReadWritable.Object → Prop where
  | buffer (limits : StringLimits) (operations : List BufferOperation) (out : List UInt8)
      (b : Buffer) : StateMachine.run (Buffer.step limits) ([], .new) operations = some (out, b) →
      Reached P (.buffer b)
  | tcp (s t : TcpSession) (es : List Event) : TcpSession.Created s →
      StateMachine.run TcpSession.step s es = some t → Reached P (.socket (.tcp t))
  | udp (ipv4Open ipv6Open : Bool) (t : UdpSession) (es : List UdpEvent) :
      StateMachine.run (UdpSession.step P) (UdpSession.bind ipv4Open ipv6Open) es = some t →
      Reached P (.socket (.udp t))

theorem ReadWritable.Object.Reached.sound {P : Platform} {o : ReadWritable.Object}
    (h : o.Reached P) : o.Sound := by
  cases h with
  | buffer limits operations out b hrun => exact Buffer.positioned_of_run hrun
  | tcp s t es hs hrun => exact TcpSession.positioned_of_run hs hrun
  | udp ipv4Open ipv6Open t es hrun =>
    obtain ⟨howned, hpos⟩ := UdpSession.positioned_of_run hrun
    exact ⟨howned.owned_lt _ (List.mem_cons_of_mem _ List.mem_cons_self), hpos.buffer _⟩

/-- Every handle of a script leads to an object that can be read from. -/
theorem Handles.sound_of_reached {P : Platform} {handles : Handles}
    (h : ∀ handle o, handles.readWritable handle = some o → o.Reached P) : handles.Sound :=
  fun handle o ho => (h handle o ho).sound

end FaucetNetworking
