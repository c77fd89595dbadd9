import FaucetNetworking.Cursor
import FaucetNetworking.ReachedObjects
import FaucetNetworking.Tcp.Link

/-!
What a script writes to a socket and reads from it. Only a write adds to the written
stream; it adds all of its data, unless the socket is closed, or becomes closed because
of the limit of the send buffer. So the data of all writes, one after the other, begins
with what has been accepted, and is that as long as the socket is not closed. Only the
calls for reading change the receive buffer, whatever happens in between.
-/
namespace FaucetNetworking

namespace Core

variable {v w : Core}

theorem accepted_startAsyncSend (v : Core) : v.startAsyncSend.accepted = v.accepted := by
  unfold startAsyncSend
  split <;> rfl

theorem accepted_send (v : Core) : v.send.accepted = v.accepted := by
  unfold send
  simp only
  split
  · exact accepted_startAsyncSend _
  · rfl

theorem Initial.accepted (h : v.Initial) : v.accepted = [] := by
  cases h with
  | resolving => rfl
  | attempted w hsetup => exact hsetup.sameMarks.accepted
  | connected => exact accepted_startAsyncSend _
  | closed state error => rfl

theorem KeptOrClosed.accepted (h : v.KeptOrClosed w) : w.accepted = v.accepted := by
  rcases h with rfl | ⟨error, rfl⟩ <;> rfl

end Core

namespace TcpSession

variable {s t : TcpSession}

theorem accepted_eq_of_core {v : Core} (h : t.core = v) (hv : v.accepted = s.history.accepted) :
    t.history.accepted = s.history.accepted := (congrArg Core.accepted h).trans hv

/-- The data is accepted, or the socket is closed afterwards. -/
theorem accepted_write {data : List UInt8} (h : TcpSocket.write s data = .ok t) :
    t.history.accepted = s.history.accepted ++ data ∧ s.socket.state ≠ .closed ∨
      t.history.accepted = s.history.accepted ∧ t.socket.state = .closed := by
  unfold TcpSocket.write at h
  split at h
  · rename_i hallowed
    have hopen : s.socket.state ≠ .closed := by
      intro hclosed
      unfold TcpSocket.allowWrite at hallowed
      rw [hclosed] at hallowed
      contradiction
    split at h
    · obtain rfl := Outcome.ok.inj h
      right
      exact ⟨accepted_eq_of_core (core_enterErrorState s _) rfl, state_enterErrorState s _⟩
    · split at h
      · contradiction
      · contradiction
      · obtain rfl := Outcome.ok.inj h
        exact Or.inl ⟨rfl, hopen⟩
  · rename_i hrefused
    obtain rfl := Outcome.ok.inj h
    right
    refine ⟨rfl, ?_⟩
    unfold TcpSocket.allowWrite at hrefused
    cases hstate : s.socket.state with
    | closed => rfl
    | connecting | connected =>
      rw [hstate] at hrefused
      contradiction

theorem accepted_call {c : Call} (hc : ∀ data, c ≠ .write data) (henabled : c.Enabled s)
    (h : c.perform s = .ok t) : t.history.accepted = s.history.accepted := by
  have hkept : ∀ {u : TcpSession}, s.core.KeptOrClosed u.core →
      u.history.accepted = s.history.accepted := fun hkept => hkept.accepted
  cases c with
  | write data => exact absurd rfl (hc data)
  | send =>
    obtain rfl := Outcome.ok.inj h
    exact accepted_eq_of_core (core_send s) (Core.accepted_send _)
  | receive ammount calls =>
    obtain rfl := Outcome.ok.inj h
    exact hkept (core_receive s ammount calls)
  | receiveAvailable calls =>
    obtain rfl := Outcome.ok.inj h
    exact hkept (core_receiveAvailable s calls)
  | isEof peek =>
    obtain rfl := Outcome.ok.inj h
    exact hkept (core_isEof s peek)
  | setNoDelay noDelay error =>
    obtain rfl := Outcome.ok.inj h
    exact accepted_eq_of_core (core_setNoDelay s noDelay error) rfl
  | setSendbufferLimit maxSize | read size | setReadpos pos =>
    obtain rfl := Outcome.ok.inj h
    rfl
  | disconnectAbortive =>
    obtain rfl := Outcome.ok.inj h
    exact hkept (Or.inr ⟨none, core_enterClosedState s⟩)
  | destroySocket hard =>
    obtain rfl := Outcome.ok.inj h
    cases hard with
    | false =>
      have hsend := accepted_eq_of_core (core_send s) (Core.accepted_send _)
      exact hsend
    | true =>
      have hclosed := hkept (Or.inr ⟨none, core_enterClosedState s⟩)
      exact hclosed

theorem accepted_completion {c : Completion} (henabled : c.Enabled s) (h : c.perform s = .ok t) :
    t.history.accepted = s.history.accepted := by
  cases c with
  | resolve result closeError =>
    obtain rfl := Outcome.ok.inj h
    exact (ResolveCase.core (handleResolve_case
      { s with pending.resolves := s.pending.resolves - 1 } result closeError)).sameMarks.accepted
  | connect index error closeError calls =>
    obtain rfl := Outcome.ok.inj h
    rcases ConnectCase.core (handleConnect_case
        { s with pending.connects := s.pending.connects.eraseIdx index } error
        (s.pending.connects.getD index ⟨[], []⟩) closeError calls) with
      hsetup | ⟨-, ⟨error, heq⟩ | heq⟩
    · exact hsetup.sameMarks.accepted
    · exact accepted_eq_of_core heq rfl
    · exact accepted_eq_of_core heq (Core.accepted_startAsyncSend _)
  | send index error n =>
    obtain ⟨buffers, -, heffect⟩ := sendEffect_sendDone henabled h
    exact heffect.sameMarks.accepted
  | receive index error =>
    obtain rfl := Outcome.ok.inj h
    exact (core_handleReceive
      { s with pending.receives := s.pending.receives.eraseIdx index } error).accepted

/-- Only a write adds to the written stream. -/
theorem accepted_step {e : Event} (he : ∀ data, e ≠ .call (.write data))
    (h : step s e = some t) : t.history.accepted = s.history.accepted := by
  obtain ⟨henabled, u, hperform, rfl⟩ := (step_eq_some_iff s t e).mp h
  rw [show u.reap.history.accepted = u.history.accepted from
    congrArg Core.accepted (core_reap u)]
  cases e with
  | call c =>
    exact accepted_call (fun data heq => he data (congrArg Event.call heq)) henabled hperform
  | completion c => exact accepted_completion henabled hperform
  | network n =>
    obtain rfl := Outcome.ok.inj hperform
    exact congrArg Core.accepted (core_network s n)

theorem accepted_step_write {data : List UInt8} (h : step s (.call (.write data)) = some t) :
    t.history.accepted = s.history.accepted ++ data ∧ s.socket.state ≠ .closed ∨
      t.history.accepted = s.history.accepted ∧ t.socket.state = .closed := by
  obtain ⟨-, u, hperform, rfl⟩ := (step_eq_some_iff s t _).mp h
  have hcore := core_reap u
  have haccepted : u.reap.history.accepted = u.history.accepted := congrArg Core.accepted hcore
  have hstate : u.reap.socket.state = u.socket.state := congrArg Core.state hcore
  rw [haccepted, hstate]
  exact accepted_write hperform

/-- The calls of a script write the given bytes in this order. -/
def written : Event → List UInt8
  | .call (.write data) => data
  | _ => []

/-- All that a script has written; the socket has accepted it as long as it is open. -/
structure Takes (s : TcpSession) (stream : List UInt8) : Prop where
  front : s.history.accepted <+: stream
  all : s.socket.state ≠ .closed → s.history.accepted = stream

theorem takes_created (h : Created s) : s.Takes [] := by
  have hnone : s.history.accepted = [] := (core_created h).accepted
  exact ⟨hnone ▸ List.prefix_refl _, fun _ => hnone⟩

/-- Every step writes what its event says. -/
theorem Takes.step {stream : List UInt8} {e : Event} (h : s.Takes stream) (hwired : s.core.Wired)
    (hstep : step s e = some t) : t.Takes (stream ++ written e) := by
  by_cases hwrite : ∃ data, e = .call (.write data)
  · obtain ⟨data, rfl⟩ := hwrite
    rcases accepted_step_write hstep with ⟨haccepted, hopen⟩ | ⟨haccepted, hclosed⟩
    · have hall : t.history.accepted = stream ++ data := by rw [haccepted, h.all hopen]
      exact ⟨hall ▸ List.prefix_refl _, fun _ => hall⟩
    · refine ⟨?_, fun hopen => absurd hclosed hopen⟩
      rw [haccepted]
      exact h.front.trans (List.prefix_append _ _)
  · have haccepted := accepted_step (fun data heq => hwrite ⟨data, heq⟩) hstep
    have hnothing : written e = [] := by
      unfold written
      split
      · rename_i data
        exact absurd ⟨data, rfl⟩ hwrite
      · rfl
    rw [hnothing, List.append_nil]
    refine ⟨haccepted ▸ h.front, fun hopen => ?_⟩
    rw [haccepted]
    exact h.all fun hclosed => hopen ((follows_step hwired hstep).closed hclosed)

/-! ### The receive buffer -/

end TcpSession

/-- The calls that change the receive buffer. -/
def Call.Reads : Call → Prop
  | .receive _ _ | .receiveAvailable _ | .read _ | .setReadpos _ => True
  | _ => False

def Event.Reads : Event → Prop
  | .call c => c.Reads
  | _ => False

namespace TcpSession

variable {s t : TcpSession}

theorem receiveBuffer_call {c : Call} (hc : ¬c.Reads) (h : c.perform s = .ok t) :
    t.socket.receiveBuffer = s.socket.receiveBuffer := by
  cases c with
  | write data => exact receiveBuffer_write h
  | send =>
    obtain rfl := Outcome.ok.inj h
    exact receiveBuffer_send s
  | receive ammount calls | receiveAvailable calls | read size | setReadpos pos =>
    exact absurd trivial hc
  | isEof peek =>
    obtain rfl := Outcome.ok.inj h
    exact receiveBuffer_isEof s peek
  | setNoDelay noDelay error =>
    obtain rfl := Outcome.ok.inj h
    exact receiveBuffer_setNoDelay s noDelay error
  | setSendbufferLimit maxSize =>
    obtain rfl := Outcome.ok.inj h
    rfl
  | disconnectAbortive =>
    obtain rfl := Outcome.ok.inj h
    exact receiveBuffer_enterClosedState s
  | destroySocket hard =>
    obtain rfl := Outcome.ok.inj h
    cases hard with
    | false => exact receiveBuffer_send s
    | true => exact receiveBuffer_enterClosedState s

/-- Nothing else changes what a script can read. -/
theorem receiveBuffer_step {e : Event} (he : ¬e.Reads) (h : step s e = some t) :
    t.socket.receiveBuffer = s.socket.receiveBuffer := by
  obtain ⟨-, u, hperform, rfl⟩ := (step_eq_some_iff s t e).mp h
  rw [receiveBuffer_reap]
  cases e with
  | call c => exact receiveBuffer_call he hperform
  | completion c => exact receiveBuffer_completion hperform
  | network n =>
    obtain rfl := Outcome.ok.inj hperform
    exact receiveBuffer_network s n

/-! ### Both directions -/

end TcpSession

/-- Whether a script has been told that nothing more will come, because the stream was at
its end or because the socket was closed. -/
inductive Ending where
  | ahead
  | reached
  | closed
  deriving DecidableEq

/-- What a script has written to a socket, what it has received, and what of this it can
still read. -/
structure Exchange where
  written : List UInt8
  received : List UInt8
  unread : List UInt8
  ending : Ending

namespace Exchange

def new : Exchange := ⟨[], [], [], .ahead⟩

def endingAfter (g : Exchange) (s : TcpSession) (e : Event) (t : TcpSession) : Ending :=
  match e with
  | .call (.isEof peek) =>
    if (TcpSocket.isEof s peek).1 then
      match t.socket.state with
      | .closed => .closed
      | _ => .reached
    else g.ending
  | _ => g.ending

/-- The exchange after a step of the session. -/
def after (g : Exchange) (s : TcpSession) (e : Event) (t : TcpSession) : Exchange where
  written := g.written ++ TcpSession.written e
  received := g.received ++ e.deliveredBytes t
  unread := t.socket.receiveBuffer.unread
  ending := g.endingAfter s e t

end Exchange

namespace TcpSession

variable {s t : TcpSession}

/-- The script has been given all that will ever arrive. -/
structure EndReached (s : TcpSession) : Prop where
  peerClosed : s.socket.socket.peerClosed = true
  delivered : s.history.delivered = s.history.arrived.map .received

/-- The session of a socket with which a script has exchanged these bytes. -/
structure Exchanges (s : TcpSession) (g : Exchange) : Prop where
  takes : s.Takes g.written
  flow : s.receiveView.Flow
  received : s.history.delivered = g.received.map .received
  positioned : s.socket.receiveBuffer.Positioned
  unread : s.socket.receiveBuffer.unread = g.unread
  reached : g.ending = .reached → s.EndReached
  closed : g.ending = .closed → s.socket.state = .closed

theorem receiveBuffer_created (h : Created s) : s.socket.receiveBuffer = .new := by
  cases h with
  | connectTo literal closeError =>
    cases literal with
    | none => rfl
    | some endpoint =>
      exact receiveBuffer_resolve (handleResolve_case _ (.ok [endpoint]) closeError)
  | error message => rfl
  | fromConnectedSocket connectedSocket calls =>
    exact receiveBuffer_enter (enter_case _ TcpSocket.DEFAULT_TCP_NODELAY calls)

theorem exchanges_created (h : Created s) : s.Exchanges .new := by
  obtain ⟨hflow, hdelivered⟩ := delivers_created h
  refine ⟨takes_created h, hflow, hdelivered, positioned_created h, ?_, ?_, ?_⟩
  · rw [receiveBuffer_created h]
    rfl
  · intro hreached
    contradiction
  · intro hclosed
    contradiction

/-- After the peer has closed its direction, nothing arrives. -/
theorem arrived_of_peerClosed {e : Event} (hs : s.Sane)
    (hpeer : s.socket.socket.peerClosed = true) (h : step s e = some t) :
    t.socket.socket.peerClosed = true ∧ t.history.arrived = s.history.arrived := by
  by_cases hlocal : e.IsLocal
  · obtain ⟨harrived, hsame⟩ := arrived_of_step hlocal hs.wired hs.attached h
    exact ⟨hsame.trans hpeer, harrived⟩
  · cases e with
    | call c | completion c => exact absurd trivial hlocal
    | network n =>
      cases n with
      | asyncReadProgress index count => exact absurd trivial hlocal
      | arrive bytes =>
        obtain ⟨henabled, -⟩ := (step_eq_some_iff s t _).mp h
        have hopen : s.socket.socket.peerClosed = false := henabled
        rw [hpeer] at hopen
        contradiction
      | peerClose =>
        refine ⟨?_, step_peerClose h⟩
        obtain ⟨-, u, hperform, rfl⟩ := (step_eq_some_iff s t _).mp h
        obtain rfl := Outcome.ok.inj hperform
        rcases reap_cases (NetworkEvent.perform s .peerClose) with heq | ⟨heq, -⟩
        · rw [heq]
          rfl
        · rw [heq]
          rfl

/-- The end of the stream stays the end. -/
theorem EndReached.step {e : Event} (h : s.EndReached) (hs : s.Sane) (hflow : s.receiveView.Flow)
    (hstep : TcpSession.step s e = some t) : t.EndReached := by
  obtain ⟨hpeer, harrived⟩ := arrived_of_peerClosed hs h.peerClosed hstep
  refine ⟨hpeer, ?_⟩
  have hdelivers := delivers_step hs.wired hflow hstep
  have hstream : t.history.delivered =
      (t.history.arrived.take t.history.delivered.length).map .received := hdelivers.flow.stream
  have hlength : t.history.arrived.length ≤ t.history.delivered.length := by
    rw [hdelivers.delivered, h.delivered, harrived, List.length_append, List.length_map]
    exact Nat.le_add_right _ _
  rw [hstream, List.take_of_length_le hlength]

/-- When tcp_eof tells the script that nothing more will come, either the stream is at its
end or the socket is closed. -/
theorem ending_isEof {peek : PeekResult} (hs : s.Sane) (hflow : s.receiveView.Flow)
    (hstep : step s (.call (.isEof peek)) = some t) (heof : (TcpSocket.isEof s peek).1 = true)
    (hopen : t.socket.state ≠ .closed) : t.EndReached := by
  have hreached : s.EndReached := by
    obtain ⟨henabled, u, hperform, rfl⟩ := (step_eq_some_iff s t _).mp hstep
    obtain rfl := Outcome.ok.inj hperform
    have hstate := congrArg Core.state (core_reap (TcpSocket.isEof s peek).2)
    change _ = (TcpSocket.isEof s peek).2.socket.state at hstate
    have hconnected : (TcpSocket.isEof s peek).2.socket.state = .connected := by
      cases hbefore : s.socket.state with
      | connecting =>
        unfold TcpSocket.isEof at heof
        rw [hbefore] at heof
        contradiction
      | closed =>
        have hclosed : (TcpSocket.isEof s peek).2.socket.state = .closed := by
          unfold TcpSocket.isEof
          rw [hbefore]
          exact hbefore
        exact absurd (hstate.trans hclosed) hopen
      | connected =>
        have hrank := (hs.wired.advances (core_step hstep)).state
        change s.socket.state.rank ≤ _ at hrank
        rw [hbefore] at hrank
        cases hafter : (TcpSocket.isEof s peek).2.socket.state with
        | connecting =>
          change _ ≤ (reap (TcpSocket.isEof s peek).2).socket.state.rank at hrank
          have hstate' : (reap (TcpSocket.isEof s peek).2).socket.state = .connecting :=
            hstate.trans hafter
          rw [hstate'] at hrank
          exact absurd hrank (by decide)
        | connected => rfl
        | closed => exact absurd (hstate.trans hafter) hopen
    obtain ⟨hdelivered, hpeer⟩ := isEof_drained hflow henabled.2 heof hconnected
    exact ⟨hpeer, hdelivered⟩
  exact hreached.step hs hflow hstep

theorem Exchanges.step {g : Exchange} {e : Event} (h : s.Exchanges g) (hs : s.Sane)
    (hstep : TcpSession.step s e = some t) : t.Exchanges (g.after s e t) := by
  have hdelivers := delivers_step hs.wired h.flow hstep
  have hclosed := (follows_step hs.wired hstep).closed
  refine ⟨h.takes.step hs.wired hstep, hdelivers.flow, ?_, positioned_step h.positioned hstep,
    rfl, ?_, ?_⟩
  · rw [hdelivers.delivered, h.received]
    exact List.map_append.symm
  · intro hreached
    change g.endingAfter s e t = .reached at hreached
    unfold Exchange.endingAfter at hreached
    split at hreached
    · split at hreached
      · rename_i heof
        apply ending_isEof hs h.flow hstep heof
        intro hstate
        rw [hstate] at hreached
        contradiction
      · exact (h.reached hreached).step hs h.flow hstep
    · exact (h.reached hreached).step hs h.flow hstep
  · intro hending
    change g.endingAfter s e t = .closed at hending
    unfold Exchange.endingAfter at hending
    split at hending
    · split at hending
      · split at hending
        · assumption
        · contradiction
      · exact hclosed (h.closed hending)
    · exact hclosed (h.closed hending)

/-- An event that is no call of the script exchanges nothing. -/
theorem Exchanges.step_of_not_call {g : Exchange} {e : Event} (h : s.Exchanges g) (hs : s.Sane)
    (he : ∀ c, e ≠ .call c) (hstep : TcpSession.step s e = some t) : t.Exchanges g := by
  have hafter := h.step hs hstep
  have hsame : g.after s e t = g := by
    cases e with
    | call c => exact absurd rfl (he c)
    | completion c | network n =>
      unfold Exchange.after
      rw [receiveBuffer_step id hstep, h.unread]
      simp only [written, Event.deliveredBytes, List.append_nil, Exchange.endingAfter]
  rwa [hsame] at hafter

end TcpSession

end FaucetNetworking
