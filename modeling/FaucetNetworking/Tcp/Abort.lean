import FaucetNetworking.Tcp.Lifecycle

/-!
What an abortive disconnect silences. The handlers of a resolve, a connect and a
send look at the abort flag of their state object; the handler of a read does
not, so a read that fails after the abort gives the closed socket an error.
-/
namespace FaucetNetworking

/-- A socket but for what belongs to the operations in progress: their two flags,
and the bytes that a read moves from the connection to its buffer. -/
def TcpSocket.visible (socket : TcpSocket) : TcpSocket :=
  { socket with
    socket.inbox := []
    socket.peerClosed := false
    tcpConnected.asyncSendInProgress := false
    tcpConnected.asyncReceiveInProgress := false
    tcpConnected.partialReceiveBuffer := [] }

/-- The two calls that disconnect abortively. -/
def Call.Aborts : Call → Prop
  | .disconnectAbortive => True
  | .destroySocket hard => hard = true
  | _ => False

/-- An event that is not a call: a handler, or something in the network. -/
def Event.Late : Event → Prop
  | .call _ => False
  | _ => True

namespace TcpSession

/-- Whatever handlers still come, in whichever order and with whatever result,
the socket stays as it is. -/
def Silenced (s : TcpSession) : Prop :=
  ∀ es t, (∀ e ∈ es, e.Late) → StateMachine.run step s es = some t →
    t.socket.visible = s.socket.visible

/-- What an abort leaves behind. -/
structure Aborted (s : TcpSession) : Prop where
  wired : s.core.Wired
  awake : s.core.Awake
  closed : s.socket.state = .closed
  isOpen : s.socket.socket.isOpen = false
  quiet_read : s.pending.receives = [] ∨ s.socket.tcpClosed.hasError = true

variable {s t : TcpSession}

theorem isOpen_enterClosed (s : TcpSession) :
    (TcpClosed.enterClosed s).socket.socket.isOpen = false := by
  unfold TcpClosed.enterClosed
  split
  · rfl
  · rename_i hopen
    exact Bool.not_eq_true _ ▸ hopen

theorem visible_reap (hopen : s.socket.socket.isOpen = false) :
    s.reap.socket.visible = s.socket.visible := by
  unfold reap
  split
  · simp only [TcpSocket.visible, hopen]
  · rfl

/-- A socket that is closed with an error is left alone by another error. -/
theorem enterErrorState_of_error (hclosed : s.socket.state = .closed)
    (hopen : s.socket.socket.isOpen = false) (herror : s.socket.tcpClosed.hasError = true)
    (message : String) : TcpSocket.enterErrorState s message = s := by
  obtain ⟨⟨⟨isOpen, _, _, _⟩, _, _, ⟨hasError, _⟩, state, _, _, _, _, _, _⟩, _, _, _⟩ := s
  simp only at hclosed hopen herror
  subst hclosed hopen herror
  rfl

theorem visible_handleReceive (hclosed : s.socket.state = .closed)
    (hopen : s.socket.socket.isOpen = false) (herror : s.socket.tcpClosed.hasError = true)
    (error : Option String) :
    (TcpConnected.handleReceive s error).socket.visible = s.socket.visible := by
  cases error with
  | none => rfl
  | some message =>
    change (TcpSocket.enterErrorState
      { s with socket.tcpConnected.asyncReceiveInProgress := false } message).socket.visible = _
    rw [enterErrorState_of_error]
    · rfl
    · exact hclosed
    · exact hopen
    · exact herror

theorem visible_completion {c : Completion} (h : s.Aborted) (henabled : c.Enabled s)
    (hperform : c.perform s = .ok t) : t.socket.visible = s.socket.visible ∧
      (s.pending.receives = [] → t.pending.receives = []) := by
  cases c with
  | resolve result closeError =>
    rw [perform_resolve_of_closed h.wired h.closed henabled] at hperform
    obtain rfl := Outcome.ok.inj hperform
    exact ⟨rfl, id⟩
  | connect index error closeError calls =>
    rw [perform_connect_of_closed h.wired h.closed henabled] at hperform
    obtain rfl := Outcome.ok.inj hperform
    exact ⟨rfl, id⟩
  | send index error n =>
    obtain ⟨transferred, rfl⟩ := perform_send_of_closed h.wired h.closed henabled hperform
    exact ⟨rfl, id⟩
  | receive index error =>
    obtain rfl := Outcome.ok.inj hperform
    rcases h.quiet_read with hnone | herror
    · simp only [Completion.Enabled, hnone, List.getElem?_nil] at henabled
    · have hvisible := visible_handleReceive
        (s := { s with pending.receives := s.pending.receives.eraseIdx index })
        h.closed h.isOpen herror error
      refine ⟨hvisible, fun hnone => ?_⟩
      simp only [Completion.Enabled, hnone, List.getElem?_nil] at henabled

theorem visible_network (s : TcpSession) (n : NetworkEvent) :
    (n.perform s).socket.visible = s.socket.visible ∧
      (s.pending.receives = [] → (n.perform s).pending.receives = []) := by
  cases n with
  | arrive bytes => exact ⟨rfl, id⟩
  | peerClose => exact ⟨rfl, id⟩
  | asyncReadProgress index count =>
    simp only [NetworkEvent.perform]
    split
    · exact ⟨rfl, id⟩
    · refine ⟨rfl, fun hnone => ?_⟩
      change s.pending.receives.set index _ = []
      rw [hnone]
      rfl

/-- A late event leaves an aborted socket as it is. -/
theorem aborted_step {e : Event} (h : s.Aborted) (hlate : e.Late) (hstep : step s e = some t) :
    t.Aborted ∧ t.socket.visible = s.socket.visible := by
  obtain ⟨hwired, hawake⟩ := h.wired.effect h.awake (core_step hstep)
  obtain ⟨henabled, u, hperform, rfl⟩ := (step_eq_some_iff s t e).mp hstep
  obtain ⟨hvisible, hreceives⟩ : u.socket.visible = s.socket.visible ∧
      (s.pending.receives = [] → u.pending.receives = []) := by
    cases e with
    | call c => exact hlate.elim
    | completion c => exact visible_completion h henabled hperform
    | network n =>
      obtain rfl := Outcome.ok.inj hperform
      exact visible_network s n
  have hopen : u.socket.socket.isOpen = false :=
    (congrArg (fun socket => socket.socket.isOpen) hvisible).trans h.isOpen
  have hreap : u.reap.socket.visible = s.socket.visible := (visible_reap hopen).trans hvisible
  refine ⟨⟨hwired, hawake, ?_, ?_, ?_⟩, hreap⟩
  · exact (congrArg TcpSocket.state hreap).trans h.closed
  · exact (congrArg (fun socket => socket.socket.isOpen) hreap).trans h.isOpen
  · have herror := congrArg (fun socket => socket.tcpClosed.hasError) hreap
    rcases h.quiet_read with hnone | hset
    · left
      unfold reap
      split <;> exact hreceives hnone
    · exact Or.inr (herror.trans hset)

theorem Aborted.silenced (h : s.Aborted) : s.Silenced := by
  intro es t hlate hrun
  induction es generalizing s with
  | nil => rw [← Option.some.inj hrun]
  | cons e es ih =>
    obtain ⟨r, hr, hrest⟩ := (StateMachine.run_cons_eq_some_iff step s t e es).mp hrun
    obtain ⟨hr', hvisible⟩ := aborted_step h (hlate e List.mem_cons_self) hr
    have hlater := ih hr' (fun e he => hlate e (List.mem_cons_of_mem _ he)) hrest
    exact hlater.trans hvisible

/-- What an abort does to a socket in any state. -/
structure Aborts (s t : TcpSession) : Prop where
  closed : t.socket.state = .closed
  isOpen : t.socket.socket.isOpen = false
  tcpClosed : t.socket.tcpClosed = s.socket.tcpClosed
  pending : t.pending = s.pending

theorem aborts_enterClosedState (s : TcpSession) : s.Aborts (TcpSocket.enterClosedState s) where
  closed := congrArg Core.state (core_enterClosedState s)
  isOpen := isOpen_enterClosed _
  tcpClosed := congrArg Core.tcpClosed (core_enterClosedState s)
  pending := pending_enterClosedState s

theorem Aborts.reap (h : s.Aborts t) : s.Aborts t.reap := by
  unfold TcpSession.reap
  split
  · exact ⟨h.closed, rfl, h.tcpClosed, h.pending⟩
  · exact h

theorem step_aborts {c : Call} (hc : c.Aborts) (h : step s (.call c) = some t) :
    s.Aborts t := by
  obtain ⟨-, u, hperform, rfl⟩ := (step_eq_some_iff s t _).mp h
  apply Aborts.reap
  cases c with
  | disconnectAbortive =>
    obtain rfl := Outcome.ok.inj hperform
    exact aborts_enterClosedState s
  | destroySocket hard =>
    subst hc
    obtain rfl := Outcome.ok.inj hperform
    have haborts := aborts_enterClosedState s
    exact ⟨haborts.closed, haborts.isOpen, haborts.tcpClosed, haborts.pending⟩
  | _ => exact hc.elim

theorem hasError_enterErrorState (s : TcpSession) (message : String) :
    (TcpSocket.enterErrorState s message).socket.tcpClosed.hasError = true := by
  have hcore := congrArg Core.tcpClosed (core_enterErrorState s message)
  change (TcpSocket.enterErrorState s message).socket.tcpClosed = if _ then _ else _ at hcore
  rw [hcore]
  split
  · rename_i herror
    exact herror
  · rfl

/-- A read that is pending can fail, and then the socket has an error. -/
theorem not_silenced (hreads : s.pending.receives ≠ [])
    (herror : s.socket.tcpClosed.hasError = false) : ¬ s.Silenced := by
  intro hsilenced
  obtain ⟨read, rest, hread⟩ := List.exists_cons_of_ne_nil hreads
  have henabled : Enabled s (.completion (.receive 0 (some "operation_aborted"))) := by
    simp only [Enabled, Completion.Enabled, hread, List.getElem?_cons_zero, reduceCtorEq,
      false_implies]
  have hstep : step s (.completion (.receive 0 (some "operation_aborted"))) = some (reap
      (TcpConnected.handleReceive { s with pending.receives := s.pending.receives.eraseIdx 0 }
        (some "operation_aborted"))) :=
    (step_eq_some_iff s _ _).mpr ⟨henabled, _, rfl, rfl⟩
  have hlate : ∀ e ∈ [Event.completion (.receive 0 (some "operation_aborted"))], e.Late := by
    intro e he
    rw [List.mem_singleton.mp he]
    exact trivial
  have hvisible := hsilenced _ _ hlate
    ((StateMachine.run_cons_eq_some_iff _ _ _ _ _).mpr ⟨_, hstep, rfl⟩)
  have hkept := congrArg (fun socket => socket.tcpClosed.hasError) hvisible
  have hreap := fun u : TcpSession => congrArg Core.tcpClosed (core_reap u)
  change (reap _).core.tcpClosed.hasError = s.socket.tcpClosed.hasError at hkept
  rw [hreap, herror] at hkept
  have hset := hasError_enterErrorState { s with
    pending.receives := s.pending.receives.eraseIdx 0
    socket.tcpConnected.asyncReceiveInProgress := false } "operation_aborted"
  exact Bool.noConfusion (hset.symm.trans hkept)

/-- Before the socket is closed there is no error to show. -/
theorem hasError_eq (hwired : s.core.Wired) :
    TcpSocket.hasError s = s.socket.tcpClosed.hasError := by
  have hnone := hwired.no_error
  change s.socket.state ≠ .closed → s.socket.tcpClosed.hasError = false at hnone
  unfold TcpSocket.hasError
  cases hstate : s.socket.state with
  | connecting => exact (hnone (StateId.ne_closed_of_connecting hstate)).symm
  | connected => exact (hnone (StateId.ne_closed_of_connected hstate)).symm
  | closed => rfl

/-- An abort silences a socket exactly if no read is pending or it has an error already. -/
theorem silenced_iff {r : TcpSession} {es : List Event} {c : Call} (hr : Created r)
    (hrun : StateMachine.run step r es = some s) (hc : c.Aborts)
    (hstep : step s (.call c) = some t) :
    t.Silenced ↔ s.pending.receives = [] ∨ TcpSocket.hasError s = true := by
  obtain ⟨hwired, hawake⟩ := wired_of_run hr hrun
  have haborts := step_aborts hc hstep
  rw [hasError_eq hwired]
  constructor
  · intro hsilenced
    by_contra hpending
    obtain ⟨hreads, herror⟩ := not_or.mp hpending
    apply not_silenced _ _ hsilenced
    · rw [haborts.pending]
      exact hreads
    · rw [haborts.tcpClosed]
      exact Bool.not_eq_true _ ▸ herror
  · intro hquiet
    obtain ⟨hwired', hawake'⟩ := hwired.effect hawake (core_step hstep)
    apply Aborted.silenced
    refine ⟨hwired', hawake', haborts.closed, haborts.isOpen, ?_⟩
    rw [haborts.pending, haborts.tcpClosed]
    exact hquiet

/-- The pending send of a socket without a read is silenced. -/
theorem silenced_iff_send : ∃ t, step accepted (.call .disconnectAbortive) = some t ∧
    (t.Silenced ↔ accepted.pending.receives = [] ∨ TcpSocket.hasError accepted = true) := by
  have hrun : StateMachine.run step accepted [] = some accepted := rfl
  have hstep : step accepted (.call .disconnectAbortive) = some _ := rfl
  exact ⟨_, hstep, silenced_iff (c := .disconnectAbortive) created_accepted hrun trivial hstep⟩

/-- A read that waits for a byte at the abort fails, and the socket that was
closed without an error has one. -/
theorem not_silenced_read : ∃ es s t u, StateMachine.run step accepted es = some s ∧
    step s (.call .disconnectAbortive) = some t ∧
    step t (.completion (.receive 0 (some "operation_aborted"))) = some u ∧
    TcpSocket.hasError t = false ∧ TcpSocket.hasError u = true ∧ ¬ t.Silenced := by
  have hrun : StateMachine.run step accepted [.call (.receive 1 ⟨.ok 0, none⟩)] = some _ := rfl
  refine ⟨_, _, _, _, hrun, rfl, rfl, rfl, rfl, ?_⟩
  exact not_silenced (List.cons_ne_nil _ _) rfl

end TcpSession

end FaucetNetworking
