import FaucetNetworking.Tcp.Link

/-!
What has been committed gets through. As long as a socket stays connected, the
network and the handlers alone can bring everything that was written before the
latest send to the other side, from every state and without a call of a client: a
send in progress completes, its handler starts the next one, and the last one
leaves nothing behind.
-/
namespace FaucetNetworking

namespace Core

variable {v w : Core}

theorem sends_startAsyncSend (h : v.sends <+: w.sends) : v.sends <+: w.startAsyncSend.sends := by
  unfold startAsyncSend
  split
  · exact h.trans (List.prefix_append _ _)
  · exact h

theorem sends_send (v : Core) : v.sends <+: v.send.sends := by
  unfold send
  simp only
  split
  · exact sends_startAsyncSend (List.prefix_refl _)
  · exact List.prefix_refl _

theorem SetupEffect.sends (h : v.SetupEffect w) : w.sends = v.sends := by
  cases h with
  | aborted _ => rfl
  | closed error _ => rfl
  | attempted endpoints _ => rfl

/-- Unless the socket closes, only the success of a send ends one. -/
theorem Effect.sends {e : Event} (h : v.Effect e w) (hwired : v.Wired) (hopen : w.state ≠ .closed) :
    v.sends <+: w.sends ∨ ∃ index n, e = .completion (.send index none n) := by
  cases h with
  | kept _ => exact Or.inl (List.prefix_refl _)
  | closed _ error => exact absurd rfl hopen
  | accepted _ data sendbuffer _ _ _ => exact Or.inl (List.prefix_refl _)
  | sent _ _ => exact Or.inl (sends_send v)
  | destroyed hard _ =>
    cases hard with
    | false => exact Or.inl (sends_send v)
    | true => exact absurd rfl hopen
  | resolved _ w _ hsetup => exact Or.inl (hsetup.sends ▸ List.prefix_refl _)
  | attempted _ index w _ hsetup => exact Or.inl (hsetup.sends ▸ List.prefix_refl _)
  | connected _ index _ _ => exact Or.inl (sends_startAsyncSend (List.prefix_refl _))
  | connectedClosed _ index error _ _ => exact absurd rfl hopen
  | sendDone index n buffers error w _ hsend =>
    cases hsend with
    | silenced message n haborted =>
      rw [hwired.open_not_aborted hopen] at haborted
      contradiction
    | failed message n _ => exact absurd rfl hopen
    | lost n bytes _ _ _ => exact Or.inr ⟨index, n, rfl⟩
    | popped n bytes sendbuffer _ _ _ _ _ => exact Or.inr ⟨index, n, rfl⟩
    | resumed n bytes sendbuffer _ _ _ _ _ => exact Or.inr ⟨index, n, rfl⟩

end Core

namespace TcpLink

variable {link next : TcpLink} {side : Side}

/-- How many bytes the pending sends of a side have. -/
def pendingSize (link : TcpLink) (side : Side) : ℕ :=
  ((link.socket side).pending.sends.map sequenceSize).sum

/-- Unless the socket is closed, the network takes no more than what is being sent. -/
def WithinPending (link : TcpLink) (side : Side) : Prop :=
  (link.socket side).socket.state ≠ .closed → link.sending side ≤ link.pendingSize side

theorem length_outgoing_le (link : TcpLink) (side : Side) :
    (link.outgoing side).length ≤ link.pendingSize side - link.sending side := by
  unfold outgoing pendingSize
  split
  · split
    · exact Nat.zero_le _
    · rename_i buffers rest hsends
      split
      · exact Nat.zero_le _
      · rename_i bytes hgather
        rw [List.length_drop, length_of_gather hgather, hsends, List.map_cons, List.sum_cons]
        omega
  · exact Nat.zero_le _

theorem sending_settle_le (link : TcpLink) (side : Side) (e : Event) :
    (settle link side e).sending side ≤ link.sending side := by
  unfold settle
  split
  · change Function.update link.sending side 0 side ≤ _
    rw [Function.update_self]
    exact Nat.zero_le _
  · exact Nat.le_refl _

/-- A step of the socket itself. -/
theorem WithinPending.takes {e : Event} (h : link.WithinPending side)
    (hsane : (link.socket side).Sane) (htakes : link.TakesStep next side e)
    (hsending : next.sending side = (settle link side e).sending side) :
    next.WithinPending side := by
  intro hopen
  obtain ⟨-, hstep⟩ := (StateMachine.restrict_eq_some_iff _ _ _ _ _).mp htakes.step
  have hbefore : (link.socket side).socket.state ≠ .closed := by
    intro hclosed
    exact hopen ((TcpSession.follows_step hsane.wired hstep).closed hclosed)
  rw [hsending]
  rcases (TcpSession.core_step hstep).sends hsane.wired hopen with ⟨more, hmore⟩ | ⟨index, n, rfl⟩
  · have hmore : (link.socket side).pending.sends ++ more = (next.socket side).pending.sends :=
      hmore
    have hsize : link.pendingSize side ≤ next.pendingSize side := by
      unfold pendingSize
      rw [← hmore, List.map_append, List.sum_append]
      exact Nat.le_add_right _ _
    exact Nat.le_trans (link.sending_settle_le side e) (Nat.le_trans (h hbefore) hsize)
  · have hzero : (settle link side (.completion (.send index none n))).sending side = 0 :=
      Function.update_self side 0 link.sending
    rw [hzero]
    exact Nat.zero_le _

theorem WithinPending.of_same (h : link.WithinPending side)
    (hsocket : next.socket side = link.socket side)
    (hsending : next.sending side = link.sending side) : next.WithinPending side := by
  unfold WithinPending pendingSize
  rw [hsocket, hsending]
  exact h

theorem WithinPending.step {e : LinkEvent} (h : link.WithinPending side)
    (hsane : (link.socket side).Sane) (hstep : step link e = some next) :
    next.WithinPending side := by
  have hother : ∀ {s : Side} {e : Event}, link.TakesStep next s.other e →
      next.socket s = link.socket s := by
    intro s e htakes
    have hsame := htakes.other
    rwa [Side.other_other] at hsame
  cases stepCase hstep with
  | socket s e _ _ htakes hsending =>
    rcases Side.eq_or_other s side with rfl | rfl
    · exact h.takes hsane htakes (congrFun hsending s)
    · exact h.of_same (hother htakes)
        ((congrFun hsending side).trans (sending_settle_of_ne side.other_ne.symm e))
  | transmit s count hcount hsocket _ hsending =>
    rcases Side.eq_or_other s side with rfl | rfl
    · intro hopen
      have hle := link.length_outgoing_le s
      rw [hsocket] at hopen
      have hwithin := h hopen
      rw [hsending, Function.update_self]
      unfold pendingSize
      rw [hsocket]
      change link.sending s + count ≤ link.pendingSize s
      omega
    · refine h.of_same (congrFun hsocket side) ?_
      rw [hsending, Function.update_of_ne side.other_ne.symm]
  | arrive s count _ htakes hsending =>
    rcases Side.eq_or_other s side with rfl | rfl
    · exact h.takes hsane htakes (congrFun hsending s)
    · exact h.of_same (hother htakes) (congrFun hsending side)
  | peerClose s _ htakes hsending =>
    rcases Side.eq_or_other s side with rfl | rfl
    · exact h.takes hsane htakes (congrFun hsending s)
    · exact h.of_same (hother htakes) (congrFun hsending side)

/-- What is needed to go on from a state. -/
structure Steady (link : TcpLink) (side : Side) : Prop where
  sane : ∀ s, (link.socket s).Sane
  carries : link.Carries side
  within : link.WithinPending side

theorem Steady.step {e : LinkEvent} (h : link.Steady side) (hstep : step link e = some next) :
    next.Steady side where
  sane := by
    intro s
    apply StateMachine.run_preserves TcpSession.Sane _ (h.sane s) (run_eventAt hstep s)
    exact fun r e u hr hstep => hr.step hstep
  carries := h.carries.step h.sane hstep
  within := h.within.step (h.sane side) hstep

theorem Steady.run {es : List LinkEvent} (h : link.Steady side)
    (hrun : StateMachine.run TcpLink.step link es = some next) : next.Steady side :=
  StateMachine.run_preserves (fun link => link.Steady side) (fun _ _ _ h hstep => h.step hstep)
    h hrun

/-- What is being sent at an open socket can be taken by the network. -/
theorem Steady.outgoing_eq (h : link.Steady side)
    (hopen : (link.socket side).socket.socket.isOpen = true) {buffers : List ConstBuffer}
    (hsends : (link.socket side).pending.sends = [buffers]) :
    (link.outgoing side).length = sequenceSize buffers - link.sending side := by
  obtain ⟨popped, sent, q, hsound⟩ := (h.sane side).sound
  have hmem : buffers ∈ (link.socket side).core.sends := by
    change buffers ∈ (link.socket side).pending.sends
    rw [hsends]
    exact List.mem_cons_self
  have hgather : gather (link.socket side).socket.sendbuffer.buffers buffers = some _ :=
    (hsound.captured buffers hmem).2.2
  have hlength := length_of_gather hgather
  unfold outgoing
  rw [if_pos hopen, hsends]
  simp only [hgather]
  rw [List.length_drop, hlength]

/-- A connected socket with a send in progress is open. -/
theorem isOpen_of_sending {s : TcpSession} (hs : s.Sane) (hstate : s.socket.state = .connected)
    (hsends : s.pending.sends ≠ []) : s.socket.socket.isOpen = true := by
  apply (hs.attached _).connected hstate
  apply Bool.eq_false_iff.mpr
  intro hdestroyed
  exact hsends ((TcpSession.destroyed_iff s).mp hdestroyed).2.2.2.1

/-- The socket has completed a send with n bytes. -/
structure Completes (link next : TcpLink) (side : Side) (n : ℕ) : Prop where
  state : (next.socket side).socket.state = .connected
  accepted : (next.socket side).history.accepted = (link.socket side).history.accepted
  sendMark : (next.socket side).history.sendMark = (link.socket side).history.sendMark
  transferred : (next.socket side).history.transferred.length =
    (link.socket side).history.transferred.length + n
  sending : next.sending side = 0
  more : (next.socket side).pending.sends = [] ∨ 0 < next.pendingSize side

theorem completes_of_sendEffect {buffers : List ConstBuffer} {n : ℕ}
    (hs : (link.socket side).Sane) (hnext : (next.socket side).Sane)
    (hstate : (link.socket side).socket.state = .connected)
    (hsends : (link.socket side).pending.sends = [buffers])
    (heffect : (link.socket side).core.SendEffect 0 buffers none n (next.socket side).core)
    (hsending : next.sending side = 0) : link.Completes next side n := by
  have hopen : (link.socket side).core.state ≠ .closed := StateId.ne_closed_of_connected hstate
  have hlength := heffect.length_transferred
  have hsends : (link.socket side).core.sends.eraseIdx 0 = [] := by
    change (link.socket side).pending.sends.eraseIdx 0 = []
    rw [hsends]
    rfl
  obtain ⟨popped, sent, q, hsound⟩ := hnext.sound
  have hrepresents := hsound.represents
  generalize hw : (next.socket side).core = w at heffect hlength hrepresents
  have hstate' : (next.socket side).socket.state = w.state := congrArg Core.state hw
  have haccepted : (next.socket side).history.accepted = w.accepted := congrArg Core.accepted hw
  have hmark : (next.socket side).history.sendMark = w.sendMark := congrArg Core.sendMark hw
  have htransferred : (next.socket side).history.transferred = w.transferred :=
    congrArg Core.transferred hw
  have hsends' : (next.socket side).pending.sends = w.sends := congrArg Core.sends hw
  cases heffect with
  | lost _ bytes haborted _ _ =>
    rw [hs.wired.open_not_aborted hopen] at haborted
    contradiction
  | popped _ bytes sendbuffer _ _ _ _ _ =>
    refine ⟨hstate'.trans hstate, haccepted, hmark, htransferred ▸ hlength, hsending, Or.inl ?_⟩
    exact hsends'.trans hsends
  | resumed _ bytes sendbuffer _ _ _ _ hmore =>
    refine ⟨hstate'.trans hstate, haccepted, hmark, htransferred ▸ hlength, hsending, Or.inr ?_⟩
    have hcommitted : sendbuffer.committedSize = q.committed := hrepresents.committed
    have hsize : sequenceSize sendbuffer.committedAsConstBufferSequence = q.committed :=
      hrepresents.sequenceSize_eq
    have hnew : (next.socket side).pending.sends =
        (link.socket side).core.sends.eraseIdx 0 ++ [sendbuffer.committedAsConstBufferSequence] :=
      hsends'
    unfold pendingSize
    rw [hnew, hsends, List.nil_append, List.map_singleton, List.sum_singleton, hsize,
      ← hcommitted]
    exact hmore

/-- The network takes the rest of n bytes from the send in progress, which completes. -/
theorem Steady.completes {buffers : List ConstBuffer} {n : ℕ} (h : link.Steady side)
    (hstate : (link.socket side).socket.state = .connected)
    (hsends : (link.socket side).pending.sends = [buffers]) (htaken : link.sending side ≤ n)
    (hn : n ≤ sequenceSize buffers) (hrange : n ≤ 2 ^ 31 - 2 ^ 16) :
    ∃ next, StateMachine.run TcpLink.step link [.transmit side (n - link.sending side),
        .socket side (TcpSession.sendDone n)] = some next ∧ link.Completes next side n := by
  have hne : (link.socket side).pending.sends ≠ [] := by
    rw [hsends]
    exact List.cons_ne_nil _ _
  have hopen := isOpen_of_sending (h.sane side) hstate hne
  have hcount : n - link.sending side ≤ (link.outgoing side).length := by
    rw [h.outgoing_eq hopen hsends]
    omega
  obtain ⟨popped, sent, q, hsound⟩ := (h.sane side).sound
  have henabled : TcpSession.Enabled (link.socket side) (TcpSession.sendDone n) := by
    simp only [TcpSession.Enabled, TcpSession.sendDone, Completion.Enabled, hsends,
      List.getElem?_cons_zero]
    exact fun _ => hn
  have hpop : (link.socket side).core.PopInRange (TcpSession.sendDone n) := by
    right
    have hfirst := hsound.represents.first_lt
    have hsize : BUFFER_SIZE = 2 ^ 16 := rfl
    omega
  obtain ⟨u, hperform⟩ :=
    (TcpSession.SendIntegrity.of_sound (h.sane side).wired hsound).returns _ henabled hpop
  have hstep : TcpSession.stepInRange (link.socket side) (TcpSession.sendDone n) = some u.reap :=
    (StateMachine.restrict_eq_some_iff _ _ _ _ _).mpr
      ⟨hpop, (TcpSession.step_eq_some_iff _ _ _).mpr ⟨henabled, u, hperform, rfl⟩⟩
  have hmiddle := step_transmit hcount
  generalize hlink : { link with
      sent := Function.update link.sent side
        (link.sent side ++ (link.outgoing side).take (n - link.sending side))
      sending := Function.update link.sending side
        (link.sending side + (n - link.sending side)) } = middle at hmiddle
  have hsocket : middle.socket = link.socket := by rw [← hlink]
  have hsending : middle.sending side = n := by
    rw [← hlink]
    simp only [Function.update_self]
    omega
  have hlocal : (TcpSession.sendDone n).IsLocal := trivial
  have hreports : middle.Reports side (TcpSession.sendDone n) := hsending.symm
  obtain ⟨next, hlast⟩ :
      ∃ next, TcpLink.step middle (.socket side (TcpSession.sendDone n)) = some next := by
    rw [step_socket hlocal hreports]
    unfold stepAt
    rw [hsocket, hstep]
    exact ⟨_, rfl⟩
  have hrun : StateMachine.run TcpLink.step link [.transmit side (n - link.sending side),
      .socket side (TcpSession.sendDone n)] = some next := by
    rw [StateMachine.run_cons_eq_some_iff]
    refine ⟨middle, hmiddle, ?_⟩
    rw [StateMachine.run_cons_eq_some_iff]
    exact ⟨next, hlast, rfl⟩
  refine ⟨next, hrun, ?_⟩
  cases stepCase hlast with
  | socket _ _ _ _ htakes hnext =>
    have hzero : next.sending side = 0 :=
      (congrFun hnext side).trans (Function.update_self side 0 middle.sending)
    have htaken := htakes.step
    rw [hsocket] at htaken
    obtain ⟨-, htaken⟩ := (StateMachine.restrict_eq_some_iff _ _ _ _ _).mp htaken
    obtain ⟨others, hothers, heffect⟩ := TcpSession.sendEffect_of_step htaken
    rw [hsends, List.getElem?_cons_zero, Option.some.injEq] at hothers
    subst hothers
    exact completes_of_sendEffect (h.sane side) ((h.run hrun).sane side) hstate hsends heffect
      hzero

/-! ### All sends -/

end TcpLink

/-- An event that no client takes part in. -/
def LinkEvent.Autonomous : LinkEvent → Prop
  | .socket _ (.call _) => False
  | _ => True

namespace TcpLink

variable {link next : TcpLink} {side : Side}

/-- Everything committed at a side has been sent. -/
structure Drained (link next : TcpLink) (side : Side) : Prop where
  steady : next.Steady side
  sent : next.sent side = (link.socket side).history.accepted.take
    (link.socket side).history.sendMark
  accepted : (next.socket side).history.accepted = (link.socket side).history.accepted

/-- With no send in progress, nothing committed is left. -/
theorem Steady.drained (h : link.Steady side)
    (hstate : (link.socket side).socket.state = .connected)
    (hsends : (link.socket side).pending.sends = []) : link.Drained link side := by
  obtain ⟨popped, sent, q, hsound⟩ := (h.sane side).sound
  have hopen : (link.socket side).core.state ≠ .closed := StateId.ne_closed_of_connected hstate
  have hempty : q.committed = 0 :=
    hsound.represents.committed.symm.trans ((h.sane side).awake hstate hsends)
  have hpopped := hsound.in_step hopen
  have hmark : popped + q.committed = (link.socket side).history.sendMark := hsound.mark
  have hmarkle : (link.socket side).history.sendMark ≤
    (link.socket side).history.accepted.length := hsound.mark_le
  have htransferred : (link.socket side).history.transferred =
    (link.socket side).history.accepted.take sent := hsound.transferred
  have hlength : (link.socket side).history.transferred.length =
      (link.socket side).history.sendMark := by
    rw [htransferred, List.length_take]
    omega
  have hzero : link.sending side = 0 := by
    have hwithin := h.within hopen
    unfold pendingSize at hwithin
    rw [hsends] at hwithin
    exact Nat.le_zero.mp hwithin
  refine ⟨h, ?_, rfl⟩
  rw [h.carries.sent_eq, hlength, hzero, Nat.add_zero]

/-- Two for each byte that has not been sent, and one if a send without bytes comes
before it. -/
def remaining (link : TcpLink) (side : Side) : ℕ :=
  2 * ((link.socket side).history.sendMark - (link.socket side).history.transferred.length) +
    if link.pendingSize side = 0 ∧ (link.socket side).pending.sends ≠ [] then 1 else 0

end TcpLink

end FaucetNetworking
