import FaucetNetworking.Tcp.ReceiveStream
import FaucetNetworking.Tcp.SendStream

/-!
The end of a socket. A graceful destroy commits what has been written and
releases the handle; from then on only pending handlers own the socket. Its
destructor finds everything sent, as long as the pops stay in range, and it runs
once everything has been sent, unless a read was pending at the destroy.
-/
namespace FaucetNetworking

namespace Core

/-! ### The handle and the commit mark -/

/-- The handle and the marks of the written stream are as before. -/
structure SameMarks (v w : Core) : Prop where
  handle : w.handle = v.handle
  accepted : w.accepted = v.accepted
  sendMark : w.sendMark = v.sendMark

variable {v w : Core}

theorem SameMarks.of_startAsyncSend (h : v.SameMarks w) : v.SameMarks w.startAsyncSend := by
  unfold startAsyncSend
  split
  · exact ⟨h.handle, h.accepted, h.sendMark⟩
  · exact h

theorem handle_send (v : Core) : v.send.handle = v.handle := by
  unfold send startAsyncSend
  simp only
  split
  · split <;> rfl
  · rfl

theorem sendMark_send (v : Core) : v.send.sendMark = v.send.accepted.length := by
  unfold send startAsyncSend
  simp only
  split
  · split <;> rfl
  · rfl

theorem SetupEffect.sameMarks (h : v.SetupEffect w) : v.SameMarks w := by
  cases h with
  | aborted _ => exact ⟨rfl, rfl, rfl⟩
  | closed error _ => exact ⟨rfl, rfl, rfl⟩
  | attempted endpoints _ => exact ⟨rfl, rfl, rfl⟩

theorem SendEffect.sameMarks {index n : ℕ} {buffers : List ConstBuffer} {error : Option String}
    (h : v.SendEffect index buffers error n w) : v.SameMarks w := by
  cases h with
  | silenced message n _ => exact ⟨rfl, rfl, rfl⟩
  | failed message n _ => exact ⟨rfl, rfl, rfl⟩
  | lost n bytes _ _ _ => exact ⟨rfl, rfl, rfl⟩
  | popped n bytes sendbuffer _ _ _ _ _ => exact ⟨rfl, rfl, rfl⟩
  | resumed n bytes sendbuffer _ _ _ _ _ => exact SameMarks.of_startAsyncSend ⟨rfl, rfl, rfl⟩

/-- The marks move only while the handle is held, and a graceful destroy commits
everything. -/
theorem Effect.marks {e : Event} (h : v.Effect e w) :
    v.SameMarks w ∨ v.handle = .held ∧ (w.handle = .held ∨
      ∃ hard, e = .call (.destroySocket hard) ∧ w.handle = .released hard ∧
        (hard = false → w.sendMark = w.accepted.length)) := by
  cases h with
  | kept _ => exact Or.inl ⟨rfl, rfl, rfl⟩
  | closed _ error => exact Or.inl ⟨rfl, rfl, rfl⟩
  | accepted _ data sendbuffer hheld _ _ => exact Or.inr ⟨hheld, Or.inl hheld⟩
  | sent _ hheld => exact Or.inr ⟨hheld, Or.inl ((handle_send v).trans hheld)⟩
  | destroyed hard hheld =>
    refine Or.inr ⟨hheld, Or.inr ⟨hard, rfl, rfl, fun hsoft => ?_⟩⟩
    subst hsoft
    exact sendMark_send v
  | resolved _ w _ hsetup =>
    have hsame := hsetup.sameMarks
    exact Or.inl ⟨hsame.handle, hsame.accepted, hsame.sendMark⟩
  | attempted _ index w _ hsetup =>
    have hsame := hsetup.sameMarks
    exact Or.inl ⟨hsame.handle, hsame.accepted, hsame.sendMark⟩
  | connected _ index _ _ => exact Or.inl (SameMarks.of_startAsyncSend ⟨rfl, rfl, rfl⟩)
  | connectedClosed _ index error _ _ => exact Or.inl ⟨rfl, rfl, rfl⟩
  | sendDone index n buffers error w _ hsend => exact Or.inl hsend.sameMarks

/-- After a graceful destroy nothing that was written is uncommitted. -/
def AllCommitted (v : Core) : Prop :=
  v.handle = .released false → v.sendMark = v.accepted.length

theorem AllCommitted.effect {e : Event} (h : v.AllCommitted) (heffect : v.Effect e w) :
    w.AllCommitted := by
  intro hreleased
  rcases heffect.marks with hsame | ⟨-, hheld | ⟨hard, -, hhard, hmark⟩⟩
  · rw [hsame.sendMark, hsame.accepted]
    exact h (hsame.handle.symm.trans hreleased)
  · rw [hheld] at hreleased
    contradiction
  · apply hmark
    rw [hhard] at hreleased
    exact HandleState.released.inj hreleased

theorem Initial.held (h : v.Initial) : v.handle = .held := by
  cases h with
  | resolving => rfl
  | attempted w hsetup => exact hsetup.sameMarks.handle
  | connected =>
    have hsame : (initial .connected).SameMarks (initial .connected) := ⟨rfl, rfl, rfl⟩
    exact hsame.of_startAsyncSend.handle
  | closed state error => rfl

end Core

namespace TcpSession

/-- Whoever created a socket holds its handle. -/
theorem held_of_created {s : TcpSession} (h : Created s) : s.handle = .held :=
  (core_created h).held

theorem allCommitted_of_run {s t : TcpSession} {es : List Event} (hs : Created s)
    (hrun : StateMachine.run step s es = some t) : t.core.AllCommitted := by
  apply StateMachine.run_preserves (fun s => s.core.AllCommitted) _ _ hrun
  · intro r e u hall hstep
    exact hall.effect (core_step hstep)
  · intro hreleased
    have hheld : s.core.handle = .held := held_of_created hs
    rw [hheld] at hreleased
    contradiction

theorem destroyed_iff (s : TcpSession) : s.destroyed = true ↔
    s.handle ≠ .held ∧ s.pending.resolves = 0 ∧ s.pending.connects = [] ∧
      s.pending.sends = [] ∧ s.pending.receives = [] := by
  simp [destroyed, Pending.isEmpty, and_assoc]

/-! ### Nothing is lost -/

/-- When the destructor finds the socket connected, all that was committed is out. -/
theorem transferred_of_destroyed {s : TcpSession} {popped sent : ℕ} {q : CommitQueue UInt8}
    (hawake : s.core.Awake) (hsound : s.core.Sound popped sent q)
    (hall : s.core.AllCommitted) (hreleased : s.handle = .released false)
    (hdestroyed : s.destroyed = true) (hstate : s.socket.state = .connected) :
    s.history.transferred = s.history.accepted := by
  obtain ⟨-, -, -, hsends, -⟩ := (destroyed_iff s).mp hdestroyed
  have hopen : s.core.state ≠ .closed := StateId.ne_closed_of_connected hstate
  have hempty : q.committed = 0 := hsound.represents.committed.symm.trans (hawake hstate hsends)
  have hpopped := hsound.in_step hopen
  have hmark := hsound.mark
  have hlength := hall hreleased
  have htransferred := hsound.transferred
  rw [show sent = s.core.accepted.length by omega, List.take_length] at htransferred
  exact htransferred

/-- Committed data of a connected socket is on its way in every run, and a socket
that is destroyed gracefully is destroyed with everything sent in every run whose
pops are in range. -/
theorem graceful_destroy {s : TcpSession} (hs : Created s) :
    (∀ es t, StateMachine.run step s es = some t → t.socket.state = .connected →
      0 < t.socket.sendbuffer.committedSize → t.pending.sends ≠ []) ∧
    (∀ es t, StateMachine.run stepInRange s es = some t → t.handle = .released false →
      t.destroyed = true → t.socket.state = .connected →
      t.history.transferred = t.history.accepted) := by
  constructor
  · intro es t hrun hstate hmore hnone
    have hempty := (wired_of_run hs hrun).2 hstate hnone
    exact Nat.ne_of_gt hmore hempty
  · intro es t hrun hreleased hdestroyed hstate
    obtain ⟨-, hawake, popped, sent, q, hsound⟩ := sound_of_run hs hrun
    have hall := allCommitted_of_run hs (StateMachine.run_of_run_restrict _ _ hrun)
    exact transferred_of_destroyed hawake hsound hall hreleased hdestroyed hstate

theorem graceful_destroy_byte : ∃ sb, StateMachine.run stepInRange accepted
      [.call (.write [7]), .call (.destroySocket false), sendDone 0, sendDone 1] =
        some (reap (sending sb [] [7] 1 [7] 2 (.released false))) ∧
      (reap (sending sb [] [7] 1 [7] 2 (.released false))).history.transferred = [7] := by
  obtain ⟨sb, hrun⟩ := run_delivers [7] (by decide) (by decide) (.call (.destroySocket false))
    (.released false) (fun _ => trivial) fun _ _ accepted sendMark transferred started =>
      step_destroySocket accepted transferred sendMark started
  exact ⟨sb, hrun, (graceful_destroy created_accepted).2 _ _ hrun rfl rfl rfl⟩

/-- The session of the socket that sends its first byte twice ends the same way,
with the last byte still missing. -/
theorem not_graceful_destroy_twoGiB : ∃ es t, StateMachine.run step accepted es = some t ∧
    t.handle = .released false ∧ t.destroyed = true ∧ t.socket.state = .connected ∧
    t.history.transferred ≠ t.history.accepted := by
  obtain ⟨sb, hrun⟩ := run_twoGiB (.call (.destroySocket false)) (.released false)
    fun _ _ accepted sendMark transferred started =>
      step_destroySocket accepted transferred sendMark started
  refine ⟨_, _, hrun, rfl, rfl, rfl, ?_⟩
  intro heq
  have hlast : ([0] : List UInt8) = [1] := List.append_cancel_left heq
  exact absurd hlast (by decide)

/-! ### The destructor runs -/

/-- A graceful destroy finds no read pending. -/
def DestroysIdle (s : TcpSession) : Event → Prop
  | .call (.destroySocket false) => s.pending.receives = []
  | _ => True

instance (s : TcpSession) (e : Event) : Decidable (s.DestroysIdle e) := by
  unfold DestroysIdle
  split <;> infer_instance

/-- The machine in which a socket is not destroyed gracefully during a read. -/
def stepIdle : TcpSession → Event → Option TcpSession :=
  StateMachine.restrict DestroysIdle step

theorem pending_reap (s : TcpSession) : s.reap.pending = s.pending := by
  unfold reap
  split <;> rfl

/-- Only a call starts a read. -/
theorem receives_of_completion {s t : TcpSession} {c : Completion} (henabled : c.Enabled s)
    (hidle : s.pending.receives = []) (h : c.perform s = .ok t) : t.pending.receives = [] := by
  rcases receiveView_completion henabled h with ⟨index, error, rfl⟩ | hkept | ⟨-, -, hkept⟩
  · simp only [Completion.Enabled, hidle, List.getElem?_nil] at henabled
  · exact hkept.receives.trans hidle
  · exact hkept.receives.trans hidle

theorem receives_of_network {s : TcpSession} {n : NetworkEvent}
    (hidle : s.pending.receives = []) : (n.perform s).pending.receives = [] := by
  cases n with
  | arrive bytes => exact hidle
  | peerClose => exact hidle
  | asyncReadProgress index count =>
    simp only [NetworkEvent.perform, hidle, List.getElem?_nil]

/-- After a graceful destroy no read is pending. -/
def NoReadAfterDestroy (s : TcpSession) : Prop :=
  s.handle = .released false → s.pending.receives = []

theorem noReadAfterDestroy_step {s t : TcpSession} {e : Event} (h : s.NoReadAfterDestroy)
    (hstep : stepIdle s e = some t) : t.NoReadAfterDestroy := by
  obtain ⟨hidle, hstep⟩ := (StateMachine.restrict_eq_some_iff _ _ _ _ _).mp hstep
  intro hreleased
  rcases (core_step hstep).marks with hsame | ⟨-, hheld | ⟨hard, rfl, hhard, -⟩⟩
  · have hbefore : s.handle = .released false := hsame.handle.symm.trans hreleased
    obtain ⟨henabled, u, hperform, rfl⟩ := (step_eq_some_iff s t e).mp hstep
    rw [pending_reap]
    cases e with
    | call c =>
      have hheld : s.handle = .held := henabled.1
      rw [hheld] at hbefore
      contradiction
    | completion c => exact receives_of_completion henabled (h hbefore) hperform
    | network n =>
      obtain rfl := Outcome.ok.inj hperform
      exact receives_of_network (h hbefore)
  · have hheld : t.handle = .held := hheld
    rw [hheld] at hreleased
    contradiction
  · obtain rfl : hard = false := HandleState.released.inj (hhard.symm.trans hreleased)
    obtain ⟨-, u, hperform, rfl⟩ := (step_eq_some_iff s t _).mp hstep
    obtain rfl := Outcome.ok.inj hperform
    have hsend := congrArg ReceiveView.receives (receiveView_send s)
    rw [pending_reap]
    exact hsend.trans hidle

end TcpSession

namespace Core

/-- The setup of the connection is over. -/
structure SetUp (v : Core) : Prop where
  state : v.state ≠ .connecting
  resolves : v.resolves = 0
  connects : v.connects = []

variable {v w : Core}

theorem Wired.setUp (h : v.Wired) (hstate : v.state = .connected) : v.SetUp := by
  have hopen : v.state ≠ .closed := StateId.ne_closed_of_connected hstate
  have hdone : v.resolves + v.connects.length = 0 := by
    by_contra hpending
    rcases h.setup (Nat.pos_of_ne_zero hpending) with hconnecting | haborted
    · rw [hstate] at hconnecting
      contradiction
    · rw [h.open_setup_not_aborted hopen] at haborted
      contradiction
  refine ⟨?_, by omega, List.length_eq_zero_iff.mp (by omega)⟩
  rw [hstate]
  decide

theorem SetUp.close (h : v.SetUp) (error : Option String) : (v.close error).SetUp :=
  ⟨fun hstate => by contradiction, h.resolves, h.connects⟩

theorem SetUp.startAsyncSend (h : v.SetUp) : v.startAsyncSend.SetUp := by
  unfold Core.startAsyncSend
  split
  · exact { h with }
  · exact h

theorem SetUp.send (h : v.SetUp) : v.send.SetUp := by
  unfold Core.send
  simp only
  split
  · exact SetUp.startAsyncSend { h with }
  · exact { h with }

/-- No handler of the setup is left that could undo this. -/
theorem SetUp.effect {e : Event} (h : v.SetUp) (heffect : v.Effect e w) : w.SetUp := by
  have hnone : ∀ {index : ℕ}, ¬ index < v.connects.length := by
    intro index
    rw [h.connects]
    exact Nat.not_lt_zero index
  cases heffect with
  | kept _ => exact h
  | closed _ error => exact h.close error
  | accepted _ data sendbuffer _ _ _ => exact { h with }
  | sent _ _ => exact h.send
  | destroyed hard _ =>
    cases hard with
    | false => exact { h.send with }
    | true => exact { h.close none with }
  | resolved _ w hpending _ =>
    rw [h.resolves] at hpending
    contradiction
  | attempted _ index w hindex _ => exact absurd hindex hnone
  | connected _ index hindex _ => exact absurd hindex hnone
  | connectedClosed _ index error hindex _ => exact absurd hindex hnone
  | sendDone index n buffers error w _ hsend =>
    have hfinish : (v.finish index).SetUp := { h with }
    cases hsend with
    | silenced message n _ => exact hfinish
    | failed message n _ => exact hfinish.close _
    | lost n bytes _ _ _ => exact { hfinish with }
    | popped n bytes sendbuffer _ _ _ _ _ => exact { hfinish with }
    | resumed n bytes sendbuffer _ _ _ _ _ => exact SetUp.startAsyncSend { hfinish with }

end Core

namespace TcpSession

/-- The destructor has closed a socket that is destroyed. -/
theorem isOpen_of_destroyed {s t : TcpSession} {es : List Event} (hs : Created s)
    (hrun : StateMachine.run step s es = some t) (hdestroyed : t.destroyed = true) :
    t.socket.socket.isOpen = false := by
  apply StateMachine.run_preserves
    (fun s => s.destroyed = true → s.socket.socket.isOpen = false) _ _ hrun hdestroyed
  · intro r e u _ hstep hdestroyed
    obtain ⟨-, v, -, rfl⟩ := (step_eq_some_iff r u e).mp hstep
    unfold reap at hdestroyed ⊢
    split
    · rfl
    · rename_i halive
      rw [if_neg halive] at hdestroyed
      exact absurd hdestroyed halive
  · intro hdestroyed
    exact absurd (held_of_created hs) ((destroyed_iff s).mp hdestroyed).1

/-- Nothing gives a handle back. -/
theorem held_of_step {s t : TcpSession} {e : Event} (h : step s e = some t)
    (hheld : t.handle = .held) : s.handle = .held := by
  rcases (core_step h).marks with hsame | ⟨hbefore, -⟩
  · exact hsame.handle.symm.trans hheld
  · exact hbefore

/-- A released handle stays released, and the setup of a connected socket is over. -/
theorem released_of_run {s t : TcpSession} {es : List Event}
    (hreleased : s.handle = .released false) (hsetUp : s.core.SetUp)
    (hrun : StateMachine.run step s es = some t) :
    t.handle = .released false ∧ t.core.SetUp := by
  apply StateMachine.run_preserves
    (fun s => s.handle = .released false ∧ s.core.SetUp) _ ⟨hreleased, hsetUp⟩ hrun
  rintro r e u ⟨hreleased, hsetUp⟩ hstep
  refine ⟨?_, hsetUp.effect (core_step hstep)⟩
  rcases (core_step hstep).marks with hsame | ⟨hheld, -⟩
  · exact hsame.handle.trans hreleased
  · have hheld : r.handle = .held := hheld
    rw [hheld] at hreleased
    contradiction

/-- A socket that is connected after a graceful destroy, which no read was pending
at, has been destroyed and closed in every later state without a pending send, so
in particular when everything committed is out. -/
theorem destroyed_of_sent {s t u : TcpSession} {es fs : List Event} (hs : Created s)
    (hst : StateMachine.run stepIdle s es = some t) (hreleased : t.handle = .released false)
    (hstate : t.socket.state = .connected) (htu : StateMachine.run stepIdle t fs = some u)
    (hsends : u.pending.sends = []) :
    u.destroyed = true ∧ u.socket.socket.isOpen = false := by
  have hst' := StateMachine.run_of_run_restrict _ _ hst
  have htu' := StateMachine.run_of_run_restrict _ _ htu
  have hsetUp := (wired_of_run hs hst').1.setUp hstate
  obtain ⟨hreleased', hsetUp'⟩ := released_of_run hreleased hsetUp htu'
  have hidle : u.NoReadAfterDestroy := by
    apply StateMachine.run_preserves NoReadAfterDestroy _ _
      (StateMachine.run_append_eq_some hst htu)
    · intro r e v h hstep
      exact noReadAfterDestroy_step h hstep
    · intro hreleased
      rw [held_of_created hs] at hreleased
      contradiction
  have hdestroyed : u.destroyed = true := by
    rw [destroyed_iff, hreleased']
    exact ⟨by decide, hsetUp'.resolves, hsetUp'.connects, hsends, hidle hreleased'⟩
  exact ⟨hdestroyed, isOpen_of_destroyed hs (StateMachine.run_append_eq_some hst' htu') hdestroyed⟩

/-- The session has also received a byte, and the read of it has completed. -/
def heard (s : TcpSession) : TcpSession :=
  { s with
    socket.receiveBuffer := ⟨[9], 0⟩
    history.arrived := [9]
    history.delivered := [.received 9] }

theorem run_heard : StateMachine.run stepIdle accepted
    [.call (.receive 1 ⟨.ok 0, none⟩), .network (.arrive [9]), .network (.asyncReadProgress 0 1),
      .completion (.receive 0 none), .call (.receive 1 ⟨.ok 0, none⟩)] =
      some (heard (sending .new [[]] [] 0 [] 2 .held)) := rfl

theorem sends_heard {sb : SendBuffer} {buffers : List ConstBuffer}
    (accepted transferred : List UInt8) (sendMark started : ℕ) (handle : HandleState) :
    (heard (sending sb [buffers] accepted sendMark transferred started handle)).Sends buffers :=
  ⟨rfl, rfl, rfl, rfl⟩

/-- A byte comes in, and the one that is written then goes out after the destroy. -/
theorem destroyed_of_sent_byte : ∃ t u, StateMachine.run stepIdle accepted
      [.call (.receive 1 ⟨.ok 0, none⟩), .network (.arrive [9]),
        .network (.asyncReadProgress 0 1), .completion (.receive 0 none),
        .call (.receive 1 ⟨.ok 0, none⟩), .call (.write [7]), .call (.destroySocket false)] =
        some t ∧
    StateMachine.run stepIdle t [sendDone 0, sendDone 1] = some u ∧
    u.history.delivered = [.received 9] ∧ u.history.transferred = [7] ∧
    u.destroyed = true ∧ u.socket.socket.isOpen = false := by
  obtain ⟨sb, hpush, hrep, hfirst⟩ := exists_committed [7]
  obtain ⟨sb', hrep', hfirst', hstart⟩ :=
    (sends_heard [7] [] 1 2 (.released false)).step_first hrep hfirst (by decide)
  have hwaiting : (heard (sending sb' [sb'.committedAsConstBufferSequence] [7] 1 [] 3
      (.released false))).Sends sb'.committedAsConstBufferSequence := sends_heard _ _ _ _ _
  obtain ⟨sb'', hlast⟩ := hwaiting.step_last hrep' hfirst' (by decide)
  have hwrite : step (heard (sending .new [[]] [] 0 [] 2 .held)) (.call (.write [7])) =
      some (heard (sending sb [[]] [7] 0 [] 2 .held)) :=
    (sends_heard [] [] 0 2 .held).step_write rfl (fits_new (by decide)) hpush
  have hdestroy : step (heard (sending sb [[]] [7] 0 [] 2 .held)) (.call (.destroySocket false)) =
      some (heard (sending sb.commit [[]] [7] 1 [] 2 (.released false))) :=
    (sends_heard [7] [] 0 2 .held).step_destroySocket rfl
  have hend : StateMachine.run stepIdle (heard (sending .new [[]] [] 0 [] 2 .held))
      [.call (.write [7]), .call (.destroySocket false)] =
        some (heard (sending sb.commit [[]] [7] 1 [] 2 (.released false))) := by
    simp only [StateMachine.run_cons_eq_some_iff, StateMachine.run_nil, stepIdle,
      StateMachine.restrict_eq_some_iff]
    exact ⟨_, ⟨trivial, hwrite⟩, _, ⟨rfl, hdestroy⟩, rfl⟩
  have htu : StateMachine.run stepIdle (heard (sending sb.commit [[]] [7] 1 [] 2 (.released false)))
      [sendDone 0, sendDone 1] =
        some (reap (heard (sending sb'' [] [7] 1 [7] 3 (.released false)))) := by
    simp only [StateMachine.run_cons_eq_some_iff, StateMachine.run_nil, stepIdle,
      StateMachine.restrict_eq_some_iff]
    exact ⟨_, ⟨trivial, hstart⟩, _, ⟨trivial, hlast⟩, rfl⟩
  have hst := StateMachine.run_append_eq_some run_heard hend
  exact ⟨_, _, hst, htu, rfl, rfl, destroyed_of_sent created_accepted hst rfl rfl htu rfl⟩

/-- A read that waits for a byte keeps the connection open when all is sent. -/
theorem not_destroyed_read : ∃ es t u, StateMachine.run step accepted es = some t ∧
    t.handle = .released false ∧ t.socket.state = .connected ∧
    step t (sendDone 0) = some u ∧ u.history.transferred = u.history.accepted ∧
    u.socket.sendbuffer.committedSize = 0 ∧ u.pending.sends = [] ∧
    u.destroyed = false ∧ u.socket.socket.isOpen = true := by
  have hrun : StateMachine.run step accepted [.call (.receive 1 ⟨.ok 0, none⟩),
      .call (.destroySocket false)] = some _ := rfl
  exact ⟨_, _, _, hrun, rfl, rfl, rfl, rfl, rfl, rfl, rfl, rfl⟩

end TcpSession

end FaucetNetworking
