import FaucetNetworking.Tcp.Core
import FaucetNetworking.SendBufferRefinement

/-!
The sending direction of a TCP session. The bytes of all accepted writes are one
stream. The send buffer holds what follows a position of it, up to which bytes
have been popped, the commit mark of the buffer is a position of the stream as
well, and what has been transferred ends between the two. This holds as long as
the pops stay in the range of the int that div takes.
-/
namespace FaucetNetworking

/-- The buffers still spell the front of the committed bytes. -/
def SendBuffer.Captures (sb : SendBuffer) (q : CommitQueue UInt8) (buffers : List ConstBuffer) :
    Prop :=
  sequenceSize buffers ≤ q.committed ∧
    gather sb.buffers buffers = some (q.content.take (sequenceSize buffers))

theorem SendBuffer.Represents.sequenceSize_eq {sb : SendBuffer} {q : CommitQueue UInt8}
    (h : sb.Represents q) : sequenceSize sb.committedAsConstBufferSequence = q.committed := by
  rw [← length_of_gather h.gather_committed, q.length_window]

theorem SendBuffer.Represents.captures {sb : SendBuffer} {q : CommitQueue UInt8}
    (h : sb.Represents q) : sb.Captures q sb.committedAsConstBufferSequence := by
  refine ⟨Nat.le_of_eq h.sequenceSize_eq, ?_⟩
  rw [h.gather_committed, h.sequenceSize_eq]
  rfl

theorem SendBuffer.Captures.push {sb sb' : SendBuffer} {q : CommitQueue UInt8}
    {buffers : List ConstBuffer} (h : sb.Captures q buffers) (data : List UInt8)
    (hext : MemoryExtends sb.buffers sb'.buffers) : sb'.Captures (q.push data) buffers := by
  refine ⟨h.1, ?_⟩
  rw [gather_extends hext h.2, CommitQueue.content_push,
    List.take_append_of_le_length (Nat.le_trans h.1 q.committed_le)]

theorem SendBuffer.Captures.commit {sb : SendBuffer} {q : CommitQueue UInt8}
    {buffers : List ConstBuffer} (h : sb.Captures q buffers) :
    sb.commit.Captures q.commit buffers :=
  ⟨Nat.le_trans h.1 q.committed_le, h.2⟩

namespace Core

structure Sound (v : Core) (popped sent : ℕ) (q : CommitQueue UInt8) : Prop where
  represents : v.sendbuffer.Represents q
  content : q.content = v.accepted.drop popped
  mark : popped + q.committed = v.sendMark
  mark_le : v.sendMark ≤ v.accepted.length
  transferred : v.transferred = v.accepted.take sent
  sent_le : sent ≤ v.sendMark
  popped_le : popped ≤ sent
  in_step : v.state ≠ .closed → popped = sent
  captured : ∀ buffers ∈ v.sends, popped = sent ∧ v.sendbuffer.Captures q buffers

variable {v w : Core} {popped sent : ℕ} {q : CommitQueue UInt8}

theorem sound_initial (state : StateId) : (initial state).Sound 0 0 CommitQueue.empty where
  represents := SendBuffer.new_represents
  content := rfl
  mark := rfl
  mark_le := Nat.le_refl 0
  transferred := rfl
  sent_le := Nat.le_refl 0
  popped_le := Nat.le_refl 0
  in_step := fun _ => rfl
  captured := fun _ hmem => absurd hmem List.not_mem_nil

theorem Sound.close (h : v.Sound popped sent q) (error : Option String) :
    (v.close error).Sound popped sent q :=
  { h with in_step := fun hopen => absurd rfl hopen }

theorem Sound.startAsyncSend (h : v.Sound popped sent q) (hwired : v.Wired)
    (hopen : v.state ≠ .closed) : v.startAsyncSend.Sound popped sent q := by
  rcases hwired.startAsyncSend_cases with ⟨-, heq⟩ | ⟨-, heq⟩
  · rw [heq]
    exact h
  · rw [heq]
    exact { h with
      captured := by
        intro buffers hmem
        rw [List.mem_singleton.mp hmem]
        exact ⟨h.in_step hopen, h.represents.captures⟩ }

theorem Sound.push (h : v.Sound popped sent q) {data : List UInt8} {sendbuffer : SendBuffer}
    (hpush : v.sendbuffer.push data = .ok sendbuffer) :
    Sound { v with sendbuffer := sendbuffer, accepted := v.accepted ++ data } popped sent
      (q.push data) := by
  obtain ⟨sb, hsb, hrep, hext⟩ := SendBuffer.push_represents data h.represents
  obtain rfl : sb = sendbuffer := Outcome.ok.inj (hsb.symm.trans hpush)
  have hsent : sent ≤ v.accepted.length := Nat.le_trans h.sent_le h.mark_le
  have hpopped : popped ≤ v.accepted.length := Nat.le_trans h.popped_le hsent
  exact {
    represents := hrep
    content := by
      rw [CommitQueue.content_push, h.content, List.drop_append_of_le_length hpopped]
    mark := h.mark
    mark_le := by
      rw [List.length_append]
      exact Nat.le_add_right_of_le h.mark_le
    transferred := by rw [List.take_append_of_le_length hsent, h.transferred]
    sent_le := h.sent_le
    popped_le := h.popped_le
    in_step := h.in_step
    captured := fun buffers hmem =>
      ⟨(h.captured buffers hmem).1, (h.captured buffers hmem).2.push data hext⟩ }

theorem Sound.commit (h : v.Sound popped sent q) :
    Sound { v with sendbuffer := v.sendbuffer.commit, sendMark := v.accepted.length } popped sent
      q.commit where
  represents := SendBuffer.commit_represents h.represents
  content := h.content
  mark := by
    have hpopped : popped ≤ v.accepted.length :=
      Nat.le_trans h.popped_le (Nat.le_trans h.sent_le h.mark_le)
    rw [CommitQueue.committed_commit, h.content, List.length_drop]
    exact Nat.add_sub_cancel' hpopped
  mark_le := Nat.le_refl _
  transferred := h.transferred
  sent_le := Nat.le_trans h.sent_le h.mark_le
  popped_le := h.popped_le
  in_step := h.in_step
  captured := fun buffers hmem =>
    ⟨(h.captured buffers hmem).1, (h.captured buffers hmem).2.commit⟩

theorem Sound.send (h : v.Sound popped sent q) (hwired : v.Wired) :
    v.send.Sound popped sent q.commit := by
  unfold Core.send
  simp only
  split
  · rename_i hstate
    apply h.commit.startAsyncSend { hwired with }
    exact StateId.ne_closed_of_connected hstate
  · exact h.commit

theorem Sound.setupEffect (h : v.Sound popped sent q) (heffect : v.SetupEffect w) :
    w.Sound popped sent q := by
  cases heffect with
  | aborted _ => exact h
  | closed error _ => exact h.close error
  | attempted endpoints _ => exact { h with }

/-- Bytes that go out extend the transferred part of the stream. -/
theorem Sound.transfer (h : v.Sound popped sent q) {buffers : List ConstBuffer}
    (hmem : buffers ∈ v.sends) {n : ℕ} (hn : n ≤ sequenceSize buffers) {bytes : List UInt8}
    (hgather : gather v.sendbuffer.buffers buffers = some bytes) :
    n ≤ q.committed ∧ sent + n ≤ v.sendMark ∧
      v.transferred ++ bytes.take n = v.accepted.take (sent + n) := by
  obtain ⟨hstep, hsize, hcaptured⟩ := h.captured buffers hmem
  have hmark := h.mark
  refine ⟨Nat.le_trans hn hsize, by omega, ?_⟩
  obtain rfl : q.content.take (sequenceSize buffers) = bytes :=
    Option.some.inj (hcaptured.symm.trans hgather)
  rw [List.take_take, Nat.min_eq_left hn, h.content, h.transferred, hstep, ← List.take_add]

/-- After the only pending send, nothing is captured. -/
theorem Wired.not_mem_finish (hwired : v.Wired) {index : ℕ} {buffers : List ConstBuffer}
    (hindex : v.sends[index]? = some buffers) (other : List ConstBuffer) :
    other ∉ v.sends.eraseIdx index := by
  rw [(hwired.eraseIdx_sends hindex).2]
  exact List.not_mem_nil

theorem Sound.finish (h : v.Sound popped sent q) (hwired : v.Wired) {index : ℕ}
    {buffers : List ConstBuffer} (hindex : v.sends[index]? = some buffers) :
    (v.finish index).Sound popped sent q :=
  { h with
    captured := fun other hmem => absurd hmem (hwired.not_mem_finish hindex other) }

/-- The range of the int that div takes, for the pop that a completion causes. -/
def PopInRange (v : Core) : Event → Prop
  | .completion (.send _ none n) =>
    v.abortRequested = true ∨ v.sendbuffer.firstElementIndex + n < 2 ^ 31
  | _ => True

instance (v : Core) (e : Event) : Decidable (v.PopInRange e) := by
  unfold PopInRange
  split <;> infer_instance

theorem Sound.pop (h : v.Sound popped sent q) (hwired : v.Wired) {index n : ℕ}
    {buffers : List ConstBuffer} (hindex : v.sends[index]? = some buffers)
    (hn : n ≤ sequenceSize buffers) {bytes : List UInt8}
    (hgather : gather v.sendbuffer.buffers buffers = some bytes)
    (hrange : v.sendbuffer.firstElementIndex + n < 2 ^ 31) {sendbuffer : SendBuffer}
    (hpop : v.sendbuffer.pop n = .ok sendbuffer) :
    Sound (Core.finish { v with
      transferred := v.transferred ++ bytes.take n
      sendbuffer := sendbuffer } index) (popped + n) (sent + n) (q.pop n) := by
  obtain ⟨hcommitted, hmark, htransferred⟩ :=
    h.transfer (List.mem_of_getElem? hindex) hn hgather
  obtain ⟨sb, hsb, hrep⟩ := SendBuffer.pop_represents h.represents hcommitted hrange
  obtain rfl : sb = sendbuffer := Outcome.ok.inj (hsb.symm.trans hpop)
  exact {
    represents := hrep
    content := by
      rw [CommitQueue.content_pop, h.content, List.drop_drop]
      rfl
    mark := by
      have hbefore := h.mark
      rw [CommitQueue.committed_pop]
      change popped + n + (q.committed - n) = v.sendMark
      omega
    mark_le := h.mark_le
    transferred := htransferred
    sent_le := hmark
    popped_le := Nat.add_le_add_right h.popped_le n
    in_step := fun hopen => by rw [h.in_step hopen]
    captured := fun other hmem => absurd hmem (hwired.not_mem_finish hindex other) }

theorem Sound.sendEffect (h : v.Sound popped sent q) (hwired : v.Wired) {index n : ℕ}
    {buffers : List ConstBuffer} {error : Option String}
    (hindex : v.sends[index]? = some buffers)
    (hrange : v.PopInRange (.completion (.send index error n)))
    (heffect : v.SendEffect index buffers error n w) :
    ∃ popped sent q, w.Sound popped sent q := by
  cases heffect with
  | silenced message n haborted => exact ⟨popped, sent, q, h.finish hwired hindex⟩
  | failed message n hrunning => exact ⟨popped, sent, q, (h.finish hwired hindex).close _⟩
  | lost n bytes haborted hn hgather =>
    obtain ⟨-, hmark, htransferred⟩ := h.transfer (List.mem_of_getElem? hindex) hn hgather
    refine ⟨popped, sent + n, q, ?_⟩
    exact { h with
      transferred := htransferred
      sent_le := hmark
      popped_le := Nat.le_add_right_of_le h.popped_le
      in_step := by
        intro hopen
        rw [hwired.open_not_aborted hopen] at haborted
        contradiction
      captured := fun other hmem => absurd hmem (hwired.not_mem_finish hindex other) }
  | popped n bytes sendbuffer hrunning hn hgather hpop hdone =>
    have hsmall := hrange.resolve_left (by simp [hrunning])
    exact ⟨_, _, _, h.pop hwired hindex hn hgather hsmall hpop⟩
  | resumed n bytes sendbuffer hrunning hn hgather hpop hmore =>
    have hsmall := hrange.resolve_left (by simp [hrunning])
    refine ⟨_, _, _, (h.pop hwired hindex hn hgather hsmall hpop).startAsyncSend
      { hwired.finish hindex with } ?_⟩
    exact StateId.ne_closed_of_connected (hwired.connected_of_send hindex hrunning)

/-- Every step in range keeps the stream invariant. -/
theorem Sound.effect (h : v.Sound popped sent q) (hwired : v.Wired) {e : Event}
    (hrange : v.PopInRange e) (heffect : v.Effect e w) :
    ∃ popped sent q, w.Sound popped sent q := by
  have hconnect : ∀ {index : ℕ}, index < v.connects.length → v.connectingAborted = false →
      Sound { v with connects := v.connects.eraseIdx index, state := .connected }
        popped sent q := by
    intro index hindex habort
    refine { h with in_step := fun _ => h.in_step ?_ }
    exact StateId.ne_closed_of_connecting (hwired.setup_connecting (by omega) habort)
  cases heffect with
  | kept _ => exact ⟨popped, sent, q, h⟩
  | closed _ error => exact ⟨popped, sent, q, h.close error⟩
  | accepted _ data sendbuffer hheld hopen hpush => exact ⟨popped, sent, _, h.push hpush⟩
  | sent _ hheld => exact ⟨popped, sent, _, h.send hwired⟩
  | destroyed hard hheld =>
    cases hard with
    | false => exact ⟨popped, sent, _, { h.send hwired with }⟩
    | true => exact ⟨popped, sent, q, { h.close none with }⟩
  | resolved _ w hpending hsetup =>
    have hbefore : Sound { v with resolves := v.resolves - 1 } popped sent q := { h with }
    exact ⟨popped, sent, q, hbefore.setupEffect hsetup⟩
  | attempted _ index w hindex hsetup =>
    have hbefore : Sound { v with connects := v.connects.eraseIdx index } popped sent q :=
      { h with }
    exact ⟨popped, sent, q, hbefore.setupEffect hsetup⟩
  | connected _ index hindex habort =>
    refine ⟨popped, sent, q, (hconnect hindex habort).startAsyncSend
      (hwired.connect hindex habort) ?_⟩
    change StateId.connected ≠ .closed
    decide
  | connectedClosed _ index error hindex habort =>
    exact ⟨popped, sent, q, (hconnect hindex habort).close error⟩
  | sendDone index n buffers error w hindex hsend =>
    exact h.sendEffect hwired hindex hrange hsend

theorem Initial.sound (h : v.Initial) : ∃ popped sent q, v.Sound popped sent q := by
  refine ⟨0, 0, CommitQueue.empty, ?_⟩
  cases h with
  | resolving => exact { sound_initial .connecting with }
  | attempted w hsetup => exact (sound_initial .connecting).setupEffect hsetup
  | connected => exact (sound_initial .connected).startAsyncSend (wired_initial _) (by decide)
  | closed state error => exact (sound_initial state).close error

end Core

namespace TcpSession

/-- The machine that takes only steps whose pops are in range. -/
def stepInRange : TcpSession → Event → Option TcpSession :=
  StateMachine.restrict (fun s e => s.core.PopInRange e) step

theorem sound_of_run {s t : TcpSession} {es : List Event} (hs : Created s)
    (hrun : StateMachine.run stepInRange s es = some t) :
    t.core.Wired ∧ t.core.Awake ∧ ∃ popped sent q, t.core.Sound popped sent q := by
  apply StateMachine.run_preserves (fun s => s.core.Wired ∧ s.core.Awake ∧
    ∃ popped sent q, s.core.Sound popped sent q) _ _ hrun
  · rintro r e u ⟨hwired, hawake, popped, sent, q, hsound⟩ hstep
    obtain ⟨hrange, hstep⟩ := (StateMachine.restrict_eq_some_iff _ _ _ _ _).mp hstep
    have heffect := core_step hstep
    obtain ⟨hwired', hawake'⟩ := hwired.effect hawake heffect
    exact ⟨hwired', hawake', hsound.effect hwired hrange heffect⟩
  · obtain ⟨hwired, hawake⟩ := (core_created hs).wired
    exact ⟨hwired, hawake, (core_created hs).sound⟩

theorem write_ok {s : TcpSession} {popped sent : ℕ} {q : CommitQueue UInt8}
    (h : s.core.Sound popped sent q) (data : List UInt8) :
    ∃ t, TcpSocket.write s data = .ok t := by
  obtain ⟨sb, hpush, -⟩ := SendBuffer.push_represents data h.represents
  have hpush : s.socket.sendbuffer.push data = .ok sb := hpush
  unfold TcpSocket.write
  rw [hpush]
  split
  · split
    · exact ⟨_, rfl⟩
    · exact ⟨_, rfl⟩
  · exact ⟨_, rfl⟩

/-- A pop of committed bytes is not refused. -/
theorem pop_ne_throws {sb sb' : SendBuffer} {n : ℕ} {what : String}
    (hn : n ≤ sb.committedBytes) : sb.pop n ≠ .throws what sb' := by
  unfold SendBuffer.pop
  rw [if_neg (Nat.not_lt.mpr hn)]
  simp only
  split
  · split <;> simp
  · simp

/-- What a send may report was captured, so it is committed and can be read. -/
theorem sendDone_outcome {s : TcpSession} {popped sent : ℕ} {q : CommitQueue UInt8}
    (h : s.core.Sound popped sent q) {index n : ℕ} {error : Option String}
    (henabled : (Completion.send index error n).Enabled s) :
    (∀ what t, (Completion.send index error n).perform s ≠ .throws what t) ∧
      (s.core.PopInRange (.completion (.send index error n)) →
        ∃ t, (Completion.send index error n).perform s = .ok t) := by
  simp only [Completion.Enabled] at henabled
  simp only [Completion.perform]
  cases hbuffers : s.pending.sends[index]? with
  | none =>
    rw [hbuffers] at henabled
    exact henabled.elim
  | some buffers =>
    rw [hbuffers] at henabled
    rw [List.getD_eq_getElem?_getD, hbuffers, Option.getD_some]
    cases error with
    | some message =>
      simp only [Completion.transfer, TcpConnected.handleSend]
      split
      · exact ⟨fun _ _ h => by contradiction, fun _ => ⟨_, rfl⟩⟩
      · exact ⟨fun _ _ h => by contradiction, fun _ => ⟨_, rfl⟩⟩
    | none =>
      have hmem : buffers ∈ s.core.sends := List.mem_of_getElem? hbuffers
      obtain ⟨-, hsize, hgather⟩ := h.captured buffers hmem
      have hgather : gather s.socket.sendbuffer.buffers buffers = some _ := hgather
      have hcommitted : n ≤ q.committed := Nat.le_trans (henabled rfl) hsize
      have hbytes : n ≤ s.socket.sendbuffer.committedBytes := by
        rw [show s.socket.sendbuffer.committedBytes = q.committed from h.represents.committed]
        exact hcommitted
      simp only [Completion.transfer, hgather, Option.map_some, TcpConnected.handleSend]
      split
      · exact ⟨fun _ _ h => by contradiction, fun _ => ⟨_, rfl⟩⟩
      · rename_i hrunning
        constructor
        · intro what t
          split
          · exact fun h => by contradiction
          · rename_i hthrows
            exact absurd hthrows (pop_ne_throws hbytes)
          · split <;> exact fun h => by contradiction
        · intro hrange
          have hsmall : s.core.sendbuffer.firstElementIndex + n < 2 ^ 31 :=
            hrange.resolve_left hrunning
          obtain ⟨sb, hpop, -⟩ := SendBuffer.pop_represents h.represents hcommitted hsmall
          have hpop : s.socket.sendbuffer.pop n = .ok sb := hpop
          rw [hpop]
          simp only
          split <;> exact ⟨_, rfl⟩

/-- What the sending direction owes to the client. -/
structure SendIntegrity (s : TcpSession) : Prop where
  stream : s.history.transferred <+: s.history.accepted.take s.history.sendMark
  single : s.pending.sends.length ≤ 1
  guard : ∀ e, Enabled s e → ∀ what t, perform s e ≠ .throws what t
  returns : ∀ e, Enabled s e → s.core.PopInRange e → ∃ t, perform s e = .ok t

theorem SendIntegrity.of_sound {s : TcpSession} {popped sent : ℕ} {q : CommitQueue UInt8}
    (hwired : s.core.Wired) (h : s.core.Sound popped sent q) : SendIntegrity s where
  stream := by
    have htransferred : s.history.transferred = s.history.accepted.take sent := h.transferred
    rw [htransferred]
    exact List.take_prefix_take_left h.sent_le
  single := hwired.single
  guard := by
    intro e henabled what t
    cases e with
    | call c =>
      cases c with
      | write data =>
        obtain ⟨u, hok⟩ := write_ok h data
        change TcpSocket.write s data ≠ _
        rw [hok]
        exact fun h => by contradiction
      | _ => exact fun h => by contradiction
    | completion c =>
      cases c with
      | send index error n => exact (sendDone_outcome h henabled).1 what t
      | _ => exact fun h => by contradiction
    | network n => exact fun h => by contradiction
  returns := by
    intro e henabled hrange
    cases e with
    | call c =>
      cases c with
      | write data => exact write_ok h data
      | _ => exact ⟨_, rfl⟩
    | completion c =>
      cases c with
      | send index error n => exact (sendDone_outcome h henabled).2 hrange
      | _ => exact ⟨_, rfl⟩
    | network n => exact ⟨_, rfl⟩

/-- In every run whose pops are in range, what goes out is a front part of what
was accepted before the latest send. -/
theorem send_stream_integrity (s t : TcpSession) (es : List Event) (hs : Created s)
    (hrun : StateMachine.run stepInRange s es = some t) : SendIntegrity t := by
  obtain ⟨hwired, -, popped, sent, q, hsound⟩ := sound_of_run hs hrun
  exact SendIntegrity.of_sound hwired hsound

/-! ### Runs of the sending direction -/

/-- The completion of the only pending send with the given number of bytes. -/
def sendDone (n : ℕ) : Event := .completion (.send 0 none n)

/-- One send is pending at a connected socket. -/
structure Sends (s : TcpSession) (buffers : List ConstBuffer) : Prop where
  state : s.socket.state = .connected
  asyncSendInProgress : s.socket.tcpConnected.asyncSendInProgress = true
  abortRequested : s.socket.tcpConnected.abortRequested = false
  sends : s.pending.sends = [buffers]

section Sends

variable {s : TcpSession} {buffers : List ConstBuffer} {sb : SendBuffer} {data bytes : List UInt8}
  {n : ℕ}

/-- What is written within the limit only changes the send buffer. -/
theorem Sends.step_write (h : s.Sends buffers) (hheld : s.handle = .held)
    (hsize : s.socket.sendbuffer.totalSize + data.length ≤ s.socket.sendbufferSizeLimit)
    (hpush : s.socket.sendbuffer.push data = .ok sb) :
    step s (.call (.write data)) = some { s with
      socket.sendbuffer := sb
      history.accepted := s.history.accepted ++ data } := by
  refine step_of_perform ⟨hheld, trivial⟩ ?_ (reap_of_held hheld)
  simp only [perform, Call.perform, TcpSocket.write, TcpSocket.allowWrite, h.state, if_true, hpush]
  rw [if_neg (Nat.not_lt.mpr hsize)]

theorem Sends.step_send (h : s.Sends buffers) (hheld : s.handle = .held) :
    step s (.call .send) = some { s with
      socket.sendbuffer := s.socket.sendbuffer.commit
      history.sendMark := s.history.accepted.length } := by
  refine step_of_perform ⟨hheld, trivial⟩ ?_ (reap_of_held hheld)
  simp only [perform, Call.perform, TcpSocket.send, TcpSocket.startAsyncSend, h.state,
    TcpConnected.startAsyncSend, h.asyncSendInProgress, Bool.not_true, Bool.false_eq_true, if_false]

/-- A graceful destroy commits what has been written. -/
theorem Sends.step_destroySocket (h : s.Sends buffers) (hheld : s.handle = .held) :
    step s (.call (.destroySocket false)) = some { s with
      socket.sendbuffer := s.socket.sendbuffer.commit
      history.sendMark := s.history.accepted.length
      handle := .released false } := by
  refine step_of_perform ⟨hheld, trivial⟩ ?_ (reap_of_sends ?_)
  · simp only [perform, Call.perform, destroySocket, Bool.false_eq_true, if_false, TcpSocket.send,
      TcpSocket.startAsyncSend, h.state, TcpConnected.startAsyncSend, h.asyncSendInProgress,
      Bool.not_true]
  · rw [h.sends]
    exact List.cons_ne_nil buffers []

theorem Sends.enabled_sendDone (h : s.Sends buffers) (hn : n ≤ sequenceSize buffers) :
    s.Enabled (sendDone n) := by
  simp only [Enabled, sendDone, Completion.Enabled, h.sends, List.getElem?_cons_zero]
  exact fun _ => hn

section

variable (h : s.Sends buffers) (hn : n ≤ sequenceSize buffers)
  (hgather : gather s.socket.sendbuffer.buffers buffers = some bytes)
  (hpop : s.socket.sendbuffer.pop n = .ok sb)
include h hn hgather hpop

/-- More is committed, so the handler starts the next send. -/
theorem Sends.step_resumed (hmore : 0 < sb.committedSize) :
    step s (sendDone n) = some { s with
      socket.tcpConnected.asyncSendInProgress := true
      socket.sendbuffer := sb
      pending.sends := [sb.committedAsConstBufferSequence]
      history.transferred := s.history.transferred ++ bytes.take n
      history.started := s.history.started + 1 } := by
  refine step_of_perform (h.enabled_sendDone hn) ?_ (reap_of_sends (List.cons_ne_nil _ []))
  simp only [perform, sendDone, Completion.perform, Completion.transfer, h.sends,
    List.getD_cons_zero, hgather, Option.map_some, TcpConnected.handleSend, h.abortRequested, hpop,
    Bool.false_eq_true, if_false, if_pos hmore]
  rfl

/-- Nothing else is committed, and no send is pending any more. -/
theorem Sends.step_drained (hdone : sb.committedSize = 0) :
    step s (sendDone n) = some (reap { s with
      socket.tcpConnected.asyncSendInProgress := false
      socket.sendbuffer := sb
      pending.sends := []
      history.transferred := s.history.transferred ++ bytes.take n }) := by
  refine (step_eq_some_iff _ _ _).mpr ⟨h.enabled_sendDone hn, _, ?_, rfl⟩
  have hstop : ¬ sb.committedSize > 0 := by omega
  simp only [perform, sendDone, Completion.perform, Completion.transfer, h.sends,
    List.getD_cons_zero, hgather, Option.map_some, TcpConnected.handleSend, h.abortRequested, hpop,
    Bool.false_eq_true, if_false, if_neg hstop]
  rfl

end

/-- The session after its first send, when it sends what is in the buffer. -/
def resumed (s : TcpSession) (sb : SendBuffer) : TcpSession :=
  { s with
    socket.tcpConnected.asyncSendInProgress := true
    socket.sendbuffer := sb
    pending.sends := [sb.committedAsConstBufferSequence]
    history.transferred := s.history.transferred ++ []
    history.started := s.history.started + 1 }

/-- The first send of a connection has no bytes; its completion starts the next. -/
theorem Sends.step_first (h : s.Sends [])
    (hrep : s.socket.sendbuffer.Represents ⟨data, data.length, Nat.le_refl _⟩)
    (hfirst : s.socket.sendbuffer.firstElementIndex = 0) (hdata : data ≠ []) :
    ∃ sb : SendBuffer, sb.Represents ⟨data, data.length, Nat.le_refl _⟩ ∧
      sb.firstElementIndex = 0 ∧
      step s (sendDone 0) = some (s.resumed sb) := by
  have hpop := SendBuffer.pop_eq s.socket.sendbuffer 0 (Nat.zero_le _)
    (by rw [hfirst]; decide) (by rw [hfirst]; exact Nat.zero_le _)
  obtain ⟨sb, hsb, hrep'⟩ := SendBuffer.pop_represents hrep (Nat.zero_le _)
    (by rw [hfirst]; decide)
  have hfirst' : sb.firstElementIndex = 0 := by
    rw [← Outcome.ok.inj (hpop.symm.trans hsb)]
    simp only [hfirst]
    rfl
  have hmore : 0 < sb.committedSize :=
    Nat.lt_of_lt_of_eq (List.length_pos_iff.mpr hdata) hrep'.committed.symm
  exact ⟨sb, hrep', hfirst', h.step_resumed (Nat.zero_le _) rfl hsb hmore⟩

/-- A send of everything that is left is the last one. -/
theorem Sends.step_last (h : s.Sends s.socket.sendbuffer.committedAsConstBufferSequence)
    (hrep : s.socket.sendbuffer.Represents ⟨data, data.length, Nat.le_refl _⟩)
    (hfirst : s.socket.sendbuffer.firstElementIndex = 0) (hsmall : data.length < 2 ^ 31) :
    ∃ sb, step s (sendDone data.length) = some (reap { s with
      socket.tcpConnected.asyncSendInProgress := false
      socket.sendbuffer := sb
      pending.sends := []
      history.transferred := s.history.transferred ++ data }) := by
  obtain ⟨sb, hpop, hrep'⟩ := SendBuffer.pop_represents hrep (Nat.le_refl data.length)
    (by rw [hfirst, Nat.zero_add]; exact hsmall)
  have hall : (CommitQueue.window ⟨data, data.length, Nat.le_refl _⟩).take data.length = data := by
    rw [CommitQueue.window, List.take_length, List.take_length]
  have hlast := h.step_drained (Nat.le_of_eq hrep.sequenceSize_eq.symm) hrep.gather_committed
    hpop (hrep'.committed.trans (Nat.sub_self _))
  rw [hall] at hlast
  exact ⟨sb, hlast⟩

/-- When no other handler is left, the handler of the last send closes a released socket. -/
theorem Sends.step_closes (h : s.Sends s.socket.sendbuffer.committedAsConstBufferSequence)
    (hrep : s.socket.sendbuffer.Represents ⟨data, data.length, Nat.le_refl _⟩)
    (hfirst : s.socket.sendbuffer.firstElementIndex = 0) (hsmall : data.length < 2 ^ 31)
    (hreleased : s.handle ≠ .held)
    (hpending : { s.pending with sends := [] } = (⟨0, [], [], []⟩ : Pending)) :
    ∃ t, step s (sendDone data.length) = some t ∧ t.socket.state = .connected ∧
      t.socket.socket.isOpen = false := by
  obtain ⟨sb, hlast⟩ := h.step_last hrep hfirst hsmall
  refine ⟨_, hlast, (state_reap _).trans h.state, isOpen_reap ?_⟩
  simp only [destroyed, hpending, hreleased, ne_eq, not_false_eq_true, decide_true, Bool.true_and]
  rfl

/-- A connected session that has taken the data, and has neither committed nor sent it. -/
structure Holds (s : TcpSession) (receives : List AsyncRead) (data : List UInt8) : Prop where
  sends : s.Sends []
  pending : s.pending = ⟨0, [], [[]], receives⟩
  handle : s.handle = .held
  isOpen : s.socket.socket.isOpen = true
  limit : s.socket.sendbufferSizeLimit = TcpConnected.sizeMax
  represents : s.socket.sendbuffer.Represents ⟨data, 0, Nat.zero_le _⟩
  firstElementIndex : s.socket.sendbuffer.firstElementIndex = 0

variable {receives : List AsyncRead}

theorem Holds.step_write (h : s.Holds receives data)
    (hsize : data.length + bytes.length ≤ TcpConnected.sizeMax) :
    ∃ t, step s (.call (.write bytes)) = some t ∧ t.Holds receives (data ++ bytes) := by
  obtain ⟨sb, hpush, hrep, -⟩ := SendBuffer.push_represents bytes h.represents
  refine ⟨_, h.sends.step_write h.handle (by rwa [h.limit, h.represents.totalSize_eq]) hpush,
    ⟨h.sends.state, h.sends.asyncSendInProgress, h.sends.abortRequested, h.sends.sends⟩,
    h.pending, h.handle, h.isOpen, h.limit, hrep, ?_⟩
  exact (SendBuffer.fields_of_push hpush).2.trans h.firstElementIndex

/-- The session has committed the data as well. -/
structure Committed (s : TcpSession) (receives : List AsyncRead) (data : List UInt8) : Prop where
  sends : s.Sends []
  pending : s.pending = ⟨0, [], [[]], receives⟩
  isOpen : s.socket.socket.isOpen = true
  represents : s.socket.sendbuffer.Represents ⟨data, data.length, Nat.le_refl _⟩
  firstElementIndex : s.socket.sendbuffer.firstElementIndex = 0

theorem Holds.step_send (h : s.Holds receives data) :
    ∃ t, step s (.call .send) = some t ∧ t.Committed receives data :=
  ⟨_, h.sends.step_send h.handle,
    ⟨h.sends.state, h.sends.asyncSendInProgress, h.sends.abortRequested, h.sends.sends⟩,
    h.pending, h.isOpen, SendBuffer.commit_represents h.represents, h.firstElementIndex⟩

theorem Holds.step_destroySocket (h : s.Holds receives data) :
    ∃ t, step s (.call (.destroySocket false)) = some t ∧ t.Committed receives data ∧
      t.handle = .released false :=
  ⟨_, h.sends.step_destroySocket h.handle,
    ⟨⟨h.sends.state, h.sends.asyncSendInProgress, h.sends.abortRequested, h.sends.sends⟩,
      h.pending, h.isOpen, SendBuffer.commit_represents h.represents, h.firstElementIndex⟩, rfl⟩

theorem holds_accepted : accepted.Holds [] [] :=
  ⟨⟨rfl, rfl, rfl, rfl⟩, rfl, rfl, rfl, rfl, SendBuffer.new_represents, rfl⟩

end Sends

/-- A connected session in which only the sending direction has been used. -/
def sending (sb : SendBuffer) (sends : List (List ConstBuffer)) (accepted : List UInt8)
    (sendMark : ℕ) (transferred : List UInt8) (started : ℕ) (handle : HandleState) :
    TcpSession where
  socket :=
    { socket := ⟨true, [], false, true⟩
      tcpConnecting := ⟨false, true⟩
      tcpConnected := ⟨!sends.isEmpty, false, [], false⟩
      tcpClosed := ⟨false, ""⟩
      state := .connected
      sendbuffer := sb
      remoteIp := "10.0.0.1"
      remotePort := 80
      localPort := 1024
      receiveBuffer := .new
      sendbufferSizeLimit := TcpConnected.sizeMax }
  pending := ⟨0, [], sends, []⟩
  history := ⟨accepted, sendMark, transferred, [], [], started, [], false⟩
  handle := handle

theorem accepted_eq : accepted = sending .new [[]] [] 0 [] 1 .held := rfl

section Sending

variable {sb sb' : SendBuffer} {data bytes : List UInt8} {buffers : List ConstBuffer} {n : ℕ}
  (accepted transferred : List UInt8) (sendMark started : ℕ) (handle : HandleState)

theorem sends_sending :
    (sending sb [buffers] accepted sendMark transferred started handle).Sends buffers :=
  ⟨rfl, rfl, rfl, rfl⟩

theorem step_write (hsize : sb.totalSize + data.length ≤ TcpConnected.sizeMax)
    (hpush : sb.push data = .ok sb') :
    step (sending sb [buffers] accepted sendMark transferred started .held)
        (.call (.write data)) =
      some (sending sb' [buffers] (accepted ++ data) sendMark transferred started .held) :=
  (sends_sending accepted transferred sendMark started .held).step_write rfl hsize hpush

theorem step_send :
    step (sending sb [buffers] accepted sendMark transferred started .held) (.call .send) =
      some (sending sb.commit [buffers] accepted accepted.length transferred started .held) :=
  (sends_sending accepted transferred sendMark started .held).step_send rfl

theorem step_destroySocket :
    step (sending sb [buffers] accepted sendMark transferred started .held)
        (.call (.destroySocket false)) =
      some (sending sb.commit [buffers] accepted accepted.length transferred started
        (.released false)) :=
  (sends_sending accepted transferred sendMark started .held).step_destroySocket rfl

/-- More is committed, so the handler starts the next send. -/
theorem step_resumed (hn : n ≤ sequenceSize buffers)
    (hgather : gather sb.buffers buffers = some bytes) (hpop : sb.pop n = .ok sb')
    (hmore : 0 < sb'.committedSize) :
    step (sending sb [buffers] accepted sendMark transferred started handle) (sendDone n) =
      some (sending sb' [sb'.committedAsConstBufferSequence] accepted sendMark
        (transferred ++ bytes.take n) (started + 1) handle) :=
  (sends_sending accepted transferred sendMark started handle).step_resumed hn hgather hpop hmore

/-- Nothing else is committed, and no send is pending any more. -/
theorem step_drained (hn : n ≤ sequenceSize buffers)
    (hgather : gather sb.buffers buffers = some bytes) (hpop : sb.pop n = .ok sb')
    (hdone : sb'.committedSize = 0) :
    step (sending sb [buffers] accepted sendMark transferred started handle) (sendDone n) =
      some (reap (sending sb' [] accepted sendMark (transferred ++ bytes.take n) started
        handle)) :=
  (sends_sending accepted transferred sendMark started handle).step_drained hn hgather hpop hdone

theorem step_first (h : sb.Represents ⟨data, data.length, Nat.le_refl _⟩)
    (hfirst : sb.firstElementIndex = 0) (hdata : data ≠ []) :
    ∃ sb' : SendBuffer, sb'.Represents ⟨data, data.length, Nat.le_refl _⟩ ∧
      sb'.firstElementIndex = 0 ∧
      step (sending sb [[]] accepted sendMark [] started handle) (sendDone 0) =
        some (sending sb' [sb'.committedAsConstBufferSequence] accepted sendMark []
          (started + 1) handle) :=
  (sends_sending accepted [] sendMark started handle).step_first h hfirst hdata

/-- The last send takes all that is left. -/
theorem step_last (h : sb.Represents ⟨data, data.length, Nat.le_refl _⟩)
    (hfirst : sb.firstElementIndex = 0) (hsmall : data.length < 2 ^ 31) :
    ∃ sb' : SendBuffer,
      step (sending sb [sb.committedAsConstBufferSequence] accepted sendMark [] started handle)
          (sendDone data.length) =
        some (reap (sending sb' [] accepted sendMark data started handle)) :=
  (sends_sending accepted [] sendMark started handle).step_last h hfirst hsmall

end Sending

theorem exists_committed (data : List UInt8) : ∃ sb : SendBuffer,
    SendBuffer.new.push data = .ok sb ∧
      sb.commit.Represents ⟨data, data.length, Nat.le_refl _⟩ ∧
      sb.commit.firstElementIndex = 0 := by
  obtain ⟨sb, hpush, hrep, -⟩ := SendBuffer.push_represents data SendBuffer.new_represents
  exact ⟨sb, hpush, SendBuffer.commit_represents hrep, (SendBuffer.fields_of_push hpush).2⟩

theorem fits_new {data : List UInt8} (h : data.length ≤ TcpConnected.sizeMax) :
    SendBuffer.new.totalSize + data.length ≤ TcpConnected.sizeMax := by
  rw [show SendBuffer.new.totalSize = 0 by decide, Nat.zero_add]
  exact h

/-- What is written at once goes out at once, if it is less than 2 GiB. -/
theorem run_delivers (data : List UInt8) (hdata : data ≠ []) (hsmall : data.length < 2 ^ 31)
    (commit : Event) (handle : HandleState) (hrange : ∀ v : Core, v.PopInRange commit)
    (hcommit : ∀ sb buffers accepted sendMark transferred started,
      step (sending sb [buffers] accepted sendMark transferred started .held) commit =
        some (sending sb.commit [buffers] accepted accepted.length transferred started handle)) :
    ∃ sb, StateMachine.run stepInRange accepted
        [.call (.write data), commit, sendDone 0, sendDone data.length] =
      some (reap (sending sb [] data data.length data 2 handle)) := by
  obtain ⟨sb, hpush, hrep, hfirst⟩ := exists_committed data
  have hsize := fits_new (Nat.le_of_lt (Nat.lt_trans hsmall (by decide)))
  obtain ⟨sb', hrep', hfirst', hstart⟩ := step_first data data.length 1 handle hrep hfirst hdata
  obtain ⟨sb'', hlast⟩ := step_last data data.length 2 handle hrep' hfirst' hsmall
  refine ⟨sb'', ?_⟩
  simp only [StateMachine.run_cons_eq_some_iff, StateMachine.run_nil, stepInRange,
    StateMachine.restrict_eq_some_iff, accepted_eq]
  refine ⟨_, ⟨trivial, step_write [] [] 0 1 hsize hpush⟩, _,
    ⟨hrange _, hcommit sb [] data 0 [] 1⟩, _, ⟨Or.inr ?_, hstart⟩, _, ⟨Or.inr ?_, hlast⟩, rfl⟩
  · change sb.commit.firstElementIndex + 0 < 2 ^ 31
    rw [hfirst]
    decide
  · change sb'.firstElementIndex + data.length < 2 ^ 31
    rw [hfirst', Nat.zero_add]
    exact hsmall

theorem send_stream_integrity_byte : ∃ sb, StateMachine.run stepInRange accepted
      [.call (.write [7]), .call .send, sendDone 0, sendDone 1] =
        some (reap (sending sb [] [7] 1 [7] 2 .held)) ∧
      SendIntegrity (reap (sending sb [] [7] 1 [7] 2 .held)) := by
  obtain ⟨sb, hrun⟩ := run_delivers [7] (by decide) (by decide) (.call .send) .held
    (fun _ => trivial) fun _ _ accepted sendMark transferred started =>
      step_send accepted transferred sendMark started
  exact ⟨sb, hrun, send_stream_integrity _ _ _ created_accepted hrun⟩

/-- After a completion of 2 GiB the buffer still holds all bytes, and sends the
first of them once more. -/
theorem run_resends {sb : SendBuffer} {data : List UInt8} (handle : HandleState)
    (hlen : data.length = 2 ^ 31 + 1) (h : sb.Represents ⟨data, data.length, Nat.le_refl _⟩)
    (hfirst : sb.firstElementIndex = 0) :
    ∃ sb', StateMachine.run step (sending sb [[]] data data.length [] 1 handle)
        [sendDone 0, sendDone (2 ^ 31), sendDone 1] =
      some (reap (sending sb' [] data data.length (data.take (2 ^ 31) ++ data.take 1) 3
        handle)) := by
  have hdata : data ≠ [] := List.ne_nil_of_length_pos (by omega)
  obtain ⟨sb₁, hrep₁, hfirst₁, hstart⟩ := step_first data data.length 1 handle h hfirst hdata
  obtain ⟨sb₂, hpop₂, hrep₂⟩ := SendBuffer.pop_outOfRange hrep₁ hfirst₁
    (show 2 ^ 31 ≤ data.length by omega)
  have hleft : data.length - 2 ^ 31 = 1 := by omega
  have hsecond := step_resumed data [] data.length 2 handle
    (show 2 ^ 31 ≤ sequenceSize sb₁.committedAsConstBufferSequence by
      rw [hrep₁.sequenceSize_eq]
      exact Nat.le.intro hlen.symm)
    hrep₁.gather_committed hpop₂
    (by
      rw [SendBuffer.committedSize, hrep₂.committed]
      exact Nat.lt_of_lt_of_eq Nat.zero_lt_one hleft.symm)
  obtain ⟨sb₃, hpop₃, hrep₃⟩ := SendBuffer.pop_represents hrep₂ (Nat.le_of_eq hleft.symm)
    (Nat.lt_of_lt_of_le (Nat.add_lt_add_right hrep₂.first_lt 1) (by decide))
  have hthird := step_drained data ([] ++ (CommitQueue.window
      ⟨data, data.length, Nat.le_refl _⟩).take (2 ^ 31)) data.length 3 handle
    (Nat.le_of_eq (hleft.symm.trans hrep₂.sequenceSize_eq.symm)) hrep₂.gather_committed hpop₃
    (hrep₃.committed.trans (Nat.sub_eq_zero_of_le (Nat.le_of_eq hleft)))
  refine ⟨sb₃, ?_⟩
  simp only [StateMachine.run_cons_eq_some_iff, StateMachine.run_nil]
  refine ⟨_, hstart, _, hsecond, _, hthird, ?_⟩
  simp only [CommitQueue.window, List.nil_append, List.take_length, hleft, List.take_take,
    Nat.min_self]

/-- Two gigabytes and one byte, the last one different from the first. -/
def twoGiB : List UInt8 := List.replicate (2 ^ 31) 0 ++ [1]

theorem length_twoGiB : twoGiB.length = 2 ^ 31 + 1 := by
  rw [twoGiB, List.length_append, List.length_replicate, List.length_singleton]

theorem take_twoGiB : twoGiB.take (2 ^ 31) ++ twoGiB.take 1 = List.replicate (2 ^ 31) 0 ++ [0] := by
  rw [twoGiB, List.take_left' List.length_replicate,
    List.take_append_of_le_length (by rw [List.length_replicate]; decide), List.take_replicate]
  rfl

theorem run_twoGiB (commit : Event) (handle : HandleState)
    (hcommit : ∀ sb buffers accepted sendMark transferred started,
      step (sending sb [buffers] accepted sendMark transferred started .held) commit =
        some (sending sb.commit [buffers] accepted accepted.length transferred started handle)) :
    ∃ sb, StateMachine.run step accepted [.call (.write twoGiB), commit, sendDone 0,
        sendDone (2 ^ 31), sendDone 1] =
      some (reap (sending sb [] twoGiB twoGiB.length (List.replicate (2 ^ 31) 0 ++ [0]) 3
        handle)) := by
  obtain ⟨sb, hpush, hrep, hfirst⟩ := exists_committed twoGiB
  have hsize : SendBuffer.new.totalSize + twoGiB.length ≤ TcpConnected.sizeMax :=
    fits_new (by rw [length_twoGiB]; decide)
  obtain ⟨sb', hrun⟩ := run_resends handle length_twoGiB hrep hfirst
  rw [take_twoGiB] at hrun
  refine ⟨sb', ?_⟩
  rw [accepted_eq, StateMachine.run_cons_eq_some_iff]
  refine ⟨_, step_write [] [] 0 1 hsize hpush, ?_⟩
  rw [StateMachine.run_cons_eq_some_iff]
  exact ⟨_, hcommit sb [] twoGiB 0 [] 1, hrun⟩

theorem not_isPrefix_twoGiB :
    ¬ List.replicate (2 ^ 31) 0 ++ [0] <+: twoGiB.take twoGiB.length := by
  rw [List.take_length, twoGiB, List.prefix_append_right_inj]
  decide

/-- In such a run a byte goes out twice and another one not at all. -/
theorem not_sendIntegrity_twoGiB : Created accepted ∧ ∃ t,
    StateMachine.run step accepted [.call (.write twoGiB), .call .send, sendDone 0,
      sendDone (2 ^ 31), sendDone 1] = some t ∧
    ¬ t.history.transferred <+: t.history.accepted.take t.history.sendMark := by
  obtain ⟨sb, hrun⟩ := run_twoGiB (.call .send) .held
    fun _ _ accepted sendMark transferred started =>
      step_send accepted transferred sendMark started
  exact ⟨created_accepted, _, hrun, not_isPrefix_twoGiB⟩

end TcpSession

end FaucetNetworking
