import FaucetNetworking.Tcp.Attachment

/-!
Two TCP sockets connected to each other. The network takes bytes out of the send
that is pending at one side, in as many parts as it likes and before the handler
of the send is called, and lets them arrive at the other side in their order. The
end of the stream arrives after all bytes, once the socket has been closed.
-/
namespace FaucetNetworking

namespace Core

/-! ### The written stream in one step -/

/-- The written stream and the commit mark do not go back. -/
structure Grows (v w : Core) : Prop where
  accepted : v.accepted <+: w.accepted
  sendMark : v.sendMark ≤ w.sendMark

variable {v w : Core}

theorem Grows.refl (v : Core) : v.Grows v := ⟨List.prefix_refl _, Nat.le_refl _⟩

theorem Grows.of_startAsyncSend (h : v.Grows w) : v.Grows w.startAsyncSend := by
  unfold startAsyncSend
  split
  · exact ⟨h.accepted, h.sendMark⟩
  · exact h

theorem grows_send (hmark : v.sendMark ≤ v.accepted.length) : v.Grows v.send := by
  have hmarked : v.Grows { v with
      sendbuffer := v.sendbuffer.commit, sendMark := v.accepted.length } :=
    ⟨List.prefix_refl _, hmark⟩
  unfold send
  simp only
  split
  · exact hmarked.of_startAsyncSend
  · exact hmarked

theorem SetupEffect.grows (h : v.SetupEffect w) : v.Grows w ∧ w.transferred = v.transferred := by
  cases h with
  | aborted _ => exact ⟨.refl v, rfl⟩
  | closed error _ => exact ⟨⟨List.prefix_refl _, Nat.le_refl _⟩, rfl⟩
  | attempted endpoints _ => exact ⟨⟨List.prefix_refl _, Nat.le_refl _⟩, rfl⟩

theorem SendEffect.grows {index n : ℕ} {buffers : List ConstBuffer} {error : Option String}
    (h : v.SendEffect index buffers error n w) : v.Grows w := by
  cases h with
  | silenced message n _ => exact ⟨List.prefix_refl _, Nat.le_refl _⟩
  | failed message n _ => exact ⟨List.prefix_refl _, Nat.le_refl _⟩
  | lost n bytes _ _ _ => exact ⟨List.prefix_refl _, Nat.le_refl _⟩
  | popped n bytes sendbuffer _ _ _ _ _ => exact ⟨List.prefix_refl _, Nat.le_refl _⟩
  | resumed n bytes sendbuffer _ _ _ _ _ =>
    exact Grows.of_startAsyncSend ⟨List.prefix_refl _, Nat.le_refl _⟩

theorem transferred_startAsyncSend (v : Core) : v.startAsyncSend.transferred = v.transferred := by
  unfold startAsyncSend
  split <;> rfl

theorem transferred_send (v : Core) : v.send.transferred = v.transferred := by
  unfold send
  simp only
  split
  · exact transferred_startAsyncSend _
  · rfl

theorem SendEffect.transferred {index n : ℕ} {buffers : List ConstBuffer} {message : String}
    (h : v.SendEffect index buffers (some message) n w) : w.transferred = v.transferred := by
  cases h with
  | silenced _ _ _ => rfl
  | failed _ _ _ => rfl

/-- A send that completes has moved as many bytes as it reports. -/
theorem SendEffect.length_transferred {index n : ℕ} {buffers : List ConstBuffer}
    (h : v.SendEffect index buffers none n w) :
    w.transferred.length = v.transferred.length + n := by
  have hlength : ∀ {bytes : List UInt8}, n ≤ sequenceSize buffers →
      gather v.sendbuffer.buffers buffers = some bytes →
      (v.transferred ++ bytes.take n).length = v.transferred.length + n := by
    intro bytes hsize hgather
    rw [List.length_append, List.length_take, length_of_gather hgather, Nat.min_eq_left hsize]
  cases h with
  | lost _ bytes _ hsize hgather => exact hlength hsize hgather
  | popped _ bytes sendbuffer _ hsize hgather _ _ => exact hlength hsize hgather
  | resumed _ bytes sendbuffer _ hsize hgather _ _ =>
    rw [transferred_startAsyncSend]
    exact hlength hsize hgather

theorem Effect.grows {e : Event} (h : v.Effect e w) (hmark : v.sendMark ≤ v.accepted.length) :
    v.Grows w := by
  cases h with
  | kept _ => exact .refl v
  | closed _ error => exact ⟨List.prefix_refl _, Nat.le_refl _⟩
  | accepted _ data sendbuffer _ _ _ => exact ⟨List.prefix_append _ _, Nat.le_refl _⟩
  | sent _ _ => exact grows_send hmark
  | destroyed hard _ =>
    cases hard with
    | false => exact ⟨(grows_send hmark).accepted, (grows_send hmark).sendMark⟩
    | true => exact ⟨List.prefix_refl _, Nat.le_refl _⟩
  | resolved _ w _ hsetup => exact ⟨hsetup.grows.1.accepted, hsetup.grows.1.sendMark⟩
  | attempted _ index w _ hsetup => exact ⟨hsetup.grows.1.accepted, hsetup.grows.1.sendMark⟩
  | connected _ index _ _ =>
    exact Grows.of_startAsyncSend ⟨List.prefix_refl _, Nat.le_refl _⟩
  | connectedClosed _ index error _ _ => exact ⟨List.prefix_refl _, Nat.le_refl _⟩
  | sendDone index n buffers error w _ hsend => exact hsend.grows

/-- Bytes go out only in the completion of a send. -/
theorem Effect.transferred {e : Event} (h : v.Effect e w) :
    w.transferred = v.transferred ∨ ∃ index n, e = .completion (.send index none n) := by
  cases h with
  | kept _ => exact Or.inl rfl
  | closed _ error => exact Or.inl rfl
  | accepted _ data sendbuffer _ _ _ => exact Or.inl rfl
  | sent _ _ => exact Or.inl (transferred_send v)
  | destroyed hard _ =>
    left
    cases hard with
    | false => exact transferred_send v
    | true => rfl
  | resolved _ w _ hsetup => exact Or.inl hsetup.grows.2
  | attempted _ index w _ hsetup => exact Or.inl hsetup.grows.2
  | connected _ index _ _ => exact Or.inl (transferred_startAsyncSend _)
  | connectedClosed _ index error _ _ => exact Or.inl rfl
  | sendDone index n buffers error w _ hsend =>
    cases error with
    | none => exact Or.inr ⟨index, n, rfl⟩
    | some message => exact Or.inl hsend.transferred

theorem Initial.transferred (h : v.Initial) : v.transferred = [] := by
  cases h with
  | resolving => rfl
  | attempted w hsetup => exact hsetup.grows.2
  | connected => exact transferred_startAsyncSend _
  | closed state error => rfl

end Core

namespace TcpSession

variable {s t : TcpSession}

theorem sendEffect_of_step {index n : ℕ} {error : Option String}
    (h : step s (.completion (.send index error n)) = some t) :
    ∃ buffers, s.pending.sends[index]? = some buffers ∧
      s.core.SendEffect index buffers error n t.core := by
  obtain ⟨henabled, u, hperform, rfl⟩ := (step_eq_some_iff s t _).mp h
  rw [core_reap]
  exact sendEffect_sendDone henabled hperform

theorem length_transferred_sendDone {index n : ℕ}
    (h : step s (.completion (.send index none n)) = some t) :
    t.history.transferred.length = s.history.transferred.length + n := by
  obtain ⟨buffers, -, heffect⟩ := sendEffect_of_step h
  exact heffect.length_transferred

end TcpSession

inductive Side where
  | left
  | right
  deriving DecidableEq, Repr

def Side.other : Side → Side
  | .left => .right
  | .right => .left

@[simp] theorem Side.other_other (side : Side) : side.other.other = side := by
  cases side <;> rfl

theorem Side.eq_or_other (side s : Side) : side = s ∨ side = s.other := by
  cases side <;> cases s <;> decide

theorem Side.other_ne (side : Side) : side.other ≠ side := by
  cases side <;> decide

/-- The sockets, all the bytes the network has taken from each of them, and how many
of these belong to a send whose handler has not been called. -/
structure TcpLink where
  socket : Side → TcpSession
  sent : Side → List UInt8
  sending : Side → ℕ

inductive LinkEvent where
  | socket (side : Side) (e : Event)
  | transmit (side : Side) (count : ℕ)
  | arrive (side : Side) (count : ℕ)
  | peerClose (side : Side)

namespace TcpLink

/-- The bytes on their way to one side. -/
def wire (link : TcpLink) (side : Side) : List UInt8 :=
  (link.sent side.other).drop (link.socket side).history.arrived.length

def stepAt (link : TcpLink) (side : Side) (e : Event) : Option TcpLink :=
  (TcpSession.stepInRange (link.socket side) e).map fun s =>
    { link with socket := Function.update link.socket side s }

/-- What the network can still take from the send that is pending at an open socket. -/
def outgoing (link : TcpLink) (side : Side) : List UInt8 :=
  if (link.socket side).socket.socket.isOpen then
    match (link.socket side).pending.sends with
    | [] => []
    | buffers :: _ =>
      match gather (link.socket side).socket.sendbuffer.buffers buffers with
      | none => []
      | some bytes => bytes.drop (link.sending side)
  else []

/-- A socket that has been closed for good; what it sent has arrived. -/
def Finished (link : TcpLink) (side : Side) : Prop :=
  (link.socket side).socket.socket.isOpen = false ∧
    (link.socket side).socket.state ≠ .connecting ∧ link.wire side.other = []

instance (link : TcpLink) (side : Side) : Decidable (link.Finished side) := by
  unfold Finished
  infer_instance

/-- A send that completes reports how many bytes the network has taken from it. -/
def Reports (link : TcpLink) (side : Side) : Event → Prop
  | .completion (.send _ none n) => n = link.sending side
  | _ => True

instance (link : TcpLink) (side : Side) : (e : Event) → Decidable (link.Reports side e)
  | .completion (.send _ none n) => Nat.decEq n (link.sending side)
  | .completion (.send _ (some _) _) => .isTrue trivial
  | .completion (.resolve _ _) => .isTrue trivial
  | .completion (.connect _ _ _ _) => .isTrue trivial
  | .completion (.receive _ _) => .isTrue trivial
  | .call _ => .isTrue trivial
  | .network _ => .isTrue trivial

/-- After a send has completed, the next one begins. -/
def settle (link : TcpLink) (side : Side) : Event → TcpLink
  | .completion (.send _ none _) =>
    { link with sending := Function.update link.sending side 0 }
  | _ => link

def step (link : TcpLink) : LinkEvent → Option TcpLink
  | .socket side e =>
    if e.IsLocal ∧ link.Reports side e then (link.stepAt side e).map (settle · side e) else none
  | .transmit side count =>
    if count ≤ (link.outgoing side).length then
      some { link with
        sent := Function.update link.sent side (link.sent side ++ (link.outgoing side).take count)
        sending := Function.update link.sending side (link.sending side + count) }
    else none
  | .arrive side count =>
    if count ≤ (link.wire side).length then
      link.stepAt side (.network (.arrive ((link.wire side).take count)))
    else none
  | .peerClose side =>
    if link.Finished side.other then link.stepAt side (.network .peerClose) else none

/-- Two sockets that have just been created, with nothing under way between them. -/
structure Fresh (link : TcpLink) : Prop where
  created : ∀ side, TcpSession.Created (link.socket side)
  isOpen : ∀ side, (link.socket side).socket.state = .connected →
    (link.socket side).socket.socket.isOpen = true
  arrived : ∀ side, (link.socket side).history.arrived = []
  peerClosed : ∀ side, (link.socket side).socket.socket.peerClosed = false
  sent : ∀ side, link.sent side = []
  sending : ∀ side, link.sending side = 0

/-! ### The events of one side -/

/-- What an event of the link is for the socket at one side. -/
def eventAt (link : TcpLink) (side : Side) : LinkEvent → Option Event
  | .socket s e => if s = side then some e else none
  | .transmit _ _ => none
  | .arrive s count =>
    if s = side then some (.network (.arrive ((link.wire s).take count))) else none
  | .peerClose s => if s = side then some (.network .peerClose) else none

def eventsAt (side : Side) : TcpLink → List LinkEvent → List Event
  | _, [] => []
  | link, e :: es =>
    match step link e with
    | none => []
    | some next => (link.eventAt side e).toList ++ eventsAt side next es

variable {link next : TcpLink}

theorem step_socket {side : Side} {e : Event} (hlocal : e.IsLocal)
    (hreports : link.Reports side e) :
    step link (.socket side e) = (link.stepAt side e).map (settle · side e) :=
  if_pos ⟨hlocal, hreports⟩

theorem step_transmit {side : Side} {count : ℕ} (hcount : count ≤ (link.outgoing side).length) :
    step link (.transmit side count) = some { link with
      sent := Function.update link.sent side (link.sent side ++ (link.outgoing side).take count)
      sending := Function.update link.sending side (link.sending side + count) } :=
  if_pos hcount

theorem step_arrive {side : Side} {count : ℕ} (hcount : count ≤ (link.wire side).length) :
    step link (.arrive side count) =
      link.stepAt side (.network (.arrive ((link.wire side).take count))) := if_pos hcount

/-- One socket takes a step of its own. -/
structure TakesStep (link next : TcpLink) (side : Side) (e : Event) : Prop where
  step : TcpSession.stepInRange (link.socket side) e = some (next.socket side)
  other : next.socket side.other = link.socket side.other
  sent : next.sent = link.sent

/-- What an event of the link does. -/
inductive StepCase (link next : TcpLink) : LinkEvent → Prop where
  | socket (side : Side) (e : Event) : e.IsLocal → link.Reports side e →
      link.TakesStep next side e → next.sending = (settle link side e).sending →
      StepCase link next (.socket side e)
  | transmit (side : Side) (count : ℕ) : count ≤ (link.outgoing side).length →
      next.socket = link.socket → next.sent = Function.update link.sent side
        (link.sent side ++ (link.outgoing side).take count) →
      next.sending = Function.update link.sending side (link.sending side + count) →
      StepCase link next (.transmit side count)
  | arrive (side : Side) (count : ℕ) : count ≤ (link.wire side).length →
      link.TakesStep next side (.network (.arrive ((link.wire side).take count))) →
      next.sending = link.sending → StepCase link next (.arrive side count)
  | peerClose (side : Side) : link.Finished side.other →
      link.TakesStep next side (.network .peerClose) → next.sending = link.sending →
      StepCase link next (.peerClose side)

theorem takesStep_of_stepAt {side : Side} {e : Event} (h : link.stepAt side e = some next) :
    link.TakesStep next side e ∧ next.sending = link.sending := by
  obtain ⟨s, hs, rfl⟩ := Option.map_eq_some_iff.mp h
  refine ⟨⟨?_, Function.update_of_ne side.other_ne _ _, rfl⟩, rfl⟩
  rw [hs]
  exact congrArg some (Function.update_self side s link.socket).symm

theorem settle_eq (link : TcpLink) (side : Side) (e : Event) :
    (settle link side e).socket = link.socket ∧ (settle link side e).sent = link.sent := by
  unfold settle
  split <;> exact ⟨rfl, rfl⟩

theorem sending_settle {link next : TcpLink} (h : next.sending = link.sending) (side : Side)
    (e : Event) : (settle next side e).sending = (settle link side e).sending := by
  unfold settle
  split
  · exact congrArg (Function.update · side 0) h
  · exact h

theorem stepCase {e : LinkEvent} (h : step link e = some next) : StepCase link next e := by
  unfold step at h
  split at h
  · rename_i side e
    split at h
    · rename_i hallowed
      obtain ⟨middle, hmiddle, rfl⟩ := Option.map_eq_some_iff.mp h
      obtain ⟨⟨hstep, hother, hsent⟩, hsending⟩ := takesStep_of_stepAt hmiddle
      obtain ⟨hsocket, hsent'⟩ := settle_eq middle side e
      refine .socket side e hallowed.1 hallowed.2 ⟨?_, ?_, hsent'.trans hsent⟩
        (sending_settle hsending side e)
      · rw [hsocket]
        exact hstep
      · rw [hsocket]
        exact hother
    · contradiction
  · rename_i side count
    split at h
    · rename_i hcount
      obtain rfl := Option.some.inj h
      exact .transmit side count hcount rfl rfl rfl
    · contradiction
  · rename_i side count
    split at h
    · rename_i hcount
      obtain ⟨htakes, hsending⟩ := takesStep_of_stepAt h
      exact .arrive side count hcount htakes hsending
    · contradiction
  · rename_i side
    split at h
    · rename_i hfinished
      obtain ⟨htakes, hsending⟩ := takesStep_of_stepAt h
      exact .peerClose side hfinished htakes hsending
    · contradiction

theorem TakesStep.run {s : Side} {e : Event} (h : link.TakesStep next s e) (side : Side) :
    StateMachine.run TcpSession.stepInRange (link.socket side)
        (if s = side then some e else none).toList = some (next.socket side) := by
  rcases Side.eq_or_other side s with rfl | rfl
  · rw [if_pos rfl]
    exact (StateMachine.run_cons_eq_some_iff _ _ _ _ _).mpr ⟨_, h.step, rfl⟩
  · rw [if_neg s.other_ne.symm, h.other]
    rfl

/-- The socket at either side takes the step that is its own. -/
theorem run_eventAt {e : LinkEvent} (h : step link e = some next) (side : Side) :
    StateMachine.run TcpSession.stepInRange (link.socket side) (link.eventAt side e).toList =
      some (next.socket side) := by
  cases stepCase h with
  | socket s e _ _ htakes _ => exact htakes.run side
  | transmit s count _ hsocket _ _ =>
    rw [hsocket]
    rfl
  | arrive s count _ htakes _ => exact htakes.run side
  | peerClose s _ htakes _ => exact htakes.run side

/-- A run of the link is a run of the socket at either side. -/
theorem run_eventsAt {es : List LinkEvent} (h : StateMachine.run step link es = some next)
    (side : Side) : StateMachine.run TcpSession.stepInRange (link.socket side)
      (eventsAt side link es) = some (next.socket side) := by
  induction es generalizing link with
  | nil =>
    rw [← Option.some.inj h]
    rfl
  | cons e es ih =>
    obtain ⟨middle, hmiddle, hrest⟩ := (StateMachine.run_cons_eq_some_iff step _ _ e es).mp h
    simp only [eventsAt, hmiddle]
    exact StateMachine.run_append_eq_some (run_eventAt hmiddle side) (ih hrest)

/-! ### What the link carries -/

end TcpLink

/-- What holds of a socket in every run whose pops are in range. -/
structure TcpSession.Sane (s : TcpSession) : Prop where
  wired : s.core.Wired
  awake : s.core.Awake
  sound : ∃ popped sent q, s.core.Sound popped sent q
  attached : s.AttachedWhileOwned

theorem TcpSession.Sane.step {s t : TcpSession} {e : Event} (h : s.Sane)
    (hstep : stepInRange s e = some t) : t.Sane := by
  obtain ⟨hrange, hstep⟩ := (StateMachine.restrict_eq_some_iff _ _ _ _ _).mp hstep
  obtain ⟨popped, sent, q, hsound⟩ := h.sound
  have heffect := core_step hstep
  obtain ⟨hwired, hawake⟩ := h.wired.effect h.awake heffect
  exact ⟨hwired, hawake, hsound.effect h.wired hrange heffect, h.attached.step h.wired hstep⟩

namespace TcpLink

variable {link next : TcpLink}

/-- What went out of one side is a front part of what was written there before the
latest send, and what has arrived at the other side is a front part of that. When
the end of the stream has arrived there, nothing more will come. -/
structure Carries (link : TcpLink) (side : Side) : Prop where
  sent_eq : link.sent side = (link.socket side).history.accepted.take
    ((link.socket side).history.transferred.length + link.sending side)
  sent_le : (link.socket side).history.transferred.length + link.sending side ≤
    (link.socket side).history.sendMark
  arrived : (link.socket side.other).history.arrived <+: link.sent side
  ended : (link.socket side.other).socket.socket.peerClosed = true →
    (link.socket side).socket.socket.isOpen = false ∧
      (link.socket side).socket.state ≠ .connecting ∧
      (link.socket side.other).history.arrived = link.sent side

/-- What has been taken from a socket stays the same, whether the handler of the
send knows of it yet or not. -/
theorem taken_of_step {side : Side} {e : Event} (htakes : link.TakesStep next side e)
    (hreports : link.Reports side e)
    (hsending : next.sending side = (settle link side e).sending side) :
    (next.socket side).history.transferred.length + next.sending side =
      (link.socket side).history.transferred.length + link.sending side := by
  obtain ⟨-, hstep⟩ := (StateMachine.restrict_eq_some_iff _ _ _ _ _).mp htakes.step
  rw [hsending]
  by_cases hdone : ∃ index n, e = .completion (.send index none n)
  · obtain ⟨index, n, rfl⟩ := hdone
    have hn : n = link.sending side := hreports
    have hzero : (settle link side (.completion (.send index none n))).sending side = 0 :=
      Function.update_self side 0 link.sending
    rw [TcpSession.length_transferred_sendDone hstep, hn] at *
    rw [hzero]
    rfl
  · have hsame : (next.socket side).history.transferred =
        (link.socket side).history.transferred :=
      (TcpSession.core_step hstep).transferred.resolve_right hdone
    have hkept : settle link side e = link := by
      unfold settle
      split
      · rename_i index n
        exact absurd ⟨index, n, rfl⟩ hdone
      · rfl
    rw [hsame, hkept]

/-- The sending side takes a step of its own. -/
theorem Carries.sends {side : Side} {e : Event} (h : link.Carries side)
    (hs : (link.socket side).Sane) (htakes : link.TakesStep next side e)
    (hreports : link.Reports side e)
    (hsending : next.sending side = (settle link side e).sending side)
    (hopened : (next.socket side).socket.socket.isOpen = true →
      (link.socket side).socket.socket.isOpen = true ∨
        (link.socket side).socket.state = .connecting) : next.Carries side := by
  obtain ⟨-, hstep⟩ := (StateMachine.restrict_eq_some_iff _ _ _ _ _).mp htakes.step
  obtain ⟨popped, sent, q, hsound⟩ := hs.sound
  have heffect := TcpSession.core_step hstep
  have hgrows := heffect.grows hsound.mark_le
  have hmark : (link.socket side).history.sendMark ≤ (next.socket side).history.sendMark :=
    hgrows.sendMark
  have hmarkle : (link.socket side).history.sendMark ≤
      (link.socket side).history.accepted.length := hsound.mark_le
  have hlength := Nat.le_trans h.sent_le hmarkle
  have htaken := taken_of_step htakes hreports hsending
  refine ⟨?_, ?_, ?_, ?_⟩
  · obtain ⟨more, hmore⟩ : (link.socket side).history.accepted <+:
      (next.socket side).history.accepted := hgrows.accepted
    rw [htakes.sent, htaken, h.sent_eq, ← hmore, List.take_append_of_le_length hlength]
  · rw [htaken]
    exact Nat.le_trans h.sent_le hmark
  · rw [htakes.other, htakes.sent]
    exact h.arrived
  · rw [htakes.other, htakes.sent]
    intro hpeer
    obtain ⟨hclosed, hstate, harrived⟩ := h.ended hpeer
    refine ⟨?_, ?_, harrived⟩
    · apply Bool.eq_false_iff.mpr
      intro hopen
      rcases hopened hopen with hbefore | hconnecting
      · rw [hclosed] at hbefore
        contradiction
      · exact hstate hconnecting
    · intro hconnecting
      have hrank := (hs.wired.advances heffect).state
      change (link.socket side).socket.state.rank ≤ (next.socket side).socket.state.rank at hrank
      rw [hconnecting] at hrank
      cases hbefore : (link.socket side).socket.state with
      | connecting => exact hstate hbefore
      | connected | closed =>
        rw [hbefore] at hrank
        exact absurd hrank (by decide)

/-- The receiving side takes a step of its own. -/
theorem Carries.receives {side : Side} {e : Event} (h : link.Carries side)
    (htakes : link.TakesStep next side.other e) (hsending : next.sending side = link.sending side)
    (harrived : (next.socket side.other).history.arrived <+: link.sent side)
    (hended : (next.socket side.other).socket.socket.peerClosed = true →
      (link.socket side).socket.socket.isOpen = false ∧
        (link.socket side).socket.state ≠ .connecting ∧
        (next.socket side.other).history.arrived = link.sent side) : next.Carries side := by
  have hsame := htakes.other
  rw [Side.other_other] at hsame
  refine ⟨?_, ?_, ?_, ?_⟩
  · rw [htakes.sent, hsame, hsending]
    exact h.sent_eq
  · rw [hsame, hsending]
    exact h.sent_le
  · rw [htakes.sent]
    exact harrived
  · rw [htakes.sent, hsame]
    exact hended

/-- What the network can take continues what it has taken, up to the commit mark. -/
theorem Carries.outgoing_eq {side : Side} (h : link.Carries side) (hs : (link.socket side).Sane) :
    ∃ m, link.outgoing side = ((link.socket side).history.accepted.drop
        ((link.socket side).history.transferred.length + link.sending side)).take m ∧
      (link.socket side).history.transferred.length + link.sending side + m ≤
        (link.socket side).history.sendMark := by
  have hnothing : link.outgoing side = [] → ∃ m, link.outgoing side =
      ((link.socket side).history.accepted.drop
        ((link.socket side).history.transferred.length + link.sending side)).take m ∧
      (link.socket side).history.transferred.length + link.sending side + m ≤
        (link.socket side).history.sendMark :=
    fun hnil => ⟨0, hnil, h.sent_le⟩
  obtain ⟨popped, sent, q, hsound⟩ := hs.sound
  by_cases hopen : (link.socket side).socket.socket.isOpen = true
  · cases hsends : (link.socket side).pending.sends with
    | nil =>
      apply hnothing
      unfold outgoing
      rw [if_pos hopen, hsends]
    | cons buffers rest =>
      have hmem : buffers ∈ (link.socket side).core.sends := by
        change buffers ∈ (link.socket side).pending.sends
        rw [hsends]
        exact List.mem_cons_self
      obtain ⟨hstep, hsize, hgather⟩ := hsound.captured buffers hmem
      have hgather : gather (link.socket side).socket.sendbuffer.buffers buffers = some _ :=
        hgather
      have hcontent : q.content = (link.socket side).history.accepted.drop popped :=
        hsound.content
      have hmark : popped + q.committed = (link.socket side).history.sendMark := hsound.mark
      have hmarkle : (link.socket side).history.sendMark ≤
        (link.socket side).history.accepted.length := hsound.mark_le
      have hsent : (link.socket side).history.transferred =
        (link.socket side).history.accepted.take sent := hsound.transferred
      have hlength : (link.socket side).history.transferred.length = popped := by
        have hsentle := hsound.sent_le
        change sent ≤ (link.socket side).history.sendMark at hsentle
        rw [hsent, List.length_take, Nat.min_eq_left (Nat.le_trans hsentle hmarkle), hstep]
      refine ⟨sequenceSize buffers - link.sending side, ?_, ?_⟩
      · unfold outgoing
        rw [if_pos hopen, hsends]
        simp only [hgather]
        rw [List.drop_take, hcontent, List.drop_drop, hlength]
      · have hle := h.sent_le
        omega
  · apply hnothing
    unfold outgoing
    rw [if_neg hopen]

/-- The network takes bytes from the pending send. -/
theorem Carries.transmits {side : Side} {count : ℕ} (h : link.Carries side)
    (hs : (link.socket side).Sane) (hcount : count ≤ (link.outgoing side).length)
    (hsocket : next.socket = link.socket)
    (hsent : next.sent side = link.sent side ++ (link.outgoing side).take count)
    (hsending : next.sending side = link.sending side + count) : next.Carries side := by
  obtain ⟨m, houtgoing, hmark⟩ := h.outgoing_eq hs
  have hcountle : count ≤ m := by
    rw [houtgoing, List.length_take] at hcount
    omega
  refine ⟨?_, ?_, ?_, ?_⟩
  · rw [hsent, hsocket, hsending, houtgoing, List.take_take, Nat.min_eq_left hcountle,
      h.sent_eq, ← Nat.add_assoc]
    exact List.take_add.symm
  · rw [hsocket, hsending]
    omega
  · rw [hsent, hsocket]
    exact h.arrived.trans (List.prefix_append _ _)
  · rw [hsent, hsocket]
    intro hpeer
    obtain ⟨hclosed, hstate, harrived⟩ := h.ended hpeer
    have hnothing : link.outgoing side = [] := by
      unfold outgoing
      rw [if_neg (by rw [hclosed]; decide)]
    rw [hnothing, List.take_nil, List.append_nil]
    exact ⟨hclosed, hstate, harrived⟩

/-- Nothing changes for the bytes from this side. -/
theorem Carries.of_same {side : Side} (h : link.Carries side) (hsocket : next.socket = link.socket)
    (hsent : next.sent side = link.sent side) (hsending : next.sending side = link.sending side) :
    next.Carries side := by
  refine ⟨?_, ?_, ?_, ?_⟩
  · rw [hsent, hsocket, hsending]
    exact h.sent_eq
  · rw [hsocket, hsending]
    exact h.sent_le
  · rw [hsent, hsocket]
    exact h.arrived
  · rw [hsent, hsocket]
    exact h.ended

theorem sending_settle_of_ne {side s : Side} (hne : side ≠ s) (e : Event) :
    (settle link s e).sending side = link.sending side := by
  unfold settle
  split
  · exact Function.update_of_ne hne _ _
  · rfl

/-- The bytes on the way are those that have been sent and have not arrived. -/
theorem Carries.arrived_append {side : Side} (h : link.Carries side) :
    (link.socket side.other).history.arrived ++ link.wire side.other = link.sent side := by
  obtain ⟨rest, hrest⟩ := h.arrived
  unfold wire
  rw [Side.other_other, ← hrest, List.drop_left]

/-- One step of the link keeps what it carries from a side. -/
theorem Carries.step {side : Side} {e : LinkEvent} (h : link.Carries side)
    (hsane : ∀ s, (link.socket s).Sane) (hstep : step link e = some next) :
    next.Carries side := by
  have hopened : ∀ {e : Event}, link.TakesStep next side e →
      (next.socket side).socket.socket.isOpen = true →
        (link.socket side).socket.socket.isOpen = true ∨
          (link.socket side).socket.state = .connecting := by
    intro e htakes
    obtain ⟨-, hstep⟩ := (StateMachine.restrict_eq_some_iff _ _ _ _ _).mp htakes.step
    exact TcpSession.opened_of_step (hsane side).wired (hsane side).attached hstep
  cases stepCase hstep with
  | socket s e hlocal hreports htakes hsending =>
    rcases Side.eq_or_other s side with rfl | rfl
    · exact h.sends (hsane s) htakes hreports (congrFun hsending s) (hopened htakes)
    · have hsame : next.sending side = link.sending side :=
        (congrFun hsending side).trans (sending_settle_of_ne side.other_ne.symm e)
      obtain ⟨-, hstep⟩ := (StateMachine.restrict_eq_some_iff _ _ _ _ _).mp htakes.step
      obtain ⟨harrived, hpeer⟩ := TcpSession.arrived_of_step hlocal (hsane side.other).wired
        (hsane side.other).attached hstep
      apply h.receives htakes hsame
      · rw [harrived]
        exact h.arrived
      · rw [harrived, hpeer]
        exact h.ended
  | transmit s count hcount hsocket hsent hsending =>
    rcases Side.eq_or_other s side with rfl | rfl
    · apply h.transmits (hsane s) hcount hsocket
      · rw [hsent, Function.update_self]
      · rw [hsending, Function.update_self]
    · apply h.of_same hsocket
      · rw [hsent, Function.update_of_ne side.other_ne.symm]
      · rw [hsending, Function.update_of_ne side.other_ne.symm]
  | arrive s count hcount htakes hsending =>
    rcases Side.eq_or_other s side with rfl | rfl
    · exact h.sends (hsane s) htakes trivial (congrFun hsending s) (hopened htakes)
    · obtain ⟨-, hstep⟩ := (StateMachine.restrict_eq_some_iff _ _ _ _ _).mp htakes.step
      obtain ⟨harrived, hopen⟩ := TcpSession.step_arrive hstep
      apply h.receives htakes (congrFun hsending side)
      · rw [harrived, ← h.arrived_append, List.prefix_append_right_inj]
        exact List.take_prefix _ _
      · intro hclosed
        rw [hopen] at hclosed
        contradiction
  | peerClose s hfinished htakes hsending =>
    rcases Side.eq_or_other s side with rfl | rfl
    · exact h.sends (hsane s) htakes trivial (congrFun hsending s) (hopened htakes)
    · obtain ⟨-, hstep⟩ := (StateMachine.restrict_eq_some_iff _ _ _ _ _).mp htakes.step
      have harrived := TcpSession.step_peerClose hstep
      rw [Side.other_other] at hfinished
      obtain ⟨hclosed, hstate, hempty⟩ := hfinished
      apply h.receives htakes (congrFun hsending side)
      · rw [harrived]
        exact h.arrived
      · intro _
        refine ⟨hclosed, hstate, ?_⟩
        rw [harrived, ← h.arrived_append, hempty, List.append_nil]

/-! ### Runs -/

theorem sane_of_fresh (h : link.Fresh) (side : Side) : (link.socket side).Sane := by
  have hcore := TcpSession.core_created (h.created side)
  obtain ⟨hwired, hawake⟩ := hcore.wired
  exact ⟨hwired, hawake, hcore.sound,
    fun _ => TcpSession.attached_of_created (h.created side) (h.isOpen side)⟩

theorem carries_of_fresh (h : link.Fresh) (side : Side) : link.Carries side := by
  have hnone : (link.socket side).history.transferred = [] :=
    (TcpSession.core_created (h.created side)).transferred
  refine ⟨?_, ?_, ?_, ?_⟩
  · rw [h.sent, h.sending, hnone]
    rfl
  · rw [h.sending, hnone]
    exact Nat.zero_le _
  · rw [h.arrived]
    exact List.nil_prefix
  · rw [h.peerClosed]
    intro hclosed
    contradiction

/-- In every run, both sockets are sane and the link carries their streams. -/
theorem carries_of_run {es : List LinkEvent} (hfresh : link.Fresh)
    (hrun : StateMachine.run step link es = some next) :
    (∀ side, (next.socket side).Sane) ∧ ∀ side, next.Carries side := by
  apply StateMachine.run_preserves
    (fun link => (∀ side, (link.socket side).Sane) ∧ ∀ side, link.Carries side) _
    ⟨sane_of_fresh hfresh, carries_of_fresh hfresh⟩ hrun
  rintro r e u ⟨hsane, hcarries⟩ hstep
  refine ⟨fun side => ?_, fun side => (hcarries side).step hsane hstep⟩
  apply StateMachine.run_preserves TcpSession.Sane _ (hsane side) (run_eventAt hstep side)
  exact fun r e u hr hstep => hr.step hstep

/-- What a client has been given, or is still on the way to it or buffered for it. -/
structure StreamIntegrity (link : TcpLink) (side : Side) (delivered : List UInt8) : Prop where
  front : delivered <+: (link.socket side.other).history.accepted.take
    (link.socket side.other).history.sendMark
  arrived : delivered <+: (link.socket side).history.arrived
  in_order : (link.socket side).history.arrived ++ link.wire side = link.sent side.other
  sent : link.sent side.other <+: (link.socket side.other).history.accepted.take
    (link.socket side.other).history.sendMark

theorem Carries.sent_front {side : Side} (h : link.Carries side) :
    link.sent side <+: (link.socket side).history.accepted.take
      (link.socket side).history.sendMark := by
  rw [h.sent_eq]
  exact List.take_prefix_take_left h.sent_le

/-- Whatever the order of calls, handlers and arrivals at the two sides, the client at
either side is given a front part of what the other one wrote before its latest send,
and the bytes on the way follow without a gap. -/
theorem stream_integrity {es : List LinkEvent} (hfresh : link.Fresh)
    (hrun : StateMachine.run step link es = some next) (side : Side) :
    next.StreamIntegrity side
      (TcpSession.deliveredBytes (link.socket side) (eventsAt side link es)) := by
  obtain ⟨-, hcarries⟩ := carries_of_run hfresh hrun
  have hother := hcarries side.other
  have horder := hother.arrived_append
  have harrived := hother.arrived
  rw [Side.other_other] at horder harrived
  have hsession := StateMachine.run_of_run_restrict _ _ (run_eventsAt hrun side)
  have hdelivered := (TcpSession.receive_stream_integrity (hfresh.created side) hsession).front
  exact ⟨(hdelivered.trans harrived).trans hother.sent_front, hdelivered, horder,
    hother.sent_front⟩

end TcpLink

namespace TcpSession

variable {s t : TcpSession}

/-- A socket that was destroyed abortively is closed. -/
def HardClosed (s : TcpSession) : Prop := s.handle = .released true → s.socket.state = .closed

theorem HardClosed.step {e : Event} (hwired : s.core.Wired) (h : s.HardClosed)
    (hstep : step s e = some t) : t.HardClosed := by
  intro hreleased
  have hfollows := follows_step hwired hstep
  rcases (core_step hstep).marks with hsame | ⟨-, hheld | ⟨hard, rfl, hhard, -⟩⟩
  · exact hfollows.closed (h (hsame.handle.symm.trans hreleased))
  · have hheld : t.handle = .held := hheld
    rw [hheld] at hreleased
    contradiction
  · obtain rfl : hard = true := HandleState.released.inj (hhard.symm.trans hreleased)
    obtain ⟨-, u, hperform, rfl⟩ := (step_eq_some_iff s t _).mp hstep
    obtain rfl := Outcome.ok.inj hperform
    have hcore := congrArg Core.state (core_reap (destroySocket s true))
    exact hcore.trans (state_enterClosedState s)

theorem hardClosed_of_run {es : List Event} (hs : Created s)
    (hrun : StateMachine.run step s es = some t) : t.HardClosed := by
  have hinv : t.core.Wired ∧ t.core.Awake ∧ t.HardClosed := by
    apply StateMachine.run_preserves
      (fun s => s.core.Wired ∧ s.core.Awake ∧ s.HardClosed) _ _ hrun
    · rintro r e u ⟨hwired, hawake, hclosed⟩ hstep
      obtain ⟨hwired', hawake'⟩ := hwired.effect hawake (core_step hstep)
      exact ⟨hwired', hawake', hclosed.step hwired hstep⟩
    · obtain ⟨hwired, hawake⟩ := (core_created hs).wired
      refine ⟨hwired, hawake, fun hreleased => ?_⟩
      rw [held_of_created hs] at hreleased
      contradiction
  exact hinv.2.2

/-- A connected socket that is not open any more has been destroyed after all it was
given to write had been sent. -/
theorem transferred_of_closed {es : List Event} (hs : Created s) (hsane : t.Sane)
    (hrun : StateMachine.run stepInRange s es = some t) (hstate : t.socket.state = .connected)
    (hclosed : t.socket.socket.isOpen = false) :
    t.history.transferred = t.history.accepted := by
  have hdestroyed : t.destroyed = true := by
    by_contra howned
    have hopen := (hsane.attached (Bool.not_eq_true _ ▸ howned)).connected hstate
    rw [hclosed] at hopen
    contradiction
  have hreleased : t.handle = .released false := by
    have hrun := StateMachine.run_of_run_restrict _ _ hrun
    cases hhandle : t.handle with
    | held => exact absurd hhandle ((destroyed_iff t).mp hdestroyed).1
    | released hard =>
      cases hard with
      | false => rfl
      | true =>
        have hstate' := hardClosed_of_run hs hrun hhandle
        rw [hstate] at hstate'
        contradiction
  exact (graceful_destroy hs).2 es t hrun hreleased hdestroyed hstate

end TcpSession

namespace TcpLink

variable {link next : TcpLink}

/-- If one client sees the end of the stream on a connection without an error, and the
other socket had none either, it has been given everything that was ever written there. -/
theorem eof_complete {es : List LinkEvent} {side : Side} {peek : PeekResult}
    (hfresh : link.Fresh) (hrun : StateMachine.run step link es = some next)
    (hpeek : (Call.isEof peek).Enabled (next.socket side))
    (heof : (TcpSocket.isEof (next.socket side) peek).1 = true)
    (hstate : (TcpSocket.isEof (next.socket side) peek).2.socket.state = .connected)
    (hother : (next.socket side.other).socket.state = .connected) :
    TcpSession.deliveredBytes (link.socket side) (eventsAt side link es) =
      (next.socket side.other).history.accepted := by
  obtain ⟨hsane, hcarries⟩ := carries_of_run hfresh hrun
  have hcarries := hcarries side.other
  have hended := hcarries.ended
  rw [Side.other_other] at hended
  have hsession := StateMachine.run_of_run_restrict _ _ (run_eventsAt hrun side)
  obtain ⟨hall, hpeer⟩ := (TcpSession.receive_stream_integrity (hfresh.created side)
    hsession).isEof peek hpeek heof hstate
  obtain ⟨hclosed, -, harrived⟩ := hended hpeer
  have htransferred := TcpSession.transferred_of_closed (hfresh.created side.other)
    (hsane side.other) (run_eventsAt hrun side.other) hother hclosed
  rw [hall, harrived, hcarries.sent_eq, htransferred]
  exact List.take_of_length_le (Nat.le_add_right _ _)

/-! ### A run with one byte -/

/-- Two sockets of which only the one at this side sends. -/
def oneWay (side : Side) (here there : TcpSession) (sent : List UInt8) (sending : ℕ) :
    TcpLink where
  socket := fun s => if s = side then here else there
  sent := fun s => if s = side then sent else []
  sending := fun s => if s = side then sending else 0

def connectedPair : TcpLink := oneWay .left TcpSession.accepted TcpSession.accepted [] 0

theorem fresh_connectedPair : connectedPair.Fresh where
  created := by
    intro side
    cases side <;> exact TcpSession.created_accepted
  isOpen := by
    intro side _
    cases side <;> rfl
  arrived := by
    intro side
    cases side <;> rfl
  peerClosed := by
    intro side
    cases side <;> rfl
  sent := by
    intro side
    cases side <;> rfl
  sending := by
    intro side
    cases side <;> rfl

section OneWay

variable {side : Side} {here here' there there' : TcpSession} {sent : List UInt8} {sending : ℕ}
  {e : Event}

theorem ext_of_sides {a b : TcpLink} (hsocket : ∀ side, a.socket side = b.socket side)
    (hsent : ∀ side, a.sent side = b.sent side)
    (hsending : ∀ side, a.sending side = b.sending side) : a = b := by
  cases a
  cases b
  rw [TcpLink.mk.injEq]
  exact ⟨funext hsocket, funext hsent, funext hsending⟩

/-- As long as nothing has been sent, either side can be the one that sends. -/
theorem oneWay_other :
    oneWay side.other there here [] 0 = oneWay side here there [] 0 := by
  apply ext_of_sides <;> intro s <;> cases s <;> cases side <;> rfl

@[simp] theorem socket_oneWay :
    (oneWay side here there sent sending).socket side = here := if_pos rfl

@[simp] theorem socket_oneWay_other :
    (oneWay side here there sent sending).socket side.other = there := if_neg side.other_ne

theorem stepAt_here (h : TcpSession.stepInRange here e = some here') :
    (oneWay side here there sent sending).stepAt side e =
      some (oneWay side here' there sent sending) := by
  unfold stepAt
  rw [socket_oneWay, h]
  apply congrArg some
  apply ext_of_sides <;> intro s <;> cases s <;> cases side <;> rfl

theorem stepAt_there (h : TcpSession.stepInRange there e = some there') :
    (oneWay side here there sent sending).stepAt side.other e =
      some (oneWay side here there' sent sending) := by
  unfold stepAt
  rw [socket_oneWay_other, h]
  apply congrArg some
  apply ext_of_sides <;> intro s <;> cases s <;> cases side <;> rfl

theorem inRange_call {s t : TcpSession} {c : Call} (h : TcpSession.step s (.call c) = some t) :
    TcpSession.stepInRange s (.call c) = some t :=
  (StateMachine.restrict_eq_some_iff _ _ _ _ _).mpr ⟨trivial, h⟩

theorem step_here_call {c : Call} (h : TcpSession.step here (.call c) = some here') :
    step (oneWay side here there sent sending) (.socket side (.call c)) =
      some (oneWay side here' there sent sending) := by
  have hlocal : (Event.call c).IsLocal := trivial
  rw [step_socket hlocal trivial, stepAt_here (inRange_call h)]
  rfl

theorem step_there_call {c : Call} (h : TcpSession.step there (.call c) = some there') :
    step (oneWay side here there sent sending) (.socket side.other (.call c)) =
      some (oneWay side here there' sent sending) := by
  have hlocal : (Event.call c).IsLocal := trivial
  rw [step_socket hlocal trivial, stepAt_there (inRange_call h)]
  rfl

theorem step_here_sendDone (hrange : here.core.sendbuffer.firstElementIndex + sending < 2 ^ 31)
    (h : TcpSession.step here (TcpSession.sendDone sending) = some here') :
    step (oneWay side here there sent sending) (.socket side (TcpSession.sendDone sending)) =
      some (oneWay side here' there sent 0) := by
  have hpop : here.core.PopInRange (TcpSession.sendDone sending) := Or.inr hrange
  have hstep : TcpSession.stepInRange here (TcpSession.sendDone sending) = some here' :=
    (StateMachine.restrict_eq_some_iff _ _ _ _ _).mpr ⟨hpop, h⟩
  have hlocal : (TcpSession.sendDone sending).IsLocal := trivial
  have hreports : (oneWay side here there sent sending).Reports side
      (TcpSession.sendDone sending) := (if_pos rfl).symm
  rw [step_socket hlocal hreports, stepAt_here hstep]
  apply congrArg some
  apply ext_of_sides <;> intro s <;> cases s <;> cases side <;> rfl

theorem step_here_transmit {bytes : List UInt8} {count : ℕ}
    (h : (oneWay side here there sent sending).outgoing side = bytes)
    (hcount : count ≤ bytes.length) :
    step (oneWay side here there sent sending) (.transmit side count) =
      some (oneWay side here there (sent ++ bytes.take count) (sending + count)) := by
  subst h
  rw [step_transmit hcount]
  apply congrArg some
  apply ext_of_sides <;> intro s <;> cases s <;> cases side <;> rfl

theorem step_there_arrive {bytes : List UInt8} {count : ℕ}
    (h : (oneWay side here there sent sending).wire side.other = bytes)
    (hcount : count ≤ bytes.length)
    (hstep : TcpSession.stepInRange there (.network (.arrive (bytes.take count))) = some there') :
    step (oneWay side here there sent sending) (.arrive side.other count) =
      some (oneWay side here there' sent sending) := by
  subst h
  rw [step_arrive hcount]
  exact stepAt_there hstep

theorem step_there_peerClose (hclosed : here.socket.socket.isOpen = false)
    (hstate : here.socket.state = .connected)
    (harrived : sent.drop there.history.arrived.length = [])
    (hstep : TcpSession.stepInRange there (.network .peerClose) = some there') :
    step (oneWay side here there sent sending) (.peerClose side.other) =
      some (oneWay side here there' sent sending) := by
  have hfinished : (oneWay side here there sent sending).Finished side.other.other := by
    have hconnected : here.socket.state ≠ .connecting := by
      rw [hstate]
      decide
    cases side <;> exact ⟨hclosed, hconnected, harrived⟩
  exact (if_pos hfinished).trans (stepAt_there hstep)

/-- What has been committed goes out with the send after the first one, and arrives. -/
theorem run_delivers (side : Side) {receives : List AsyncRead} {data : List UInt8}
    (h : here.Committed receives data) (hdata : data ≠ []) (hnone : there.history.arrived = [])
    (harrives : TcpSession.stepInRange there (.network (.arrive data)) = some there') :
    ∃ sb : SendBuffer, sb.Represents ⟨data, data.length, Nat.le_refl _⟩ ∧
      sb.firstElementIndex = 0 ∧
      StateMachine.run step (oneWay side here there [] 0)
          [.socket side (TcpSession.sendDone 0), .transmit side data.length,
            .arrive side.other data.length] =
        some (oneWay side (here.resumed sb) there' data data.length) := by
  obtain ⟨sb, hrep', hfirst', hstart⟩ :=
    h.sends.step_first h.represents h.firstElementIndex hdata
  refine ⟨sb, hrep', hfirst', ?_⟩
  have houtgoing : (oneWay side (here.resumed sb) there [] 0).outgoing side = data := by
    have hwindow : CommitQueue.window ⟨data, data.length, Nat.le_refl _⟩ = data := by
      rw [CommitQueue.window, List.take_length]
    unfold outgoing oneWay TcpSession.resumed
    simp only [if_true, h.isOpen, hrep'.gather_committed, hwindow, List.drop_zero]
  have hwire : ∀ here', (oneWay side here' there data data.length).wire side.other = data := by
    intro here'
    cases side <;> exact congrArg (fun l : List UInt8 => data.drop l.length) hnone
  simp only [StateMachine.run_cons_eq_some_iff, StateMachine.run_nil]
  refine ⟨_, step_here_sendDone ?_ hstart, _, step_here_transmit houtgoing (Nat.le_refl _), _,
    ?_, rfl⟩
  · change here.socket.sendbuffer.firstElementIndex + 0 < 2 ^ 31
    rw [h.firstElementIndex]
    decide
  · rw [List.nil_append, List.take_length, Nat.zero_add]
    apply step_there_arrive (hwire _) (Nat.le_refl _)
    rw [List.take_length]
    exact harrives

end OneWay

/-- The right socket after it has received the byte and the end of the stream. -/
def rightEnd : TcpSession :=
  let arrived := NetworkEvent.perform TcpSession.accepted (.arrive [7])
  NetworkEvent.perform (TcpSocket.receiveAvailable arrived ⟨.ok 1, none⟩).2 .peerClose

/-- The left client writes a byte and destroys its socket; the byte arrives before the
handler of the send is called, and the end of the stream after it. -/
theorem run_byte : ∃ next, StateMachine.run step connectedPair
    [.socket .left (.call (.write [7])), .socket .left (.call (.destroySocket false)),
      .socket .left (TcpSession.sendDone 0), .transmit .left 1, .arrive .right 1,
      .socket .left (TcpSession.sendDone 1),
      .socket .right (.call (.receiveAvailable ⟨.ok 1, none⟩)), .peerClose .right] = some next ∧
    (Call.isEof .eof).Enabled (next.socket .right) ∧
    (TcpSocket.isEof (next.socket .right) .eof).1 = true ∧
    (TcpSocket.isEof (next.socket .right) .eof).2.socket.state = .connected ∧
    (next.socket .left).socket.state = .connected ∧
    (next.socket .left).history.accepted = [7] := by
  obtain ⟨sb, hpush, hrep, hfirst⟩ := TcpSession.exists_committed [7]
  have hwrite : TcpSession.step (TcpSession.sending .new [[]] [] 0 [] 1 .held)
      (.call (.write [7])) = some (TcpSession.sending sb [[]] ([] ++ [7]) 0 [] 1 .held) :=
    TcpSession.step_write [] [] 0 1 (TcpSession.fits_new (by decide)) hpush
  have hdestroy : TcpSession.step (TcpSession.sending sb [[]] [7] 0 [] 1 .held)
      (.call (.destroySocket false)) =
        some (TcpSession.sending sb.commit [[]] [7] 1 [] 1 (.released false)) :=
    TcpSession.step_destroySocket [7] [] 0 1
  have harrives : TcpSession.stepInRange TcpSession.accepted (.network (.arrive [7])) = some _ :=
    rfl
  have hcommitted : (TcpSession.sending sb.commit [[]] [7] 1 [] 1 (.released false)).Committed
      [] [7] := ⟨TcpSession.sends_sending [7] [] 1 1 (.released false), rfl, rfl, hrep, hfirst⟩
  obtain ⟨sb', hrep', hfirst', hdelivers⟩ :=
    run_delivers .left hcommitted (by decide) rfl harrives
  obtain ⟨sb'', hlast⟩ :=
    TcpSession.step_last [7] 1 2 (.released false) hrep' hfirst' (by decide)
  have hwritten : StateMachine.run step connectedPair
      [.socket .left (.call (.write [7])), .socket .left (.call (.destroySocket false))] =
        some (oneWay .left (TcpSession.sending sb.commit [[]] [7] 1 [] 1 (.released false))
          TcpSession.accepted [] 0) := by
    simp only [StateMachine.run_cons_eq_some_iff, StateMachine.run_nil]
    exact ⟨_, step_here_call hwrite, _, step_here_call hdestroy, rfl⟩
  refine ⟨oneWay .left (TcpSession.reap (TcpSession.sending sb'' [] [7] 1 [7] 2
    (.released false))) rightEnd [7] 0, ?_, ⟨rfl, rfl, rfl⟩, rfl, rfl, rfl, rfl⟩
  apply StateMachine.run_append_eq_some hwritten
  apply StateMachine.run_append_eq_some hdelivers
  simp only [StateMachine.run_cons_eq_some_iff, StateMachine.run_nil]
  refine ⟨_, step_here_sendDone ?_ hlast, _,
    step_there_call (c := .receiveAvailable ⟨.ok 1, none⟩) rfl, _,
    step_there_peerClose rfl rfl rfl rfl, rfl⟩
  change sb'.firstElementIndex + 1 < 2 ^ 31
  rw [hfirst']
  decide

theorem stream_integrity_byte : ∃ es next, StateMachine.run step connectedPair es = some next ∧
    (next.socket .left).history.accepted = [7] ∧
    next.StreamIntegrity .right (TcpSession.deliveredBytes (connectedPair.socket .right)
      (eventsAt .right connectedPair es)) := by
  obtain ⟨next, hrun, -, -, -, -, haccepted⟩ := run_byte
  exact ⟨_, next, hrun, haccepted, stream_integrity fresh_connectedPair hrun .right⟩

theorem eof_complete_byte : ∃ es, TcpSession.deliveredBytes (connectedPair.socket .right)
    (eventsAt .right connectedPair es) = [7] := by
  obtain ⟨next, hrun, hpeek, heof, hstate, hother, haccepted⟩ := run_byte
  exact ⟨_, (eof_complete fresh_connectedPair hrun hpeek heof hstate
    hother).trans haccepted⟩

end TcpLink

end FaucetNetworking
