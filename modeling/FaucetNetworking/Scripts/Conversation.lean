import FaucetNetworking.Scripts.SocketCalls
import FaucetNetworking.Tcp.ClosedError
import FaucetNetworking.Tcp.LinkProgress

/-!
Two games whose scripts talk over linked sockets. The game engine begins a script at
either side when the one before is done; a script makes its calls one after the other, and
between any two of them the other side, the handlers and the network can do anything. What
a script keeps, whatever its calls return, holds in every run; and what one side has
received is a front part of what the scripts of the other side have written.
-/
namespace FaucetNetworking

open Program

abbrev Script (α : Type) := Program SocketCall SocketCall.Result α

/-- The scripts of a game that use one socket: the variables they keep, and which script
runs for what the game engine passes to it. -/
structure Party where
  State : Type
  Input : Type
  script : State → Input → Script State

/-- The link, what is left of the scripts that run at its sides, what the game engine has
passed to all scripts so far, and what these have exchanged with the sockets. -/
structure Conversation (P : Side → Party) where
  link : TcpLink
  script : (side : Side) → Script (P side).State
  inputs : (side : Side) → List (P side).Input
  exchange : Side → Exchange

inductive ConversationEvent (P : Side → Party) where
  | link (e : LinkEvent)
  | begin (side : Side) (input : (P side).Input)
  | call (side : Side) (o : Surroundings)

instance (e : LinkEvent) : Decidable e.Autonomous := by
  unfold LinkEvent.Autonomous
  split <;> infer_instance

namespace Conversation

variable {P : Side → Party}

/-- A script makes the first of its calls. -/
def call (c : Conversation P) (side : Side) (o : Surroundings) (q : SocketCall)
    (next : q.Result → Script (P side).State) : Option (Conversation P) :=
  match q.perform (c.link.socket side) o with
  | none => none
  | some (none, r) => some { c with script := Function.update c.script side (next r) }
  | some (some call, r) =>
    (TcpLink.step c.link (.socket side (.call call))).map fun link => { c with
      link := link
      script := Function.update c.script side (next r)
      exchange := Function.update c.exchange side ((c.exchange side).after
        (c.link.socket side) (.call call) (link.socket side)) }

def step (c : Conversation P) : ConversationEvent P → Option (Conversation P)
  | .link e =>
    if e.Autonomous then (TcpLink.step c.link e).map fun link => { c with link := link } else none
  | .begin side input =>
    match c.script side with
    | .done state => some { c with
        script := Function.update c.script side ((P side).script state input)
        inputs := Function.update c.inputs side (c.inputs side ++ [input]) }
    | .call _ _ => none
  | .call side o =>
    match c.script side with
    | .done _ => none
    | .call q next => c.call side o q next

/-- Two sockets that have just been created, and no script has run. -/
structure Fresh (c : Conversation P) (start : (side : Side) → (P side).State) : Prop where
  link : c.link.Fresh
  script : ∀ side, c.script side = .done (start side)
  inputs : ∀ side, c.inputs side = []
  exchange : ∀ side, c.exchange side = .new

variable {c d : Conversation P}

/-- What an event does: the link takes a step that is no call, a script is begun, or a
script makes a call, with or without a step of its socket. -/
inductive StepCase (c : Conversation P) : Conversation P → Prop where
  | link (e : LinkEvent) (link : TcpLink) : e.Autonomous → TcpLink.step c.link e = some link →
      StepCase c { c with link := link }
  | begin (side : Side) (input : (P side).Input) (state : (P side).State) :
      c.script side = .done state → StepCase c { c with
        script := Function.update c.script side ((P side).script state input)
        inputs := Function.update c.inputs side (c.inputs side ++ [input]) }
  | quiet (side : Side) (o : Surroundings) (q : SocketCall) (r : q.Result)
      (next : q.Result → Script (P side).State) : c.script side = .call q next →
      q.perform (c.link.socket side) o = some (none, r) →
      StepCase c { c with script := Function.update c.script side (next r) }
  | call (side : Side) (o : Surroundings) (q : SocketCall) (r : q.Result)
      (next : q.Result → Script (P side).State) (call : Call) (link : TcpLink) :
      c.script side = .call q next → q.perform (c.link.socket side) o = some (some call, r) →
      TcpLink.step c.link (.socket side (.call call)) = some link → StepCase c { c with
        link := link
        script := Function.update c.script side (next r)
        exchange := Function.update c.exchange side ((c.exchange side).after
          (c.link.socket side) (.call call) (link.socket side)) }

theorem stepCase {e : ConversationEvent P} (h : step c e = some d) : StepCase c d := by
  unfold step at h
  split at h
  · split at h
    · rename_i hauto
      obtain ⟨link, hlink, rfl⟩ := Option.map_eq_some_iff.mp h
      exact .link _ link hauto hlink
    · contradiction
  · split at h
    · rename_i hdone
      obtain rfl := Option.some.inj h
      exact .begin _ _ _ hdone
    · contradiction
  · split at h
    · contradiction
    · rename_i q next hcall
      unfold call at h
      split at h
      · contradiction
      · rename_i r hperform
        obtain rfl := Option.some.inj h
        exact .quiet _ _ q r next hcall hperform
      · rename_i call r hperform
        obtain ⟨link, hlink, rfl⟩ := Option.map_eq_some_iff.mp h
        exact .call _ _ q r next call link hcall hperform hlink

/-- A call that reaches the socket, made by the script that runs. -/
theorem step_call {side : Side} {o : Surroundings} {q : SocketCall} {r : q.Result}
    {next : q.Result → Script (P side).State} {call : Call} {link : TcpLink}
    (hcall : c.script side = .call q next)
    (hperform : q.perform (c.link.socket side) o = some (some call, r))
    (hlink : TcpLink.step c.link (.socket side (.call call)) = some link) :
    step c (.call side o) = some { c with
      link := link
      script := Function.update c.script side (next r)
      exchange := Function.update c.exchange side ((c.exchange side).after
        (c.link.socket side) (.call call) (link.socket side)) } := by
  unfold step
  simp only [hcall]
  unfold Conversation.call
  simp only [hperform, hlink]
  rfl

/-- A call that does not reach the socket. -/
theorem step_quiet {side : Side} {o : Surroundings} {q : SocketCall} {r : q.Result}
    {next : q.Result → Script (P side).State} (hcall : c.script side = .call q next)
    (hperform : q.perform (c.link.socket side) o = some (none, r)) :
    step c (.call side o) =
      some { c with script := Function.update c.script side (next r) } := by
  unfold step
  simp only [hcall]
  unfold Conversation.call
  simp only [hperform]

theorem step_begin {side : Side} {state : (P side).State} (hdone : c.script side = .done state)
    (input : (P side).Input) :
    step c (.begin side input) = some { c with
      script := Function.update c.script side ((P side).script state input)
      inputs := Function.update c.inputs side (c.inputs side ++ [input]) } := by
  unfold step
  simp only [hdone]

/-! ### The invariant of the sockets -/

/-- The sockets are in order, their links carry what is written, the exchanges are those of
the sockets, and a socket that is closed has an error unless its handle has been released. -/
structure Sound (c : Conversation P) : Prop where
  sane : ∀ side, (c.link.socket side).Sane
  carries : ∀ side, c.link.Carries side
  blamed : ∀ side, (c.link.socket side).handle = .held → (c.link.socket side).Blamed
  exchanges : ∀ side, (c.link.socket side).Exchanges (c.exchange side)
  reached : ∀ side, ∃ s es, TcpSession.Created s ∧
    StateMachine.run TcpSession.stepInRange s es = some (c.link.socket side)

theorem sound_of_fresh {start : (side : Side) → (P side).State} (h : c.Fresh start) :
    c.Sound where
  sane := TcpLink.sane_of_fresh h.link
  carries := TcpLink.carries_of_fresh h.link
  blamed := fun side _ => TcpSession.blamed_created (h.link.created side)
  exchanges := by
    intro side
    rw [h.exchange]
    exact TcpSession.exchanges_created (h.link.created side)
  reached := fun side => ⟨_, [], h.link.created side, rfl⟩

end Conversation

namespace TcpSession

/-- As long as the handle is held, only an error closes a socket that is not disconnected. -/
theorem blamed_of_held {s t : TcpSession} {e : Event} (hs : s.handle = .held → s.Blamed)
    (he : e ≠ .call .disconnectAbortive) (h : step s e = some t) (hheld : t.handle = .held) :
    t.Blamed := by
  apply (hs (held_of_step h hheld)).step _ h
  intro haborts
  cases e with
  | completion completion | network n => exact haborts
  | call call =>
    cases call with
    | disconnectAbortive => exact he rfl
    | destroySocket hard =>
      obtain ⟨-, u, hperform, rfl⟩ := (step_eq_some_iff s t _).mp h
      obtain rfl := Outcome.ok.inj hperform
      rw [handle_reap] at hheld
      contradiction
    | _ => exact haborts

end TcpSession

namespace TcpLink

variable {link next : TcpLink}

/-- The socket at one side takes at most one step, which is a call only in a call there. -/
theorem socket_step {e : LinkEvent} (h : step link e = some next) (side : Side) :
    next.socket side = link.socket side ∨ ∃ f, TcpSession.stepInRange (link.socket side) f =
      some (next.socket side) ∧ ∀ c, f = .call c → e = .socket side (.call c) := by
  have htakes : ∀ {s : Side} {f : Event}, link.TakesStep next s f →
      (∀ c, f = .call c → e = .socket s (.call c)) → next.socket side = link.socket side ∨
      ∃ f, TcpSession.stepInRange (link.socket side) f = some (next.socket side) ∧
        ∀ c, f = .call c → e = .socket side (.call c) := by
    intro s f htakes hcall
    rcases Side.eq_or_other s side with rfl | rfl
    · exact Or.inr ⟨f, htakes.step, hcall⟩
    · have hother := htakes.other
      rw [Side.other_other] at hother
      exact Or.inl hother
  cases stepCase h with
  | socket s f _ _ hstep _ =>
    exact htakes hstep fun c hc => by rw [hc]
  | transmit s count _ hsocket _ _ => exact Or.inl (congrFun hsocket side)
  | arrive s count _ hstep _ => exact htakes hstep fun c hc => Event.noConfusion hc
  | peerClose s _ hstep _ => exact htakes hstep fun c hc => Event.noConfusion hc

end TcpLink

namespace Conversation

variable {P : Side → Party} {c d : Conversation P}

/-- No script disconnects a socket and keeps its handle. -/
theorem ne_disconnectAbortive {s : TcpSession} {o : Surroundings} {q : SocketCall} {r : q.Result}
    {call : Call} (h : q.perform s o = some (some call, r)) : call ≠ .disconnectAbortive := by
  rintro rfl
  cases q with
  | tcpReceive size =>
    change SocketCall.performReceive s o (numericCast size) = _ at h
    cases hcast : numericCast size with
    | value n =>
      rw [hcast] at h
      have hcall := Option.some.inj (congrArg Prod.fst (Option.some.inj h))
      contradiction
    | badNumericCast =>
      rw [hcast] at h
      have hcall := congrArg Prod.fst (Option.some.inj h)
      contradiction
    | undefined =>
      rw [hcast] at h
      contradiction
  | write t value | socketSendbufferLimit sizeLimit =>
    obtain ⟨n, -, heq⟩ := Option.map_eq_some_iff.mp h
    have hcall := Option.some.inj (congrArg Prod.fst heq)
    contradiction
  | socketHasError =>
    change (if s.handle = .held then some (none, TcpSocket.hasError s) else none) = _ at h
    split at h
    · have hcall := congrArg Prod.fst (Option.some.inj h)
      contradiction
    · contradiction
  | socketSend | socketDestroy | socketDestroyAbortive | tcpReceiveAvailable | tcpEof
  | writeBytes bytes | read t | readBytes size =>
    have hcall := Option.some.inj (congrArg Prod.fst (Option.some.inj h))
    contradiction

/-- The part of the invariant that only the link has a share in. -/
theorem Sound.link_step {e : LinkEvent} {link : TcpLink} (h : c.Sound)
    (he : ∀ side, e ≠ .socket side (.call .disconnectAbortive))
    (hstep : TcpLink.step c.link e = some link) :
    (∀ side, (link.socket side).Sane) ∧ (∀ side, link.Carries side) ∧
      (∀ side, (link.socket side).handle = .held → (link.socket side).Blamed) ∧
      ∀ side, ∃ s es, TcpSession.Created s ∧
        StateMachine.run TcpSession.stepInRange s es = some (link.socket side) := by
  refine ⟨fun side => ?_, fun side => (h.carries side).step h.sane hstep, fun side => ?_,
    fun side => ?_⟩
  · rcases TcpLink.socket_step hstep side with heq | ⟨f, hf, -⟩
    · rw [heq]
      exact h.sane side
    · exact (h.sane side).step hf
  · rcases TcpLink.socket_step hstep side with heq | ⟨f, hf, hcall⟩
    · rw [heq]
      exact h.blamed side
    · obtain ⟨-, hf⟩ := (StateMachine.restrict_eq_some_iff _ _ _ _ _).mp hf
      exact TcpSession.blamed_of_held (h.blamed side)
        (fun habort => he side (hcall _ habort)) hf
  · obtain ⟨s, es, hcreated, hrun⟩ := h.reached side
    rcases TcpLink.socket_step hstep side with heq | ⟨f, hf, -⟩
    · rw [heq]
      exact ⟨s, es, hcreated, hrun⟩
    · exact ⟨s, es ++ [f], hcreated, StateMachine.run_append_eq_some hrun
        ((StateMachine.run_cons_eq_some_iff _ _ _ _ _).mpr ⟨_, hf, rfl⟩)⟩

/-- A step of the link that is no call of a side leaves the exchange there as it is. -/
theorem Sound.exchanges_of_not_call {e : LinkEvent} {link : TcpLink} (h : c.Sound) {side : Side}
    (he : ∀ call, e ≠ .socket side (.call call)) (hstep : TcpLink.step c.link e = some link) :
    (link.socket side).Exchanges (c.exchange side) := by
  rcases TcpLink.socket_step hstep side with heq | ⟨f, hf, hcall⟩
  · rw [heq]
    exact h.exchanges side
  · obtain ⟨-, hf⟩ := (StateMachine.restrict_eq_some_iff _ _ _ _ _).mp hf
    exact (h.exchanges side).step_of_not_call (h.sane side)
      (fun call hf => he call (hcall call hf)) hf

/-- A call of a side is a step of its socket. -/
theorem step_of_call {side : Side} {call : Call} {link : TcpLink}
    (h : TcpLink.step c.link (.socket side (.call call)) = some link) :
    TcpSession.step (c.link.socket side) (.call call) = some (link.socket side) := by
  cases TcpLink.stepCase h with
  | socket _ _ _ _ htakes _ =>
    exact ((StateMachine.restrict_eq_some_iff _ _ _ _ _).mp htakes.step).2

theorem Sound.step {e : ConversationEvent P} (h : c.Sound) (hstep : step c e = some d) :
    d.Sound := by
  cases stepCase hstep with
  | link e link hauto hlink =>
    have hnotcall : ∀ side call, e ≠ .socket side (.call call) := by
      rintro side call rfl
      exact hauto
    obtain ⟨hsane, hcarries, hblamed, hreached⟩ := h.link_step (fun s => hnotcall s _) hlink
    exact ⟨hsane, hcarries, hblamed,
      fun side => h.exchanges_of_not_call (hnotcall side) hlink, hreached⟩
  | begin side input state _ => exact ⟨h.sane, h.carries, h.blamed, h.exchanges, h.reached⟩
  | quiet side o q r next _ _ => exact ⟨h.sane, h.carries, h.blamed, h.exchanges, h.reached⟩
  | call side o q r next call link _ hperform hlink =>
    obtain ⟨hsane, hcarries, hblamed, hreached⟩ := h.link_step (by
      intro s heq
      exact ne_disconnectAbortive hperform (Event.call.inj (LinkEvent.socket.inj heq).2)) hlink
    refine ⟨hsane, hcarries, hblamed, fun s => ?_, hreached⟩
    rcases Side.eq_or_other side s with rfl | rfl
    · change (link.socket side).Exchanges (Function.update c.exchange side _ side)
      rw [Function.update_self]
      exact (h.exchanges side).step (h.sane side) (step_of_call hlink)
    · change (link.socket s).Exchanges (Function.update c.exchange s.other _ s)
      rw [Function.update_of_ne s.other_ne.symm]
      apply h.exchanges_of_not_call _ hlink
      intro f heq
      exact s.other_ne (LinkEvent.socket.inj heq).1

end Conversation

/-! ### What the scripts keep -/

/-- What holds of the variables and of the exchange when no script runs, and of the
exchange at any time, for the inputs that the scripts have had. -/
structure Party.Contract (p : Party) where
  idle : List p.Input → p.State → Exchange → Prop
  during : List p.Input → Exchange → Prop
  keeps : ∀ inputs state g input, idle inputs state g →
    (p.script state input).Keeps SocketCall.Effect (during (inputs ++ [input]))
      (idle (inputs ++ [input])) g

namespace Conversation

variable {P : Side → Party} {c d : Conversation P} {side : Side}

/-- The script that runs at a side, if any, will keep the contract. -/
def Keeps (c : Conversation P) (side : Side) (K : (P side).Contract) : Prop :=
  (c.script side).Keeps SocketCall.Effect (K.during (c.inputs side)) (K.idle (c.inputs side))
    (c.exchange side)

variable {K : (P side).Contract}

theorem keeps_of_fresh {start : (side : Side) → (P side).State} (h : c.Fresh start)
    (hidle : K.idle [] (start side) .new) (hduring : K.during [] .new) : c.Keeps side K := by
  unfold Keeps
  rw [h.script, h.inputs, h.exchange]
  exact ⟨hduring, hidle⟩

/-- Whatever happens between the calls of the script, the contract is kept. -/
theorem Keeps.step {e : ConversationEvent P} (h : c.Keeps side K) (hs : c.Sound)
    (hstep : Conversation.step c e = some d) : d.Keeps side K := by
  cases stepCase hstep with
  | link e link _ _ => exact h
  | begin s input state hdone =>
    rcases Side.eq_or_other side s with rfl | rfl
    · unfold Conversation.Keeps at h ⊢
      rw [hdone] at h
      simp only [Function.update_self]
      exact K.keeps _ state _ input h.2
    · unfold Conversation.Keeps at h ⊢
      simp only [Function.update_of_ne s.other_ne]
      exact h
  | quiet s o q r next hcall hperform =>
    rcases Side.eq_or_other side s with rfl | rfl
    · unfold Conversation.Keeps at h ⊢
      rw [hcall] at h
      simp only [Function.update_self]
      apply h.2
      apply SocketCall.effect_of_quiet (hs.exchanges side) _ hperform
      intro hheld hclosed
      exact (TcpSession.hasError_iff _).mpr ⟨hclosed, hs.blamed side hheld hclosed⟩
    · unfold Conversation.Keeps at h ⊢
      simp only [Function.update_of_ne s.other_ne]
      exact h
  | call s o q r next call link hcall hperform hlink =>
    rcases Side.eq_or_other side s with rfl | rfl
    · unfold Conversation.Keeps at h ⊢
      rw [hcall] at h
      simp only [Function.update_self]
      exact h.2 _ _ (SocketCall.effect_of_call (hs.exchanges side) hperform (step_of_call hlink))
    · unfold Conversation.Keeps at h ⊢
      simp only [Function.update_of_ne s.other_ne]
      exact h

/-- In every run the sockets are in order and the scripts keep what they keep. -/
theorem keeps_of_run {start : (side : Side) → (P side).State} {es : List (ConversationEvent P)}
    (K : (side : Side) → (P side).Contract) (hfresh : c.Fresh start)
    (hidle : ∀ side, (K side).idle [] (start side) .new)
    (hduring : ∀ side, (K side).during [] .new) (hrun : StateMachine.run step c es = some d) :
    d.Sound ∧ ∀ side, d.Keeps side (K side) := by
  apply StateMachine.run_preserves (fun c => c.Sound ∧ ∀ side, c.Keeps side (K side)) _
    ⟨sound_of_fresh hfresh, fun side => keeps_of_fresh hfresh (hidle side) (hduring side)⟩ hrun
  rintro r e u ⟨hsound, hkeeps⟩ hstep
  exact ⟨hsound.step hstep, fun side => (hkeeps side).step hsound hstep⟩

theorem Keeps.during (h : c.Keeps side K) : K.during (c.inputs side) (c.exchange side) :=
  Program.Keeps.inv h

theorem Keeps.idle {state : (P side).State} (h : c.Keeps side K)
    (hdone : c.script side = .done state) : K.idle (c.inputs side) state (c.exchange side) := by
  unfold Conversation.Keeps at h
  rw [hdone] at h
  exact h.2

/-! ### What one side receives of what the other writes -/

theorem Sound.arrived (h : c.Sound) (side : Side) :
    (c.exchange side).received <+: (c.link.socket side).history.arrived := by
  have hexchange := h.exchanges side
  have hstream : (c.link.socket side).history.delivered =
      ((c.link.socket side).history.arrived.take
        (c.link.socket side).history.delivered.length).map .received := hexchange.flow.stream
  rw [hexchange.received] at hstream
  have heq := List.map_injective_iff.mpr (fun _ _ => ReceiveCell.received.inj) hstream
  rw [heq]
  exact List.take_prefix _ _

theorem Sound.sent (h : c.Sound) (side : Side) :
    c.link.sent side <+: (c.exchange side).written :=
  ((h.carries side).sent_front.trans (List.take_prefix _ _)).trans (h.exchanges side).takes.front

/-- Whatever happens, a side has received a front part of what was written at the other. -/
theorem Sound.received (h : c.Sound) (side : Side) :
    (c.exchange side).received <+: (c.exchange side.other).written := by
  have harrived := (h.carries side.other).arrived
  rw [Side.other_other] at harrived
  exact ((h.arrived side).trans harrived).trans (h.sent side.other)

/-- At the end of the stream it is all, unless the socket at the other side was closed. -/
theorem Sound.complete (h : c.Sound) (side : Side)
    (hend : (c.exchange side).ending = .reached)
    (hother : (c.link.socket side.other).socket.state = .connected) :
    (c.exchange side).received = (c.exchange side.other).written := by
  have hexchange := h.exchanges side
  have hreached := hexchange.reached hend
  have hended := (h.carries side.other).ended
  rw [Side.other_other] at hended
  obtain ⟨hclosed, -, harrived⟩ := hended hreached.peerClosed
  obtain ⟨s, es, hcreated, hrun⟩ := h.reached side.other
  have htransferred := TcpSession.transferred_of_closed hcreated (h.sane side.other) hrun hother
    hclosed
  have hsent : c.link.sent side.other = (c.link.socket side.other).history.accepted := by
    rw [(h.carries side.other).sent_eq, htransferred]
    exact List.take_of_length_le (Nat.le_add_right _ _)
  have hwritten := (h.exchanges side.other).takes.all
    (StateId.ne_closed_of_connected hother)
  have hcells := hreached.delivered
  rw [hexchange.received, harrived, hsent, hwritten] at hcells
  exact List.map_injective_iff.mpr (fun _ _ => ReceiveCell.received.inj) hcells

end Conversation

end FaucetNetworking
