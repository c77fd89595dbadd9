import FaucetNetworking.Lib.StateMachine
import FaucetNetworking.Tcp.Acceptor

/-!
The acceptor for both protocols. Its accept polls one acceptor and then perhaps the
other one, without a lock around the two, so handlers may run in between. Which one
comes first changes with every call.
-/
namespace FaucetNetworking

def Protocol.other : Protocol → Protocol
  | .v4 => .v6
  | .v6 => .v4

theorem Protocol.eq_or_other (p q : Protocol) : q = p ∨ q = p.other := by
  cases p <;> cases q <;> decide

theorem Protocol.other_ne (p : Protocol) : p.other ≠ p := by
  cases p <;> decide

/-- An async_accept on the acceptor for the protocol has completed. -/
structure AcceptCompletion where
  protocol : Protocol
  result : Except String AsioSocket

/-- The acceptors outlive the CombinedTcpAcceptor while an async_accept is outstanding. -/
structure CombinedTcpAcceptor where
  v4Acceptor : AcceptorSession
  v6Acceptor : AcceptorSession
  checkV6First : Bool
  destroyed : Bool

/-- A call of accept comes with the completions that run between its two polls. -/
inductive AcceptEvent where
  | accept (calls : EnterCalls) (between : List AcceptCompletion)
  | completion (c : AcceptCompletion)
  | destroy

namespace CombinedTcpAcceptor

def acceptor (s : CombinedTcpAcceptor) : Protocol → AcceptorSession
  | .v4 => s.v4Acceptor
  | .v6 => s.v6Acceptor

def setAcceptor (s : CombinedTcpAcceptor) (protocol : Protocol) (a : AcceptorSession) :
    CombinedTcpAcceptor :=
  match protocol with
  | .v4 => { s with v4Acceptor := a }
  | .v6 => { s with v6Acceptor := a }

def complete (s : CombinedTcpAcceptor) (c : AcceptCompletion) : Option CombinedTcpAcceptor :=
  ((s.acceptor c.protocol).complete c.result).map (s.setAcceptor c.protocol)

def completeAll : CombinedTcpAcceptor → List AcceptCompletion → Option CombinedTcpAcceptor :=
  StateMachine.run complete

def poll (s : CombinedTcpAcceptor) (protocol : Protocol) (calls : EnterCalls) :
    Option (Option TcpSession × CombinedTcpAcceptor) :=
  ((s.acceptor protocol).accept calls).map fun polled =>
    (polled.1, s.setAcceptor protocol polled.2)

/-- The acceptor that the next call polls first. -/
def first (s : CombinedTcpAcceptor) : Protocol := if s.checkV6First then .v6 else .v4

def toggle (s : CombinedTcpAcceptor) : CombinedTcpAcceptor :=
  { s with checkV6First := !s.checkV6First }

/-- The second acceptor is polled if the first one has no socket. -/
def accept (s : CombinedTcpAcceptor) (calls : EnterCalls) (between : List AcceptCompletion) :
    Option (Option TcpSession × CombinedTcpAcceptor) :=
  match s.poll s.first calls with
  | none => none
  | some (some acceptedSocket, s) => some (some acceptedSocket, s.toggle)
  | some (none, s) =>
    match s.completeAll between with
    | none => none
    | some t => (t.poll s.first.other calls).map fun polled => (polled.1, polled.2.toggle)

def destroy (s : CombinedTcpAcceptor) : CombinedTcpAcceptor :=
  { s with
    v4Acceptor := s.v4Acceptor.close
    v6Acceptor := s.v6Acceptor.close
    destroyed := true }

/-- What the constructor makes of an acceptor that was opened, or of its error. -/
def startListening : Except String AsioAcceptor → Option AcceptorSession
  | .ok acceptor => AcceptorSession.listen acceptor
  | .error message => some (AcceptorSession.error message)

def create (v4acceptor v6acceptor : Except String AsioAcceptor) : Option CombinedTcpAcceptor :=
  match startListening v4acceptor, startListening v6acceptor with
  | some v4Acceptor, some v6Acceptor => some ⟨v4Acceptor, v6Acceptor, false, false⟩
  | _, _ => none

/-- An async_accept is outstanding, or a call is possible. Nothing runs between the polls
of a call that polls once. -/
def Enabled (s : CombinedTcpAcceptor) : AcceptEvent → Prop
  | .accept _ between => s.destroyed = false ∧
      ((s.acceptor s.first).acceptor.socket ≠ none → between = [])
  | .completion _ => True
  | .destroy => s.destroyed = false

instance (s : CombinedTcpAcceptor) (e : AcceptEvent) : Decidable (Enabled s e) := by
  unfold Enabled
  cases e <;> infer_instance

def perform (s : CombinedTcpAcceptor) : AcceptEvent → Option CombinedTcpAcceptor
  | .accept calls between => (s.accept calls between).map Prod.snd
  | .completion c => s.complete c
  | .destroy => some s.destroy

def step (s : CombinedTcpAcceptor) (e : AcceptEvent) : Option CombinedTcpAcceptor :=
  if Enabled s e then s.perform e else none

theorem step_eq_some_iff (s t : CombinedTcpAcceptor) (e : AcceptEvent) :
    step s e = some t ↔ Enabled s e ∧ s.perform e = some t := by
  unfold step
  split
  · rename_i h
    simp only [h, true_and]
  · rename_i h
    simp only [reduceCtorEq, h, false_and]

/-! ### The two acceptors -/

@[simp] theorem acceptor_setAcceptor_self (s : CombinedTcpAcceptor) (protocol : Protocol)
    (a : AcceptorSession) : (s.setAcceptor protocol a).acceptor protocol = a := by
  cases protocol <;> rfl

theorem acceptor_setAcceptor_of_ne (s : CombinedTcpAcceptor) {protocol other : Protocol}
    (h : other ≠ protocol) (a : AcceptorSession) :
    (s.setAcceptor protocol a).acceptor other = s.acceptor other := by
  cases protocol <;> cases other <;> first | rfl | exact absurd rfl h

@[simp] theorem acceptor_toggle (s : CombinedTcpAcceptor) (protocol : Protocol) :
    s.toggle.acceptor protocol = s.acceptor protocol := by
  cases protocol <;> rfl

@[simp] theorem checkV6First_setAcceptor (s : CombinedTcpAcceptor) (protocol : Protocol)
    (a : AcceptorSession) : (s.setAcceptor protocol a).checkV6First = s.checkV6First := by
  cases protocol <;> rfl

@[simp] theorem first_setAcceptor (s : CombinedTcpAcceptor) (protocol : Protocol)
    (a : AcceptorSession) : (s.setAcceptor protocol a).first = s.first := by
  unfold first
  rw [checkV6First_setAcceptor]

theorem first_toggle (s : CombinedTcpAcceptor) : s.toggle.first = s.first.other := by
  unfold first toggle
  cases s.checkV6First <;> rfl

theorem setAcceptor_acceptor (s : CombinedTcpAcceptor) (protocol : Protocol) :
    s.setAcceptor protocol (s.acceptor protocol) = s := by
  cases protocol <;> rfl

def Tokens (s : CombinedTcpAcceptor) : Prop := ∀ protocol, (s.acceptor protocol).Token

theorem Tokens.setAcceptor {s : CombinedTcpAcceptor} (h : s.Tokens) {protocol : Protocol}
    {a : AcceptorSession} (ha : a.Token) : (s.setAcceptor protocol a).Tokens := by
  intro other
  by_cases hother : other = protocol
  · rw [hother, acceptor_setAcceptor_self]
    exact ha
  · rw [acceptor_setAcceptor_of_ne s hother]
    exact h other

theorem Tokens.toggle {s : CombinedTcpAcceptor} (h : s.Tokens) : s.toggle.Tokens := by
  intro protocol
  rw [acceptor_toggle]
  exact h protocol

/-! ### Completions -/

/-- The connections that the completions bring for a protocol. -/
def brought (protocol : Protocol) (cs : List AcceptCompletion) : List AsioSocket :=
  cs.flatMap fun c => if c.protocol = protocol then AcceptorSession.accepts c.result else []

theorem brought_append (protocol : Protocol) (cs ds : List AcceptCompletion) :
    brought protocol (cs ++ ds) = brought protocol cs ++ brought protocol ds :=
  List.flatMap_append

/-- What completions do: a socket that is waiting stays. -/
structure Completed (s t : CombinedTcpAcceptor) (cs : List AcceptCompletion) : Prop where
  tokens : t.Tokens
  first : t.first = s.first
  returned : ∀ protocol, (t.acceptor protocol).returned = (s.acceptor protocol).returned
  accepted : ∀ protocol, (t.acceptor protocol).accepted =
    (s.acceptor protocol).accepted ++ brought protocol cs
  waits : ∀ protocol socket, (s.acceptor protocol).acceptor.socket = some socket →
    (t.acceptor protocol).acceptor.socket = some socket

theorem Completed.refl {s : CombinedTcpAcceptor} (h : s.Tokens) : Completed s s [] :=
  ⟨h, rfl, fun _ => rfl, fun _ => (List.append_nil _).symm, fun _ _ hsocket => hsocket⟩

theorem Completed.trans {s t u : CombinedTcpAcceptor} {cs ds : List AcceptCompletion}
    (h : Completed s t cs) (h' : Completed t u ds) : Completed s u (cs ++ ds) where
  tokens := h'.tokens
  first := h'.first.trans h.first
  returned := fun protocol => (h'.returned protocol).trans (h.returned protocol)
  accepted := by
    intro protocol
    rw [h'.accepted, h.accepted, brought_append, List.append_assoc]
  waits := fun protocol socket hsocket =>
    h'.waits protocol socket (h.waits protocol socket hsocket)

/-- An async_accept that is outstanding can complete with any result. -/
theorem Tokens.complete {s : CombinedTcpAcceptor} (h : s.Tokens) {c : AcceptCompletion}
    (hpending : 0 < (s.acceptor c.protocol).pending) :
    ∃ t, s.complete c = some t ∧ Completed s t [c] := by
  obtain ⟨a, ha, htoken, hreturned, haccepted⟩ := (h c.protocol).complete hpending c.result
  refine ⟨s.setAcceptor c.protocol a, ?_, h.setAcceptor htoken, first_setAcceptor s _ a,
    ?_, ?_, ?_⟩
  · unfold CombinedTcpAcceptor.complete
    rw [ha]
    rfl
  · intro protocol
    by_cases hsame : protocol = c.protocol
    · rw [hsame, acceptor_setAcceptor_self, hreturned]
    · rw [acceptor_setAcceptor_of_ne s hsame]
  · intro protocol
    unfold brought
    rw [List.flatMap_singleton]
    by_cases hsame : protocol = c.protocol
    · rw [hsame, acceptor_setAcceptor_self, haccepted, if_pos rfl]
    · rw [acceptor_setAcceptor_of_ne s hsame, if_neg (Ne.symm hsame), List.append_nil]
  · intro protocol socket hsocket
    by_cases hsame : protocol = c.protocol
    · rw [hsame, (h c.protocol).not_waiting hpending] at hsocket
      contradiction
    · rwa [acceptor_setAcceptor_of_ne s hsame]

theorem Tokens.completed {s t : CombinedTcpAcceptor} (h : s.Tokens) {c : AcceptCompletion}
    (hc : s.complete c = some t) : Completed s t [c] := by
  have hpending : 0 < (s.acceptor c.protocol).pending := by
    by_contra hnone
    unfold CombinedTcpAcceptor.complete AcceptorSession.complete at hc
    rw [if_neg hnone] at hc
    contradiction
  obtain ⟨t', ht', hcompleted⟩ := h.complete hpending
  rw [hc] at ht'
  rwa [Option.some.inj ht']

theorem Tokens.completedAll {s t : CombinedTcpAcceptor} (h : s.Tokens)
    {cs : List AcceptCompletion} (hcs : s.completeAll cs = some t) : Completed s t cs := by
  unfold completeAll at hcs
  induction cs generalizing s with
  | nil =>
    obtain rfl := Option.some.inj hcs
    exact Completed.refl h
  | cons c rest ih =>
    obtain ⟨r, hr, hrest⟩ := (StateMachine.run_cons_eq_some_iff _ s t c rest).mp hcs
    have hfirst := h.completed hr
    exact hfirst.trans (ih hfirst.tokens hrest)

/-! ### Polls -/

/-- A poll that has found a waiting socket. -/
structure Returned (s t : CombinedTcpAcceptor) (protocol : Protocol) (socket : AsioSocket) :
    Prop where
  tokens : t.Tokens
  first : t.first = s.first
  returned : (t.acceptor protocol).returned = (s.acceptor protocol).returned ++ [socket]
  accepted : (t.acceptor protocol).accepted = (s.acceptor protocol).accepted
  others : ∀ other, other ≠ protocol → t.acceptor other = s.acceptor other

theorem Tokens.poll_some {s : CombinedTcpAcceptor} (h : s.Tokens) {protocol : Protocol}
    {socket : AsioSocket} (hsocket : (s.acceptor protocol).acceptor.socket = some socket)
    (calls : EnterCalls) : ∃ t,
      s.poll protocol calls = some (some (TcpSocket.fromConnectedSocket socket calls), t) ∧
      Returned s t protocol socket := by
  obtain ⟨a, ha, htoken, hreturned, -, haccepted⟩ := (h protocol).accept_some hsocket calls
  refine ⟨s.setAcceptor protocol a, ?_, h.setAcceptor htoken, first_setAcceptor s _ a, ?_, ?_,
    fun other hother => acceptor_setAcceptor_of_ne s hother a⟩
  · unfold poll
    rw [ha]
    rfl
  · rw [acceptor_setAcceptor_self, hreturned]
  · rw [acceptor_setAcceptor_self, haccepted]

theorem poll_none {s : CombinedTcpAcceptor} {protocol : Protocol}
    (hsocket : (s.acceptor protocol).acceptor.socket = none) (calls : EnterCalls) :
    s.poll protocol calls = some (none, s) := by
  unfold poll
  rw [AcceptorSession.accept_none hsocket, Option.map_some, setAcceptor_acceptor]

/-- How a call of accept ends. -/
inductive AcceptCase (s : CombinedTcpAcceptor) (calls : EnterCalls)
    (between : List AcceptCompletion) : Option TcpSession × CombinedTcpAcceptor → Prop where
  | first (socket : AsioSocket) (t : CombinedTcpAcceptor) :
      (s.acceptor s.first).acceptor.socket = some socket → Returned s t s.first socket →
      AcceptCase s calls between (some (TcpSocket.fromConnectedSocket socket calls), t.toggle)
  | second (socket : AsioSocket) (u t : CombinedTcpAcceptor) :
      (s.acceptor s.first).acceptor.socket = none → Completed s u between →
      (u.acceptor s.first.other).acceptor.socket = some socket →
      Returned u t s.first.other socket →
      AcceptCase s calls between (some (TcpSocket.fromConnectedSocket socket calls), t.toggle)
  | neither (u : CombinedTcpAcceptor) : (s.acceptor s.first).acceptor.socket = none →
      Completed s u between → (u.acceptor s.first.other).acceptor.socket = none →
      AcceptCase s calls between (none, u.toggle)

/-- A call ends unless what is said to run between its polls cannot. -/
theorem Tokens.accept_case {s : CombinedTcpAcceptor} (h : s.Tokens) (calls : EnterCalls)
    {between : List AcceptCompletion}
    (hbetween : (s.acceptor s.first).acceptor.socket = none → s.completeAll between ≠ none) :
    ∃ result, s.accept calls between = some result ∧ AcceptCase s calls between result := by
  unfold CombinedTcpAcceptor.accept
  cases hsocket : (s.acceptor s.first).acceptor.socket with
  | some socket =>
    obtain ⟨t, hpoll, hreturned⟩ := h.poll_some hsocket calls
    rw [hpoll]
    exact ⟨_, rfl, .first socket t hsocket hreturned⟩
  | none =>
    obtain ⟨u, hu⟩ := Option.ne_none_iff_exists'.mp (hbetween hsocket)
    have hcompleted := h.completedAll hu
    rw [poll_none hsocket]
    simp only [hu]
    cases hsecond : (u.acceptor s.first.other).acceptor.socket with
    | some socket =>
      obtain ⟨t, hpoll, hreturned⟩ := hcompleted.tokens.poll_some hsecond calls
      rw [hpoll]
      exact ⟨_, rfl, .second socket u t hsocket hcompleted hsecond hreturned⟩
    | none =>
      rw [poll_none hsecond]
      exact ⟨_, rfl, .neither u hsocket hcompleted hsecond⟩

theorem Tokens.case_of_accept {s : CombinedTcpAcceptor} (h : s.Tokens) {calls : EnterCalls}
    {between : List AcceptCompletion} {result : Option TcpSession × CombinedTcpAcceptor}
    (haccept : s.accept calls between = some result) : AcceptCase s calls between result := by
  have hbetween : (s.acceptor s.first).acceptor.socket = none →
      s.completeAll between ≠ none := by
    intro hsocket hnone
    unfold CombinedTcpAcceptor.accept at haccept
    rw [poll_none hsocket] at haccept
    simp only [hnone] at haccept
    contradiction
  obtain ⟨result', hresult', hcase⟩ := h.accept_case calls hbetween
  rw [haccept] at hresult'
  rwa [Option.some.inj hresult']

/-! ### Calls -/

/-- What a call returns. -/
inductive Answer (s t : CombinedTcpAcceptor) (calls : EnterCalls) : Option TcpSession → Prop where
  | socket (protocol : Protocol) (socket : AsioSocket) :
      (t.acceptor protocol).returned = (s.acceptor protocol).returned ++ [socket] →
      (t.acceptor protocol.other).returned = (s.acceptor protocol.other).returned →
      Answer s t calls (some (TcpSocket.fromConnectedSocket socket calls))
  | null : (∀ protocol, (s.acceptor protocol).acceptor.socket = none) →
      (∀ protocol, (t.acceptor protocol).returned = (s.acceptor protocol).returned) →
      Answer s t calls none

/-- A socket that is waiting at a call is returned, or it is the first to be returned at
the next call. -/
inductive Served (s t : CombinedTcpAcceptor) (protocol : Protocol) (socket : AsioSocket) :
    Prop where
  | now : (t.acceptor protocol).returned = (s.acceptor protocol).returned ++ [socket] →
      Served s t protocol socket
  | next : t.first = protocol → (t.acceptor protocol).acceptor.socket = some socket →
      (t.acceptor protocol).returned = (s.acceptor protocol).returned →
      Served s t protocol socket

/-- All that a call of accept does. -/
structure AcceptStep (s t : CombinedTcpAcceptor) (calls : EnterCalls)
    (between : List AcceptCompletion) (result : Option TcpSession) : Prop where
  tokens : t.Tokens
  accepted : ((s.acceptor s.first).acceptor.socket ≠ none → between = []) → ∀ protocol,
    (t.acceptor protocol).accepted = (s.acceptor protocol).accepted ++ brought protocol between
  answer : Answer s t calls result
  served : ∀ protocol socket, (s.acceptor protocol).acceptor.socket = some socket →
    Served s t protocol socket

theorem Returned.accepted_eq {s t : CombinedTcpAcceptor} {protocol : Protocol}
    {socket : AsioSocket} (h : Returned s t protocol socket) (other : Protocol) :
    (t.acceptor other).accepted = (s.acceptor other).accepted := by
  by_cases hother : other = protocol
  · rw [hother, h.accepted]
  · rw [h.others other hother]

/-- The acceptor that is looked at first has a socket. -/
theorem acceptStep_first {s t : CombinedTcpAcceptor} {socket : AsioSocket}
    (hsocket : (s.acceptor s.first).acceptor.socket = some socket)
    (hreturned : Returned s t s.first socket) (calls : EnterCalls)
    (between : List AcceptCompletion) :
    AcceptStep s t.toggle calls between (some (TcpSocket.fromConnectedSocket socket calls)) := by
  have hother := hreturned.others s.first.other (Protocol.other_ne s.first)
  refine ⟨hreturned.tokens.toggle, ?_, .socket s.first socket ?_ ?_, ?_⟩
  · intro hnothing protocol
    have hne : (s.acceptor s.first).acceptor.socket ≠ none := by
      rw [hsocket]
      exact Option.some_ne_none socket
    rw [acceptor_toggle, hreturned.accepted_eq, hnothing hne]
    exact (List.append_nil _).symm
  · rw [acceptor_toggle, hreturned.returned]
  · rw [acceptor_toggle, hother]
  · intro protocol waiting hwaiting
    rcases Protocol.eq_or_other s.first protocol with rfl | rfl
    · rw [hsocket] at hwaiting
      apply Served.now
      rw [acceptor_toggle, hreturned.returned, Option.some.inj hwaiting]
    · refine Served.next ?_ ?_ ?_
      · rw [first_toggle, hreturned.first]
      · rw [acceptor_toggle, hother, hwaiting]
      · rw [acceptor_toggle, hother]

/-- Only the acceptor that is looked at second has a socket. -/
theorem acceptStep_second {s u t : CombinedTcpAcceptor} {between : List AcceptCompletion}
    {socket : AsioSocket} (hsocket : (s.acceptor s.first).acceptor.socket = none)
    (hcompleted : Completed s u between)
    (hsecond : (u.acceptor s.first.other).acceptor.socket = some socket)
    (hreturned : Returned u t s.first.other socket) (calls : EnterCalls) :
    AcceptStep s t.toggle calls between (some (TcpSocket.fromConnectedSocket socket calls)) := by
  have hfirst := hreturned.others s.first (Protocol.other_ne s.first).symm
  have hback : s.first.other.other = s.first := by cases s.first <;> rfl
  refine ⟨hreturned.tokens.toggle, ?_, .socket s.first.other socket ?_ ?_, ?_⟩
  · intro _ protocol
    rw [acceptor_toggle, hreturned.accepted_eq, hcompleted.accepted]
  · rw [acceptor_toggle, hreturned.returned, hcompleted.returned]
  · rw [acceptor_toggle, hback, hfirst, hcompleted.returned]
  · intro protocol waiting hwaiting
    rcases Protocol.eq_or_other s.first protocol with rfl | rfl
    · rw [hsocket] at hwaiting
      contradiction
    · have hstill := hcompleted.waits _ _ hwaiting
      rw [hsecond] at hstill
      apply Served.now
      rw [acceptor_toggle, hreturned.returned, hcompleted.returned, Option.some.inj hstill]

/-- A socket that was waiting is still there at the second poll, so none was. -/
theorem acceptStep_neither {s u : CombinedTcpAcceptor} {between : List AcceptCompletion}
    (hsocket : (s.acceptor s.first).acceptor.socket = none) (hcompleted : Completed s u between)
    (hsecond : (u.acceptor s.first.other).acceptor.socket = none) (calls : EnterCalls) :
    AcceptStep s u.toggle calls between none := by
  have hnone : (s.acceptor s.first.other).acceptor.socket = none := by
    cases hwaiting : (s.acceptor s.first.other).acceptor.socket with
    | none => rfl
    | some socket =>
      rw [hcompleted.waits _ _ hwaiting] at hsecond
      contradiction
  have hboth : ∀ protocol, (s.acceptor protocol).acceptor.socket = none := by
    intro protocol
    rcases Protocol.eq_or_other s.first protocol with rfl | rfl
    · exact hsocket
    · exact hnone
  refine ⟨hcompleted.tokens.toggle, ?_, .null hboth ?_, ?_⟩
  · intro _ protocol
    rw [acceptor_toggle, hcompleted.accepted]
  · intro protocol
    rw [acceptor_toggle, hcompleted.returned]
  · intro protocol waiting hwaiting
    rw [hboth protocol] at hwaiting
    contradiction

theorem AcceptCase.acceptStep {s t : CombinedTcpAcceptor} {calls : EnterCalls}
    {between : List AcceptCompletion} {result : Option TcpSession}
    (hcase : AcceptCase s calls between (result, t)) : AcceptStep s t calls between result := by
  cases hcase with
  | first socket r hsocket hreturned => exact acceptStep_first hsocket hreturned calls between
  | second socket u r hsocket hcompleted hsecond hreturned =>
    exact acceptStep_second hsocket hcompleted hsecond hreturned calls
  | neither u hsocket hcompleted hsecond =>
    exact acceptStep_neither hsocket hcompleted hsecond calls

/-- The next call, whatever completes until then, returns the socket. -/
theorem served_next {s : CombinedTcpAcceptor} (h : s.Tokens) {protocol : Protocol}
    {socket : AsioSocket} (hfirst : s.first = protocol)
    (hwaiting : (s.acceptor protocol).acceptor.socket = some socket)
    {cs between : List AcceptCompletion} {u v : CombinedTcpAcceptor} {calls : EnterCalls}
    {result : Option TcpSession} (hcs : s.completeAll cs = some u)
    (haccept : u.accept calls between = some (result, v)) :
    (v.acceptor protocol).returned = (s.acceptor protocol).returned ++ [socket] := by
  have hcompleted := h.completedAll hcs
  have hstill := hcompleted.waits protocol socket hwaiting
  rw [← hcompleted.first] at hfirst
  subst hfirst
  cases hcompleted.tokens.case_of_accept haccept with
  | first other t hsocket hreturned =>
    rw [hstill] at hsocket
    rw [acceptor_toggle, hreturned.returned, hcompleted.returned, Option.some.inj hsocket]
  | second other w t hsocket _ _ _ =>
    rw [hstill] at hsocket
    contradiction
  | neither w hsocket _ _ =>
    rw [hstill] at hsocket
    contradiction

/-! ### Runs -/

/-- The completions of an event. -/
def completions : AcceptEvent → List AcceptCompletion
  | .accept _ between => between
  | .completion c => [c]
  | .destroy => []

/-- What is known of the acceptors after the events. -/
structure Accounted (es : List AcceptEvent) (s : CombinedTcpAcceptor) : Prop where
  tokens : s.Tokens
  accepted : ∀ protocol, (s.acceptor protocol).accepted =
    brought protocol (es.flatMap completions)

theorem Accounted.step {es : List AcceptEvent} {s t : CombinedTcpAcceptor} {e : AcceptEvent}
    (h : Accounted es s) (hstep : CombinedTcpAcceptor.step s e = some t) :
    Accounted (es ++ [e]) t := by
  obtain ⟨henabled, hperform⟩ := (step_eq_some_iff s t e).mp hstep
  have hsplit : ∀ protocol, brought protocol ((es ++ [e]).flatMap completions) =
      (s.acceptor protocol).accepted ++ brought protocol (completions e) := by
    intro protocol
    rw [List.flatMap_append, List.flatMap_singleton, brought_append, h.accepted]
  cases e with
  | accept calls between =>
    obtain ⟨⟨result, r⟩, haccept, rfl⟩ := Option.map_eq_some_iff.mp hperform
    have hcall := (h.tokens.case_of_accept haccept).acceptStep
    exact ⟨hcall.tokens, fun protocol =>
      (hcall.accepted henabled.2 protocol).trans (hsplit protocol).symm⟩
  | completion c =>
    have hcompleted := h.tokens.completed hperform
    exact ⟨hcompleted.tokens, fun protocol =>
      (hcompleted.accepted protocol).trans (hsplit protocol).symm⟩
  | destroy =>
    obtain rfl := Option.some.inj hperform
    refine ⟨?_, ?_⟩
    · intro protocol
      cases protocol with
      | v4 => exact (h.tokens .v4).close
      | v6 => exact (h.tokens .v6).close
    · intro protocol
      rw [hsplit]
      cases protocol <;> exact (List.append_nil _).symm

theorem token_startListening {opened : Except String AsioAcceptor} {a : AcceptorSession}
    (h : startListening opened = some a) : a.Token ∧ a.accepted = [] := by
  cases opened with
  | ok acceptor =>
    have htoken := AcceptorSession.token_listen h
    obtain rfl := Option.some.inj h
    exact ⟨htoken, rfl⟩
  | error message =>
    obtain rfl := Option.some.inj h
    exact ⟨AcceptorSession.token_error message, rfl⟩

theorem accounted_create {v4acceptor v6acceptor : Except String AsioAcceptor}
    {s : CombinedTcpAcceptor} (h : create v4acceptor v6acceptor = some s) :
    Accounted [] s := by
  unfold create at h
  split at h
  · rename_i a b ha hb
    obtain rfl := Option.some.inj h
    obtain ⟨htoken, haccepted⟩ := token_startListening ha
    obtain ⟨htoken', haccepted'⟩ := token_startListening hb
    refine ⟨?_, ?_⟩
    · intro protocol
      cases protocol with
      | v4 => exact htoken
      | v6 => exact htoken'
    · intro protocol
      cases protocol with
      | v4 => exact haccepted
      | v6 => exact haccepted'
  · contradiction

/-- What holds of the acceptors after the events. -/
structure DeliversOnce (es : List AcceptEvent) (s : CombinedTcpAcceptor) : Prop where
  single : ∀ protocol, (s.acceptor protocol).pending ≤ 1
  none_while_waiting : ∀ protocol, (s.acceptor protocol).acceptor.socket ≠ none →
    (s.acceptor protocol).pending = 0
  /-- Every accepted connection has been returned, in order, but one that is waiting. -/
  accounted : ∀ protocol,
    (s.acceptor protocol).returned ++ (s.acceptor protocol).acceptor.socket.toList =
      brought protocol (es.flatMap completions)
  /-- No pointer is null where it is used. -/
  completes : ∀ c, 0 < (s.acceptor c.protocol).pending → s.complete c ≠ none
  answers : ∀ calls between,
    ((s.acceptor s.first).acceptor.socket = none → s.completeAll between ≠ none) →
    s.accept calls between ≠ none
  answer : ∀ calls between result t, s.accept calls between = some (result, t) →
    Answer s t calls result
  /-- A connection that is waiting at a call is returned by this or the next one. -/
  prompt : ∀ calls between result t, s.accept calls between = some (result, t) →
    ∀ protocol socket, (s.acceptor protocol).acceptor.socket = some socket →
    (t.acceptor protocol).returned = (s.acceptor protocol).returned ++ [socket] ∨
      ∀ cs u calls' between' result' v, t.completeAll cs = some u →
        u.accept calls' between' = some (result', v) →
        (v.acceptor protocol).returned = (s.acceptor protocol).returned ++ [socket]

/-- Every run delivers each connection once, whatever order things happen in. -/
theorem deliversOnce_of_run (v4acceptor v6acceptor : Except String AsioAcceptor)
    (es : List AcceptEvent) (r s : CombinedTcpAcceptor)
    (hcreate : create v4acceptor v6acceptor = some r)
    (hrun : StateMachine.run step r es = some s) : DeliversOnce es s := by
  have h : Accounted es s := by
    apply StateMachine.run_traces Accounted _ (accounted_create hcreate) hrun
    intro past u e t hu hstep
    exact hu.step hstep
  refine ⟨?_, ?_, ?_, ?_, ?_, ?_, ?_⟩
  · intro protocol
    exact Nat.le_trans (Nat.le_add_right _ _) (h.tokens protocol).single
  · intro protocol hwaiting
    obtain ⟨socket, hsocket⟩ := Option.ne_none_iff_exists'.mp hwaiting
    exact (h.tokens protocol).none_pending hsocket
  · intro protocol
    rw [← (h.tokens protocol).accounted, h.accepted]
  · intro c hpending
    obtain ⟨t, ht, -⟩ := h.tokens.complete hpending
    rw [ht]
    exact Option.some_ne_none t
  · intro calls between hbetween
    obtain ⟨result, hresult, -⟩ := h.tokens.accept_case calls hbetween
    rw [hresult]
    exact Option.some_ne_none result
  · intro calls between result t haccept
    exact ((h.tokens.case_of_accept haccept).acceptStep).answer
  · intro calls between result t haccept protocol socket hwaiting
    have hcall := (h.tokens.case_of_accept haccept).acceptStep
    cases hcall.served protocol socket hwaiting with
    | now hreturned => exact Or.inl hreturned
    | next hfirst hstill hreturned =>
      right
      intro cs u calls' between' result' v hcs haccept'
      rw [← hreturned]
      exact served_next hcall.tokens hfirst hstill hcs haccept'

/-- A connection on each protocol, the second of which has to wait for the next call. -/
theorem deliversOnce_of_run_two : ∃ es r s,
    create (.ok ⟨true⟩) (.ok ⟨true⟩) = some r ∧ StateMachine.run step r es = some s ∧
      (s.acceptor .v4).returned = [⟨true, [1], false, false⟩] ∧
      (s.acceptor .v6).acceptor.socket = some ⟨true, [], false, false⟩ ∧
      DeliversOnce es s := by
  have hcreate : create (.ok ⟨true⟩) (.ok ⟨true⟩) =
      some ⟨⟨⟨none, some ⟨true⟩, false, ""⟩, 1, [], []⟩,
        ⟨⟨none, some ⟨true⟩, false, ""⟩, 1, [], []⟩, false, false⟩ := rfl
  have hrun : StateMachine.run step ⟨⟨⟨none, some ⟨true⟩, false, ""⟩, 1, [], []⟩,
        ⟨⟨none, some ⟨true⟩, false, ""⟩, 1, [], []⟩, false, false⟩
      [.completion ⟨.v6, .ok ⟨true, [], false, false⟩⟩,
        .completion ⟨.v4, .ok ⟨true, [1], false, false⟩⟩,
        .accept ⟨.error "gone", .error "gone", .error "gone", .ok (), .ok ()⟩ []] = some _ := rfl
  exact ⟨_, _, _, hcreate, hrun, rfl, rfl, deliversOnce_of_run _ _ _ _ _ hcreate hrun⟩

end CombinedTcpAcceptor

end FaucetNetworking
