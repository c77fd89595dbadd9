import FaucetNetworking.Tcp.Setup

/-!
The attempts to connect. The endpoints of the lookup are tried one after the other,
the IPv4 ones first, until one attempt succeeds or none is left. Closing the socket
ends this at any point: the handler that comes then starts nothing.
-/
namespace FaucetNetworking

/-- Closing the socket between two attempts succeeds, and a lookup that succeeds has
found something. -/
def Event.Regular : Event → Prop
  | .completion (.resolve result closeError) => closeError = none ∧ result ≠ .ok []
  | .completion (.connect _ _ closeError _) => closeError = none
  | _ => True

theorem Event.IsSetup.cases {e : Event} (he : e.IsSetup) :
    (∃ result closeError, e = .completion (.resolve result closeError)) ∨
      ∃ index error closeError calls, e = .completion (.connect index error closeError calls) := by
  cases e with
  | call request => exact he.elim
  | network n => exact he.elim
  | completion done =>
    cases done with
    | resolve result closeError => exact Or.inl ⟨result, closeError, rfl⟩
    | connect index error closeError calls => exact Or.inr ⟨index, error, closeError, calls, rfl⟩
    | send index error n => exact he.elim
    | receive index error => exact he.elim

/-- No call in TcpConnected::enter throws. -/
def EnterCalls.Succeed (calls : EnterCalls) : Prop :=
  ∃ remoteEndpoint localEndpoint address,
    calls = ⟨.ok remoteEndpoint, .ok localEndpoint, .ok address, .ok (), .ok ()⟩

namespace TcpSession

/-- What the handlers have been told: the results of the lookup and the outcomes of the
attempts. -/
structure ConnectTrace where
  results : List Endpoint
  outcomes : List (Option String)

def ConnectTrace.note (c : ConnectTrace) : Event → ConnectTrace
  | .completion (.resolve (.ok results) _) => { c with results := results }
  | .completion (.connect _ error _ _) => { c with outcomes := c.outcomes ++ [error] }
  | _ => c

/-- A literal address is its own result. -/
def connectTrace (literal : Option Endpoint) (es : List Event) : ConnectTrace :=
  es.foldl ConnectTrace.note ⟨literal.toList, []⟩

theorem connectTrace_concat (literal : Option Endpoint) (es : List Event) (e : Event) :
    connectTrace literal (es ++ [e]) = (connectTrace literal es).note e := by
  unfold connectTrace
  rw [List.foldl_append]
  rfl

theorem ConnectTrace.note_of_not_setup (c : ConnectTrace) {e : Event} (he : ¬ e.IsSetup) :
    c.note e = c := by
  cases e with
  | call request => rfl
  | network n => rfl
  | completion done =>
    cases done with
    | resolve result closeError => exact absurd trivial he
    | connect index error closeError calls => exact absurd trivial he
    | send index error n => rfl
    | receive index error => rfl

/-- No operation of the setup is pending. -/
def SetupOver (s : TcpSession) : Prop := s.pending.resolves = 0 ∧ s.pending.connects = []

/-- How far the setup has come. -/
inductive ConnectStage (c : ConnectTrace) (s : TcpSession) : Prop where
  | resolving : s.socket.state = .connecting → s.pending = ⟨1, [], [], []⟩ →
      s.history.attempts = [] → c = ⟨[], []⟩ → ConnectStage c s
  /-- All attempts but the current one have failed, and the others are to come. -/
  | attempting (endpoints : V4FirstIterator) : s.socket.state = .connecting →
      s.pending = ⟨0, [endpoints], [], []⟩ →
      s.history.attempts ++ endpoints.remaining = V4FirstIterator.v4First c.results →
      s.history.attempts.length = c.outcomes.length + 1 →
      (∀ outcome ∈ c.outcomes, outcome ≠ none) → ConnectStage c s
  /-- The last attempt was the first to succeed. -/
  | connected (failures : List (Option String)) : s.socket.state ≠ .connecting →
      s.SetupOver → s.history.attempts <+: V4FirstIterator.v4First c.results →
      s.history.attempts.length = c.outcomes.length → c.outcomes = failures ++ [none] →
      (∀ outcome ∈ failures, outcome ≠ none) → ConnectStage c s
  /-- Every endpoint has been tried, and the error is that of the last one. -/
  | exhausted (failures : List (Option String)) (message : String) :
      TcpSocket.hasError s = true → TcpSocket.getErrorMessage s = message → s.SetupOver →
      s.history.attempts = V4FirstIterator.v4First c.results →
      s.history.attempts.length = c.outcomes.length →
      c.outcomes = failures ++ [some message] → (∀ outcome ∈ failures, outcome ≠ none) →
      ConnectStage c s
  | lookupFailed (message : String) : TcpSocket.hasError s = true →
      TcpSocket.getErrorMessage s = message → s.SetupOver → s.history.attempts = [] →
      c = ⟨[], []⟩ → ConnectStage c s
  /-- The socket was closed before; an operation may still be pending. -/
  | cut : s.socket.state = .closed →
      s.history.attempts <+: V4FirstIterator.v4First c.results →
      s.history.attempts.length = c.outcomes.length + s.pending.connects.length →
      (∀ outcome ∈ c.outcomes.take (s.history.attempts.length - 1), outcome ≠ none) →
      (s.history.attempts = [] ∨ s.pending.resolves = 0) → ConnectStage c s

theorem ConnectStage.reap {c : ConnectTrace} {s : TcpSession} (h : ConnectStage c s) :
    ConnectStage c s.reap := by
  unfold TcpSession.reap
  split
  · cases h with
    | resolving hstate hpending hattempts hc => exact .resolving hstate hpending hattempts hc
    | attempting endpoints hstate hpending horder hlength hfailed =>
      exact .attempting endpoints hstate hpending horder hlength hfailed
    | connected failures hstate hover horder hlength houtcomes hfailed =>
      exact .connected failures hstate hover horder hlength houtcomes hfailed
    | exhausted failures message herror hmessage hover horder hlength houtcomes hfailed =>
      exact .exhausted failures message herror hmessage hover horder hlength houtcomes hfailed
    | lookupFailed message herror hmessage hover hattempts hc =>
      exact .lookupFailed message herror hmessage hover hattempts hc
    | cut hstate horder hlength hfailed hresolves =>
      exact .cut hstate horder hlength hfailed hresolves
  · exact h

/-! ### A socket that is no longer connecting -/

theorem not_connecting_of_follows {s t : TcpSession} (h : s.Follows t)
    (hstate : s.socket.state ≠ .connecting) : t.socket.state ≠ .connecting := by
  intro ht
  have hrank := h.state
  rw [ht] at hrank
  cases hs : s.socket.state with
  | connecting => exact hstate hs
  | connected | closed =>
    rw [hs] at hrank
    exact absurd hrank (by decide)

theorem SetupOver.keep {s t : TcpSession} (h : s.SetupOver) (hsame : SameSetup s t) :
    t.SetupOver :=
  ⟨hsame.resolves.trans h.1, hsame.connects.trans h.2⟩

/-- The stages after the setup do not change any more. -/
theorem ConnectStage.settled {c : ConnectTrace} {s t : TcpSession} (h : ConnectStage c s)
    (hstate : s.socket.state ≠ .connecting) (hsame : SameSetup s t) (hfollows : s.Follows t) :
    ConnectStage c t := by
  have hattempts := hsame.attempts
  cases h with
  | resolving hconnecting _ _ _ => exact absurd hconnecting hstate
  | attempting _ hconnecting _ _ _ _ => exact absurd hconnecting hstate
  | connected failures _ hover horder hlength houtcomes hfailed =>
    rw [← hattempts] at horder hlength
    exact .connected failures (not_connecting_of_follows hfollows hstate) (hover.keep hsame)
      horder hlength houtcomes hfailed
  | exhausted failures message herror hmessage hover horder hlength houtcomes hfailed =>
    obtain ⟨herror', hmessage'⟩ := hfollows.error herror
    rw [← hattempts] at horder hlength
    exact .exhausted failures message herror' (hmessage'.trans hmessage) (hover.keep hsame)
      horder hlength houtcomes hfailed
  | lookupFailed message herror hmessage hover hnone hc =>
    obtain ⟨herror', hmessage'⟩ := hfollows.error herror
    exact .lookupFailed message herror' (hmessage'.trans hmessage) (hover.keep hsame)
      (hattempts.trans hnone) hc
  | cut hclosed horder hlength hfailed hresolves =>
    rw [← hattempts] at horder hlength hfailed hresolves
    rw [← hsame.connects] at hlength
    rw [← hsame.resolves] at hresolves
    exact .cut (hfollows.closed hclosed) horder hlength hfailed hresolves

/-! ### A socket that is connecting -/

/-- The two stages of a socket that is connecting. -/
inductive ConnectingStage (c : ConnectTrace) (s : TcpSession) : Prop where
  | resolving : s.pending = ⟨1, [], [], []⟩ → s.history.attempts = [] → c = ⟨[], []⟩ →
      ConnectingStage c s
  | attempting (endpoints : V4FirstIterator) : s.pending = ⟨0, [endpoints], [], []⟩ →
      s.history.attempts ++ endpoints.remaining = V4FirstIterator.v4First c.results →
      s.history.attempts.length = c.outcomes.length + 1 →
      (∀ outcome ∈ c.outcomes, outcome ≠ none) → ConnectingStage c s

theorem ConnectStage.connecting {c : ConnectTrace} {s : TcpSession} (h : ConnectStage c s)
    (hstate : s.socket.state = .connecting) : ConnectingStage c s := by
  cases h with
  | resolving _ hsetup hnone hc => exact .resolving hsetup hnone hc
  | attempting endpoints _ hsetup horder hlength hfailed =>
    exact .attempting endpoints hsetup horder hlength hfailed
  | connected _ hleft _ _ _ _ _ => exact absurd hstate hleft
  | exhausted _ _ herror _ _ _ _ _ _ | lookupFailed _ herror _ _ _ _ =>
    rw [((hasError_iff s).mp herror).1] at hstate
    contradiction
  | cut hclosed _ _ _ _ =>
    rw [hclosed] at hstate
    contradiction

/-- While the socket is connecting, nothing else is pending. -/
theorem ConnectingStage.quiet_pending {c : ConnectTrace} {s : TcpSession}
    (h : ConnectingStage c s) : s.pending.sends = [] ∧ s.pending.receives = [] := by
  cases h with
  | resolving hsetup _ _ =>
    rw [hsetup]
    exact ⟨rfl, rfl⟩
  | attempting _ hsetup _ _ _ =>
    rw [hsetup]
    exact ⟨rfl, rfl⟩

theorem ConnectStage.waits {c : ConnectTrace} {s t : TcpSession} (h : ConnectStage c s)
    (hstate : s.socket.state = .connecting) (hstate' : t.socket.state = .connecting)
    (hpending : t.pending = s.pending) (hattempts : t.history.attempts = s.history.attempts) :
    ConnectStage c t := by
  cases h.connecting hstate with
  | resolving hsetup hnone hc =>
    exact .resolving hstate' (hpending.trans hsetup) (hattempts.trans hnone) hc
  | attempting endpoints hsetup horder hlength hfailed =>
    rw [← hattempts] at horder hlength
    exact .attempting endpoints hstate' (hpending.trans hsetup) horder hlength hfailed

/-! ### One attempt after the other -/

theorem asyncConnect_of_tryNext (s : TcpSession) (endpoints : V4FirstIterator) :
    TcpConnecting.tryNext s endpoints none =
      Asio.asyncConnect { s with socket.socket.isOpen := false } endpoints.next.1
        endpoints.next.2 := rfl

/-- The next endpoint in the order is tried. -/
theorem attempting_tryNext {c : ConnectTrace} {s : TcpSession} {endpoints : V4FirstIterator}
    (hstate : s.socket.state = .connecting) (hpending : s.pending = ⟨0, [], [], []⟩)
    (hnext : endpoints.hasNext = true)
    (horder : s.history.attempts ++ endpoints.remaining = V4FirstIterator.v4First c.results)
    (hlength : s.history.attempts.length = c.outcomes.length)
    (hfailed : ∀ outcome ∈ c.outcomes, outcome ≠ none) :
    ConnectStage c (TcpConnecting.tryNext s endpoints none) := by
  rw [asyncConnect_of_tryNext]
  refine .attempting endpoints.next.2 hstate ?_ ?_ ?_ hfailed
  · change { s.pending with connects := s.pending.connects ++ [endpoints.next.2] } = _
    rw [hpending]
    rfl
  · change (s.history.attempts ++ [endpoints.next.1]) ++ endpoints.next.2.remaining = _
    rw [← horder, endpoints.remaining_eq_next hnext, List.append_assoc]
    rfl
  · change (s.history.attempts ++ [endpoints.next.1]).length = _
    rw [List.length_append, hlength]
    rfl

theorem hasNext_new {results : List Endpoint} (h : results ≠ []) :
    (V4FirstIterator.new results).hasNext = true := by
  rw [V4FirstIterator.hasNext_iff, V4FirstIterator.remaining_new]
  obtain ⟨endpoint, hmem⟩ := List.exists_mem_of_ne_nil results h
  intro hnil
  obtain ⟨hv4, hv6⟩ := List.append_eq_nil_iff.mp hnil
  cases hprotocol : endpoint.protocol with
  | v4 => exact absurd hv4 (List.ne_nil_of_mem (List.mem_filter.mpr ⟨hmem, by simp [hprotocol]⟩))
  | v6 => exact absurd hv6 (List.ne_nil_of_mem (List.mem_filter.mpr ⟨hmem, by simp [hprotocol]⟩))

/-- The error of a socket that had none. -/
theorem error_enterErrorState {s : TcpSession} (h : s.socket.tcpClosed.hasError = false)
    (message : String) : TcpSocket.hasError (TcpSocket.enterErrorState s message) = true ∧
      TcpSocket.getErrorMessage (TcpSocket.enterErrorState s message) = message := by
  have hstate := state_enterErrorState s message
  have hclosed : (TcpSocket.enterErrorState s message).socket.tcpClosed = ⟨true, message⟩ := by
    have hcore := congrArg Core.tcpClosed (s.core_enterErrorState message)
    simp only [Core.close, core, h] at hcore
    exact hcore
  rw [hasError_iff, getErrorMessage_of_closed hstate, hclosed]
  exact ⟨⟨hstate, rfl⟩, rfl⟩

theorem EnterCase.state {s t : TcpSession} (h : EnterCase s t)
    (hstate : s.socket.state = .connected) : t.socket.state ≠ .connecting := by
  have hcore := EnterCase.core h
  have ht : t.socket.state = t.core.state := rfl
  rw [ht]
  rcases hcore with ⟨error, heq⟩ | heq
  · rw [heq]
    exact fun hconnecting => by contradiction
  · rw [heq]
    unfold Core.startAsyncSend
    have hs : s.core.state = .connected := hstate
    split
    · change s.core.state ≠ .connecting
      rw [hs]
      decide
    · rw [hs]
      decide

theorem state_enter_of_succeed {calls : EnterCalls} (h : calls.Succeed) (s : TcpSession)
    (noDelay : Bool) : (TcpConnected.enter s noDelay calls).socket.state = s.socket.state := by
  obtain ⟨remoteEndpoint, localEndpoint, address, rfl⟩ := h
  unfold TcpConnected.enter TcpConnected.prepare TcpConnected.startAsyncSend
  simp only
  split <;> rfl

/-! ### The handlers -/

/-- How a socket stops connecting. -/
inductive Leaves (c : ConnectTrace) (s t : TcpSession) : Event → Prop where
  | connected (index : ℕ) (closeError : Option String) (calls : EnterCalls) :
      t.socket.state ≠ .connecting → (calls.Succeed → t.socket.state = .connected) →
      Leaves c s t (.completion (.connect index none closeError calls))
  | exhausted (index : ℕ) (message : String) (closeError : Option String)
      (calls : EnterCalls) : s.history.attempts = V4FirstIterator.v4First c.results →
      TcpSocket.hasError t = true → TcpSocket.getErrorMessage t = message →
      Leaves c s t (.completion (.connect index (some message) closeError calls))
  | lookupFailed (message : String) (closeError : Option String) :
      TcpSocket.hasError t = true → TcpSocket.getErrorMessage t = message →
      Leaves c s t (.completion (.resolve (.error message) closeError))
  | closed (call : Call) : call.Closes s → t.socket.state = .closed → Leaves c s t (.call call)

/-- The stage after a step, and whether the socket is still connecting. -/
structure ConnectStep (c : ConnectTrace) (s t : TcpSession) (e : Event) : Prop where
  stage : ConnectStage (c.note e) t
  leaves : t.socket.state = .connecting ∨ Leaves c s t e

theorem ConnectStep.reap {c : ConnectTrace} {s t : TcpSession} {e : Event}
    (h : ConnectStep c s t e) : ConnectStep c s t.reap e := by
  refine ⟨h.stage.reap, ?_⟩
  unfold TcpSession.reap
  split
  · rcases h.leaves with hconnecting | hleaves
    · exact Or.inl hconnecting
    · right
      cases hleaves with
      | connected index closeError calls hstate hconnected =>
        exact .connected index closeError calls hstate hconnected
      | exhausted index message closeError calls hattempts herror hmessage =>
        exact .exhausted index message closeError calls hattempts herror hmessage
      | lookupFailed message closeError herror hmessage =>
        exact .lookupFailed message closeError herror hmessage
      | closed call hcloses hstate => exact .closed call hcloses hstate
  · exact h.leaves

/-- The handler of the lookup. -/
theorem connectStep_resolve {s : TcpSession} (hwired : s.core.Wired)
    (hstate : s.socket.state = .connecting) (hpending : s.pending = ⟨1, [], [], []⟩)
    (hattempts : s.history.attempts = []) {result : Except String (List Endpoint)}
    (hresult : result ≠ .ok []) {u : TcpSession}
    (hperform : (Completion.resolve result none).perform s = .ok u) :
    ConnectStep ⟨[], []⟩ s u (.completion (.resolve result none)) := by
  have habort : s.socket.tcpConnecting.abortRequested = false :=
    hwired.open_setup_not_aborted (StateId.ne_closed_of_connecting hstate)
  have hclean : s.socket.tcpClosed.hasError = false :=
    hwired.no_error (StateId.ne_closed_of_connecting hstate)
  have hdone : ({ s.pending with resolves := s.pending.resolves - 1 } : Pending) =
      ⟨0, [], [], []⟩ := by
    rw [hpending]
    rfl
  obtain rfl := Outcome.ok.inj hperform
  unfold TcpConnecting.handleResolve
  simp only [habort, Bool.false_eq_true, if_false]
  cases result with
  | error message =>
    obtain ⟨herror, hmessage⟩ := error_enterErrorState
      (s := { s with pending.resolves := s.pending.resolves - 1 }) hclean message
    have hsame := sameSetup_enterErrorState
      { s with pending.resolves := s.pending.resolves - 1 } message
    refine ⟨.lookupFailed message herror hmessage ⟨?_, ?_⟩ (hsame.attempts.trans hattempts) rfl,
      Or.inr (.lookupFailed message none herror hmessage)⟩
    · exact hsame.resolves.trans (congrArg Pending.resolves hdone)
    · exact hsame.connects.trans (congrArg Pending.connects hdone)
  | ok results =>
    have hnext : (V4FirstIterator.new results).hasNext = true :=
      hasNext_new fun hnil => hresult (congrArg _ hnil)
    refine ⟨?_, Or.inl hstate⟩
    apply attempting_tryNext (s := { s with pending.resolves := s.pending.resolves - 1 })
      hstate hdone hnext
    · change s.history.attempts ++ _ = _
      rw [hattempts, V4FirstIterator.remaining_new]
      rfl
    · change s.history.attempts.length = 0
      rw [hattempts]
      rfl
    · exact nofun

/-- The handler of an attempt that has succeeded. -/
theorem connectStep_connected {c : ConnectTrace} (s : TcpSession) {u : TcpSession}
    (hpending : u.pending = ⟨0, [], [], []⟩)
    (horder : u.history.attempts <+: V4FirstIterator.v4First c.results)
    (hlength : u.history.attempts.length = (c.outcomes ++ [none]).length)
    (hfailed : ∀ outcome ∈ c.outcomes, outcome ≠ none) (noDelay : Bool) (calls : EnterCalls) :
    ConnectStep c s (TcpConnected.enter { u with socket.state := .connected } noDelay calls)
      (.completion (.connect 0 none none calls)) := by
  have hcase := enter_case { u with socket.state := .connected } noDelay calls
  have hsame := hcase.sameSetup
  have hleft := EnterCase.state hcase rfl
  refine ⟨.connected c.outcomes hleft ⟨?_, ?_⟩ ?_ ?_ rfl hfailed,
    Or.inr (.connected 0 none calls hleft fun hcalls => state_enter_of_succeed hcalls _ _)⟩
  · exact hsame.resolves.trans (congrArg Pending.resolves hpending)
  · exact hsame.connects.trans (congrArg Pending.connects hpending)
  · rw [hsame.attempts]
    exact horder
  · rw [hsame.attempts]
    exact hlength

/-- The handler of an attempt that has failed, when no endpoint is left. -/
theorem connectStep_exhausted {c : ConnectTrace} {s u : TcpSession}
    (hclean : u.socket.tcpClosed.hasError = false) (hpending : u.pending = ⟨0, [], [], []⟩)
    (hsame : u.history.attempts = s.history.attempts)
    (hall : s.history.attempts = V4FirstIterator.v4First c.results)
    {message : String} (hlength : u.history.attempts.length = (c.outcomes ++ [some message]).length)
    (hfailed : ∀ outcome ∈ c.outcomes, outcome ≠ none) (calls : EnterCalls) :
    ConnectStep c s (TcpSocket.enterErrorState u message)
      (.completion (.connect 0 (some message) none calls)) := by
  obtain ⟨herror, hmessage⟩ := error_enterErrorState hclean message
  have hsetup := sameSetup_enterErrorState u message
  refine ⟨.exhausted c.outcomes message herror hmessage ⟨?_, ?_⟩ ?_ ?_ rfl hfailed,
    Or.inr (.exhausted 0 message none calls hall herror hmessage)⟩
  · exact hsetup.resolves.trans (congrArg Pending.resolves hpending)
  · exact hsetup.connects.trans (congrArg Pending.connects hpending)
  · exact (hsetup.attempts.trans hsame).trans hall
  · rw [hsetup.attempts]
    exact hlength

theorem failed_append {outcomes : List (Option String)}
    (h : ∀ outcome ∈ outcomes, outcome ≠ none) (message : String) :
    ∀ outcome ∈ outcomes ++ [some message], outcome ≠ none := by
  intro outcome houtcome
  rcases List.mem_append.mp houtcome with hold | hnew
  · exact h outcome hold
  · rw [List.mem_singleton.mp hnew]
    exact Option.some_ne_none message

/-- The handler of an attempt. -/
theorem connectStep_connect {c : ConnectTrace} {s : TcpSession} (hwired : s.core.Wired)
    {endpoints : V4FirstIterator} (hstate : s.socket.state = .connecting)
    (hpending : s.pending = ⟨0, [endpoints], [], []⟩)
    (horder : s.history.attempts ++ endpoints.remaining = V4FirstIterator.v4First c.results)
    (hlength : s.history.attempts.length = c.outcomes.length + 1)
    (hfailed : ∀ outcome ∈ c.outcomes, outcome ≠ none) {index : ℕ} {error : Option String}
    {calls : EnterCalls} (henabled : (Completion.connect index error none calls).Enabled s)
    {u : TcpSession} (hperform : (Completion.connect index error none calls).perform s = .ok u) :
    ConnectStep c s u (.completion (.connect index error none calls)) := by
  have habort : s.socket.tcpConnecting.abortRequested = false :=
    hwired.open_setup_not_aborted (StateId.ne_closed_of_connecting hstate)
  have hclean : s.socket.tcpClosed.hasError = false :=
    hwired.no_error (StateId.ne_closed_of_connecting hstate)
  have hzero : index = 0 := by
    change index < s.pending.connects.length at henabled
    rw [hpending, List.length_singleton] at henabled
    exact Nat.lt_one_iff.mp henabled
  subst hzero
  have hiterator : s.pending.connects.getD 0 ⟨[], []⟩ = endpoints := by rw [hpending]; rfl
  have hdone : ({ s.pending with connects := s.pending.connects.eraseIdx 0 } : Pending) =
      ⟨0, [], [], []⟩ := by
    rw [hpending]
    rfl
  have hlength' : s.history.attempts.length = (c.outcomes ++ [error]).length := by
    rw [hlength, List.length_append, List.length_singleton]
  obtain rfl := Outcome.ok.inj hperform
  unfold TcpConnecting.handleConnect
  simp only [habort, Bool.false_eq_true, if_false, hiterator]
  cases error with
  | none =>
    exact connectStep_connected s
      (u := { s with pending.connects := s.pending.connects.eraseIdx 0 }) hdone
      ⟨endpoints.remaining, horder⟩ hlength' hfailed _ calls
  | some message =>
    have hfailed' := failed_append hfailed message
    cases hnext : endpoints.hasNext with
    | true =>
      simp only [if_true]
      refine ⟨?_, Or.inl hstate⟩
      exact attempting_tryNext (s := { s with
        pending.connects := s.pending.connects.eraseIdx 0 }) hstate hdone hnext horder hlength'
        hfailed'
    | false =>
      simp only [Bool.false_eq_true, if_false]
      rw [endpoints.remaining_of_not_hasNext hnext, List.append_nil] at horder
      exact connectStep_exhausted (s := s)
        (u := { s with pending.connects := s.pending.connects.eraseIdx 0 }) hclean hdone rfl
        horder hlength' hfailed calls

/-- A call, while the socket is connecting and no handler is about to come. -/
theorem connectStep_call {c : ConnectTrace} {s u : TcpSession} (h : ConnectStage c s)
    (hstate : s.socket.state = .connecting) {request : Call}
    (hperform : request.perform s = .ok u) : ConnectStep c s u (.call request) := by
  have hcall := connectingCall_of_perform hstate hperform
  have hsame := sameSetup_call hperform
  have hattempts := hsame.attempts
  have hpending := hcall.pending
  rcases hcall.state with ⟨hcloses, hclosed⟩ | ⟨-, hconnecting⟩
  · refine ⟨?_, Or.inr (.closed request hcloses hclosed)⟩
    cases h.connecting hstate with
    | resolving hsetup hnone hc =>
      rw [hsetup] at hpending
      rw [hnone] at hattempts
      refine .cut hclosed ?_ ?_ ?_ (Or.inl hattempts)
      · rw [hattempts]
        exact List.nil_prefix
      · rw [hattempts, hc, hpending]
        rfl
      · intro outcome houtcome
        rw [hc] at houtcome
        exact absurd (List.mem_of_mem_take houtcome) List.not_mem_nil
    | attempting endpoints hsetup horder hlength hfailed =>
      rw [hsetup] at hpending
      rw [← hattempts] at horder hlength
      refine .cut hclosed ⟨endpoints.remaining, horder⟩ ?_ ?_ (Or.inr ?_)
      · rw [hlength, hpending]
        rfl
      · intro outcome houtcome
        exact hfailed outcome (List.mem_of_mem_take houtcome)
      · rw [hpending]
  · exact ⟨h.waits hstate hconnecting hpending hattempts, Or.inl hconnecting⟩

theorem connectStep_network {c : ConnectTrace} {s : TcpSession} (h : ConnectStage c s)
    (hstate : s.socket.state = .connecting) (n : NetworkEvent) :
    ConnectStep c s (n.perform s) (.network n) := by
  have hpending : (n.perform s).pending = s.pending := by
    cases n with
    | arrive bytes => rfl
    | peerClose => rfl
    | asyncReadProgress index count =>
      simp only [NetworkEvent.perform, (h.connecting hstate).quiet_pending.2, List.getElem?_nil]
  have hstate' : (n.perform s).socket.state = .connecting :=
    (congrArg Core.state (core_network s n)).trans hstate
  exact ⟨h.waits hstate hstate' hpending (sameSetup_network s n).attempts, Or.inl hstate'⟩

/-- Any step of a socket that is connecting. -/
theorem connectStep_of_connecting {c : ConnectTrace} {s t : TcpSession} {e : Event}
    (h : ConnectStage c s) (hwired : s.core.Wired) (hstate : s.socket.state = .connecting)
    (he : e.Regular) (hstep : step s e = some t) : ConnectStep c s t e := by
  obtain ⟨henabled, u, hperform, rfl⟩ := (step_eq_some_iff s t e).mp hstep
  apply ConnectStep.reap
  cases e with
  | call request => exact connectStep_call h hstate hperform
  | network n =>
    obtain rfl := Outcome.ok.inj hperform
    exact connectStep_network h hstate n
  | completion done =>
    cases done with
    | resolve result closeError =>
      obtain ⟨rfl, hresult⟩ := he
      change 0 < s.pending.resolves at henabled
      cases h.connecting hstate with
      | resolving hsetup hnone hc =>
        subst hc
        exact connectStep_resolve hwired hstate hsetup hnone hresult hperform
      | attempting endpoints hsetup _ _ _ =>
        rw [hsetup] at henabled
        exact absurd henabled (Nat.lt_irrefl 0)
    | connect index error closeError calls =>
      obtain rfl : closeError = none := he
      cases h.connecting hstate with
      | resolving hsetup _ _ =>
        change index < s.pending.connects.length at henabled
        rw [hsetup] at henabled
        exact absurd henabled (Nat.not_lt_zero index)
      | attempting endpoints hsetup horder hlength hfailed =>
        exact connectStep_connect hwired hstate hsetup horder hlength hfailed henabled hperform
    | send index error n =>
      have hnone := (h.connecting hstate).quiet_pending.1
      simp only [Enabled, Completion.Enabled, hnone, List.getElem?_nil] at henabled
    | receive index error =>
      have hnone := (h.connecting hstate).quiet_pending.2
      simp only [Enabled, Completion.Enabled, hnone, List.getElem?_nil] at henabled

/-- The handlers of the setup find a closed socket and leave it alone. -/
theorem late_step {s t : TcpSession} {e : Event} (hwired : s.core.Wired)
    (hclosed : s.socket.state = .closed) (he : e.IsSetup) (hstep : step s e = some t) :
    ∃ pending, t = reap { s with pending := pending } := by
  obtain ⟨henabled, u, hperform, rfl⟩ := (step_eq_some_iff s t e).mp hstep
  rcases he.cases with ⟨result, closeError, rfl⟩ | ⟨index, error, closeError, calls, rfl⟩
  · have hpending : (Completion.resolve result closeError).Enabled s := henabled
    have hlate := perform_resolve_of_closed hwired hclosed hpending
    obtain rfl := Outcome.ok.inj (hperform.symm.trans hlate)
    exact ⟨_, rfl⟩
  · have hpending : (Completion.connect index error closeError calls).Enabled s := henabled
    have hlate := perform_connect_of_closed hwired hclosed hpending
    obtain rfl := Outcome.ok.inj (hperform.symm.trans hlate)
    exact ⟨_, rfl⟩

/-- A handler of the setup comes only when an operation of the setup is pending. -/
theorem SetupOver.not_enabled {s : TcpSession} (h : s.SetupOver) {e : Event} (he : e.IsSetup) :
    ¬ Enabled s e := by
  obtain ⟨hresolves, hconnects⟩ := h
  intro henabled
  rcases he.cases with ⟨result, closeError, rfl⟩ | ⟨index, error, closeError, calls, rfl⟩
  · change 0 < s.pending.resolves at henabled
    rw [hresolves] at henabled
    exact Nat.lt_irrefl 0 henabled
  · change index < s.pending.connects.length at henabled
    rw [hconnects] at henabled
    exact Nat.not_lt_zero index henabled

/-- Only a socket that was closed during the setup still has such handlers. -/
theorem ConnectStage.late_step {c : ConnectTrace} {s t : TcpSession} {e : Event}
    (h : ConnectStage c s) (hwired : s.core.Wired) (hstate : s.socket.state ≠ .connecting)
    (he : e.IsSetup) (hstep : step s e = some t) : ConnectStage (c.note e) t := by
  obtain ⟨henabled, u, hperform, rfl⟩ := (step_eq_some_iff s t e).mp hstep
  apply ConnectStage.reap
  cases h with
  | resolving hconnecting _ _ _ => exact absurd hconnecting hstate
  | attempting _ hconnecting _ _ _ _ => exact absurd hconnecting hstate
  | connected failures _ hover _ _ _ _ => exact absurd henabled (hover.not_enabled he)
  | exhausted failures message _ _ hover _ _ _ _ => exact absurd henabled (hover.not_enabled he)
  | lookupFailed message _ _ hover _ _ => exact absurd henabled (hover.not_enabled he)
  | cut hclosed horder hlength hfailed hresolves =>
    rcases he.cases with ⟨result, closeError, rfl⟩ | ⟨index, error, closeError, calls, rfl⟩
    · have hpending : (Completion.resolve result closeError).Enabled s := henabled
      have hlate := perform_resolve_of_closed hwired hclosed hpending
      obtain rfl := Outcome.ok.inj (hperform.symm.trans hlate)
      have hnone : s.history.attempts = [] := hresolves.resolve_right (Nat.ne_of_gt hpending)
      have houtcomes : (c.note (.completion (.resolve result closeError))).outcomes =
          c.outcomes := by
        cases result <;> rfl
      refine .cut hclosed ?_ ?_ ?_ (Or.inl hnone)
      · change s.history.attempts <+: _
        rw [hnone]
        exact List.nil_prefix
      · rw [houtcomes]
        exact hlength
      · rw [houtcomes]
        exact hfailed
    · have hindex : (Completion.connect index error closeError calls).Enabled s := henabled
      have hlate := perform_connect_of_closed hwired hclosed hindex
      obtain rfl := Outcome.ok.inj (hperform.symm.trans hlate)
      change index < s.pending.connects.length at hindex
      have hsingle : s.pending.resolves + s.pending.connects.length ≤ 1 := hwired.setup_single
      refine .cut hclosed horder ?_ ?_ hresolves
      · change s.history.attempts.length = (c.outcomes ++ [error]).length +
          (s.pending.connects.eraseIdx index).length
        rw [List.length_eraseIdx_of_lt hindex, List.length_append, List.length_singleton]
        omega
      · change ∀ outcome ∈ (c.outcomes ++ [error]).take (s.history.attempts.length - 1), _
        have hcount : s.history.attempts.length - 1 = c.outcomes.length := by omega
        rw [hcount] at hfailed ⊢
        rw [List.take_left]
        rwa [List.take_length] at hfailed

/-- One step of the setup. -/
theorem ConnectStage.step {c : ConnectTrace} {s t : TcpSession} {e : Event}
    (h : ConnectStage c s) (hwired : s.core.Wired) (he : e.Regular)
    (hstep : TcpSession.step s e = some t) : ConnectStage (c.note e) t := by
  by_cases hstate : s.socket.state = .connecting
  · exact (connectStep_of_connecting h hwired hstate he hstep).stage
  · by_cases hsetup : e.IsSetup
    · exact h.late_step hwired hstate hsetup hstep
    · rw [c.note_of_not_setup hsetup]
      exact h.settled hstate (sameSetup_step hsetup hstep) (follows_step hwired hstep)

theorem connectStage_connectTo (literal : Option Endpoint) :
    ConnectStage (connectTrace literal []) (TcpSocket.connectTo literal none) := by
  cases literal with
  | none => exact .resolving rfl rfl rfl rfl
  | some endpoint =>
    apply attempting_tryNext
      (s := TcpSocket.create TcpSocket.newAsioSocket .connecting) rfl rfl
    · exact hasNext_new (List.cons_ne_nil endpoint [])
    · exact V4FirstIterator.remaining_new [endpoint]
    · rfl
    · exact nofun

/-- A closed socket does not try anything any more. -/
theorem attempts_of_closed {s t : TcpSession} {es : List Event}
    (hs : s.core.Wired ∧ s.core.Awake) (hclosed : s.socket.state = .closed)
    (hrun : StateMachine.run step s es = some t) :
    t.socket.state = .closed ∧ t.history.attempts = s.history.attempts := by
  have hall : (t.core.Wired ∧ t.core.Awake) ∧ t.socket.state = .closed ∧
      t.history.attempts = s.history.attempts := by
    apply StateMachine.run_preserves (fun t => (t.core.Wired ∧ t.core.Awake) ∧
      t.socket.state = .closed ∧ t.history.attempts = s.history.attempts) _
      ⟨hs, hclosed, rfl⟩ hrun
    rintro u e v ⟨⟨hwired, hawake⟩, hstate, hattempts⟩ hstep
    refine ⟨hwired.effect hawake (core_step hstep),
      (follows_step hwired hstep).closed hstate, ?_⟩
    rw [← hattempts]
    by_cases hsetup : e.IsSetup
    · obtain ⟨pending, rfl⟩ := TcpSession.late_step hwired hstate hsetup hstep
      exact (sameSetup_reap { u with pending := pending }).attempts
    · exact (sameSetup_step hsetup hstep).attempts
  exact hall.2

/-- What the setup has done after the given outcomes. -/
structure ConnectsInOrder (c : ConnectTrace) (s : TcpSession) : Prop where
  stage : ConnectStage c s
  single : s.pending.resolves + s.pending.connects.length ≤ 1
  /-- The socket is connecting until one of the ends of the setup. -/
  leaves : ∀ e t, e.Regular → TcpSocket.isConnecting s = true → step s e = some t →
    TcpSocket.isConnecting t = true ∨ Leaves c s t e
  /-- After it has been closed, the handlers that still come change nothing of it. -/
  late : s.socket.state = .closed → ∀ e t, e.IsSetup → step s e = some t →
    ∃ pending, t = reap { s with pending := pending }
  closed : s.socket.state = .closed → ∀ es t, StateMachine.run step s es = some t →
    t.socket.state = .closed ∧ t.history.attempts = s.history.attempts

theorem isConnecting_iff (s : TcpSession) :
    TcpSocket.isConnecting s = true ↔ s.socket.state = .connecting := by
  unfold TcpSocket.isConnecting
  exact beq_iff_eq

/-- Every connection is set up in the order of the endpoints. -/
theorem connectsInOrder_of_run (literal : Option Endpoint) (es : List Event) (s : TcpSession)
    (hregular : ∀ e ∈ es, e.Regular)
    (hrun : StateMachine.run step (TcpSocket.connectTo literal none) es = some s) :
    ConnectsInOrder (connectTrace literal es) s := by
  have hcreated : Created (TcpSocket.connectTo literal none) := .connectTo literal none
  obtain ⟨hwired, hawake⟩ := wired_of_run hcreated hrun
  have hstage : (s.core.Wired ∧ s.core.Awake) ∧
      ((∀ e ∈ es, e.Regular) → ConnectStage (connectTrace literal es) s) := by
    apply StateMachine.run_traces (fun es s => (s.core.Wired ∧ s.core.Awake) ∧
      ((∀ e ∈ es, e.Regular) → ConnectStage (connectTrace literal es) s)) _ _ hrun
    · rintro past u e t ⟨⟨hu, hu'⟩, hbefore⟩ hstep
      refine ⟨hu.effect hu' (core_step hstep), ?_⟩
      intro hpast
      rw [connectTrace_concat]
      have he : e.Regular := hpast e (List.mem_append_right _ (List.mem_singleton_self e))
      exact (hbefore fun e he => hpast e (List.mem_append_left _ he)).step hu he hstep
    · exact ⟨(core_created hcreated).wired, fun _ => connectStage_connectTo literal⟩
  have h := hstage.2 hregular
  refine ⟨h, hwired.setup_single, ?_, fun hclosed e t => late_step hwired hclosed,
    fun hclosed fs t => attempts_of_closed ⟨hwired, hawake⟩ hclosed⟩
  intro e t he hconnecting hstep
  rw [isConnecting_iff] at hconnecting ⊢
  exact (connectStep_of_connecting h hwired hconnecting he hstep).leaves

/-- A lookup with two results, of which the first one refuses. -/
theorem connectsInOrder_of_run_two : ∃ es s,
    StateMachine.run step (TcpSocket.connectTo none none) es = some s ∧
      s.history.attempts = [⟨.v4, 2, 80⟩, ⟨.v6, 1, 80⟩] ∧
      ConnectsInOrder (connectTrace none es) s := by
  have hrun : StateMachine.run step (TcpSocket.connectTo none none)
      [.completion (.resolve (.ok [⟨.v6, 1, 80⟩, ⟨.v4, 2, 80⟩]) none),
        .completion (.connect 0 (some "refused") none
          ⟨.ok ⟨.v4, 2, 80⟩, .ok ⟨.v4, 3, 1024⟩, .ok "10.0.0.1", .ok (), .ok ()⟩)] =
      some _ := rfl
  refine ⟨_, _, hrun, rfl, connectsInOrder_of_run none _ _ ?_ hrun⟩
  intro e he
  rcases List.mem_cons.mp he with rfl | he
  · exact ⟨rfl, nofun⟩
  · rw [List.mem_singleton.mp he]
    rfl

end TcpSession

end FaucetNetworking
