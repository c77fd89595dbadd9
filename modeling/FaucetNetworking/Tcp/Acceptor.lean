import FaucetNetworking.Tcp.Connection

/-!
The acceptor for one protocol. Whoever clears the waiting socket or is told of an
error starts the next async_accept, so that there is one token: either an async_accept
is outstanding or a socket is waiting, but never both. A null pointer that is
dereferenced gives no result.
-/
namespace FaucetNetworking

/-- The tcp::acceptor. -/
structure AsioAcceptor where
  isOpen : Bool
  deriving DecidableEq, Repr

structure TcpAcceptor where
  socket : Option AsioSocket
  acceptor : Option AsioAcceptor
  hasError : Bool
  errorMessage : String
  deriving DecidableEq, Repr

/-- An acceptor with the number of outstanding async_accepts, the connections that
they have accepted and those that were returned. -/
structure AcceptorSession where
  acceptor : TcpAcceptor
  pending : ℕ
  accepted : List AsioSocket
  returned : List AsioSocket
  deriving DecidableEq, Repr

namespace AcceptorSession

def startAsyncAccept (s : AcceptorSession) : Option AcceptorSession :=
  match s.acceptor.acceptor with
  | none => none
  | some _ => some { s with pending := s.pending + 1 }

def create (acceptor : Option AsioAcceptor) : AcceptorSession :=
  ⟨⟨none, acceptor, false, ""⟩, 0, [], []⟩

def listen (acceptor : AsioAcceptor) : Option AcceptorSession :=
  startAsyncAccept (create (some acceptor))

def error (message : String) : AcceptorSession :=
  { create none with acceptor.hasError := true, acceptor.errorMessage := message }

/-- A waiting socket goes to a new TcpSocket, and the next connection is waited for. -/
def accept (s : AcceptorSession) (calls : EnterCalls) :
    Option (Option TcpSession × AcceptorSession) :=
  match s.acceptor.socket with
  | some socket =>
    let tcpSocket := TcpSocket.fromConnectedSocket socket calls
    (startAsyncAccept { s with
      acceptor.socket := none
      returned := s.returned ++ [socket] }).map fun s => (some tcpSocket, s)
  | none => some (none, s)

def close (s : AcceptorSession) : AcceptorSession :=
  { s with acceptor.acceptor := s.acceptor.acceptor.map fun _ => ⟨false⟩ }

def handleAccept (s : AcceptorSession) (result : Except String AsioSocket) :
    Option AcceptorSession :=
  match result with
  | .ok socket => some { s with
      acceptor.socket := some socket
      accepted := s.accepted ++ [socket] }
  | .error message =>
    match s.acceptor.acceptor with
    | none => none
    | some acceptor =>
      if acceptor.isOpen then startAsyncAccept s
      else some { s with
        acceptor.hasError := true
        acceptor.errorMessage := message }

/-- An async_accept that is outstanding completes. -/
def complete (s : AcceptorSession) (result : Except String AsioSocket) :
    Option AcceptorSession :=
  if 0 < s.pending then handleAccept { s with pending := s.pending - 1 } result else none

/-! ### The token -/

/-- One token at most, none without an acceptor, and every accepted connection has been
returned but the one that is waiting. -/
structure Token (s : AcceptorSession) : Prop where
  single : s.pending + s.acceptor.socket.toList.length ≤ 1
  null : s.acceptor.acceptor = none → s.pending = 0 ∧ s.acceptor.socket = none
  accounted : s.accepted = s.returned ++ s.acceptor.socket.toList

theorem Token.not_waiting {s : AcceptorSession} (h : s.Token) (hpending : 0 < s.pending) :
    s.acceptor.socket = none := by
  have hsingle := h.single
  cases hsocket : s.acceptor.socket with
  | none => rfl
  | some socket =>
    rw [hsocket, Option.toList_some, List.length_singleton] at hsingle
    omega

theorem Token.none_pending {s : AcceptorSession} (h : s.Token) {socket : AsioSocket}
    (hsocket : s.acceptor.socket = some socket) : s.pending = 0 := by
  have hsingle := h.single
  rw [hsocket, Option.toList_some, List.length_singleton] at hsingle
  omega

theorem Token.not_null {s : AcceptorSession} (h : s.Token)
    (htoken : 0 < s.pending ∨ s.acceptor.socket ≠ none) :
    ∃ acceptor, s.acceptor.acceptor = some acceptor := by
  apply Option.ne_none_iff_exists'.mp
  intro hnull
  obtain ⟨hpending, hsocket⟩ := h.null hnull
  rcases htoken with hmore | hwaiting
  · omega
  · exact hwaiting hsocket

theorem startAsyncAccept_eq {s : AcceptorSession} {acceptor : AsioAcceptor}
    (h : s.acceptor.acceptor = some acceptor) :
    s.startAsyncAccept = some { s with pending := s.pending + 1 } := by
  unfold startAsyncAccept
  rw [h]

theorem token_error (message : String) : (error message).Token :=
  ⟨Nat.zero_le 1, fun _ => ⟨rfl, rfl⟩, rfl⟩

theorem token_listen {acceptor : AsioAcceptor} {s : AcceptorSession}
    (h : listen acceptor = some s) : s.Token := by
  obtain rfl := Option.some.inj h
  exact ⟨Nat.le_refl 1, nofun, rfl⟩

theorem Token.close {s : AcceptorSession} (h : s.Token) : s.close.Token where
  single := h.single
  null := fun hnull => h.null (Option.map_eq_none_iff.mp hnull)
  accounted := h.accounted

/-- A waiting socket is returned, and its place is free for the next one. -/
theorem Token.accept_some {s : AcceptorSession} (h : s.Token) {socket : AsioSocket}
    (hsocket : s.acceptor.socket = some socket) (calls : EnterCalls) : ∃ t,
      s.accept calls = some (some (TcpSocket.fromConnectedSocket socket calls), t) ∧ t.Token ∧
      t.returned = s.returned ++ [socket] ∧ t.acceptor.socket = none ∧
      t.accepted = s.accepted := by
  have hwaiting : s.acceptor.socket ≠ none := by
    rw [hsocket]
    exact Option.some_ne_none socket
  obtain ⟨acceptor, hacceptor⟩ := h.not_null (Or.inr hwaiting)
  refine ⟨{ s with
    acceptor.socket := none
    returned := s.returned ++ [socket]
    pending := s.pending + 1 }, ?_, ⟨?_, ?_, ?_⟩, rfl, rfl, rfl⟩
  · unfold AcceptorSession.accept
    rw [hsocket]
    simp only
    rw [startAsyncAccept_eq (s := { s with
      acceptor.socket := none
      returned := s.returned ++ [socket] }) hacceptor]
    rfl
  · change s.pending + 1 + 0 ≤ 1
    rw [h.none_pending hsocket]
  · intro hnull
    change s.acceptor.acceptor = none at hnull
    rw [hacceptor] at hnull
    contradiction
  · change s.accepted = (s.returned ++ [socket]) ++ []
    rw [h.accounted, hsocket, List.append_nil]
    rfl

theorem accept_none {s : AcceptorSession} (hsocket : s.acceptor.socket = none)
    (calls : EnterCalls) : s.accept calls = some (none, s) := by
  unfold accept
  rw [hsocket]

/-- The connections that a completion brings. -/
def accepts : Except String AsioSocket → List AsioSocket
  | .ok socket => [socket]
  | .error _ => []

/-- A completion fills the free place or passes the token on. -/
theorem Token.complete {s : AcceptorSession} (h : s.Token) (hpending : 0 < s.pending)
    (result : Except String AsioSocket) : ∃ t, s.complete result = some t ∧ t.Token ∧
      t.returned = s.returned ∧ t.accepted = s.accepted ++ accepts result := by
  have hfree := h.not_waiting hpending
  have hsingle := h.single
  obtain ⟨acceptor, hacceptor⟩ := h.not_null (Or.inl hpending)
  have haccounted := h.accounted
  rw [hfree, Option.toList_none, List.append_nil] at haccounted
  have hnull : s.acceptor.acceptor ≠ none := by
    rw [hacceptor]
    exact Option.some_ne_none acceptor
  unfold AcceptorSession.complete
  rw [if_pos hpending]
  unfold handleAccept
  cases result with
  | ok socket =>
    refine ⟨_, rfl, ⟨?_, fun h => absurd h hnull, ?_⟩, rfl, rfl⟩
    · change s.pending - 1 + 1 ≤ 1
      omega
    · change s.accepted ++ [socket] = s.returned ++ [socket]
      rw [haccounted]
  | error message =>
    simp only [hacceptor]
    split
    · refine ⟨_, startAsyncAccept_eq hacceptor, ⟨?_, fun h => absurd h hnull, ?_⟩, rfl,
        (List.append_nil _).symm⟩
      · change s.pending - 1 + 1 + s.acceptor.socket.toList.length ≤ 1
        omega
      · exact h.accounted
    · refine ⟨_, rfl, ⟨?_, nofun, ?_⟩, rfl, (List.append_nil _).symm⟩
      · change s.pending - 1 + s.acceptor.socket.toList.length ≤ 1
        omega
      · exact h.accounted

end AcceptorSession

end FaucetNetworking
