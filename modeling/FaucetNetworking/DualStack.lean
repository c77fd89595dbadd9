import FaucetNetworking.Tcp.CombinedAcceptor
import FaucetNetworking.Udp.Socket

/-!
Binding one port for both protocols. For port 0 a dual stack socket is bound first, only to
have a port chosen that is free for both, and closed again. Then an IPv4 and an IPv6 socket
are bound, each in a try block whose handler closes the socket. The port variable goes
through the three blocks, and every system call in them may fail.
-/
namespace FaucetNetworking

/-- A socket with the port that it is bound to. -/
structure BoundSocket where
  isOpen : Bool
  port : UInt16
  deriving DecidableEq, Repr

/-- How the system calls on one socket end: those that give nothing, with the message of an
error or without one. A fixed port is bound or not, but never replaced, and port 0 stands
for one that the system chooses. -/
structure SystemCalls where
  openSocket : Option String
  setOption : Option String
  bind : UInt16 → Except String UInt16
  listen : Option String
  localEndpoint : Option String
  bind_fixed : ∀ port bound, port ≠ 0 → bind port = .ok bound → bound = port
  bind_chosen : ∀ bound, bind 0 = .ok bound → bound ≠ 0

/-- Every call succeeds, and the first port that may be chosen is. -/
instance : Inhabited SystemCalls where
  default := {
    openSocket := none
    setOption := none
    bind := fun port => .ok (if port = 0 then 1 else port)
    listen := none
    localEndpoint := none
    bind_fixed := by
      intro port bound hport h
      rw [if_neg hport] at h
      exact (Except.ok.inj h).symm
    bind_chosen := by
      intro bound h
      obtain rfl := Except.ok.inj h
      decide }

namespace SystemCalls

variable (calls : SystemCalls)

def check : Option String → Except String Unit
  | none => .ok ()
  | some message => .error message

/-- The calls in a try block, up to the one that throws. An option whose error is ignored
is not among them. -/
def tryBind (setsOption listens : Bool) (port : UInt16) : Except String BoundSocket := do
  check calls.openSocket
  check (if setsOption then calls.setOption else none)
  let bound ← calls.bind port
  check (if listens then calls.listen else none)
  check calls.localEndpoint
  return ⟨true, bound⟩

end SystemCalls

structure DualStackCalls where
  placeholder : SystemCalls
  v4 : SystemCalls
  v6 : SystemCalls
  deriving Inhabited

/-- The two sockets, the messages of their errors, and the port variable at the end. -/
structure DualStack where
  v4socket : BoundSocket
  v6socket : BoundSocket
  v4Error : String
  v6Error : String
  port : UInt16

namespace DualStack

/-- The socket after a try block and its handler. -/
def afterTry : Except String BoundSocket → BoundSocket
  | .ok socket => socket
  | .error _ => ⟨false, 0⟩

def errorOf : Except String BoundSocket → String
  | .ok _ => ""
  | .error message => message

/-- The last statement of a try block sets the port variable. -/
def portAfter (port : UInt16) : Except String BoundSocket → UInt16
  | .ok socket => socket.port
  | .error _ => port

/-- The three try blocks, each at the port that the ones before it have left. -/
def bind (placeholder v4 v6 : UInt16 → Except String BoundSocket) (port : UInt16) : DualStack :=
  let port := if port = 0 then portAfter port (placeholder port) else port
  let v4Result := v4 port
  let port := portAfter port v4Result
  let v6Result := v6 port
  let port := portAfter port v6Result
  ⟨afterTry v4Result, afterTry v6Result, errorOf v4Result, errorOf v6Result, port⟩

end DualStack

/-! ### The constructor of CombinedTcpAcceptor -/

/-- An acceptor that has just been constructed, and the sockets that it has been given. -/
structure BoundAcceptor where
  acceptor : CombinedTcpAcceptor
  sockets : DualStack

namespace CombinedTcpAcceptor

def bindSockets (calls : DualStackCalls) (port : UInt16) : DualStack :=
  DualStack.bind (calls.placeholder.tryBind true true) (calls.v4.tryBind false true)
    (calls.v6.tryBind false true) port

/-- A protocol whose socket is not open gets an acceptor with the error. -/
def asioAcceptor (socket : BoundSocket) (error : String) : Except String AsioAcceptor :=
  if socket.isOpen then .ok ⟨true⟩ else .error error

def construct (calls : DualStackCalls) (port : UInt16) : Option BoundAcceptor :=
  let sockets := bindSockets calls port
  (create (asioAcceptor sockets.v4socket sockets.v4Error)
    (asioAcceptor sockets.v6socket sockets.v6Error)).map fun acceptor => ⟨acceptor, sockets⟩

def hasError (s : CombinedTcpAcceptor) : Bool :=
  s.v4Acceptor.acceptor.hasError && s.v6Acceptor.acceptor.hasError

def getErrorMessage (s : CombinedTcpAcceptor) : String :=
  "IPv4: " ++ s.v4Acceptor.acceptor.errorMessage ++ "; IPv6: " ++
    s.v6Acceptor.acceptor.errorMessage

/-- isListeningV4 and isListeningV6. -/
def isListening (s : CombinedTcpAcceptor) (protocol : Protocol) : Bool :=
  !(s.acceptor protocol).acceptor.hasError

end CombinedTcpAcceptor

def BoundAcceptor.getLocalPort (s : BoundAcceptor) : UInt16 := s.sockets.port

/-! ### UdpSocket::bind -/

/-- A UDP socket that bind has made, with the members that it sets. -/
structure BoundUdpSocket where
  session : UdpSession
  sockets : DualStack
  hasError : Bool
  errorMessage : String
  localPort : UInt16

namespace UdpSession

def bindSockets (calls : DualStackCalls) (port : UInt16) : DualStack :=
  DualStack.bind (calls.placeholder.tryBind true false) (calls.v4.tryBind true false)
    (calls.v6.tryBind true false) port

def bindPort (calls : DualStackCalls) (portnr : UInt16) : BoundUdpSocket :=
  let sockets := bindSockets calls portnr
  let session := bind sockets.v4socket.isOpen sockets.v6socket.isOpen
  if !sockets.v4socket.isOpen && !sockets.v6socket.isOpen then
    ⟨session, sockets, true, "IPv4: " ++ sockets.v4Error ++ ", IPv6:" ++ sockets.v6Error, 0⟩
  else ⟨session, sockets, false, "", sockets.port⟩

end UdpSession

/-! ### One try block -/

/-- What the sockets of a try block have in common: they are open, at the port that was
asked for, and never at port 0. -/
structure BindsAt (block : UInt16 → Except String BoundSocket) : Prop where
  isOpen : ∀ port socket, block port = .ok socket → socket.isOpen = true
  fixed : ∀ port socket, port ≠ 0 → block port = .ok socket → socket.port = port
  chosen : ∀ port socket, block port = .ok socket → socket.port ≠ 0

/-- The binding of a do block that gives a value has given one itself. -/
theorem exists_of_bind_eq_ok {α β : Type} {x : Except String α} {f : α → Except String β}
    {b : β} (h : (x >>= f) = .ok b) : ∃ a, x = .ok a ∧ f a = .ok b := by
  cases x with
  | error message => cases h
  | ok a => exact ⟨a, rfl, h⟩

namespace SystemCalls

variable (calls : SystemCalls)

/-- A try block that does not throw has bound the socket. -/
theorem exists_bind_of_tryBind {setsOption listens : Bool} {port : UInt16}
    {socket : BoundSocket} (h : calls.tryBind setsOption listens port = .ok socket) :
    ∃ bound, calls.bind port = .ok bound ∧ socket = ⟨true, bound⟩ := by
  unfold tryBind at h
  obtain ⟨_, _, h⟩ := exists_of_bind_eq_ok h
  obtain ⟨_, _, h⟩ := exists_of_bind_eq_ok h
  obtain ⟨bound, hbound, h⟩ := exists_of_bind_eq_ok h
  obtain ⟨_, _, h⟩ := exists_of_bind_eq_ok h
  obtain ⟨_, _, h⟩ := exists_of_bind_eq_ok h
  exact ⟨bound, hbound, (Except.ok.inj h).symm⟩

theorem bindsAt_tryBind (setsOption listens : Bool) :
    BindsAt (calls.tryBind setsOption listens) where
  isOpen := by
    intro port socket h
    obtain ⟨bound, -, rfl⟩ := calls.exists_bind_of_tryBind h
    rfl
  fixed := by
    intro port socket hport h
    obtain ⟨bound, hbound, rfl⟩ := calls.exists_bind_of_tryBind h
    exact calls.bind_fixed port bound hport hbound
  chosen := by
    intro port socket h
    obtain ⟨bound, hbound, rfl⟩ := calls.exists_bind_of_tryBind h
    by_cases hport : port = 0
    · subst port
      exact calls.bind_chosen bound hbound
    · have hfixed := calls.bind_fixed port bound hport hbound
      subst bound
      exact hport

end SystemCalls

/-- What a try block and its handler do to the port variable. -/
inductive TryOutcome (port : UInt16) (socket : BoundSocket) (after : UInt16) : Prop
  | bound : socket.isOpen = true → socket.port ≠ 0 → (port ≠ 0 → socket.port = port) →
      after = socket.port → TryOutcome port socket after
  | failed : socket.isOpen = false → after = port → TryOutcome port socket after

theorem BindsAt.tryOutcome {block : UInt16 → Except String BoundSocket} (h : BindsAt block)
    (port : UInt16) : TryOutcome port (DualStack.afterTry (block port))
      (DualStack.portAfter port (block port)) := by
  cases hblock : block port with
  | error message => exact .failed rfl rfl
  | ok socket =>
    have hopen := h.isOpen port socket hblock
    have hchosen := h.chosen port socket hblock
    exact .bound hopen hchosen (fun hport => h.fixed port socket hport hblock) rfl

namespace TryOutcome

variable {port after : UInt16} {socket : BoundSocket}

/-- An open socket has the port that the block has left, which is not 0, and is the one
that the block started from unless that is 0. -/
theorem of_open (h : TryOutcome port socket after) (hopen : socket.isOpen = true) :
    after = socket.port ∧ socket.port ≠ 0 ∧ (port ≠ 0 → socket.port = port) := by
  cases h with
  | bound _ hchosen hfixed hafter => exact ⟨hafter, hchosen, hfixed⟩
  | failed hclosed _ => exact absurd hopen (Bool.eq_false_iff.mp hclosed)

theorem of_closed (h : TryOutcome port socket after) (hclosed : socket.isOpen = false) :
    after = port := by
  cases h with
  | bound hopen _ _ _ => exact absurd hopen (Bool.eq_false_iff.mp hclosed)
  | failed _ hafter => exact hafter

/-- A port that is not 0 is kept. -/
theorem keeps (h : TryOutcome port socket after) {requested : UInt16} (hne : requested ≠ 0)
    (hport : port = requested) :
    after = requested ∧ (socket.isOpen = true → socket.port = requested) := by
  subst port
  cases h with
  | bound _ _ hfixed hafter => exact ⟨hafter.trans (hfixed hne), fun _ => hfixed hne⟩
  | failed hclosed hafter =>
    exact ⟨hafter, fun hopen => absurd hopen (Bool.eq_false_iff.mp hclosed)⟩

end TryOutcome

/-! ### The three blocks -/

/-- The port that is reported is the one of every socket that is open, and a port that was
asked for is kept. -/
structure AgreesOnPort (requested : UInt16) (v4socket v6socket : BoundSocket)
    (localPort : UInt16) (hasError : Bool) : Prop where
  both : v4socket.isOpen = true → v6socket.isOpen = true →
    v4socket.port = v6socket.port ∧ localPort = v4socket.port
  onlyV4 : v4socket.isOpen = true → v6socket.isOpen = false → localPort = v4socket.port
  onlyV6 : v4socket.isOpen = false → v6socket.isOpen = true → localPort = v6socket.port
  keepsV4 : requested ≠ 0 → v4socket.isOpen = true → v4socket.port = requested
  keepsV6 : requested ≠ 0 → v6socket.isOpen = true → v6socket.port = requested
  hasError_iff : hasError = true ↔ v4socket.isOpen = false ∧ v6socket.isOpen = false

/-- The IPv6 block starts from the port that the IPv4 block has left, and that is the one
of the IPv4 socket if it is open. -/
theorem agreesOnPort_of_tryOutcome {requested port v4Port v6Port : UInt16}
    {v4socket v6socket : BoundSocket} (hrequested : requested ≠ 0 → port = requested)
    (h4 : TryOutcome port v4socket v4Port) (h6 : TryOutcome v4Port v6socket v6Port) :
    AgreesOnPort requested v4socket v6socket v6Port
      (!v4socket.isOpen && !v6socket.isOpen) where
  both := by
    intro hopen4 hopen6
    obtain ⟨hleft, hchosen, -⟩ := h4.of_open hopen4
    obtain ⟨hlocal, -, hfixed⟩ := h6.of_open hopen6
    have hsame : v6socket.port = v4socket.port := by
      rw [← hleft] at hchosen ⊢
      exact hfixed hchosen
    exact ⟨hsame.symm, hlocal.trans hsame⟩
  onlyV4 := by
    intro hopen4 hclosed6
    exact (h6.of_closed hclosed6).trans (h4.of_open hopen4).1
  onlyV6 := by
    intro _ hopen6
    exact (h6.of_open hopen6).1
  keepsV4 := by
    intro hne
    exact (h4.keeps hne (hrequested hne)).2
  keepsV6 := by
    intro hne
    exact (h6.keeps hne (h4.keeps hne (hrequested hne)).1).2
  hasError_iff := by
    rw [Bool.and_eq_true, Bool.not_eq_true', Bool.not_eq_true']

/-- The port says nothing without an open socket. -/
theorem AgreesOnPort.of_closed {requested port : UInt16} {v4socket v6socket : BoundSocket}
    (h4 : v4socket.isOpen = false) (h6 : v6socket.isOpen = false) :
    AgreesOnPort requested v4socket v6socket port true := by
  obtain ⟨v4Open, v4Bound⟩ := v4socket
  obtain ⟨v6Open, v6Bound⟩ := v6socket
  change v4Open = false at h4
  change v6Open = false at h6
  subst v4Open v6Open
  exact ⟨nofun, nofun, nofun, nofun, nofun, iff_of_true rfl ⟨rfl, rfl⟩⟩

/-- A dual stack socket is tried for port 0 only. -/
theorem DualStack.agreesOnPort_bind {placeholder v4 v6 : UInt16 → Except String BoundSocket}
    (h4 : BindsAt v4) (h6 : BindsAt v6) (port : UInt16) :
    AgreesOnPort port (bind placeholder v4 v6 port).v4socket (bind placeholder v4 v6 port).v6socket
      (bind placeholder v4 v6 port).port
      (!(bind placeholder v4 v6 port).v4socket.isOpen &&
        !(bind placeholder v4 v6 port).v6socket.isOpen) := by
  have hstart : port ≠ 0 →
      (if port = 0 then portAfter port (placeholder port) else port) = port := fun h => if_neg h
  exact agreesOnPort_of_tryOutcome hstart (h4.tryOutcome _) (h6.tryOutcome _)

/-! ### The two constructors -/

namespace CombinedTcpAcceptor

/-- An acceptor with a null pointer is never told to listen. -/
theorem exists_startListening (socket : BoundSocket) (error : String) :
    ∃ s, startListening (asioAcceptor socket error) = some s ∧
      s.acceptor.hasError = !socket.isOpen := by
  obtain ⟨isOpen, port⟩ := socket
  cases isOpen with
  | true => exact ⟨_, rfl, rfl⟩
  | false => exact ⟨_, rfl, rfl⟩

theorem exists_construct (calls : DualStackCalls) (port : UInt16) :
    ∃ s, construct calls port = some s ∧ s.sockets = bindSockets calls port ∧
      s.acceptor.hasError = (!s.sockets.v4socket.isOpen && !s.sockets.v6socket.isOpen) := by
  obtain ⟨v4Acceptor, hv4, herror4⟩ := exists_startListening (bindSockets calls port).v4socket
    (bindSockets calls port).v4Error
  obtain ⟨v6Acceptor, hv6, herror6⟩ := exists_startListening (bindSockets calls port).v6socket
    (bindSockets calls port).v6Error
  refine ⟨⟨⟨v4Acceptor, v6Acceptor, false, false⟩, bindSockets calls port⟩, ?_, rfl, ?_⟩
  · unfold construct create
    simp only [hv4, hv6, Option.map_some]
  · unfold hasError
    exact congrArg₂ and herror4 herror6

end CombinedTcpAcceptor

theorem UdpSession.agreesOnPort_bindPort (calls : DualStackCalls) (port : UInt16) :
    AgreesOnPort port (bindPort calls port).sockets.v4socket
      (bindPort calls port).sockets.v6socket (bindPort calls port).localPort
      (bindPort calls port).hasError := by
  have hagrees : AgreesOnPort port (bindSockets calls port).v4socket
      (bindSockets calls port).v6socket (bindSockets calls port).port
      (!(bindSockets calls port).v4socket.isOpen && !(bindSockets calls port).v6socket.isOpen) :=
    DualStack.agreesOnPort_bind (calls.v4.bindsAt_tryBind true false)
      (calls.v6.bindsAt_tryBind true false) port
  unfold bindPort
  by_cases hclosed : (!(bindSockets calls port).v4socket.isOpen &&
      !(bindSockets calls port).v6socket.isOpen) = true
  · obtain ⟨h4, h6⟩ := hagrees.hasError_iff.mp hclosed
    rw [if_pos hclosed]
    exact .of_closed h4 h6
  · rw [if_neg hclosed]
    rw [Bool.not_eq_true] at hclosed
    rw [hclosed] at hagrees
    exact hagrees

/-- Both constructors bind one port: every open socket has the port that is reported, a
port other than 0 is never replaced, and an error is reported if no socket is open. -/
theorem dual_stack_agrees_on_port (calls : DualStackCalls) (port : UInt16) :
    (∃ s, CombinedTcpAcceptor.construct calls port = some s ∧
      AgreesOnPort port s.sockets.v4socket s.sockets.v6socket s.getLocalPort
        s.acceptor.hasError) ∧
    AgreesOnPort port (UdpSession.bindPort calls port).sockets.v4socket
      (UdpSession.bindPort calls port).sockets.v6socket
      (UdpSession.bindPort calls port).localPort (UdpSession.bindPort calls port).hasError := by
  refine ⟨?_, UdpSession.agreesOnPort_bindPort calls port⟩
  obtain ⟨s, hs, hsockets, herror⟩ := CombinedTcpAcceptor.exists_construct calls port
  refine ⟨s, hs, ?_⟩
  rw [herror]
  unfold BoundAcceptor.getLocalPort
  rw [hsockets]
  exact DualStack.agreesOnPort_bind (calls.v4.bindsAt_tryBind false true)
    (calls.v6.bindsAt_tryBind false true) port

example : (UdpSession.bindPort default 0).localPort = 1 := by decide

end FaucetNetworking
