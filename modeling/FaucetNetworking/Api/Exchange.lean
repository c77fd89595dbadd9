import FaucetNetworking.Api.Ownership
import FaucetNetworking.Tcp.ReceiveFrame
import FaucetNetworking.Udp.BufferFrame

/-!
Steps of a call that can be exchanged with the steps of handlers: those that look handles up,
and those on what no handler concerns itself with. This is all of a buffer, what has been
received by a socket, and what has been written to a UDP socket.
-/
namespace FaucetNetworking

open StateMachine Ieee754

/-- The member functions that only concern what can be read. -/
def Member.Reads : Member → Bool
  | .read _ | .readValue _ | .setReadpos _ | .bytesRemaining | .contents => true
  | _ => false

/-- The member functions that write to a socket or a buffer. -/
def Member.Writes : Member → Bool
  | .write _ | .writeByteOrderAware _ _ => true
  | _ => false

namespace LibraryObject

variable {S : System} {o : LibrarySurroundings} {x y : LibraryObject} {e : ObjectEvent}
  {m : Member}

/-- A member function with its effect, as one step. -/
def member (S : System) (o : LibrarySurroundings) (m : Member) (x : LibraryObject) :
    Option (m.Result × LibraryObject) :=
  (x.call S o m).bind fun called =>
    match called.1 with
    | none => some (called.2, x)
    | some e => (x.step S e).map fun y => (called.2, y)

/-- No handler concerns itself with what the member function does. -/
def Unconcerned (m : Member) : LibraryObject → Prop
  | .buffer _ => True
  | .tcpSocket _ => m.Reads = true
  | .udpSocket _ _ => m.Reads = true ∨ m.Writes = true
  | _ => False

/-- No handler uses the buffers that the client writes to and reads from. -/
def Separate : LibraryObject → Prop
  | .udpSocket _ r => r.object.session.Owned
  | _ => True

theorem step_buffer_of_autonomous (r : ByteOrdered Buffer) (he : e.Autonomous = true) :
    (buffer r).step S e = none := by
  cases e with
  | setLittleEndian | buffer => contradiction
  | tcpSocket | udpSocket | combinedTcpAcceptor | ipLookup => rfl

theorem objectClass_member {result : m.Result} (h : x.member S o m = some (result, y)) :
    y.objectClass = x.objectClass := by
  obtain ⟨⟨event, r⟩, -, h⟩ := Option.bind_eq_some_iff.mp h
  cases event with
  | none =>
    obtain ⟨-, rfl⟩ := Prod.mk.inj (Option.some.inj h)
    rfl
  | some e =>
    obtain ⟨z, hz, hsame⟩ := Option.map_eq_some_iff.mp h
    obtain ⟨-, rfl⟩ := Prod.mk.inj hsame
    exact objectClass_step hz

/-! ### Objects of one class -/

/-- The handler does not run with objects of the class. -/
theorem exchange_of_stuck (hstuck : ∀ y : LibraryObject,
    y.objectClass = x.objectClass → y.step S e = none) :
    (x.member S o m).bind (fun a => (a.2.step S e).map (Prod.mk a.1)) =
      (x.step S e).bind (member S o m) := by
  rw [hstuck x rfl]
  cases ha : x.member S o m with
  | none => rfl
  | some a => exact congrArg (Option.map (Prod.mk a.1)) (hstuck a.2 (objectClass_member ha))

section

variable {β : Type} {wrap : β → LibraryObject} {handler : β → Option β} {u : β}

/-- An update of the object that a handler can be exchanged with. -/
theorem exchange_update {held : β → Prop} [DecidablePred held] {update : β → β}
    {result : β → m.Result}
    (hmember : ∀ u, (wrap u).member S o m =
      if held u then some (result u, wrap (update u)) else none)
    (hstep : ∀ u, (wrap u).step S e = (handler u).map wrap)
    (hupdate : handler (update u) = (handler u).map update)
    (hsame : ∀ v, handler u = some v → (held v ↔ held u) ∧ result v = result u) :
    ((wrap u).member S o m).bind (fun a => (a.2.step S e).map (Prod.mk a.1)) =
      ((wrap u).step S e).bind (member S o m) := by
  rw [hmember, hstep]
  by_cases hheld : held u
  · rw [if_pos hheld, Option.bind_some]
    change ((wrap (update u)).step S e).map _ = _
    rw [hstep, hupdate]
    cases hv : handler u with
    | none => rfl
    | some v =>
      obtain ⟨hiff, hresult⟩ := hsame v hv
      have hmember' := hmember v
      rw [if_pos (hiff.mpr hheld), hresult] at hmember'
      exact hmember'.symm
  · rw [if_neg hheld]
    cases hv : handler u with
    | none => rfl
    | some v =>
      have hmember' := hmember v
      rw [if_neg fun h => hheld ((hsame v hv).1.mp h)] at hmember'
      exact hmember'.symm

/-- A member function that looks at what the handler leaves alone. -/
theorem exchange_observation {result : β → m.Result}
    (hcall : ∀ u, (wrap u).call S o m = some (none, result u))
    (hstep : ∀ u, (wrap u).step S e = (handler u).map wrap)
    (hsame : ∀ v, handler u = some v → result v = result u) :
    ((wrap u).member S o m).bind (fun a => (a.2.step S e).map (Prod.mk a.1)) =
      ((wrap u).step S e).bind (member S o m) := by
  have hmember : ∀ u, (wrap u).member S o m =
      if True then some (result u, wrap (id u)) else none := by
    intro u
    unfold member
    rw [hcall, if_pos trivial]
    rfl
  exact exchange_update hmember hstep (Option.map_id' ).symm fun v hv => ⟨Iff.rfl, hsame v hv⟩

end

/-! ### Sockets -/

/-- What readValue loads from the bytes that are read. -/
def loaded (o : LibrarySurroundings) (littleEndian : Bool) (t : ReadType) (b : Buffer) :
    Datum binary64 :=
  t.load (inByteOrder littleEndian
    ((o.uninitialised t.sizeof).overwrite (b.read t.sizeof).1))

section

variable {f : Buffer → Buffer} {g : Buffer → m.Result}

theorem exchange_tcp {r : ByteOrdered TcpSession} {c : Call}
    (hcall : ∀ s, (tcpSocket { r with object := s }).call S o m =
      some (some (.tcpSocket (.call c)), g s.socket.receiveBuffer))
    (hstep : ∀ s, TcpSession.step s (.call c) =
      if s.handle = .held then some (s.withReceiveBuffer f) else none)
    {event : Event} (hevent : ∀ c, event ≠ .call c) :
    ((tcpSocket r).member S o m).bind (fun a =>
        (a.2.step S (.tcpSocket event)).map (Prod.mk a.1)) =
      ((tcpSocket r).step S (.tcpSocket event)).bind (member S o m) := by
  have hmember : ∀ s, (tcpSocket { r with object := s }).member S o m =
      if s.handle = .held then some (g s.socket.receiveBuffer,
        tcpSocket { r with object := s.withReceiveBuffer f }) else none := by
    intro s
    unfold member
    rw [hcall, Option.bind_some]
    change ((TcpSession.step s (.call c)).map _).map _ = _
    rw [hstep]
    split <;> rfl
  refine exchange_update (u := r.object) hmember (fun _ => rfl)
    (TcpSession.step_withReceiveBuffer f r.object hevent) fun t ht => ⟨?_, ?_⟩
  · rw [TcpSession.handle_step ht fun hard => hevent _]
  · rw [TcpSession.receiveBuffer_step (TcpSession.not_reads hevent) ht]

theorem observe_tcp {r : ByteOrdered TcpSession}
    (hcall : ∀ s, (tcpSocket { r with object := s }).call S o m =
      some (none, g s.socket.receiveBuffer)) {event : Event} (hevent : ∀ c, event ≠ .call c) :
    ((tcpSocket r).member S o m).bind (fun a =>
        (a.2.step S (.tcpSocket event)).map (Prod.mk a.1)) =
      ((tcpSocket r).step S (.tcpSocket event)).bind (member S o m) :=
  exchange_observation (u := r.object) hcall (fun _ => rfl) fun _ ht =>
    congrArg g (TcpSession.receiveBuffer_step (TcpSession.not_reads hevent) ht)

theorem exchange_udp {members : UdpMembers} {r : ByteOrdered UdpObject} {c : UdpCall}
    (k : UdpSession.ClientBuffer)
    (hcall : ∀ o', (udpSocket members { r with object := o' }).call S o m =
      some (some (.udpSocket (.session (.call c))), g (o'.clientBuffer k)))
    (hstep : ∀ o', UdpObject.step S.platform o' (.session (.call c)) =
      if o'.handle = .held then some (o'.withClientBuffer k f) else none)
    (hr : r.object.session.Owned) (completion : UdpCompletion) :
    ((udpSocket members r).member S o m).bind (fun a =>
        (a.2.step S (.udpSocket (.session (.completion completion)))).map (Prod.mk a.1)) =
      ((udpSocket members r).step S (.udpSocket (.session (.completion completion)))).bind
        (member S o m) := by
  have hmember : ∀ o', (udpSocket members { r with object := o' }).member S o m =
      if o'.handle = .held then some (g (o'.clientBuffer k),
        udpSocket members { r with object := o'.withClientBuffer k f }) else none := by
    intro o'
    unfold member
    rw [hcall, Option.bind_some]
    change ((UdpObject.step S.platform o' (.session (.call c))).map _).map _ = _
    rw [hstep]
    split <;> rfl
  refine exchange_update (u := r.object) hmember (fun _ => rfl)
    (UdpObject.step_withClientBuffer hr completion) fun t ht => ?_
  obtain ⟨hhandle, hbuffer⟩ := UdpObject.same_step (k := k) hr ht
  rw [hhandle, hbuffer]
  exact ⟨Iff.rfl, rfl⟩

theorem observe_udp {members : UdpMembers} {r : ByteOrdered UdpObject}
    (hcall : ∀ o', (udpSocket members { r with object := o' }).call S o m =
      some (none, g (o'.clientBuffer .exposed)))
    (hr : r.object.session.Owned) (completion : UdpCompletion) :
    ((udpSocket members r).member S o m).bind (fun a =>
        (a.2.step S (.udpSocket (.session (.completion completion)))).map (Prod.mk a.1)) =
      ((udpSocket members r).step S (.udpSocket (.session (.completion completion)))).bind
        (member S o m) :=
  exchange_observation (u := r.object) hcall (fun _ => rfl) fun _ ht =>
    congrArg g (UdpObject.same_step (k := .exposed) hr ht).2

end

/-- A handler and a member function that it does not concern itself with can be exchanged. -/
theorem exchange (hx : x.Unconcerned m) (hr : x.Separate) (he : e.Autonomous = true) :
    (x.member S o m).bind (fun a => (a.2.step S e).map (Prod.mk a.1)) =
      (x.step S e).bind (member S o m) := by
  cases x with
  | buffer r =>
    refine exchange_of_stuck fun y hy => ?_
    cases y with
    | buffer r' => exact step_buffer_of_autonomous r' he
    | tcpSocket | udpSocket | combinedTcpAcceptor | ipLookup => contradiction
  | tcpSocket r =>
    cases e with
    | tcpSocket event =>
      have hevent : ∀ c, event ≠ .call c := by
        rintro c rfl
        contradiction
      cases m with
      | read size =>
        exact exchange_tcp (g := fun b => (b.read size).1) (fun _ => rfl)
          (TcpSession.step_read · size) hevent
      | readValue t =>
        exact exchange_tcp (g := loaded o r.littleEndian t) (fun _ => rfl)
          (TcpSession.step_read · t.sizeof) hevent
      | setReadpos pos =>
        exact exchange_tcp (g := fun _ => ()) (fun _ => rfl)
          (TcpSession.step_setReadpos · pos) hevent
      | bytesRemaining =>
        exact observe_tcp (g := Buffer.bytesRemaining) (fun _ => rfl) hevent
      | contents =>
        exact observe_tcp (g := fun b => b) (fun _ => rfl) hevent
      | _ => contradiction
    | setLittleEndian | buffer => contradiction
    | udpSocket | combinedTcpAcceptor | ipLookup =>
      refine exchange_of_stuck fun y hy => ?_
      cases y <;> first | rfl | contradiction
  | udpSocket members r =>
    cases e with
    | udpSocket event =>
      match event with
      | .session (.completion c) =>
        cases m with
        | read size =>
          exact exchange_udp (g := fun b => (b.read size).1) .exposed (fun _ => rfl)
            (UdpObject.step_read · size) hr c
        | readValue t =>
          exact exchange_udp (g := loaded o r.littleEndian t) .exposed (fun _ => rfl)
            (UdpObject.step_read · t.sizeof) hr c
        | setReadpos pos =>
          exact exchange_udp (g := fun _ => ()) .exposed (fun _ => rfl)
            (UdpObject.step_setReadpos · pos) hr c
        | write data =>
          exact exchange_udp (g := fun _ => ()) .draft (fun _ => rfl)
            (UdpObject.step_write · data) hr c
        | writeByteOrderAware _ image =>
          exact exchange_udp (g := fun _ => ()) .draft (fun _ => rfl)
            (UdpObject.step_write · (inByteOrder r.littleEndian image).bytes) hr c
        | bytesRemaining =>
          exact observe_udp (g := Buffer.bytesRemaining) (fun _ => rfl) hr c
        | contents =>
          exact observe_udp (g := fun b => b) (fun _ => rfl) hr c
        | _ => exact absurd hx (by simp [Unconcerned, Member.Reads, Member.Writes])
      | .session (.call c) => contradiction
      | .destroySocket hard => contradiction
    | setLittleEndian | buffer => contradiction
    | tcpSocket | combinedTcpAcceptor | ipLookup =>
      refine exchange_of_stuck fun y hy => ?_
      cases y <;> first | rfl | contradiction
  | combinedTcpAcceptor | ipLookup => exact hx.elim

end LibraryObject

/-- The steps of a call that no handler interferes with. -/
def Primitive.Moves (l : Library) : Primitive → Prop
  | .undefined | .find _ _ => True
  | .member place m => ∀ x, l.heap[place]? = some x → x.Unconcerned m
  | .getDefaultUdpSocket => l.defaultUdpSocket.isSome = true
  | _ => False

namespace Library

variable {S : System} {o : LibrarySurroundings} {l l' : Library} {q : Primitive} {p : ℕ}
  {e : ObjectEvent}

/-- The state without the record of what has happened, which nothing depends on. -/
def plain (l : Library) : Library := { l with changes := [] }

theorem stepObject_plain (l : Library) (p : ℕ) (e : ObjectEvent) :
    (l.stepObject S p e).map plain =
      (ObjectHeap.apply (LibraryObject.step S) l.heap (.step p e)).map
        fun heap => { l.plain with heap } := by
  unfold stepObject
  rw [Option.map_map]
  rfl

theorem callMember_plain (l : Library) (place : ℕ) (m : Member) :
    (l.callMember S o place m).map (fun a => (a.1, a.2.plain)) =
      (ObjectHeap.modify (LibraryObject.member S o m) l.heap place).map
        fun a => (a.1, { l.plain with heap := a.2 }) := by
  unfold callMember ObjectHeap.modify
  cases hx : l.heap[place]? with
  | none => rfl
  | some x =>
    unfold LibraryObject.member
    simp only [Option.bind_some]
    cases x.call S o m with
    | none => rfl
    | some called =>
      obtain ⟨event, result⟩ := called
      cases event with
      | none =>
        have hsame : l.heap.set place x = l.heap := by
          obtain ⟨hlt, hget⟩ := List.getElem?_eq_some_iff.mp hx
          rw [← hget, List.set_getElem_self]
        simp only [Option.bind_some, Option.map_some, hsame]
        rfl
      | some e =>
        have hstep := l.stepObject_plain (S := S) place e
        have happly : ObjectHeap.apply (LibraryObject.step S) l.heap (.step place e) =
            (x.step S e).map (l.heap.set place) := by
          change l.heap[place]?.bind (fun a => (a.step S e).map (l.heap.set place)) = _
          rw [hx, Option.bind_some]
        rw [happly] at hstep
        simp only [Option.bind_some, Option.map_map]
        change (l.stepObject S place e).map (Prod.mk result ∘ plain) = _
        rw [← Option.map_map, hstep, Option.map_map, Option.map_map]
        rfl

theorem find_stepObject (h : l.stepObject S p e = some l') (t : RequestedType)
    (handle : Datum binary64) : l'.find t handle = l.find t handle := by
  obtain ⟨x, y, hx, hy, rfl⟩ := stepObject_eq_some_iff.mp h
  unfold find
  refine congrArg (Option.bind _) (funext fun place => ?_)
  unfold cast
  have hany : ((l.heap.set p y)[place]?.any fun z => t.includes z.objectClass) =
      l.heap[place]?.any fun z => t.includes z.objectClass := by
    by_cases hp : p = place
    · subst p
      rw [List.getElem?_set_self (List.getElem?_eq_some_iff.mp hx).1, hx, Option.any_some,
        Option.any_some, LibraryObject.objectClass_step hy]
    · rw [List.getElem?_set_ne hp]
  exact if_congr (by rw [hany]) rfl rfl

/-- What a step of a call returns, and what it leaves. -/
def seen {ρ : Type} (a : ρ × Library) : ρ × Library := (a.1, a.2.plain)

theorem default_stepObject (h : l.stepObject S p e = some l') :
    l'.defaultUdpSocket = l.defaultUdpSocket := by
  obtain ⟨heap, -, rfl⟩ := Option.map_eq_some_iff.mp h
  rfl

theorem perform_getDefaultUdpSocket {place : ℕ} (h : l.defaultUdpSocket = some place) :
    l.perform S o .getDefaultUdpSocket = some (place, l) := by
  simp only [perform, h]

/-- A step of a call that can be exchanged with one of a handler. -/
theorem perform_exchange (hq : q.Moves l) (hl : ∀ (p : ℕ) x, l.heap[p]? = some x → x.Separate)
    (he : e.Autonomous = true) :
    (l.perform S o q).bind (fun a => (a.2.stepObject S p e).map fun l' => (a.1, l'.plain)) =
      (l.stepObject S p e).bind fun l' => (l'.perform S o q).map seen := by
  cases q with
  | undefined => cases l.stepObject S p e <;> rfl
  | find t handle =>
    change (l.stepObject S p e).map (fun l' => (l.find t handle, l'.plain)) = _
    cases hstep : l.stepObject S p e with
    | none => rfl
    | some l' =>
      change some (l.find t handle, l'.plain) = some (l'.find t handle, l'.plain)
      rw [find_stepObject hstep]
  | member place m =>
    -- Both orders are those of the heap, where the object decides.
    have hobject : place = p → ∀ x, l.heap[p]? = some x →
        (x.member S o m).bind (fun a => (a.2.step S e).map (Prod.mk a.1)) =
          (x.step S e).bind (LibraryObject.member S o m) := by
      rintro rfl x hx
      exact LibraryObject.exchange (hq x hx) (hl place x hx) he
    have hheap := ObjectHeap.modify_exchange hobject
    have hfirst : (l.callMember S o place m).bind
        (fun a => (a.2.stepObject S p e).map fun l' => (a.1, l'.plain)) =
        ((ObjectHeap.modify (LibraryObject.member S o m) l.heap place).bind fun a =>
          (ObjectHeap.apply (LibraryObject.step S) a.2 (.step p e)).map (Prod.mk a.1)).map
            fun a => (a.1, { l.plain with heap := a.2 }) := by
      have hmember := l.callMember_plain (S := S) (o := o) place m
      cases ha : l.callMember S o place m with
      | none =>
        rw [ha] at hmember
        rw [Option.map_eq_none_iff.mp hmember.symm]
        rfl
      | some a =>
        rw [ha] at hmember
        obtain ⟨b, hb, hsame⟩ := Option.map_eq_some_iff.mp hmember.symm
        obtain ⟨hresult, hlibrary⟩ := Prod.mk.inj hsame
        have hstep := a.2.stepObject_plain (S := S) p e
        have hheap : a.2.heap = b.2 := congrArg Library.heap hlibrary.symm
        rw [hheap, ← hlibrary] at hstep
        rw [hb, Option.bind_some, Option.bind_some, Option.map_map, ← hresult]
        have hthen := congrArg (Option.map (Prod.mk b.1)) hstep
        rw [Option.map_map, Option.map_map] at hthen
        exact hthen
    have hsecond : (l.stepObject S p e).bind (fun l' => (l'.callMember S o place m).map seen) =
        ((ObjectHeap.apply (LibraryObject.step S) l.heap (.step p e)).bind fun heap =>
          ObjectHeap.modify (LibraryObject.member S o m) heap place).map
            fun a => (a.1, { l.plain with heap := a.2 }) := by
      unfold stepObject
      cases ObjectHeap.apply (LibraryObject.step S) l.heap (.step p e) with
      | none => rfl
      | some heap =>
        exact callMember_plain
          { l with heap, changes := l.changes ++ [.step p e] } place m
    exact hfirst.trans ((congrArg _ hheap).trans hsecond.symm)
  | getDefaultUdpSocket =>
    obtain ⟨place, hplace⟩ := Option.isSome_iff_exists.mp hq
    rw [perform_getDefaultUdpSocket hplace, Option.bind_some]
    cases hstep : l.stepObject S p e with
    | none => rfl
    | some l' =>
      change some (place, l'.plain) = (l'.perform S o .getDefaultUdpSocket).map seen
      rw [perform_getDefaultUdpSocket ((default_stepObject hstep).trans hplace)]
      rfl
  | allocate | accept | destroySocket | release | setLittleEndianDefault | size => exact hq.elim

end Library

end FaucetNetworking
