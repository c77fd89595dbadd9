import FaucetNetworking.Api.Library

/-!
What an event leaves of an object. Its class never changes, and whether the library user holds
it changes only with the last call.
-/
namespace FaucetNetworking

open StateMachine

theorem TcpSession.handle_step {s t : TcpSession} {e : Event} (h : step s e = some t)
    (hkept : ∀ hard, e ≠ .call (.destroySocket hard)) : t.handle = s.handle := by
  rcases (core_step h).marks with hsame | ⟨hheld, hheld' | ⟨hard, he, -⟩⟩
  · exact hsame.handle
  · have hheld : s.handle = .held := hheld
    have hheld' : t.handle = .held := hheld'
    exact hheld'.trans hheld.symm
  · exact absurd he (hkept hard)

theorem TcpSession.handle_destroySocket {s t : TcpSession} {hard : Bool}
    (h : step s (.call (.destroySocket hard)) = some t) : t.handle = .released hard := by
  obtain ⟨-, u, hperform, rfl⟩ := (step_eq_some_iff s t _).mp h
  obtain rfl := Outcome.ok.inj hperform
  unfold reap
  split <;> rfl

theorem UdpObject.handle_step {P : Platform} {o t : UdpObject} {e : UdpObjectEvent}
    (h : step P o e = some t) (hkept : ∀ hard, e ≠ .destroySocket hard) :
    t.handle = o.handle := by
  cases stepCase h with
  | session e s _ _ _ => rfl
  | released hard _ => exact absurd rfl (hkept hard)
  | ignored index error bytes endpoint _ => rfl

namespace CombinedTcpAcceptor

theorem destroyed_setAcceptor (s : CombinedTcpAcceptor) (protocol : Protocol)
    (a : AcceptorSession) : (s.setAcceptor protocol a).destroyed = s.destroyed := by
  cases protocol <;> rfl

theorem destroyed_complete {s t : CombinedTcpAcceptor} {c : AcceptCompletion}
    (h : s.complete c = some t) : t.destroyed = s.destroyed := by
  obtain ⟨a, -, rfl⟩ := Option.map_eq_some_iff.mp h
  exact s.destroyed_setAcceptor _ a

theorem destroyed_completeAll {s t : CombinedTcpAcceptor} {cs : List AcceptCompletion}
    (h : s.completeAll cs = some t) : t.destroyed = s.destroyed :=
  run_preserves (fun r => r.destroyed = s.destroyed)
    (fun _ _ _ hr hstep => (destroyed_complete hstep).trans hr) rfl h

/-- A socket that is returned is a new one. -/
theorem poll_created {s : CombinedTcpAcceptor} {protocol : Protocol} {calls : EnterCalls}
    {polled : Option TcpSession × CombinedTcpAcceptor} (h : s.poll protocol calls = some polled) :
    polled.2.destroyed = s.destroyed ∧ ∀ x, polled.1 = some x → TcpSession.Created x := by
  obtain ⟨accepted, haccept, rfl⟩ := Option.map_eq_some_iff.mp h
  refine ⟨s.destroyed_setAcceptor protocol _, fun x hx => ?_⟩
  unfold AcceptorSession.accept at haccept
  split at haccept
  · obtain ⟨a, -, rfl⟩ := Option.map_eq_some_iff.mp haccept
    obtain rfl := Option.some.inj hx
    exact .fromConnectedSocket _ _
  · obtain rfl := Option.some.inj haccept
    contradiction

theorem accept_created {s : CombinedTcpAcceptor} {calls : EnterCalls}
    {between : List AcceptCompletion} {polled : Option TcpSession × CombinedTcpAcceptor}
    (h : s.accept calls between = some polled) :
    polled.2.destroyed = s.destroyed ∧ ∀ x, polled.1 = some x → TcpSession.Created x := by
  unfold accept at h
  split at h
  · contradiction
  · rename_i accepted t hpoll
    obtain rfl := Option.some.inj h
    have hpolled := poll_created hpoll
    exact hpolled
  · rename_i t hpoll
    have hfirst := (poll_created hpoll).1
    split at h
    · contradiction
    · rename_i u hbetween
      obtain ⟨polled, hsecond, rfl⟩ := Option.map_eq_some_iff.mp h
      obtain ⟨hkept, hcreated⟩ := poll_created hsecond
      exact ⟨hkept.trans ((destroyed_completeAll hbetween).trans hfirst), hcreated⟩

theorem destroyed_step {s t : CombinedTcpAcceptor} {e : AcceptEvent} (h : s.step e = some t)
    (hkept : e ≠ .destroy) : t.destroyed = s.destroyed := by
  obtain ⟨-, hperform⟩ := (step_eq_some_iff s t e).mp h
  cases e with
  | accept calls between =>
    obtain ⟨polled, haccept, rfl⟩ := Option.map_eq_some_iff.mp hperform
    exact (accept_created haccept).1
  | completion c => exact destroyed_complete hperform
  | destroy => exact absurd rfl hkept

end CombinedTcpAcceptor

/-- The last call that there is for an object. -/
def ObjectEvent.Destroys : ObjectEvent → Bool
  | .tcpSocket (.call (.destroySocket _)) => true
  | .udpSocket (.destroySocket _) => true
  | .combinedTcpAcceptor .destroy => true
  | _ => false

/-- A UDP socket gets another receive buffer. -/
def ObjectEvent.Reseats : ObjectEvent → Bool
  | .udpSocket (.session (.call .receive)) => true
  | _ => false

namespace LibraryObject

variable {S : System} {x y : LibraryObject} {e : ObjectEvent}

/-- The object and the event are of one class. -/
inductive StepCase (S : System) : LibraryObject → ObjectEvent → LibraryObject → Prop where
  | bufferOrder (littleEndian : Bool) (r : ByteOrdered Buffer) :
      StepCase S (.buffer r) (.setLittleEndian littleEndian)
        (.buffer (ReadWritable.setLittleEndian r littleEndian))
  | tcpOrder (littleEndian : Bool) (r : ByteOrdered TcpSession) :
      StepCase S (.tcpSocket r) (.setLittleEndian littleEndian)
        (.tcpSocket (ReadWritable.setLittleEndian r littleEndian))
  | udpOrder (littleEndian : Bool) (members : UdpMembers) (r : ByteOrdered UdpObject) :
      StepCase S (.udpSocket members r) (.setLittleEndian littleEndian)
        (.udpSocket members (ReadWritable.setLittleEndian r littleEndian))
  | buffer (r : ByteOrdered Buffer) (operation : BufferOperation) (result : List UInt8 × Buffer) :
      r.object.perform .mingw operation = some result →
      StepCase S (.buffer r) (.buffer operation) (.buffer { r with object := result.2 })
  | tcp (r : ByteOrdered TcpSession) (e : Event) (t : TcpSession) :
      TcpSession.step r.object e = some t →
      StepCase S (.tcpSocket r) (.tcpSocket e) (.tcpSocket { r with object := t })
  | udp (members : UdpMembers) (r : ByteOrdered UdpObject) (e : UdpObjectEvent) (t : UdpObject) :
      UdpObject.step S.platform r.object e = some t →
      StepCase S (.udpSocket members r) (.udpSocket e) (.udpSocket members { r with object := t })
  | acceptor (localPort : UInt16) (a b : CombinedTcpAcceptor) (e : AcceptEvent) :
      a.step e = some b → StepCase S (.combinedTcpAcceptor localPort a) (.combinedTcpAcceptor e)
        (.combinedTcpAcceptor localPort b)
  | lookup (l m : LookupSession) (e : LookupEvent) : l.step S.addressText e = some m →
      StepCase S (.ipLookup l) (.ipLookup e) (.ipLookup m)

theorem stepCase (h : step S x e = some y) : StepCase S x e y := by
  cases x with
  | buffer r =>
    cases e with
    | setLittleEndian littleEndian =>
      obtain rfl := Option.some.inj h
      exact .bufferOrder littleEndian r
    | buffer operation =>
      obtain ⟨result, hresult, rfl⟩ := Option.map_eq_some_iff.mp h
      exact .buffer r operation result hresult
    | _ => contradiction
  | tcpSocket r =>
    cases e with
    | setLittleEndian littleEndian =>
      obtain rfl := Option.some.inj h
      exact .tcpOrder littleEndian r
    | tcpSocket e =>
      obtain ⟨t, ht, rfl⟩ := Option.map_eq_some_iff.mp h
      exact .tcp r e t ht
    | _ => contradiction
  | udpSocket members r =>
    cases e with
    | setLittleEndian littleEndian =>
      obtain rfl := Option.some.inj h
      exact .udpOrder littleEndian members r
    | udpSocket e =>
      obtain ⟨t, ht, rfl⟩ := Option.map_eq_some_iff.mp h
      exact .udp members r e t ht
    | _ => contradiction
  | combinedTcpAcceptor localPort a =>
    cases e with
    | combinedTcpAcceptor e =>
      obtain ⟨b, hb, rfl⟩ := Option.map_eq_some_iff.mp h
      exact .acceptor localPort a b e hb
    | _ => contradiction
  | ipLookup l =>
    cases e with
    | ipLookup e =>
      obtain ⟨m, hm, rfl⟩ := Option.map_eq_some_iff.mp h
      exact .lookup l m e hm
    | _ => contradiction

theorem objectClass_step (h : step S x e = some y) : y.objectClass = x.objectClass := by
  cases stepCase h <;> rfl

theorem held_step (h : step S x e = some y) (hkept : e.Destroys = false) : y.Held ↔ x.Held := by
  cases stepCase h with
  | bufferOrder | tcpOrder | udpOrder | buffer | lookup => exact Iff.rfl
  | tcp r e t ht =>
    have hsame := TcpSession.handle_step ht fun hard he => by
      rw [he] at hkept
      contradiction
    change t.handle = .held ↔ r.object.handle = .held
    rw [hsame]
  | udp members r e t ht =>
    have hsame := UdpObject.handle_step ht fun hard he => by
      rw [he] at hkept
      contradiction
    change t.handle = .held ↔ r.object.handle = .held
    rw [hsame]
  | acceptor localPort a b e hb =>
    have hsame := CombinedTcpAcceptor.destroyed_step hb fun he => by
      rw [he] at hkept
      contradiction
    change b.destroyed = false ↔ a.destroyed = false
    rw [hsame]

/-- The last call is for the objects of a socket class, and releases them. -/
theorem not_held_destroy {hard : Bool} (he : Library.destroyEvent hard x = some e)
    (h : step S x e = some y) : ¬ y.Held := by
  cases x with
  | buffer | ipLookup => contradiction
  | tcpSocket r =>
    obtain rfl := Option.some.inj he
    obtain ⟨t, ht, rfl⟩ := Option.map_eq_some_iff.mp h
    have hreleased := TcpSession.handle_destroySocket ht
    change t.handle ≠ .held
    rw [hreleased]
    exact HandleState.noConfusion
  | udpSocket members r =>
    obtain rfl := Option.some.inj he
    obtain ⟨t, ht, rfl⟩ := Option.map_eq_some_iff.mp h
    obtain ⟨-, rfl⟩ := UdpObject.step_eq_some_iff.mp ht
    exact HandleState.noConfusion
  | combinedTcpAcceptor localPort a =>
    obtain rfl := Option.some.inj he
    obtain ⟨b, hb, rfl⟩ := Option.map_eq_some_iff.mp h
    obtain ⟨-, hperform⟩ := (CombinedTcpAcceptor.step_eq_some_iff a b .destroy).mp hb
    obtain rfl := Option.some.inj hperform
    exact Bool.noConfusion

/-- A handler releases nothing. -/
theorem destroys_of_autonomous (he : e.Autonomous = true) : e.Destroys = false := by
  unfold ObjectEvent.Autonomous at he
  split at he
  · rfl
  · rfl
  · rfl
  · rfl
  · rfl
  · contradiction

/-! ### Objects that have been created -/

theorem held_of_created (h : Created S x) : x.Held := by
  cases h with
  | buffer | ipLookup => trivial
  | tcpSocket littleEndian s hs => exact TcpSession.held_of_created hs
  | udpSocket => rfl
  | combinedTcpAcceptor localPort v4acceptor v6acceptor a ha =>
    unfold CombinedTcpAcceptor.create at ha
    split at ha
    · obtain rfl := Option.some.inj ha
      rfl
    · contradiction

/-! ### Member functions -/

theorem kind_writeEvent {data : List UInt8} (h : x.writeEvent data = some e) :
    e.Destroys = false ∧ e.Reseats = false := by
  cases x with
  | buffer | tcpSocket | udpSocket =>
    obtain rfl := Option.some.inj h
    exact ⟨rfl, rfl⟩
  | combinedTcpAcceptor | ipLookup => contradiction

theorem kind_readEvent {size : ℕ} (h : x.readEvent size = some e) :
    e.Destroys = false ∧ e.Reseats = false := by
  cases x with
  | buffer | tcpSocket | udpSocket =>
    obtain rfl := Option.some.inj h
    exact ⟨rfl, rfl⟩
  | combinedTcpAcceptor | ipLookup => contradiction

/-- The event of a call that has one. -/
theorem event_of_map {α β : Type} {value : Option α} {event : α → Option ObjectEvent} {f : α → β}
    {result : β} (h : (value.map fun a => (event a, f a)) = some (some e, result)) :
    ∃ a, value = some a ∧ event a = some e := by
  obtain ⟨a, ha, hsame⟩ := Option.map_eq_some_iff.mp h
  exact ⟨a, ha, (Prod.mk.inj hsame).1⟩

/-- A member function releases nothing, and only one of them replaces a receive buffer. -/
theorem kind_call {o : LibrarySurroundings} {m : Member} {result : m.Result}
    (h : x.call S o m = some (some e, result)) : e.Destroys = false ∧ e.Reseats = m.Reseats := by
  cases m with
  | write data =>
    obtain ⟨e', he, hsame⟩ := event_of_map h
    obtain rfl := Option.some.inj hsame
    exact kind_writeEvent he
  | writeByteOrderAware n image =>
    obtain ⟨r, -, h⟩ := Option.bind_eq_some_iff.mp h
    obtain ⟨e', he, hsame⟩ := event_of_map h
    obtain rfl := Option.some.inj hsame
    exact kind_writeEvent he
  | readValue | read =>
    obtain ⟨r, -, h⟩ := Option.bind_eq_some_iff.mp h
    obtain ⟨e', he, hsame⟩ := event_of_map h
    obtain rfl := Option.some.inj hsame
    exact kind_readEvent he
  | setReadpos pos =>
    obtain ⟨e', he, hsame⟩ := event_of_map h
    obtain rfl := Option.some.inj hsame
    cases x with
    | buffer | tcpSocket | udpSocket =>
      obtain rfl := Option.some.inj he
      exact ⟨rfl, rfl⟩
    | combinedTcpAcceptor | ipLookup => contradiction
  | setSendbufferLimit maxSize =>
    obtain ⟨e', he, hsame⟩ := event_of_map h
    obtain rfl := Option.some.inj hsame
    cases x with
    | tcpSocket | udpSocket =>
      obtain rfl := Option.some.inj he
      exact ⟨rfl, rfl⟩
    | buffer | combinedTcpAcceptor | ipLookup => contradiction
  | clear =>
    obtain ⟨e', he, hsame⟩ := event_of_map h
    obtain rfl := Option.some.inj hsame
    cases x with
    | buffer r =>
      obtain rfl := Option.some.inj he
      exact ⟨rfl, rfl⟩
    | tcpSocket | udpSocket | combinedTcpAcceptor | ipLookup => contradiction
  | setLittleEndian | setNoDelay | receive | receiveAvailable | isEof | send | sendTo | broadcast
  | receiveDatagram | ready | hasNext | nextResult =>
    obtain ⟨a, -, hsame⟩ := event_of_map h
    obtain rfl := Option.some.inj hsame
    exact ⟨rfl, rfl⟩
  | bytesRemaining | hasError | getErrorMessage | getRemoteIp | getRemotePort | getLocalPort
  | getSendbufferSize | contents | isConnecting | isListening | getListeningPort =>
    obtain ⟨a, -, hsame⟩ := event_of_map h
    contradiction

end LibraryObject

end FaucetNetworking
