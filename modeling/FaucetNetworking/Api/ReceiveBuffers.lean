import FaucetNetworking.Api.Ownership
import FaucetNetworking.Udp.BufferFrame

/-!
The receive buffers of UDP sockets, which some functions get a pointer to. Only udp_receive
has one replaced by another, and does nothing afterwards. Whenever a function uses a pointer,
each socket therefore still has the receive buffer that it had when the function was called.
-/
namespace FaucetNetworking

open StateMachine Ieee754

/-! ### Sockets -/

namespace UdpSession

variable {P : Platform}

theorem receiveBuffer_broadcast (s : UdpSession) (addrs : List String) (port : ℕ) :
    (s.broadcast P addrs port).2.socket.receiveBuffer = s.socket.receiveBuffer := by
  obtain ⟨⟨r, hqueue⟩, -, -, -⟩ := s.enqueueAll_offers P port addrs
  have hoffered : (s.enqueueAll P port addrs).2.socket.receiveBuffer = s.socket.receiveBuffer := by
    rw [hqueue]
  change ((s.enqueueAll P port addrs).2.flush P).socket.receiveBuffer = _
  unfold flush
  cases (s.enqueueAll P port addrs).2.socket.asyncSendInProgress with
  | true => exact hoffered
  | false => exact (asyncSend_pumped P _).kept.receiveBuffer.trans hoffered

theorem receiveBuffer_call (s : UdpSession) {c : UdpCall} (hc : c ≠ .receive) :
    (c.perform P s).socket.receiveBuffer = s.socket.receiveBuffer := by
  cases c with
  | send host port => exact receiveBuffer_broadcast s [host] port
  | broadcast addrs port => exact receiveBuffer_broadcast s addrs port
  | receive => contradiction
  | write | setSendbufferLimit | close | read | readString | setReadpos => rfl

end UdpSession

theorem UdpObject.receiveBuffer_step {P : Platform} {o t : UdpObject} {e : UdpObjectEvent}
    (h : UdpObject.step P o e = some t) (he : e ≠ .session (.call .receive)) :
    t.session.socket.receiveBuffer = o.session.socket.receiveBuffer := by
  cases UdpObject.stepCase h with
  | session e s hsession _ _ =>
    obtain ⟨-, rfl⟩ := (UdpSession.step_eq_some_iff P _ _ _).mp hsession
    cases e with
    | call c =>
      refine UdpSession.receiveBuffer_call o.session ?_
      rintro rfl
      exact he rfl
    | completion c => exact (UdpSession.leaves_completion o.session c).place .exposed
  | released hard _ => cases hard <;> rfl
  | ignored => rfl

namespace LibraryObject

variable {S : System} {x y : LibraryObject} {e : ObjectEvent}

/-- The buffer that the shared pointer of a UDP socket leads to. -/
def receiveBuffer : LibraryObject → Option ℕ
  | .udpSocket _ r => some r.object.session.socket.receiveBuffer
  | _ => none

/-- A handler replaces no receive buffer. -/
theorem reseats_of_autonomous (he : e.Autonomous = true) : e.Reseats = false := by
  unfold ObjectEvent.Autonomous at he
  split at he
  · rfl
  · rfl
  · rfl
  · rfl
  · rfl
  · contradiction

theorem receiveBuffer_step (h : x.step S e = some y) (he : e.Reseats = false) :
    y.receiveBuffer = x.receiveBuffer := by
  cases stepCase h with
  | bufferOrder | tcpOrder | udpOrder | buffer | tcp | acceptor | lookup => rfl
  | udp members r e t ht =>
    refine congrArg some (UdpObject.receiveBuffer_step ht ?_)
    rintro rfl
    contradiction

end LibraryObject

/-! ### The library -/

namespace Library

variable {S : System} {l l' l'' : Library}

/-- No UDP socket has got another receive buffer. -/
def Seated (l l' : Library) : Prop :=
  ∀ (place : ℕ) x, l.heap[place]? = some x →
    ∃ y, l'.heap[place]? = some y ∧ y.receiveBuffer = x.receiveBuffer

theorem Seated.refl (l : Library) : l.Seated l := fun _ x hx => ⟨x, hx, rfl⟩

theorem Seated.trans (h : l.Seated l') (h' : l'.Seated l'') : l.Seated l'' := by
  intro place x hx
  obtain ⟨y, hy, hsame⟩ := h place x hx
  obtain ⟨z, hz, hsame'⟩ := h' place y hy
  exact ⟨z, hz, hsame'.trans hsame⟩

theorem Seated.create (h : l.Seated l') {x : LibraryObject} (hheap : l''.heap = l'.heap ++ [x]) :
    l.Seated l'' := by
  intro place y hy
  obtain ⟨z, hz, hsame⟩ := h place y hy
  refine ⟨z, ?_, hsame⟩
  rw [hheap, List.getElem?_append_left (List.getElem?_eq_some_iff.mp hz).1]
  exact hz

theorem seated_stepObject {p : ℕ} {e : ObjectEvent} (h : l.stepObject S p e = some l')
    (he : e.Reseats = false) : l.Seated l' := by
  obtain ⟨x, y, hx, hy, rfl⟩ := stepObject_eq_some_iff.mp h
  intro place z hz
  by_cases hp : p = place
  · subst p
    obtain rfl := Option.some.inj (hx.symm.trans hz)
    exact ⟨y, List.getElem?_set_self (List.getElem?_eq_some_iff.mp hx).1,
      LibraryObject.receiveBuffer_step hy he⟩
  · exact ⟨z, (List.getElem?_set_ne hp).trans hz, rfl⟩

theorem Seated.release (h : l.Seated l') (handle : Datum binary64) :
    l.Seated (l'.release handle) := by
  intro place x hx
  obtain ⟨y, hy, hsame⟩ := h place x hx
  exact ⟨y, (congrArg (·[place]?) (l'.heap_release handle).1).trans hy, hsame⟩

/-- A step of a call replaces no receive buffer, unless the call knows that it does. -/
theorem seated_primitive {q : Primitive} {result : q.Result} {g : Knowledge}
    (hcase : PrimitiveCase S l q result l')
    (hreseated : (Knowledge.after q result g).reseated = false) : l.Seated l' := by
  cases hcase with
  | find | observed | defaultThere | order | size => exact .refl l
  | changed p m result o x e l' _ hcall hstep =>
    refine seated_stepObject hstep ((LibraryObject.kind_call hcall).2.trans ?_)
    cases m with
    | receiveDatagram => exact hreseated
    | _ => rfl
  | allocated c x handle l' _ hallocate =>
    exact (Seated.refl l).create (target_allocate hallocate).1
  | waiting p calls between l' hstep => exact seated_stepObject hstep rfl
  | accepted p calls between x handle l' l'' hstep _ hallocate =>
    exact (seated_stepObject hstep rfl).create (target_allocate hallocate).1
  | destroyed handle p hard x e l' _ he hstep =>
    refine (seated_stepObject hstep ?_).release handle
    cases x with
    | buffer | ipLookup => contradiction
    | tcpSocket | udpSocket | combinedTcpAcceptor =>
      obtain rfl := Option.some.inj he
      rfl
  | released handle => exact (Seated.refl l).release handle
  | defaultBound o _ => exact (Seated.refl l).create rfl

end Library

/-- What a call has learned once stays so. -/
theorem Knowledge.reseated_of_after {q : Primitive} {result : q.Result} {g : Knowledge}
    (h : (Knowledge.after q result g).reseated = false) : g.reseated = false := by
  cases q with
  | find t handle => cases result <;> exact h
  | member place m =>
    cases m with
    | contents => exact (reseated_see g place _).symm.trans h
    | write | sendTo | broadcast => exact (reseated_setDraft g place _).symm.trans h
    | receiveDatagram => contradiction
    | _ => exact h
  | _ => exact h

/-! ### Runs -/

namespace LibrarySession

variable {S : System} {s t : LibrarySession} {es : List LibraryEvent} {e : LibraryEvent}

/-- The call that is running has been made in the past, and has replaced no receive buffer
since, unless it knows that it has. -/
def Begun (S : System) (es : List LibraryEvent) (l : Library) (c : ApiCall) (g : Knowledge) :
    Prop :=
  ∃ past future before, es = past ++ .call c :: future ∧ (∀ d, .call d ∉ future) ∧
    run S startup past = some before ∧ (g.reseated = false → before.library.Seated l)

theorem Begun.concat {l l' : Library} {c : ApiCall} {g g' : Knowledge} (h : Begun S es l c g)
    (he : ∀ d, e ≠ .call d) (hreseated : g'.reseated = false → g.reseated = false ∧ l.Seated l') :
    Begun S (es ++ [e]) l' c g' := by
  obtain ⟨past, future, before, rfl, hfuture, hpast, hseated⟩ := h
  refine ⟨past, future ++ [e], before, ?_, fun d hd => ?_, hpast, fun hg' => ?_⟩
  · rw [List.append_assoc, List.cons_append]
  · rcases List.mem_append.mp hd with hold | hnew
    · exact hfuture d hold
    · exact he d (List.mem_singleton.mp hnew).symm
  · obtain ⟨hg, hl⟩ := hreseated hg'
    exact (hseated hg).trans hl

/-- A run, with the contract of the call that is running. -/
structure Traced (S : System) (es : List LibraryEvent) (s : LibrarySession) : Prop where
  run : LibrarySession.run S startup es = some s
  obeys : ∀ c p, s.running = some (c, p) →
    ∃ g, Api.Obeys c.handles p g ∧ s.library.Knows c.handles g ∧ Begun S es s.library c g

theorem Traced.step (h : Traced S es s) (hstep : LibrarySession.step S s e = some t) :
    Traced S (es ++ [e]) t := by
  have hrun : LibrarySession.run S startup (es ++ [e]) = some t :=
    run_append_eq_some h.run ((run_cons_eq_some_iff _ _ _ _ _).mpr ⟨t, hstep, rfl⟩)
  have hconsistent := (orderly_of_run h.run).consistent
  refine ⟨hrun, fun c' p' hrunning' => ?_⟩
  cases stepCase hstep with
  | called c _ =>
    obtain ⟨rfl, rfl⟩ := Prod.mk.inj (Option.some.inj hrunning')
    exact ⟨.nothing, c.obeys, ⟨fun _ _ _ hfound => absurd hfound List.not_mem_nil, nofun⟩,
      es, [], s, rfl, fun _ => List.not_mem_nil, h.run, fun _ => .refl _⟩
  | returned c reply o _ => contradiction
  | performed c q next result l o hrunning hcase =>
    obtain ⟨rfl, rfl⟩ := Prod.mk.inj (Option.some.inj hrunning')
    obtain ⟨g, ⟨hallowed, hnext⟩, hknows, hbegun⟩ := h.obeys c _ hrunning
    refine ⟨_, hnext result, (hconsistent.perform hknows hallowed hcase).2, hbegun.concat nofun ?_⟩
    exact fun hg => ⟨Knowledge.reseated_of_after hg, Library.seated_primitive hcase hg⟩
  | handled place e l hautonomous hl =>
    obtain ⟨g, hobeys, hknows, hbegun⟩ := h.obeys c' p' hrunning'
    refine ⟨g, hobeys, hknows.mono (Library.keepsPointers_stepObject hl), hbegun.concat nofun ?_⟩
    exact fun hg => ⟨hg, Library.seated_stepObject hl (LibraryObject.reseats_of_autonomous
      hautonomous)⟩

theorem traced_of_run (hrun : run S startup es = some s) : Traced S es s :=
  run_traces (Traced S) (fun _ _ _ _ h hstep => h.step hstep) ⟨rfl, nofun⟩ hrun

end LibrarySession

end FaucetNetworking
