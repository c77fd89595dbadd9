import FaucetNetworking.Api.Isolation

/-!
The objects of the library and their own machines. Calls of the script, handlers and whatever
happens to other objects in between make, for each single object, a run of its own machine, so
that what holds of all runs of a machine holds of the objects of the library.
-/
namespace FaucetNetworking

open StateMachine

theorem UdpObject.positioned_step {P : Platform} {o t : UdpObject} {e : UdpObjectEvent}
    (h : o.session.Positioned) (hstep : step P o e = some t) : t.session.Positioned := by
  cases stepCase hstep with
  | session e s hsession _ _ => exact h.step hsession
  | released hard _ =>
    cases hard with
    | false => exact h
    | true => exact h.close
  | ignored index error bytes endpoint _ => exact h

theorem UdpObject.positioned_of_run {P : Platform} {t : UdpObject} {ipv4Open ipv6Open : Bool}
    {es : List UdpObjectEvent} (hrun : run (step P) (bind ipv4Open ipv6Open) es = some t) :
    t.session.Positioned :=
  run_preserves (fun o : UdpObject => o.session.Positioned) (fun _ _ _ => positioned_step)
    (UdpSession.positioned_bind ipv4Open ipv6Open) hrun

namespace LibraryObject

variable {S : System} {x y : LibraryObject} {e : ObjectEvent}

/-- The object is in a state that the machine of its class reaches. -/
def Reached (S : System) : LibraryObject → Prop
  | .buffer r => ∃ operations out,
      run (Buffer.step .mingw) ([], .new) operations = some (out, r.object)
  | .tcpSocket r => ∃ s events, TcpSession.Created s ∧
      run TcpSession.step s events = some r.object
  | .udpSocket _ r => ∃ ipv4Open ipv6Open events,
      run (UdpObject.step S.platform) (.bind ipv4Open ipv6Open) events = some r.object
  | .combinedTcpAcceptor _ a => ∃ v4acceptor v6acceptor s events,
      CombinedTcpAcceptor.create v4acceptor v6acceptor = some s ∧
        run CombinedTcpAcceptor.step s events = some a
  | .ipLookup l => ∃ host protocol events,
      run (LookupSession.step S.addressText) (.create S.addressText host protocol) events = some l

theorem Created.reached (h : Created S x) : x.Reached S := by
  cases h with
  | buffer => exact ⟨[], [], rfl⟩
  | tcpSocket littleEndian s hs => exact ⟨s, [], hs, rfl⟩
  | udpSocket littleEndian members ipv4Open ipv6Open => exact ⟨ipv4Open, ipv6Open, [], rfl⟩
  | combinedTcpAcceptor localPort v4acceptor v6acceptor a ha =>
    exact ⟨v4acceptor, v6acceptor, a, [], ha, rfl⟩
  | ipLookup host protocol => exact ⟨host, protocol, [], rfl⟩

/-- One more step of a run. -/
theorem run_concat {σ ε : Type} {step : σ → ε → Option σ} {s t u : σ} {es : List ε} {e : ε}
    (hrun : run step s es = some t) (hstep : step t e = some u) :
    run step s (es ++ [e]) = some u :=
  run_append_eq_some hrun ((run_cons_eq_some_iff _ _ _ _ _).mpr ⟨u, hstep, rfl⟩)

theorem Reached.step (h : x.Reached S) (hstep : x.step S e = some y) : y.Reached S := by
  cases stepCase hstep with
  | bufferOrder | tcpOrder | udpOrder => exact h
  | buffer r operation result hresult =>
    obtain ⟨operations, out, hrun⟩ := h
    refine ⟨operations ++ [operation], out ++ result.1, run_concat hrun ?_⟩
    exact Option.map_eq_some_iff.mpr ⟨result, hresult, rfl⟩
  | tcp r e t ht =>
    obtain ⟨s, events, hs, hrun⟩ := h
    exact ⟨s, events ++ [e], hs, run_concat hrun ht⟩
  | udp members r e t ht =>
    obtain ⟨ipv4Open, ipv6Open, events, hrun⟩ := h
    exact ⟨ipv4Open, ipv6Open, events ++ [e], run_concat hrun ht⟩
  | acceptor localPort a b e hb =>
    obtain ⟨v4acceptor, v6acceptor, s, events, hs, hrun⟩ := h
    exact ⟨v4acceptor, v6acceptor, s, events ++ [e], hs, run_concat hrun hb⟩
  | lookup l m e hm =>
    obtain ⟨host, protocol, events, hrun⟩ := h
    exact ⟨host, protocol, events ++ [e], run_concat hrun hm⟩

/-- Readers stay in the buffer that they read from. -/
theorem Reached.sound (h : x.Reached S) {r : ByteOrdered ReadWritable.Object}
    (hr : x.asReadWritable = some r) : r.object.Sound := by
  cases x with
  | buffer b =>
    obtain ⟨operations, out, hrun⟩ := h
    obtain rfl := Option.some.inj hr
    exact Buffer.positioned_of_run hrun
  | tcpSocket t =>
    obtain ⟨s, events, hs, hrun⟩ := h
    obtain rfl := Option.some.inj hr
    exact TcpSession.positioned_of_run hs hrun
  | udpSocket members u =>
    obtain ⟨ipv4Open, ipv6Open, events, hrun⟩ := h
    obtain rfl := Option.some.inj hr
    obtain ⟨c, hsending⟩ := (UdpObject.sound_of_run hrun).sending
    exact ⟨hsending.owned.exposed_lt, (UdpObject.positioned_of_run hrun).buffer _⟩
  | combinedTcpAcceptor | ipLookup => contradiction

end LibraryObject

namespace LibrarySession

variable {S : System} {s : LibrarySession} {place : ℕ} {x : LibraryObject}

theorem reached_of_object {es : List LibraryEvent} (hrun : run S startup es = some s)
    (hx : s.library.heap[place]? = some x) : x.Reached S := by
  have h := (orderly_of_run hrun).consistent
  obtain ⟨a, ha, hobject⟩ := ObjectHeap.run_created h.history rfl hx
  exact run_preserves (LibraryObject.Reached S)
    (fun _ _ _ => LibraryObject.Reached.step) (h.created a ha).reached hobject

/-- Whatever the script and the handlers do, also in the middle of a call, each object is
where its own machine can get by itself, and what is read from it is in its buffer. -/
theorem reached_of_run {es : List LibraryEvent} (hrun : run S startup es = some s)
    (hx : s.library.heap[place]? = some x) :
    x.Reached S ∧ ∀ r, x.asReadWritable = some r → r.object.Sound := by
  have hreached := reached_of_object hrun hx
  exact ⟨hreached, fun r hr => hreached.sound hr⟩

/-- In the middle of a call, the socket has got another receive buffer. -/
theorem reached_of_run_reading : ∃ s x, run loopbackSystem startup reading = some s ∧
    s.running.isSome = true ∧ s.library.heap[0]? = some x ∧ x.receiveBuffer = some 2 ∧
    x.Reached loopbackSystem ∧ ∀ r, x.asReadWritable = some r → r.object.Sound := by
  have hs : (run loopbackSystem startup reading).bind (fun s => (s.library.heap[0]?).map fun x =>
      (s.running.isSome, x.receiveBuffer)) = some (true, some 2) := by decide +kernel
  obtain ⟨s, hrun, hs⟩ := Option.bind_eq_some_iff.mp hs
  obtain ⟨x, hx, hs⟩ := Option.map_eq_some_iff.mp hs
  obtain ⟨hrunning, hbuffer⟩ := Prod.mk.inj hs
  exact ⟨s, x, hrun, hrunning, hx, hbuffer, reached_of_run hrun hx⟩

end LibrarySession

end FaucetNetworking
