import FaucetNetworking.Udp.Lifetime
import FaucetNetworking.Udp.ReceivePipeline

/-!
UDP sockets on a network. The network takes a datagram from the buffer of a send that
is pending, as often as it likes; it may lose what it has taken, deliver it more than
once and in any order, and deliver it to several sockets. It changes no datagram.
-/
namespace FaucetNetworking

namespace UdpSession

/-! ### What has been tried stays recorded -/

/-- Each record of a transmission is still there, perhaps with more attempts. -/
def Extends (s t : UdpSession) : Prop :=
  ∀ u ∈ s.transmissions, ∃ v ∈ t.transmissions,
    v.datagram = u.datagram ∧ u.attempts <+: v.attempts

theorem Extends.trans {s t r : UdpSession} (h : s.Extends t) (h' : t.Extends r) :
    s.Extends r := by
  intro u hu
  obtain ⟨v, hv, hdatagram, hattempts⟩ := h u hu
  obtain ⟨w, hw, hdatagram', hattempts'⟩ := h' v hv
  exact ⟨w, hw, hdatagram'.trans hdatagram, hattempts.trans hattempts'⟩

theorem extends_of_subset {s t : UdpSession} (h : s.transmissions ⊆ t.transmissions) :
    s.Extends t :=
  fun u hu => ⟨u, h hu, rfl, List.prefix_refl _⟩

theorem extends_of_eq {s t : UdpSession} (hcompleted : t.history.completed = s.history.completed)
    (hcurrent : t.history.current = s.history.current) : s.Extends t := by
  apply extends_of_subset
  unfold transmissions
  rw [hcompleted, hcurrent]
  exact List.Subset.refl _

/-- Only the record of the current datagram changes. -/
theorem extends_of_map {s t : UdpSession} {f : Transmission → Transmission}
    (hcompleted : t.history.completed = s.history.completed)
    (hcurrent : t.history.current = s.history.current.map f)
    (hdatagram : ∀ u, (f u).datagram = u.datagram)
    (hattempts : ∀ u, u.attempts <+: (f u).attempts) : s.Extends t := by
  intro u hu
  unfold transmissions at hu ⊢
  rw [hcompleted, hcurrent]
  rcases List.mem_append.mp hu with hold | hnow
  · exact ⟨u, List.mem_append_left _ hold, rfl, List.prefix_refl _⟩
  · refine ⟨f u, List.mem_append_right _ ?_, hdatagram u, hattempts u⟩
    rw [Option.mem_toList.mp hnow]
    exact List.mem_singleton_self _

theorem Pumped.extends {P : Platform} {s t : UdpSession} (h : Pumped P s t)
    (hcurrent : s.history.current = none) : s.Extends t := by
  obtain ⟨begun, htransmissions, -, -⟩ := h.begins hcurrent
  apply extends_of_subset
  unfold transmissions
  rw [htransmissions, hcurrent, Option.toList_none, List.append_nil]
  exact List.subset_append_left _ _

theorem SendCase.extends {P : Platform} {s t : UdpSession} {err : Option String} {place : ℕ}
    {endpoints : V4FirstIterator} (h : SendCase P s err place endpoints t) : s.Extends t := by
  cases h with
  | attempted endpoint rest _ =>
    exact extends_of_map rfl rfl (fun _ => rfl) fun _ => List.prefix_append _ _
  | ended _ _ hpump =>
    have hdone : s.Extends (endSend s) := by
      apply extends_of_subset
      unfold transmissions
      exact List.subset_append_left _ _
    exact hdone.trans (hpump.extends rfl)

theorem Flow.extends_broadcast {s : UdpSession} (h : s.Flow) (P : Platform)
    (addrs : List String) (port : ℕ) : s.Extends (s.broadcast P addrs port).2 := by
  obtain ⟨⟨r, hqueue⟩, -, -, -⟩ := s.enqueueAll_offers P port addrs
  have hoffered : s.Extends (s.enqueueAll P port addrs).2 := by
    rw [hqueue]
    exact extends_of_eq rfl rfl
  apply hoffered.trans
  change (s.enqueueAll P port addrs).2.Extends ((s.enqueueAll P port addrs).2.flush P)
  unfold UdpSession.flush
  cases hflag : (s.enqueueAll P port addrs).2.socket.asyncSendInProgress with
  | true => exact extends_of_eq rfl rfl
  | false =>
    rw [hqueue] at hflag ⊢
    have hcurrent : s.history.current = none := by
      cases h.stage with
      | idle _ _ _ hnone => exact hnone
      | resolving _ _ htrue _ _ _ _ | sending _ _ htrue _ _ _ _ _ =>
        rw [show s.socket.asyncSendInProgress = false from hflag] at htrue
        contradiction
    have hpumped := asyncSend_pumped P { s with socket.sendqueue := r }
    exact (hpumped.extends hcurrent).trans (extends_of_eq rfl rfl)

theorem extends_receive (s : UdpSession) : s.Extends s.receive.2 := by
  unfold UdpSession.receive
  cases s.socket.receivequeue.queue.peek with
  | none => exact extends_of_eq rfl rfl
  | some item => exact extends_of_eq rfl rfl

theorem Flow.extends_step {P : Platform} {s t : UdpSession} {e : UdpEvent} (h : s.Flow)
    (hstep : step P s e = some t) : s.Extends t := by
  obtain ⟨henabled, rfl⟩ := (step_eq_some_iff P s t e).mp hstep
  cases e with
  | call c =>
    cases c with
    | send host port => exact h.extends_broadcast P [host] port
    | broadcast addrs port => exact h.extends_broadcast P addrs port
    | receive => exact s.extends_receive
    | write | setSendbufferLimit | close | read | readString | setReadpos =>
      exact extends_of_eq rfl rfl
  | completion c =>
    cases c with
    | resolve index error results =>
      have hnoted : s.Extends (noteResults { s with
          pending.resolves := s.pending.resolves.eraseIdx index } results) :=
        extends_of_map rfl rfl (fun _ => rfl) fun _ => List.prefix_refl _
      exact hnoted.trans (perform_resolve_case P s index error results).extends
    | send index error =>
      have hnoted : s.Extends (UdpCompletion.noteOutcome { s with
          pending.sends := s.pending.sends.eraseIdx index } error) :=
        extends_of_map rfl rfl (fun _ => rfl) fun _ => List.prefix_refl _
      exact hnoted.trans (perform_send_case P s index error).extends
    | receive index error bytes endpoint =>
      have hsame := sameSending_received P s index error bytes endpoint
      exact extends_of_eq hsame.completed hsame.current

/-- What has been tried was asked for. -/
theorem Sending.requested_of_mem {c : Script} {s : UdpSession} (h : Sending c s)
    {u : Transmission} (hu : u ∈ s.transmissions) : u.datagram ∈ c.requests := by
  have htaken : u.datagram ∈ s.socket.sendqueue.ledger.taken.map Prod.snd := by
    rw [h.flow.processed]
    exact List.mem_map_of_mem hu
  have hsublist := (Ledger.taken_sublist s.socket.sendqueue.ledger).trans
    (Ledger.entered_sublist s.socket.sendqueue.ledger)
  obtain ⟨entry, hentry, hdatagram⟩ := List.mem_map.mp htaken
  obtain ⟨offer, hoffer, rfl⟩ := List.mem_map.mp (hsublist.subset hentry)
  rw [← h.requested, ← hdatagram]
  exact List.mem_map_of_mem hoffer

theorem Flow.payloads {s : UdpSession} (h : s.Flow) {u : Transmission}
    (hu : u ∈ s.transmissions) : ∀ attempt ∈ u.attempts, attempt.2 = u.datagram.payload := by
  rcases List.mem_append.mp hu with hcompleted | hcurrent
  · exact (h.finished u hcompleted).payloads
  · exact h.current_payloads (Option.mem_toList.mp hcurrent)

/-- The endpoint of the send that is pending. -/
def target (s : UdpSession) : Option Endpoint :=
  s.history.current.bind fun t => t.attempts.getLast?.map Prod.fst

end UdpSession

/-! ### Objects and what they are asked to do -/

/-- What the session of an object sees of an event. -/
def UdpObjectEvent.seen : UdpObjectEvent → List UdpEvent
  | .session e => [e]
  | .destroySocket true => [.call .close]
  | .destroySocket false => []

/-- The datagram that an event brings. -/
def UdpObjectEvent.arrival (P : Platform) : UdpObjectEvent → List Datagram
  | .session e => UdpSession.arrival P e
  | .destroySocket _ => []

namespace UdpObject

open UdpSession

variable {P : Platform} {o t : UdpObject} {e : UdpObjectEvent}

theorem sending_step {c : UdpSession.Script} (h : Sending c o.session)
    (hstep : step P o e = some t) :
    Sending (e.seen.foldl UdpSession.Script.note c) t.session := by
  cases stepCase hstep with
  | session _ s hsession _ _ => exact h.step hsession
  | released hard _ =>
    cases hard with
    | false => exact h
    | true => exact h.close
  | ignored index _ _ _ _ => exact sending_erased h index

theorem extends_step (h : o.session.Flow) (hstep : step P o e = some t) :
    o.session.Extends t.session := by
  cases stepCase hstep with
  | session _ s hsession _ _ => exact h.extends_step hsession
  | released hard _ => cases hard <;> exact extends_of_eq rfl rfl
  | ignored index _ _ _ _ => exact extends_of_eq rfl rfl

theorem receiving_step {past : List Datagram} (h : Receiving past o.session)
    (hstep : step P o e = some t) : ∃ past', Receiving past' t.session ∧
      past' ⊆ past ++ e.arrival P := by
  cases stepCase hstep with
  | session _ s hsession _ _ =>
    exact ⟨_, (h.step hsession).receiving, List.Subset.refl _⟩
  | released hard _ =>
    cases hard with
    | false => exact ⟨past, h, List.subset_append_left _ _⟩
    | true => exact ⟨past ++ [], (h.close (P := P)).receiving, List.Subset.refl _⟩
  | ignored index _ _ _ _ =>
    exact ⟨past, ⟨h.owned, h.limit, h.entries, h.arrived, h.exposed⟩,
      List.subset_append_left _ _⟩

end UdpObject

/-! ### The network -/

/-- A datagram that the network has taken from a socket. -/
structure Packet (ι : Type*) where
  sender : ι
  target : Endpoint
  payload : List UInt8

/-- The endpoint by which others see a socket, and the sockets that an endpoint leads to. -/
structure Sites (ι : Type*) where
  home : ι → Protocol → Endpoint
  reaches : Endpoint → ι → Bool

/-- The sockets, and every datagram that the network has taken so far. -/
structure UdpNetwork (ι : Type*) where
  object : ι → UdpObject
  packets : List (Packet ι)

/-- An event at a socket other than an arrival, or the network takes the datagram of a
pending send, or it delivers one to a pending receive. -/
inductive UdpNetworkEvent (ι : Type*) where
  | socket (i : ι) (e : UdpObjectEvent)
  | transmit (i : ι) (index : ℕ)
  | deliver (i : ι) (index packet : ℕ)

namespace UdpNetwork

variable {ι : Type*} [DecidableEq ι] (P : Platform) (sites : Sites ι)

def setObject (n : UdpNetwork ι) (i : ι) (o : UdpObject) : UdpNetwork ι :=
  { n with object := Function.update n.object i o }

/-- Who a datagram from the given socket seems to come from. -/
def source (p : Packet ι) : Endpoint := sites.home p.sender p.target.protocol

/-- The completion of a receive with a datagram. -/
def arrivalOf (index : ℕ) (p : Packet ι) : UdpObjectEvent :=
  .session (.completion (.receive index none p.payload (source sites p)))

/-- The datagram as the client of a receiver is shown it. -/
def shownAs (p : Packet ι) : Datagram :=
  ⟨p.payload, P.toString (source sites p).protocol (source sites p).address,
    (source sites p).port⟩

/-- The network reads the payload from the buffer of the pending send. -/
def step (n : UdpNetwork ι) : UdpNetworkEvent ι → Option (UdpNetwork ι)
  | .socket i e =>
    if e.arrival P = [] then (UdpObject.step P (n.object i) e).map (n.setObject i) else none
  | .transmit i index =>
    match (n.object i).session.pending.sends[index]?, (n.object i).session.target with
    | some operation, some target =>
      let payload := ((n.object i).session.buffer operation.buffer).data
      some { n with packets := n.packets ++ [⟨i, target, payload⟩] }
    | _, _ => none
  | .deliver i index packet =>
    match (n.object i).session.pending.receives[index]?, n.packets[packet]? with
    | some operation, some p =>
      if sites.reaches p.target i ∧ operation.protocol = p.target.protocol then
        (UdpObject.step P (n.object i) (arrivalOf sites index p)).map (n.setObject i)
      else none
    | _, _ => none

/-- Sockets that have just been bound, and nothing under way. -/
structure Fresh (n : UdpNetwork ι) : Prop where
  object : ∀ i, ∃ ipv4Open ipv6Open, n.object i = .bind ipv4Open ipv6Open
  packets : n.packets = []

/-- What the session of a socket sees of an event, arrivals apart. -/
def seenAt (i : ι) : UdpNetworkEvent ι → List UdpEvent
  | .socket j e => if j = i then e.seen else []
  | _ => []

/-- What the client of a socket has asked for in a run. -/
def scriptAt (i : ι) (es : List (UdpNetworkEvent ι)) : UdpSession.Script :=
  UdpSession.script (es.flatMap (seenAt i))

theorem scriptAt_concat (i : ι) (es : List (UdpNetworkEvent ι)) (e : UdpNetworkEvent ι) :
    scriptAt i (es ++ [e]) = (seenAt i e).foldl UdpSession.Script.note (scriptAt i es) := by
  unfold scriptAt UdpSession.script
  rw [List.flatMap_append, List.flatMap_singleton, List.foldl_append]

variable {P sites} {n m : UdpNetwork ι} {es : List (UdpNetworkEvent ι)}

/-- What an event does: a step of one socket, with a datagram from the network or without,
or the network takes a datagram. -/
inductive StepCase (P : Platform) (sites : Sites ι) (n : UdpNetwork ι) :
    UdpNetworkEvent ι → UdpNetwork ι → Prop where
  | socket (i : ι) (e : UdpObjectEvent) (o : UdpObject) : e.arrival P = [] →
      UdpObject.step P (n.object i) e = some o → StepCase P sites n (.socket i e) (n.setObject i o)
  | transmit (i : ι) (index : ℕ) (operation : PendingSend) (target : Endpoint) :
      operation ∈ (n.object i).session.pending.sends →
      (n.object i).session.target = some target →
      StepCase P sites n (.transmit i index) { n with packets := n.packets ++
        [⟨i, target, ((n.object i).session.buffer operation.buffer).data⟩] }
  | deliver (i : ι) (index packet : ℕ) (p : Packet ι) (o : UdpObject) : p ∈ n.packets →
      sites.reaches p.target i = true →
      UdpObject.step P (n.object i) (arrivalOf sites index p) = some o →
      StepCase P sites n (.deliver i index packet) (n.setObject i o)

theorem stepCase {e : UdpNetworkEvent ι} (h : step P sites n e = some m) :
    StepCase P sites n e m := by
  unfold step at h
  split at h
  · split at h
    · rename_i hlocal
      obtain ⟨o, ho, rfl⟩ := Option.map_eq_some_iff.mp h
      exact .socket _ _ o hlocal ho
    · contradiction
  · split at h
    · rename_i operation target hoperation htarget
      obtain rfl := Option.some.inj h
      exact .transmit _ _ operation target (List.mem_of_getElem? hoperation) htarget
    · contradiction
  · split at h
    · rename_i operation p _ hpacket
      split at h
      · rename_i hreaches
        obtain ⟨o, ho, rfl⟩ := Option.map_eq_some_iff.mp h
        exact .deliver _ _ _ p o (List.mem_of_getElem? hpacket) hreaches.1 ho
      · contradiction
    · contradiction

/-! ### The invariant -/

/-- The datagram is what a socket has tried to send to its target. -/
def Posted (n : UdpNetwork ι) (p : Packet ι) : Prop :=
  ∃ u ∈ (n.object p.sender).session.transmissions, u.datagram.payload = p.payload ∧
    p.target ∈ u.attempts.map Prod.fst

/-- The datagram was taken by the network, and leads to the socket. -/
def Delivered (P : Platform) (sites : Sites ι) (n : UdpNetwork ι) (i : ι) (d : Datagram) :
    Prop :=
  ∃ p ∈ n.packets, sites.reaches p.target i = true ∧ d = shownAs P sites p

structure Sound (P : Platform) (sites : Sites ι) (es : List (UdpNetworkEvent ι))
    (n : UdpNetwork ι) : Prop where
  sending : ∀ i, UdpSession.Sending (scriptAt i es) (n.object i).session
  posted : ∀ p ∈ n.packets, n.Posted p
  receiving : ∀ i, ∃ past, UdpSession.Receiving past (n.object i).session ∧
    ∀ d ∈ past, n.Delivered P sites i d

theorem sound_of_fresh (h : n.Fresh) : n.Sound P sites [] := by
  refine ⟨?_, ?_, ?_⟩
  · intro i
    obtain ⟨ipv4Open, ipv6Open, hbind⟩ := h.object i
    rw [hbind]
    exact UdpSession.sending_bind ipv4Open ipv6Open
  · rw [h.packets]
    exact nofun
  · intro i
    obtain ⟨ipv4Open, ipv6Open, hbind⟩ := h.object i
    rw [hbind]
    exact ⟨[], UdpSession.receiving_bind ipv4Open ipv6Open, nofun⟩

omit [DecidableEq ι] in
theorem Delivered.mono {i : ι} {d : Datagram} (h : n.Delivered P sites i d)
    (hpackets : n.packets ⊆ m.packets) : m.Delivered P sites i d := by
  obtain ⟨p, hp, hreaches, hshown⟩ := h
  exact ⟨p, hpackets hp, hreaches, hshown⟩

/-- One socket takes a step, and is brought only what the network has delivered to it. -/
theorem Sound.setObject {i : ι} {e : UdpObjectEvent} {o : UdpObject} {event : UdpNetworkEvent ι}
    (h : n.Sound P sites es) (hstep : UdpObject.step P (n.object i) e = some o)
    (hseen : ∀ c : UdpSession.Script,
      (seenAt i event).foldl .note c = e.seen.foldl .note c)
    (hothers : ∀ j, j ≠ i → seenAt j event = [])
    (harrival : ∀ d ∈ e.arrival P, n.Delivered P sites i d) :
    (n.setObject i o).Sound P sites (es ++ [event]) := by
  have hself : (n.setObject i o).object i = o := Function.update_self _ _ _
  have hother : ∀ j, j ≠ i → (n.setObject i o).object j = n.object j :=
    fun j hj => Function.update_of_ne hj _ _
  refine ⟨?_, ?_, ?_⟩
  · intro j
    rw [scriptAt_concat]
    by_cases hj : j = i
    · rw [hj, hself, hseen]
      exact UdpObject.sending_step (h.sending i) hstep
    · rw [hother j hj, hothers j hj]
      exact h.sending j
  · intro p hp
    obtain ⟨u, hu, hpayload, htarget⟩ := h.posted p hp
    by_cases hsender : p.sender = i
    · rw [hsender] at hu
      obtain ⟨v, hv, hdatagram, hattempts⟩ :=
        UdpObject.extends_step (h.sending i).flow hstep u hu
      refine ⟨v, ?_, hdatagram ▸ hpayload, (hattempts.map Prod.fst).subset htarget⟩
      rw [hsender, hself]
      exact hv
    · refine ⟨u, ?_, hpayload, htarget⟩
      rw [hother _ hsender]
      exact hu
  · intro j
    obtain ⟨past, hreceiving, hpast⟩ := h.receiving j
    by_cases hj : j = i
    · rw [hj] at hreceiving hpast ⊢
      rw [hself]
      obtain ⟨past', hnext, hsubset⟩ := UdpObject.receiving_step hreceiving hstep
      refine ⟨past', hnext, fun d hd => ?_⟩
      rcases List.mem_append.mp (hsubset hd) with hold | hnew
      · exact (hpast d hold).mono (List.Subset.refl _)
      · exact (harrival d hnew).mono (List.Subset.refl _)
    · rw [hother j hj]
      exact ⟨past, hreceiving, fun d hd => (hpast d hd).mono (List.Subset.refl _)⟩

omit [DecidableEq ι] in
/-- What is in the buffer of the pending send is the datagram that was asked for. -/
theorem posted_transmit {c : UdpSession.Script} {i : ι} {operation : PendingSend}
    {target : Endpoint} (h : UdpSession.Sending c (n.object i).session)
    (hoperation : operation ∈ (n.object i).session.pending.sends)
    (htarget : (n.object i).session.target = some target) :
    n.Posted ⟨i, target, ((n.object i).session.buffer operation.buffer).data⟩ := by
  obtain ⟨u, hcurrent, hpayload⟩ := h.flow.in_flight hoperation
  refine ⟨u, ?_, hpayload.symm, ?_⟩
  · apply List.mem_append_right
    rw [hcurrent]
    exact List.mem_singleton_self u
  · unfold UdpSession.target at htarget
    rw [hcurrent, Option.bind_some] at htarget
    obtain ⟨attempt, hlast, rfl⟩ := Option.map_eq_some_iff.mp htarget
    exact List.mem_map_of_mem (List.mem_of_getLast? hlast)

theorem Sound.step {e : UdpNetworkEvent ι} (h : n.Sound P sites es)
    (hstep : UdpNetwork.step P sites n e = some m) : m.Sound P sites (es ++ [e]) := by
  cases stepCase hstep with
  | socket i e o hlocal hobject =>
    apply h.setObject hobject
    · intro c
      change (if i = i then e.seen else []).foldl _ c = _
      rw [if_pos rfl]
    · exact fun j hj => if_neg hj.symm
    · rw [hlocal]
      exact nofun
  | deliver i index packet p o hpacket hreaches hobject =>
    apply h.setObject hobject
    · exact fun c => rfl
    · exact fun j _ => rfl
    · intro d hd
      exact ⟨p, hpacket, hreaches, List.mem_singleton.mp hd⟩
  | transmit i index operation target hoperation htarget =>
    refine ⟨?_, ?_, ?_⟩
    · intro j
      rw [scriptAt_concat]
      exact h.sending j
    · intro p hp
      rcases List.mem_append.mp hp with hold | hnew
      · exact h.posted p hold
      · rw [List.mem_singleton.mp hnew]
        exact posted_transmit (h.sending i) hoperation htarget
    · intro j
      obtain ⟨past, hreceiving, hpast⟩ := h.receiving j
      exact ⟨past, hreceiving, fun d hd => (hpast d hd).mono (List.subset_append_left _ _)⟩

theorem sound_of_run (hfresh : n.Fresh)
    (hrun : StateMachine.run (step P sites) n es = some m) : m.Sound P sites es := by
  apply StateMachine.run_traces (fun es m => UdpNetwork.Sound P sites es m) _ _ hrun
  · exact fun past s e t hs hstep => hs.step hstep
  · exact sound_of_fresh hfresh

/-- Where a datagram that a client is shown comes from: it is as a whole what the client of
some socket has asked for, and was sent to an endpoint that leads here. -/
structure Origin (P : Platform) (sites : Sites ι) (es : List (UdpNetworkEvent ι))
    (n : UdpNetwork ι) (i : ι) (d : Datagram) (sender : ι) (u : Transmission)
    (endpoint : Endpoint) : Prop where
  transmission : u ∈ (n.object sender).session.transmissions
  requested : u.datagram ∈ (scriptAt sender es).requests
  payload : d.payload = u.datagram.payload
  tried : endpoint ∈ u.attempts.map Prod.fst
  reaches : sites.reaches endpoint i = true
  host : d.host = P.toString (sites.home sender endpoint.protocol).protocol
    (sites.home sender endpoint.protocol).address
  port : d.port = (sites.home sender endpoint.protocol).port

/-- Whatever is lost, doubled or reordered on the way, and whatever the clients do with their
buffers and sockets meanwhile, each datagram that a client is shown is one that some client
has sent, neither cut nor joined with another one, and it is shown with its sender. -/
theorem shown_was_sent {i : ι} {d : Datagram} (hfresh : n.Fresh)
    (hrun : StateMachine.run (step P sites) n es = some m)
    (hshown : d ∈ (m.object i).session.history.exposed) :
    ∃ sender u endpoint, Origin P sites es m i d sender u endpoint := by
  have hsound : m.Sound P sites es := sound_of_run hfresh hrun
  obtain ⟨past, hreceiving, hpast⟩ := hsound.receiving i
  have hmem : d ∈ past := by
    rw [← hreceiving.arrived]
    rw [hreceiving.exposed] at hshown
    exact ((Ledger.taken_sublist _).map Prod.snd).subset hshown
  obtain ⟨p, hp, hreaches, rfl⟩ := hpast d hmem
  obtain ⟨u, hu, hpayload, htarget⟩ := hsound.posted p hp
  exact ⟨p.sender, u, p.target, hu, (hsound.sending p.sender).requested_of_mem hu, hpayload.symm,
    htarget, hreaches, rfl, rfl⟩

/-- Two sockets that reach each other. -/
def twoSites : Sites Bool where
  home := fun _ _ => ⟨.v4, 0x7f000001, 80⟩
  reaches := fun _ _ => true

def twoSockets : UdpNetwork Bool := ⟨fun _ => .bind true false, []⟩

/-- The datagram is delivered twice, and the second copy is shown. -/
theorem shown_was_sent_two : ∃ es m, StateMachine.run (step UdpSession.loopback twoSites)
      twoSockets es = some m ∧ ∃ sender u endpoint, Origin UdpSession.loopback twoSites es m true
        ⟨[7], "127.0.0.1", 80⟩ sender u endpoint := by
  have hshown : ((StateMachine.run (step UdpSession.loopback twoSites) twoSockets
      [.socket false (.session (.call (.write [7]))),
        .socket false (.session (.call (.send "127.0.0.1" 80))), .transmit false 0,
        .deliver true 0 0, .deliver true 0 0, .socket true (.session (.call .receive)),
        .socket true (.session (.call .receive))]).map
          fun m => (m.object true).session.history.exposed) =
      some [⟨[7], "127.0.0.1", 80⟩, ⟨[7], "127.0.0.1", 80⟩] := by decide +kernel
  obtain ⟨m, hrun, hshown⟩ := Option.map_eq_some_iff.mp hshown
  have hfresh : twoSockets.Fresh := ⟨fun _ => ⟨true, false, rfl⟩, rfl⟩
  refine ⟨_, m, hrun, shown_was_sent hfresh hrun ?_⟩
  rw [hshown]
  exact List.mem_cons_self

end UdpNetwork

end FaucetNetworking
