import FaucetNetworking.Udp.SendPipeline

/-!
The receive pipeline. The handlers copy what has arrived to new buffers and queue
them; receive takes the oldest one and shows it to the client. A queued buffer
belongs to the queue alone, so nothing that the client does can reach it.
-/
namespace FaucetNetworking

namespace UdpSession

open TrackedQueue

/-! ### What happens to the receive queue -/

/-- Nothing has happened to the receive queue, nor to the buffers in it. -/
structure SameReceiving (s t : UdpSession) : Prop where
  receivequeue : t.socket.receivequeue = s.socket.receivequeue
  exposed : t.history.exposed = s.history.exposed
  carries : ∀ place datagram, place ∈ s.incoming → s.Carries place datagram →
    t.Carries place datagram

theorem Kept.sameReceiving {s t : UdpSession} (h : Kept s t) : SameReceiving s t :=
  ⟨h.receivequeue, h.exposed, fun _ _ _ => h.carries⟩

/-- The client changes one of its own two buffers. -/
theorem Owned.sameReceiving_setBuffer {s : UdpSession} (h : s.Owned) {place : ℕ}
    (hplace : place = s.socket.sendBuffer ∨ place = s.socket.receiveBuffer) (b : Buffer) :
    SameReceiving s (s.setBuffer place b) where
  receivequeue := rfl
  exposed := rfl
  carries := by
    intro other datagram hother hcarries
    obtain ⟨hdraft, hrest⟩ := List.nodup_cons.mp h.nodup
    apply hcarries.setBuffer
    rintro rfl
    rcases hplace with heq | heq
    · exact hdraft (heq ▸ List.mem_cons_of_mem _ hother)
    · exact (List.nodup_cons.mp hrest).1 (heq ▸ hother)

theorem sameReceiving_broadcast (P : Platform) (s : UdpSession) (addrs : List String)
    (port : ℕ) : SameReceiving s (s.broadcast P addrs port).2 := by
  obtain ⟨⟨r, hqueue⟩, -, -, -⟩ := s.enqueueAll_offers P port addrs
  have hrenewed : ∀ u : UdpSession, Kept (s.enqueueAll P port addrs).2 u →
      SameReceiving s { u.allocate with socket.sendBuffer := u.freshPlace } := by
    intro u hkept
    rw [hqueue] at hkept
    refine ⟨hkept.receivequeue, hkept.exposed, ?_⟩
    intro place datagram _ hcarries
    have hu : u.Carries place datagram := hkept.carries hcarries
    exact hu.allocate
  change SameReceiving s ((s.enqueueAll P port addrs).2.flush P)
  unfold flush
  cases (s.enqueueAll P port addrs).2.socket.asyncSendInProgress with
  | true => exact hrenewed _ (Kept.refl _)
  | false => exact hrenewed _ (asyncSend_pumped P _).kept

/-! ### The datagrams that arrive -/

def arrival (P : Platform) : UdpEvent → List Datagram
  | .completion (.receive _ none bytes endpoint) =>
    [⟨bytes, P.toString endpoint.protocol endpoint.address, endpoint.port⟩]
  | _ => []

/-- The datagrams that were received, in the order of their handlers. -/
def arrivals (P : Platform) (es : List UdpEvent) : List Datagram := es.flatMap (arrival P)

theorem arrivals_concat (P : Platform) (es : List UdpEvent) (e : UdpEvent) :
    arrivals P (es ++ [e]) = arrivals P es ++ arrival P e := by
  unfold arrivals
  rw [List.flatMap_append, List.flatMap_singleton]

/-- The receive pipeline after the arrival of the given datagrams. -/
structure Receiving (past : List Datagram) (s : UdpSession) : Prop where
  owned : s.Owned
  limit : s.socket.receivequeue.queue.memSizeLimit = DatagramQueue.DEFAULT_MEM_LIMIT
  entries : ∀ entry ∈ s.socket.receivequeue.ledger.waiting, s.CarriesEntry entry
  arrived : s.socket.receivequeue.ledger.entered.map Prod.snd = past
  exposed : s.history.exposed = s.socket.receivequeue.ledger.taken.map Prod.snd

/-- How the datagrams that leave the receive queue in a step come to do so. -/
def Departs (P : Platform) (s : UdpSession) (fates : List Fate) : UdpEvent → Prop
  | .call .receive => fates = if s.socket.receivequeue.queue.queue = [] then [] else [.taken]
  | .call .close =>
    fates = List.replicate s.socket.receivequeue.ledger.waiting.length .cleared
  | .completion (.receive _ none bytes endpoint) => ∃ count place,
      fates = List.replicate count .evicted ∧ s.socket.receivequeue.KeptBeside
        ⟨P.sizeofQueueItem + bytes.length, place,
          P.toString endpoint.protocol endpoint.address, endpoint.port⟩
        (s.socket.receivequeue.queue.queue.drop count)
  | _ => fates = []

/-- One step of the receive pipeline. -/
structure ReceiveStep (P : Platform) (past : List Datagram) (s t : UdpSession)
    (e : UdpEvent) : Prop where
  receiving : Receiving (past ++ arrival P e) t
  departs : ∃ fates, Departs P s fates e ∧
    t.socket.receivequeue.ledger.fates = s.socket.receivequeue.ledger.fates ++ fates

theorem Receiving.transport {past : List Datagram} {s t : UdpSession} (h : Receiving past s)
    (hsame : SameReceiving s t) (howned : t.Owned) : Receiving past t := by
  refine ⟨howned, ?_, ?_, ?_, ?_⟩
  · rw [hsame.receivequeue, h.limit]
  · rw [hsame.receivequeue]
    intro entry hentry
    obtain ⟨hcarries, haddress⟩ := h.entries entry hentry
    have hplace : entry.1.buffer ∈ s.incoming := (mem_queue _ _).mpr ⟨entry, hentry, rfl⟩
    exact ⟨hsame.carries _ _ hplace hcarries, haddress⟩
  · rw [hsame.receivequeue, h.arrived]
  · rw [hsame.receivequeue, hsame.exposed, h.exposed]

/-- A step that is not about receiving. -/
theorem Receiving.unaffected {P : Platform} {past : List Datagram} {s t : UdpSession}
    {e : UdpEvent} (h : Receiving past s) (hsame : SameReceiving s t) (howned : t.Owned)
    (harrival : arrival P e = []) (hdeparts : Departs P s [] e) : ReceiveStep P past s t e where
  receiving := by
    rw [harrival, List.append_nil]
    exact h.transport hsame howned
  departs := ⟨[], hdeparts, by rw [hsame.receivequeue, List.append_nil]⟩

/-! ### The calls of the client -/

theorem buffer_cleared {s : UdpSession} (h : s.Owned) :
    (s.setBuffer s.socket.receiveBuffer (s.buffer s.socket.receiveBuffer).clear).buffer
      s.socket.receiveBuffer = .new :=
  buffer_setBuffer_self h.exposed_lt _

/-- What a call of receive does. -/
structure Receives (s : UdpSession) : Prop where
  /-- It returns false exactly when nothing is queued. -/
  false_iff : s.receive.1 = false ↔ s.socket.receivequeue.queue.queue = []
  nothing : s.receive.1 = false →
    s.receive.2.buffer s.receive.2.socket.receiveBuffer = .new ∧
      s.receive.2.socket.remoteIp = "" ∧ s.receive.2.socket.remotePort = 0
  /-- Otherwise the first datagram is shown, from its start and with its sender. -/
  next : s.receive.1 = true → ∃ entry rest,
    s.socket.receivequeue.ledger.waiting = entry :: rest ∧
      s.receive.2.socket.receivequeue.ledger.waiting = rest ∧
      s.receive.2.buffer s.receive.2.socket.receiveBuffer = ⟨entry.2.payload, 0⟩ ∧
      s.receive.2.socket.remoteIp = entry.2.host ∧
      s.receive.2.socket.remotePort = entry.2.port ∧
      s.receive.2.history.exposed = s.history.exposed ++ [entry.2]

theorem receive_of_nil {s : UdpSession} (h : s.socket.receivequeue.queue.queue = []) :
    s.receive = (false,
      { s.setBuffer s.socket.receiveBuffer (s.buffer s.socket.receiveBuffer).clear with
        socket.remoteIp := ""
        socket.remotePort := 0 }) := by
  have hpeek : s.socket.receivequeue.queue.peek = none := List.head?_eq_none_iff.mpr h
  unfold receive
  rw [hpeek]

/-- The entry at the front is what the client is shown. -/
theorem Receiving.receive_of_cons {past : List Datagram} {s : UdpSession}
    (h : Receiving past s) {item : QueueItem} {rest : List QueueItem}
    (hqueue : s.socket.receivequeue.queue.queue = item :: rest) : ∃ datagram others,
      s.socket.receivequeue.ledger.waiting = (item, datagram) :: others ∧
      s.receive = (true, { s with
        socket.receiveBuffer := item.buffer
        socket.remoteIp := datagram.host
        socket.remotePort := datagram.port
        socket.receivequeue := s.socket.receivequeue.pop
        history.exposed := s.history.exposed ++ [datagram] }) ∧
      s.buffer item.buffer = ⟨datagram.payload, 0⟩ := by
  obtain ⟨datagram, others, hwaiting, -, -, -⟩ := pop_of_cons hqueue
  have hmem : (item, datagram) ∈ s.socket.receivequeue.ledger.waiting := by
    rw [hwaiting]
    exact List.mem_cons_self
  obtain ⟨⟨-, hbuffer⟩, hhost, hport⟩ := h.entries _ hmem
  have hpeek : s.socket.receivequeue.queue.peek = some item :=
    List.head?_eq_some_iff.mpr ⟨rest, hqueue⟩
  refine ⟨datagram, others, hwaiting, ?_, hbuffer⟩
  simp only at hhost hport hbuffer
  unfold receive
  rw [hpeek]
  unfold shown buffer at *
  simp only [hbuffer, hhost, hport]

theorem Receiving.receives {past : List Datagram} {s : UdpSession} (h : Receiving past s) :
    s.Receives := by
  cases hqueue : s.socket.receivequeue.queue.queue with
  | nil =>
    have hreceive := receive_of_nil hqueue
    refine ⟨?_, ?_, ?_⟩
    · rw [hreceive, hqueue]
      simp only
    · intro _
      rw [hreceive]
      exact ⟨buffer_cleared h.owned, rfl, rfl⟩
    · intro htrue
      rw [hreceive] at htrue
      contradiction
  | cons item rest =>
    obtain ⟨datagram, others, hwaiting, hreceive, hbuffer⟩ := h.receive_of_cons hqueue
    refine ⟨?_, ?_, ?_⟩
    · rw [hreceive, hqueue]
      simp only [Bool.true_eq_false, reduceCtorEq]
    · intro hfalse
      rw [hreceive] at hfalse
      contradiction
    · intro _
      obtain ⟨_, _, hwaiting', hrest, -, -⟩ := pop_of_cons hqueue
      rw [hwaiting] at hwaiting'
      injection hwaiting' with _ hothers
      rw [hreceive]
      exact ⟨(item, datagram), others, hwaiting, hrest.trans hothers.symm, hbuffer, rfl, rfl, rfl⟩

theorem Receiving.receive {P : Platform} {past : List Datagram} {s : UdpSession}
    (h : Receiving past s) : ReceiveStep P past s s.receive.2 (.call .receive) := by
  have howned := h.owned.receive
  cases hqueue : s.socket.receivequeue.queue.queue with
  | nil =>
    rw [receive_of_nil hqueue] at howned ⊢
    have hsame := h.owned.sameReceiving_setBuffer (Or.inr rfl)
      (s.buffer s.socket.receiveBuffer).clear
    refine h.unaffected ⟨hsame.receivequeue, hsame.exposed, hsame.carries⟩ howned rfl ?_
    unfold Departs
    rw [if_pos hqueue]
  | cons item rest =>
    obtain ⟨datagram, others, hwaiting, hreceive, -⟩ := h.receive_of_cons hqueue
    obtain ⟨datagram', others', hwaiting', hrest, htaken, hoffered⟩ := pop_of_cons hqueue
    rw [hwaiting] at hwaiting'
    obtain ⟨hentry, rfl⟩ := List.cons.inj hwaiting'
    obtain rfl := (Prod.mk.inj hentry).2
    have hne : s.socket.receivequeue.queue.queue ≠ [] := by
      rw [hqueue]
      exact List.cons_ne_nil _ _
    rw [hreceive] at howned ⊢
    refine ⟨⟨howned, ?_, ?_, ?_, ?_⟩, [.taken], ?_, ?_⟩
    · exact (memSizeLimit_pop _).trans h.limit
    · intro entry hentry
      change entry ∈ s.socket.receivequeue.pop.ledger.waiting at hentry
      rw [hrest] at hentry
      apply h.entries entry
      rw [hwaiting]
      exact List.mem_cons_of_mem _ hentry
    · change s.socket.receivequeue.pop.ledger.entered.map Prod.snd = past ++ []
      unfold Ledger.entered
      rw [hoffered, List.append_nil]
      exact h.arrived
    · change s.history.exposed ++ [datagram] = s.socket.receivequeue.pop.ledger.taken.map _
      rw [htaken, List.map_append, ← h.exposed]
      rfl
    · unfold Departs
      rw [if_neg hne]
    · change s.socket.receivequeue.pop.ledger.fates = _
      rw [ledger_pop _ hne]
      rfl

theorem Receiving.close {P : Platform} {past : List Datagram} {s : UdpSession}
    (h : Receiving past s) : ReceiveStep P past s s.close (.call .close) := by
  have hdropped := s.socket.receivequeue.dropped_clear
  refine ⟨⟨h.owned.close, h.limit, ?_, ?_, ?_⟩, _, rfl, ?_⟩
  · intro entry hentry
    have hnil : s.socket.receivequeue.clear.ledger.waiting = [] := by
      rw [ledger_clear, Ledger.waiting_leave]
      exact List.drop_length
    change entry ∈ s.socket.receivequeue.clear.ledger.waiting at hentry
    rw [hnil] at hentry
    exact absurd hentry List.not_mem_nil
  · change s.socket.receivequeue.clear.ledger.entered.map Prod.snd = past ++ []
    unfold Ledger.entered
    rw [hdropped.offered, List.append_nil]
    exact h.arrived
  · change s.history.exposed = s.socket.receivequeue.clear.ledger.taken.map _
    rw [hdropped.taken, h.exposed]
  · change s.socket.receivequeue.clear.ledger.fates = _
    rw [ledger_clear]
    rfl

/-! ### The handler -/

/-- No datagram is too large for the queue. -/
theorem accepts_datagram (P : Platform) {bytes : List UInt8}
    (h : bytes.length ≤ recvbufferSize) :
    P.sizeofQueueItem + bytes.length ≤ DatagramQueue.DEFAULT_MEM_LIMIT := by
  have hsize := P.sizeofQueueItem_le
  unfold recvbufferSize at h
  unfold DatagramQueue.DEFAULT_MEM_LIMIT
  omega

theorem Receiving.storeDatagram {P : Platform} {past : List Datagram} {s : UdpSession}
    (h : Receiving past s) {bytes : List UInt8} (hbytes : bytes.length ≤ recvbufferSize)
    (endpoint : Endpoint) (index : ℕ) :
    ReceiveStep P past s (s.storeDatagram P bytes endpoint)
      (.completion (.receive index none bytes endpoint)) := by
  have howned := h.owned.storeDatagram P bytes endpoint
  obtain ⟨r, accepted, hstored, hpushed⟩ := s.storeDatagram_stored P bytes endpoint
  have haccepted : accepted = true := by
    rw [hpushed.accepted_iff, h.limit]
    exact accepts_datagram P hbytes
  rw [haccepted] at hpushed
  obtain ⟨count, hfates, hkept⟩ := hpushed.evicted
  rw [hstored] at howned ⊢
  have hfresh : s.freshPlace < s.allocate.buffers.length := by
    rw [length_allocate]
    exact Nat.lt_succ_self _
  refine ⟨⟨howned, ?_, ?_, ?_, ?_⟩, _, ⟨count, s.freshPlace, rfl, hkept rfl⟩, hfates⟩
  · exact hpushed.memSizeLimit.trans h.limit
  · intro entry hentry
    rcases hpushed.mem_waiting hentry with hold | rfl
    · obtain ⟨hcarries, haddress⟩ := h.entries entry hold
      exact ⟨hcarries.allocate.setBuffer (Nat.ne_of_lt hcarries.1) _, haddress⟩
    · refine ⟨⟨?_, buffer_setBuffer_self hfresh _⟩, rfl, rfl⟩
      change s.freshPlace < (s.allocate.setBuffer _ _).buffers.length
      rwa [length_setBuffer]
  · change r.ledger.entered.map Prod.snd = _
    rw [hpushed.entered, List.map_append, h.arrived]
    rfl
  · change s.history.exposed = r.ledger.taken.map Prod.snd
    rw [hpushed.taken, h.exposed]

/-- Receiving again does not matter for what has been received. -/
theorem ReceiveStep.rearm {P : Platform} {past : List Datagram} {s t : UdpSession}
    {e : UdpEvent} (h : ReceiveStep P past s t e) (protocol : Protocol)
    (recvbuffer : List UInt8) : ReceiveStep P past s
      (if t.socketOpen protocol then t.asyncReceive protocol recvbuffer else t) e := by
  split
  · exact ⟨⟨h.receiving.owned, h.receiving.limit, h.receiving.entries, h.receiving.arrived,
      h.receiving.exposed⟩, h.departs⟩
  · exact h

theorem Receiving.received {P : Platform} {past : List Datagram} {s : UdpSession}
    (h : Receiving past s) (index : ℕ) (error : Option String) {bytes : List UInt8}
    (hbytes : bytes.length ≤ recvbufferSize) (endpoint : Endpoint) :
    ReceiveStep P past s (UdpCompletion.perform P s (.receive index error bytes endpoint))
      (.completion (.receive index error bytes endpoint)) := by
  have hrest : Receiving past { s with
      pending.receives := s.pending.receives.eraseIdx index } :=
    ⟨h.owned, h.limit, h.entries, h.arrived, h.exposed⟩
  unfold UdpCompletion.perform handleReceive
  cases error with
  | none =>
    have hstored := hrest.storeDatagram (P := P) hbytes endpoint index
    have hstored' : ReceiveStep P past s (UdpSession.storeDatagram P { s with
        pending.receives := s.pending.receives.eraseIdx index } bytes endpoint)
        (.completion (.receive index none bytes endpoint)) :=
      ⟨hstored.receiving, hstored.departs⟩
    simp only [List.take_left]
    exact hstored'.rearm _ _
  | some message =>
    apply ReceiveStep.rearm
    exact h.unaffected ⟨rfl, rfl, fun _ _ _ hcarries => hcarries⟩ hrest.owned rfl rfl

theorem Receiving.step {P : Platform} {past : List Datagram} {s t : UdpSession}
    {e : UdpEvent} (h : Receiving past s) (hstep : UdpSession.step P s e = some t) :
    ReceiveStep P past s t e := by
  have howned := h.owned.step hstep
  obtain ⟨henabled, rfl⟩ := (step_eq_some_iff P s t e).mp hstep
  cases e with
  | call c =>
    cases c with
    | write data =>
      exact h.unaffected (h.owned.sameReceiving_setBuffer (Or.inl rfl) _) howned rfl rfl
    | send host port =>
      exact h.unaffected (sameReceiving_broadcast P s [host] port) howned rfl rfl
    | broadcast addrs port =>
      exact h.unaffected (sameReceiving_broadcast P s addrs port) howned rfl rfl
    | setSendbufferLimit maxSize =>
      exact h.unaffected ⟨rfl, rfl, fun _ _ _ hcarries => hcarries⟩ howned rfl rfl
    | close => exact h.close
    | receive => exact h.receive
    | read size =>
      exact h.unaffected (h.owned.sameReceiving_setBuffer (Or.inr rfl) _) howned rfl rfl
    | readString size =>
      exact h.unaffected (h.owned.sameReceiving_setBuffer (Or.inr rfl) _) howned rfl rfl
    | setReadpos pos =>
      exact h.unaffected (h.owned.sameReceiving_setBuffer (Or.inr rfl) _) howned rfl rfl
  | completion c =>
    cases c with
    | resolve index error results =>
      have hkept := (kept_resolved s index results).trans
        (perform_resolve_case P s index error results).kept
      exact h.unaffected hkept.sameReceiving howned rfl rfl
    | send index error =>
      have hkept := (kept_sent s index error).trans (perform_send_case P s index error).kept
      exact h.unaffected hkept.sameReceiving howned rfl rfl
    | receive index error bytes endpoint => exact h.received index error henabled.2 endpoint

theorem receiving_bind (ipv4Open ipv6Open : Bool) :
    Receiving [] (bind ipv4Open ipv6Open) := by
  refine ⟨owned_bind ipv4Open ipv6Open, ?_, ?_, ?_, ?_⟩ <;>
    cases ipv4Open <;> cases ipv6Open
  all_goals first | rfl | exact nofun

theorem receiving_of_run (P : Platform) (ipv4Open ipv6Open : Bool) {es : List UdpEvent}
    {s : UdpSession} (hrun : StateMachine.run (step P) (bind ipv4Open ipv6Open) es = some s) :
    Receiving (arrivals P es) s := by
  apply StateMachine.run_traces (fun es s => Receiving (arrivals P es) s) _ _ hrun
  · intro es s e t hs hstep
    rw [arrivals_concat]
    exact (hs.step hstep).receiving
  · exact receiving_bind ipv4Open ipv6Open

/-- What holds of the receiving direction after the given events. -/
structure ReceivesInOrder (P : Platform) (es : List UdpEvent) (s : UdpSession) : Prop where
  /-- Every datagram enters the queue, in the order of the handlers. -/
  entered : s.socket.receivequeue.ledger.entered.map Prod.snd = arrivals P es
  /-- Each one has left with its fate or is still queued. -/
  accounted : s.socket.receivequeue.ledger.fates.length +
    s.socket.receivequeue.queue.queue.length = (arrivals P es).length
  queued : s.socket.receivequeue.queue.queue = (s.socket.receivequeue.ledger.entered.drop
    s.socket.receivequeue.ledger.fates.length).map Prod.fst
  /-- Whatever was read or cleared, the queued buffers are as they arrived. -/
  intact : ∀ entry ∈ s.socket.receivequeue.ledger.waiting,
    s.buffer entry.1.buffer = ⟨entry.2.payload, 0⟩ ∧ entry.1.remoteHost = entry.2.host ∧
      entry.1.remotePort = entry.2.port
  /-- The client has been shown those that were taken. -/
  exposed : s.history.exposed = s.socket.receivequeue.ledger.taken.map Prod.snd
  in_order : s.history.exposed.Sublist (arrivals P es)
  /-- What leaves is taken by receive, removed by close, or evicted for lack of room. -/
  departs : ∀ e t, step P s e = some t → ∃ fates, Departs P s fates e ∧
    t.socket.receivequeue.ledger.fates = s.socket.receivequeue.ledger.fates ++ fates
  receives : s.Receives

/-- Every run of a socket receives in order. -/
theorem receivesInOrder_of_run (P : Platform) (ipv4Open ipv6Open : Bool) (es : List UdpEvent)
    (s : UdpSession) (hrun : StateMachine.run (step P) (bind ipv4Open ipv6Open) es = some s) :
    ReceivesInOrder P es s := by
  have h := receiving_of_run P ipv4Open ipv6Open hrun
  refine ⟨h.arrived, ?_, s.socket.receivequeue.tracks, ?_, h.exposed, ?_,
    fun e t hstep => (h.step hstep).departs, h.receives⟩
  · rw [← h.arrived, List.length_map, ← s.socket.receivequeue.length_waiting]
    exact s.socket.receivequeue.balanced.length_waiting
  · intro entry hentry
    obtain ⟨hcarries, haddress⟩ := h.entries entry hentry
    exact ⟨hcarries.2, haddress⟩
  · rw [h.exposed, ← h.arrived]
    exact (Ledger.taken_sublist _).map Prod.snd

/-- Two datagrams on two sockets, of which the client takes and reads the first. -/
theorem receivesInOrder_of_run_two : ∃ s, StateMachine.run (step loopback) (bind true true)
      [.completion (.receive 1 none [5, 6] ⟨.v6, 1, 90⟩),
        .completion (.receive 0 none [7] ⟨.v4, 2, 91⟩), .call .receive, .call (.read 1)] =
        some s ∧
    s.history.exposed = [⟨[5, 6], "127.0.0.1", 90⟩] ∧
    ReceivesInOrder loopback
      [.completion (.receive 1 none [5, 6] ⟨.v6, 1, 90⟩),
        .completion (.receive 0 none [7] ⟨.v4, 2, 91⟩), .call .receive, .call (.read 1)] s := by
  have hexposed : ((StateMachine.run (step loopback) (bind true true)
      [.completion (.receive 1 none [5, 6] ⟨.v6, 1, 90⟩),
        .completion (.receive 0 none [7] ⟨.v4, 2, 91⟩), .call .receive, .call (.read 1)]).map
          fun s => s.history.exposed) = some [⟨[5, 6], "127.0.0.1", 90⟩] := by decide +kernel
  obtain ⟨s, hrun, htaken⟩ := Option.map_eq_some_iff.mp hexposed
  exact ⟨s, hrun, htaken, receivesInOrder_of_run loopback true true _ s hrun⟩

end UdpSession

end FaucetNetworking
