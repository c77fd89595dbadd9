import FaucetNetworking.Udp.SendPipeline

/-!
The endpoints that are tried for one datagram. They are those of the resolution, the
IPv4 ones first, whose socket is open; the first success ends the attempts, and then
the pipeline goes on with the next datagrams of the queue.
-/
namespace FaucetNetworking

/-- The endpoints that a socket with the given open status can try. -/
def usableEndpoints (ipv4Open ipv6Open : Bool) (results : List Endpoint) : List Endpoint :=
  (V4FirstIterator.v4First results).filter fun endpoint =>
    match endpoint.protocol with
    | .v4 => ipv4Open
    | .v6 => ipv6Open

namespace UdpSession

theorem usable_eq (s : UdpSession) (results : List Endpoint) :
    s.usable results = usableEndpoints s.socket.ipv4Open s.socket.ipv6Open results := by
  unfold usable usableEndpoints isOpen socketOpen
  rfl

/-! ### The two sockets stay as bind has left them -/

/-- Neither of the sockets has been opened or closed. -/
def SameSockets (s t : UdpSession) : Prop :=
  t.socket.ipv4Open = s.socket.ipv4Open ∧ t.socket.ipv6Open = s.socket.ipv6Open

theorem Kept.sameSockets {s t : UdpSession} (h : Kept s t) : SameSockets s t :=
  ⟨h.ipv4Open, h.ipv6Open⟩

theorem SameSockets.trans {s t r : UdpSession} (h : SameSockets s t) (h' : SameSockets t r) :
    SameSockets s r :=
  ⟨h'.1.trans h.1, h'.2.trans h.2⟩

theorem sameSockets_broadcast (P : Platform) (s : UdpSession) (addrs : List String) (port : ℕ) :
    SameSockets s (s.broadcast P addrs port).2 := by
  obtain ⟨⟨r, hqueue⟩, -, -, -⟩ := s.enqueueAll_offers P port addrs
  have hoffered : SameSockets s (s.enqueueAll P port addrs).2 := by
    rw [hqueue]
    exact ⟨rfl, rfl⟩
  apply hoffered.trans
  change SameSockets _ ((s.enqueueAll P port addrs).2.flush P)
  generalize (s.enqueueAll P port addrs).2 = u
  unfold flush
  cases u.socket.asyncSendInProgress with
  | true => exact ⟨rfl, rfl⟩
  | false => exact (asyncSend_pumped P u).kept.sameSockets

theorem sameSockets_receive (s : UdpSession) : SameSockets s s.receive.2 := by
  unfold receive
  cases s.socket.receivequeue.queue.peek with
  | none => exact ⟨rfl, rfl⟩
  | some item => exact ⟨rfl, rfl⟩

theorem sameSockets_handleReceive (P : Platform) (s : UdpSession) (err : Option String)
    (bytesTransferred : ℕ) (endpoint : Endpoint) (protocol : Protocol)
    (recvbuffer : List UInt8) : SameSockets s
      (s.handleReceive P err bytesTransferred endpoint protocol recvbuffer) := by
  unfold handleReceive
  cases err with
  | none =>
    obtain ⟨r, accepted, hstored, -⟩ :=
      s.storeDatagram_stored P (recvbuffer.take bytesTransferred) endpoint
    simp only [hstored]
    split <;> exact ⟨rfl, rfl⟩
  | some message =>
    simp only
    split <;> exact ⟨rfl, rfl⟩

theorem sameSockets_step {P : Platform} {s t : UdpSession} {e : UdpEvent}
    (h : step P s e = some t) : SameSockets s t := by
  obtain ⟨-, rfl⟩ := (step_eq_some_iff P s t e).mp h
  cases e with
  | call c =>
    cases c with
    | write data => exact ⟨rfl, rfl⟩
    | send host port => exact sameSockets_broadcast P s [host] port
    | broadcast addrs port => exact sameSockets_broadcast P s addrs port
    | setSendbufferLimit maxSize => exact ⟨rfl, rfl⟩
    | close => exact ⟨rfl, rfl⟩
    | receive => exact sameSockets_receive s
    | read size => exact ⟨rfl, rfl⟩
    | readString size => exact ⟨rfl, rfl⟩
    | setReadpos pos => exact ⟨rfl, rfl⟩
  | completion c =>
    cases c with
    | resolve index error results =>
      exact ((kept_resolved s index results).trans
        (perform_resolve_case P s index error results).kept).sameSockets
    | send index error =>
      exact ((kept_sent s index error).trans
        (perform_send_case P s index error).kept).sameSockets
    | receive index error bytes endpoint =>
      exact sameSockets_handleReceive P { s with
        pending.receives := s.pending.receives.eraseIdx index } error bytes.length endpoint _ _

theorem sockets_of_run {P : Platform} {ipv4Open ipv6Open : Bool} {es : List UdpEvent}
    {s : UdpSession} (hrun : StateMachine.run (step P) (bind ipv4Open ipv6Open) es = some s) :
    s.socket.ipv4Open = ipv4Open ∧ s.socket.ipv6Open = ipv6Open := by
  apply StateMachine.run_preserves
    (fun s => s.socket.ipv4Open = ipv4Open ∧ s.socket.ipv6Open = ipv6Open) _ _ hrun
  · intro s e t hs hstep
    have hsame := sameSockets_step hstep
    exact ⟨hsame.1.trans hs.1, hsame.2.trans hs.2⟩
  · cases ipv4Open <;> cases ipv6Open <;> exact ⟨rfl, rfl⟩

/-! ### From one datagram to the next -/

/-- The current datagram is tried again, or it is done and the next ones have been
begun: only those that left the queue, in their order, and at least one if there was
one. -/
inductive Advances (s t : UdpSession) : Prop where
  | again (u u' : Transmission) : s.history.current = some u → t.history.current = some u' →
      u'.datagram = u.datagram → u'.attempts.length = u.attempts.length + 1 →
      t.history.completed = s.history.completed →
      t.socket.sendqueue.ledger.waiting = s.socket.sendqueue.ledger.waiting → Advances s t
  | moved (u u' : Transmission) (begun : List Transmission) : s.history.current = some u →
      u'.datagram = u.datagram → u'.attempts = u.attempts →
      t.history.completed ++ t.history.current.toList =
        s.history.completed ++ u' :: begun →
      s.socket.sendqueue.ledger.waiting.map Prod.snd =
        begun.map Transmission.datagram ++ t.socket.sendqueue.ledger.waiting.map Prod.snd →
      (s.socket.sendqueue.ledger.waiting ≠ [] → begun ≠ []) → Advances s t

/-- What asyncSend begins is what it takes out of the queue. -/
theorem Pumped.begins {P : Platform} {s t : UdpSession} (h : Pumped P s t) :
    s.history.current = none → ∃ begun : List Transmission,
      t.history.completed ++ t.history.current.toList = s.history.completed ++ begun ∧
      s.socket.sendqueue.ledger.waiting.map Prod.snd =
        begun.map Transmission.datagram ++ t.socket.sendqueue.ledger.waiting.map Prod.snd ∧
      (s.socket.sendqueue.ledger.waiting ≠ [] → begun ≠ []) := by
  induction h with
  | empty s hqueue =>
    intro hcurrent
    have hwaiting : s.socket.sendqueue.ledger.waiting = [] := by
      apply List.length_eq_zero_iff.mp
      rw [s.socket.sendqueue.length_waiting, hqueue]
      rfl
    exact ⟨[], by rw [hcurrent]; rfl, by rw [hwaiting]; rfl, fun hne => absurd hwaiting hne⟩
  | resolving s item rest hqueue _ =>
    intro _
    obtain ⟨datagram, others, hwaiting, hpop, -, -⟩ := TrackedQueue.pop_of_cons hqueue
    refine ⟨[⟨datagram, [], [], []⟩], ?_, ?_, fun _ => List.cons_ne_nil _ _⟩
    · change s.history.completed ++ (s.socket.sendqueue.ledger.waiting.head?.map _).toList = _
      rw [hwaiting]
      rfl
    · change _ = _ ++ s.socket.sendqueue.pop.ledger.waiting.map _
      rw [hpop, hwaiting]
      rfl
  | sending s item rest address endpoint endpoints results hqueue _ _ _ =>
    intro _
    obtain ⟨datagram, others, hwaiting, hpop, -, -⟩ := TrackedQueue.pop_of_cons hqueue
    refine ⟨[⟨datagram, results, [(endpoint, (s.buffer item.buffer).data)], []⟩], ?_, ?_,
      fun _ => List.cons_ne_nil _ _⟩
    · change s.history.completed ++
        (((s.socket.sendqueue.ledger.waiting.head?.map _).map _).map _).toList = _
      rw [hwaiting]
      rfl
    · change _ = _ ++ s.socket.sendqueue.pop.ledger.waiting.map _
      rw [hpop, hwaiting]
      rfl
  | skipped s t item rest address results hqueue _ _ _ _ ih =>
    intro _
    obtain ⟨datagram, others, hwaiting, hpop, -, -⟩ := TrackedQueue.pop_of_cons hqueue
    obtain ⟨begun, htransmissions, hqueued, -⟩ := ih rfl
    refine ⟨⟨datagram, results, [], []⟩ :: begun, ?_, ?_, fun _ => List.cons_ne_nil _ _⟩
    · rw [htransmissions]
      change (s.history.completed ++
        ((s.socket.sendqueue.ledger.waiting.head?.map _).map _).toList) ++ begun = _
      rw [hwaiting, List.append_assoc]
      rfl
    · change s.socket.sendqueue.pop.ledger.waiting.map _ = _ at hqueued
      rw [hpop] at hqueued
      rw [hwaiting, List.map_cons, hqueued]
      rfl

theorem SendCase.advances {P : Platform} {s u r : UdpSession} {err : Option String}
    {place : ℕ} {endpoints : V4FirstIterator} {t v : Transmission}
    (hcase : SendCase P u err place endpoints r) (hcurrent : s.history.current = some t)
    (hupdated : u.history.current = some v) (hsame : v.datagram = t.datagram)
    (hattempts : v.attempts = t.attempts)
    (hcompleted : u.history.completed = s.history.completed)
    (hqueue : u.socket.sendqueue = s.socket.sendqueue) : Advances s r := by
  cases hcase with
  | attempted endpoint rest hattempt =>
    refine .again t { v with attempts := v.attempts ++ [(endpoint, (u.buffer place).data)] }
      hcurrent ?_ hsame ?_ hcompleted ?_
    · change u.history.current.map _ = _
      rw [hupdated]
      rfl
    · rw [List.length_append, hattempts]
      rfl
    · exact congrArg (fun queue => queue.ledger.waiting) hqueue
  | ended _ _ hpump =>
    obtain ⟨begun, htransmissions, hqueued, hnonempty⟩ := hpump.begins rfl
    have hended : (endSend u).socket.sendqueue = s.socket.sendqueue := hqueue
    rw [hended] at hqueued hnonempty
    refine .moved t v begun hcurrent hsame hattempts ?_ hqueued hnonempty
    rw [htransmissions]
    change u.history.completed ++ u.history.current.toList ++ begun = _
    rw [hcompleted, hupdated, List.append_assoc]
    rfl

/-- What is tried for the datagrams, in a state that a socket can reach. -/
structure TriesInOrder (P : Platform) (ipv4Open ipv6Open : Bool) (s : UdpSession) : Prop where
  /-- For a datagram that is done, the usable endpoints up to the first success, or all
  of them if none succeeded. -/
  finished : ∀ t ∈ s.history.completed, t.Finished (usableEndpoints ipv4Open ipv6Open t.results)
  /-- For the current datagram, a part of them, of which only the last is unanswered. -/
  current : ∀ t, s.history.current = some t →
    (s.pending.resolves ≠ [] ∧ t.attempts = []) ∨
      ∃ rest, t.Underway (usableEndpoints ipv4Open ipv6Open t.results) rest
  open_sockets : ∀ t ∈ s.history.completed ++ s.history.current.toList,
    ∀ attempt ∈ t.attempts, s.isOpen attempt.1 = true
  /-- Each handler tries the current datagram again or moves on. -/
  advances : ∀ c t, step P s (.completion c) = some t →
    (∃ index error bytes endpoint, c = .receive index error bytes endpoint) ∨ Advances s t
  /-- After the last datagram nothing is left in the queue. -/
  drained : s.history.current = none → s.socket.sendqueue.queue.queue = []

theorem mem_usable_isOpen {s : UdpSession} {results : List Endpoint} {endpoint : Endpoint}
    (h : endpoint ∈ s.usable results) : s.isOpen endpoint = true :=
  (List.mem_filter.mp h).2

theorem Sending.advances {c : Script} {P : Platform} {s t : UdpSession} (h : Sending c s)
    {done : UdpCompletion} (hstep : UdpSession.step P s (.completion done) = some t) :
    (∃ index error bytes endpoint, done = .receive index error bytes endpoint) ∨
      Advances s t := by
  obtain ⟨henabled, rfl⟩ := (step_eq_some_iff P s t _).mp hstep
  cases done with
  | receive index error bytes endpoint => exact Or.inl ⟨index, error, bytes, endpoint, rfl⟩
  | resolve index error results =>
    right
    have hcase := perform_resolve_case P s index error results
    obtain ⟨place, datagram, -, -, -, -, hcurrent, -⟩ := h.flow.stage.of_resolve henabled
    refine hcase.advances hcurrent (v := ⟨datagram, results, [], []⟩) ?_ rfl rfl rfl rfl
    change s.history.current.map _ = _
    rw [hcurrent]
    rfl
  | send index error =>
    right
    have hcase := perform_send_case P s index error
    obtain ⟨operation, u, -, -, -, -, hcurrent, -, -⟩ := h.flow.stage.of_send henabled
    refine hcase.advances hcurrent (v := { u with outcomes := u.outcomes ++ [error] })
      ?_ rfl rfl rfl rfl
    change s.history.current.map _ = _
    rw [hcurrent]
    rfl

/-- Every run of a socket tries the usable endpoints of its datagrams in order. -/
theorem triesInOrder_of_run (P : Platform) (ipv4Open ipv6Open : Bool) (es : List UdpEvent)
    (s : UdpSession) (hrun : StateMachine.run (step P) (bind ipv4Open ipv6Open) es = some s) :
    TriesInOrder P ipv4Open ipv6Open s := by
  have h := sending_of_run P ipv4Open ipv6Open hrun
  obtain ⟨hv4, hv6⟩ := sockets_of_run hrun
  have husable : ∀ results, s.usable results = usableEndpoints ipv4Open ipv6Open results := by
    intro results
    rw [usable_eq, hv4, hv6]
  have hcurrent : ∀ t, s.history.current = some t →
      (s.pending.resolves ≠ [] ∧ t.attempts = []) ∨
        ∃ rest, t.Underway (usableEndpoints ipv4Open ipv6Open t.results) rest := by
    intro t ht
    cases h.flow.stage with
    | idle _ _ _ hnone =>
      rw [ht] at hnone
      contradiction
    | resolving place datagram _ hresolves _ hsome _ =>
      rw [ht] at hsome
      rw [Option.some.inj hsome, hresolves]
      exact Or.inl ⟨List.cons_ne_nil _ _, rfl⟩
    | sending operation u _ _ _ hsome _ hunderway =>
      rw [ht] at hsome
      rw [Option.some.inj hsome, ← husable]
      exact Or.inr ⟨_, hunderway⟩
  have hdrained : s.history.current = none → s.socket.sendqueue.queue.queue = [] := by
    intro hnone
    cases h.flow.stage with
    | idle hflag _ _ _ => exact h.drained hflag
    | resolving _ _ _ _ _ hsome _ | sending _ _ _ _ _ hsome _ _ =>
      rw [hnone] at hsome
      contradiction
  refine ⟨?_, hcurrent, ?_, fun c t hstep => h.advances hstep, hdrained⟩
  · intro t ht
    rw [← husable]
    exact h.flow.finished t ht
  · intro t ht attempt hattempt
    have hmem := List.mem_map_of_mem (f := Prod.fst) hattempt
    apply @mem_usable_isOpen _ t.results
    rcases List.mem_append.mp ht with hcompleted | htoList
    · exact (h.flow.finished t hcompleted).tried.subset hmem
    · rcases hcurrent t (Option.mem_toList.mp htoList) with ⟨-, hnil⟩ | ⟨rest, hunderway⟩
      · rw [hnil] at hattempt
        exact absurd hattempt List.not_mem_nil
      · rw [husable, ← hunderway.order]
        exact List.mem_append_left rest hmem

/-- A name with one usable address among two, and then a literal one. -/
theorem triesInOrder_of_run_two : ∃ s, StateMachine.run (step loopback) (bind true false)
      [.call (.send "localhost" 80), .call (.send "127.0.0.1" 81),
        .completion (.resolve 0 none [⟨.v6, 1, 80⟩, ⟨.v4, 2, 80⟩]),
        .completion (.send 0 (some "unreachable"))] = some s ∧
    s.history.completed.map (fun t => (t.results, t.attempts.map Prod.fst)) =
      [([⟨.v6, 1, 80⟩, ⟨.v4, 2, 80⟩], [⟨.v4, 2, 80⟩])] ∧
    TriesInOrder loopback true false s := by
  have htried : ((StateMachine.run (step loopback) (bind true false)
      [.call (.send "localhost" 80), .call (.send "127.0.0.1" 81),
        .completion (.resolve 0 none [⟨.v6, 1, 80⟩, ⟨.v4, 2, 80⟩]),
        .completion (.send 0 (some "unreachable"))]).map fun s =>
          s.history.completed.map fun t => (t.results, t.attempts.map Prod.fst)) =
      some [([⟨.v6, 1, 80⟩, ⟨.v4, 2, 80⟩], [⟨.v4, 2, 80⟩])] := by decide +kernel
  obtain ⟨s, hrun, hattempts⟩ := Option.map_eq_some_iff.mp htried
  exact ⟨s, hrun, hattempts, triesInOrder_of_run loopback true false _ s hrun⟩

end UdpSession

end FaucetNetworking
