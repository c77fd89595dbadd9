import FaucetNetworking.Tcp.Socket
import FaucetNetworking.Udp.EndpointFallback
import Mathlib.Data.List.Perm.Basic
import Mathlib.Data.Prod.Lex

/-!
The life of a UDP socket. The handlers of a resolution and of a send hold a shared
pointer to it, those of a receive only a weak one. A socket whose handle has been
released therefore lives until its datagrams are done, and then it receives no more.
-/
namespace FaucetNetworking

namespace UdpSession

/-! ### Receiving never stops -/

def openProtocols (ipv4Open ipv6Open : Bool) : List Protocol :=
  (if ipv4Open then [.v4] else []) ++ if ipv6Open then [.v6] else []

/-- One receive is pending on each open socket, with a scratch array of its own. -/
structure Listens (s : UdpSession) : Prop where
  operations : (s.pending.receives.map PendingReceive.protocol).Perm
    (openProtocols s.socket.ipv4Open s.socket.ipv6Open)
  arrays : ∀ r ∈ s.pending.receives, r.recvbuffer.length = recvbufferSize

theorem mem_openProtocols {s : UdpSession} {protocol : Protocol} :
    protocol ∈ openProtocols s.socket.ipv4Open s.socket.ipv6Open ↔
      s.socketOpen protocol = true := by
  unfold openProtocols socketOpen
  cases s.socket.ipv4Open <;> cases s.socket.ipv6Open <;> cases protocol <;> decide

theorem listens_bind (ipv4Open ipv6Open : Bool) : (bind ipv4Open ipv6Open).Listens := by
  have harrays : ∀ r ∈ (bind ipv4Open ipv6Open).pending.receives,
      r.recvbuffer = List.replicate recvbufferSize 0 := by
    cases ipv4Open <;> cases ipv6Open <;> intro r hr
    · contradiction
    · rw [List.mem_singleton.mp hr]
    · rw [List.mem_singleton.mp hr]
    · rcases List.mem_cons.mp hr with rfl | hr
      · rfl
      · rw [List.mem_singleton.mp hr]
  refine ⟨?_, ?_⟩
  · cases ipv4Open <;> cases ipv6Open <;> exact List.Perm.refl _
  · intro r hr
    rw [harrays r hr, List.length_replicate]

theorem Listens.transport {s t : UdpSession} (h : s.Listens) (hsame : SameSockets s t)
    (hreceives : t.pending.receives = s.pending.receives) : t.Listens := by
  refine ⟨?_, ?_⟩
  · rw [hreceives, hsame.1, hsame.2]
    exact h.operations
  · rw [hreceives]
    exact h.arrays

theorem receives_broadcast (P : Platform) (s : UdpSession) (addrs : List String) (port : ℕ) :
    (s.broadcast P addrs port).2.pending.receives = s.pending.receives := by
  obtain ⟨⟨r, hqueue⟩, -, -, -⟩ := s.enqueueAll_offers P port addrs
  change ((s.enqueueAll P port addrs).2.flush P).pending.receives = _
  have hoffered : (s.enqueueAll P port addrs).2.pending.receives = s.pending.receives := by
    rw [hqueue]
  unfold flush
  cases (s.enqueueAll P port addrs).2.socket.asyncSendInProgress with
  | true => exact hoffered
  | false => exact (asyncSend_pumped P _).kept.receives.trans hoffered

theorem receives_call (P : Platform) (s : UdpSession) (c : UdpCall) :
    (c.perform P s).pending.receives = s.pending.receives := by
  cases c with
  | send host port => exact receives_broadcast P s [host] port
  | broadcast addrs port => exact receives_broadcast P s addrs port
  | receive =>
    change s.receive.2.pending.receives = _
    unfold UdpSession.receive
    split <;> rfl
  | write | setSendbufferLimit | close | read | readString | setReadpos => rfl

/-- The operation that completes is started again with the same array. -/
theorem Listens.received {s : UdpSession} (h : s.Listens) (P : Platform) {index : ℕ}
    (error : Option String) {bytes : List UInt8} (endpoint : Endpoint)
    (hindex : index < s.pending.receives.length) (hbytes : bytes.length ≤ recvbufferSize) :
    (UdpCompletion.perform P s (.receive index error bytes endpoint)).Listens := by
  have hget : s.pending.receives.getD index ⟨.v4, []⟩ = s.pending.receives[index] := by
    rw [List.getD_eq_getElem?_getD, List.getElem?_eq_getElem hindex, Option.getD_some]
  generalize hoperation : s.pending.receives[index] = operation at hget
  have hmem : operation ∈ s.pending.receives := hoperation ▸ List.getElem_mem hindex
  have hopen : s.socketOpen operation.protocol = true := by
    rw [← mem_openProtocols]
    exact h.operations.subset (List.mem_map_of_mem hmem)
  have hreceives :
      (UdpCompletion.perform P s (.receive index error bytes endpoint)).pending.receives =
        s.pending.receives.eraseIdx index ++
          [⟨operation.protocol, bytes ++ operation.recvbuffer.drop bytes.length⟩] := by
    unfold UdpCompletion.perform handleReceive
    simp only [hget]
    cases error with
    | none =>
      obtain ⟨r, accepted, hstored, -⟩ := storeDatagram_stored P { s with
        pending.receives := s.pending.receives.eraseIdx index }
        ((bytes ++ operation.recvbuffer.drop bytes.length).take bytes.length) endpoint
      simp only [hstored]
      exact congrArg (fun u : UdpSession => u.pending.receives) (if_pos hopen)
    | some message =>
      exact congrArg (fun u : UdpSession => u.pending.receives) (if_pos hopen)
  have henabled : Enabled s (.completion (.receive index error bytes endpoint)) :=
    ⟨hindex, hbytes⟩
  obtain ⟨hv4, hv6⟩ := sameSockets_step ((step_eq_some_iff P s _ _).mpr ⟨henabled, rfl⟩)
  rw [show perform P s (.completion (.receive index error bytes endpoint)) =
    UdpCompletion.perform P s (.receive index error bytes endpoint) from rfl] at hv4 hv6
  refine ⟨?_, ?_⟩
  · have hagain : (s.pending.receives.eraseIdx index ++ [operation]).Perm s.pending.receives := by
      refine (List.perm_append_singleton _ _).trans ?_
      rw [← hoperation]
      exact List.getElem_cons_eraseIdx_perm hindex
    rw [hreceives, hv4, hv6, List.map_append]
    have hmap := hagain.map PendingReceive.protocol
    rw [List.map_append] at hmap
    exact hmap.trans h.operations
  · intro r hr
    rw [hreceives] at hr
    rcases List.mem_append.mp hr with hold | hnew
    · exact h.arrays r (List.mem_of_mem_eraseIdx hold)
    · rw [List.mem_singleton.mp hnew, List.length_append, List.length_drop, h.arrays _ hmem]
      exact Nat.add_sub_cancel' hbytes

theorem Listens.step {P : Platform} {s t : UdpSession} {e : UdpEvent} (h : s.Listens)
    (hstep : UdpSession.step P s e = some t) : t.Listens := by
  have hsame := sameSockets_step hstep
  obtain ⟨henabled, rfl⟩ := (step_eq_some_iff P s t e).mp hstep
  cases e with
  | call c => exact h.transport hsame (receives_call P s c)
  | completion c =>
    cases c with
    | resolve index error results =>
      exact h.transport hsame ((kept_resolved s index results).trans
        (perform_resolve_case P s index error results).kept).receives
    | send index error =>
      exact h.transport hsame ((kept_sent s index error).trans
        (perform_send_case P s index error).kept).receives
    | receive index error bytes endpoint => exact h.received P error endpoint henabled.1 henabled.2

/-! ### What is left to be done -/

/-- The datagrams that have been taken out of the queue, the current one being the last. -/
def transmissions (s : UdpSession) : List Transmission :=
  s.history.completed ++ s.history.current.toList

def queued (s : UdpSession) : List Datagram := s.socket.sendqueue.waiting.map Prod.snd

/-- The datagrams that have been taken out of the queue and then those in it. -/
def line (s : UdpSession) : List Datagram :=
  s.transmissions.map Transmission.datagram ++ s.queued

def unfinished (s : UdpSession) : ℕ :=
  s.history.current.toList.length + s.socket.sendqueue.waiting.length

/-- How many attempts the pending send may still be followed by. -/
def triesLeft (s : UdpSession) : ℕ :=
  (s.pending.sends.map fun operation => (s.usableRest operation.endpoints).length).sum

/-- A resolution may yield any number of endpoints, so it counts for more than any of them. -/
def load (s : UdpSession) : ℕ ×ₗ ℕ ×ₗ ℕ :=
  toLex (s.unfinished, toLex (s.pending.resolves.length, s.triesLeft))

/-- A handler changes nothing about the order of the datagrams. -/
theorem Advances.line {s t : UdpSession} (h : Advances s t) : t.line = s.line := by
  unfold UdpSession.line transmissions queued
  cases h with
  | again u u' hcurrent hcurrent' hsame _ hcompleted hwaiting =>
    change _ ++ t.socket.sendqueue.ledger.waiting.map _ =
      _ ++ s.socket.sendqueue.ledger.waiting.map _
    rw [hwaiting, hcompleted, hcurrent, hcurrent']
    simp only [Option.toList_some, List.map_append, List.map_cons, List.map_nil, hsame]
  | moved u u' begun hcurrent hsame _ htransmissions hwaiting _ =>
    change _ ++ t.socket.sendqueue.ledger.waiting.map _ =
      _ ++ s.socket.sendqueue.ledger.waiting.map _
    rw [htransmissions, hwaiting, hcurrent]
    simp only [Option.toList_some, List.map_append, List.map_cons, List.map_nil, hsame,
      List.append_assoc, List.cons_append, List.nil_append]

theorem Pumped.unfinished_le {P : Platform} {s t : UdpSession} (h : Pumped P s t) :
    s.history.current = none → t.unfinished ≤ s.socket.sendqueue.waiting.length := by
  unfold UdpSession.unfinished
  induction h with
  | empty s _ =>
    intro hcurrent
    rw [hcurrent]
    exact Nat.le_of_eq (Nat.zero_add _)
  | resolving s item rest hqueue _ =>
    intro _
    obtain ⟨datagram, others, hwaiting, hpop, -, -⟩ := TrackedQueue.pop_of_cons hqueue
    change (s.socket.sendqueue.ledger.waiting.head?.map _).toList.length +
      s.socket.sendqueue.pop.ledger.waiting.length ≤ s.socket.sendqueue.ledger.waiting.length
    rw [hpop, hwaiting]
    exact Nat.le_of_eq (Nat.add_comm _ _)
  | sending s item rest address endpoint endpoints results hqueue _ _ _ =>
    intro _
    obtain ⟨datagram, others, hwaiting, hpop, -, -⟩ := TrackedQueue.pop_of_cons hqueue
    change (((s.socket.sendqueue.ledger.waiting.head?.map _).map _).map _).toList.length +
      s.socket.sendqueue.pop.ledger.waiting.length ≤ s.socket.sendqueue.ledger.waiting.length
    rw [hpop, hwaiting]
    exact Nat.le_of_eq (Nat.add_comm _ _)
  | skipped s t item rest address results hqueue _ _ _ _ ih =>
    intro _
    obtain ⟨datagram, others, hwaiting, hpop, -, -⟩ := TrackedQueue.pop_of_cons hqueue
    apply (ih rfl).trans
    change s.socket.sendqueue.pop.ledger.waiting.length ≤
      s.socket.sendqueue.ledger.waiting.length
    rw [hpop, hwaiting]
    exact Nat.le_succ _

theorem load_lt_of_unfinished {s t : UdpSession} (h : t.unfinished < s.unfinished) :
    t.load < s.load :=
  Prod.Lex.toLex_lt_toLex.mpr (Or.inl h)

theorem load_lt_of_resolves {s t : UdpSession} (h : t.unfinished = s.unfinished)
    (hresolves : t.pending.resolves.length < s.pending.resolves.length) : t.load < s.load :=
  Prod.Lex.toLex_lt_toLex.mpr
    (Or.inr ⟨h, Prod.Lex.toLex_lt_toLex.mpr (Or.inl hresolves)⟩)

theorem load_lt_of_triesLeft {s t : UdpSession} (h : t.unfinished = s.unfinished)
    (hresolves : t.pending.resolves.length = s.pending.resolves.length)
    (htries : t.triesLeft < s.triesLeft) : t.load < s.load :=
  Prod.Lex.toLex_lt_toLex.mpr
    (Or.inr ⟨h, Prod.Lex.toLex_lt_toLex.mpr (Or.inr ⟨hresolves, htries⟩)⟩)

/-- When the current datagram is done, less is left to be done. -/
theorem Pumped.load_lt {P : Platform} {s u t : UdpSession} (h : Pumped P (endSend u) t)
    {current : Transmission} (hcurrent : s.history.current = some current)
    (hqueue : u.socket.sendqueue = s.socket.sendqueue) : t.load < s.load := by
  apply load_lt_of_unfinished
  have hle := h.unfinished_le rfl
  unfold unfinished at hle ⊢
  rw [hcurrent]
  change _ ≤ u.socket.sendqueue.waiting.length at hle
  rw [hqueue] at hle
  change _ < 1 + _
  omega

theorem SameSending.load {s t : UdpSession} (h : SameSending s t) : t.load = s.load := by
  unfold UdpSession.load unfinished triesLeft
  rw [h.current, h.sendqueue, h.resolves, h.sends, h.usableRest]

theorem SameSending.line {s t : UdpSession} (h : SameSending s t) : t.line = s.line := by
  unfold UdpSession.line transmissions queued
  rw [h.completed, h.current, h.sendqueue]

theorem sameSending_received (P : Platform) (s : UdpSession) (index : ℕ)
    (error : Option String) (bytes : List UInt8) (endpoint : Endpoint) :
    SameSending s (UdpCompletion.perform P s (.receive index error bytes endpoint)) := by
  unfold UdpCompletion.perform handleReceive
  simp only
  cases error with
  | none =>
    obtain ⟨r, accepted, hstored, -⟩ := storeDatagram_stored P { s with
      pending.receives := s.pending.receives.eraseIdx index }
      ((bytes ++ (s.pending.receives.getD index ⟨.v4, []⟩).recvbuffer.drop bytes.length).take
        bytes.length) endpoint
    simp only [hstored]
    split <;> exact ⟨rfl, rfl, rfl, rfl, rfl, rfl, rfl⟩
  | some message =>
    simp only
    split <;> exact ⟨rfl, rfl, rfl, rfl, rfl, rfl, rfl⟩

/-- The handler of a resolution leaves less to be done. -/
theorem Sending.load_resolve {c : Script} {s : UdpSession} (h : Sending c s) (P : Platform)
    {index : ℕ} (hindex : index < s.pending.resolves.length) (error : Option String)
    (results : List Endpoint) :
    (UdpCompletion.perform P s (.resolve index error results)).load < s.load := by
  have hcase := perform_resolve_case P s index error results
  obtain ⟨place, datagram, rfl, -, hresolves, hsends, hcurrent, -⟩ :=
    h.flow.stage.of_resolve hindex
  generalize UdpCompletion.perform P s (.resolve 0 error results) = r at hcase
  cases hcase with
  | attempted endpoint rest _ =>
    apply load_lt_of_resolves
    · unfold unfinished
      change ((s.history.current.map _).map _).toList.length + _ = _
      rw [hcurrent]
      rfl
    · change (s.pending.resolves.eraseIdx 0).length < _
      rw [hresolves]
      exact Nat.zero_lt_one
  | ended _ _ hpump => exact hpump.load_lt hcurrent rfl

theorem Sending.load_sent {c : Script} {s : UdpSession} (h : Sending c s) (P : Platform)
    {index : ℕ} (hindex : index < s.pending.sends.length) (error : Option String) :
    (UdpCompletion.perform P s (.send index error)).load < s.load := by
  have hcase := perform_send_case P s index error
  obtain ⟨operation, u, rfl, -, hresolves, hsends, hcurrent, -, -⟩ :=
    h.flow.stage.of_send hindex
  have hoperation : s.pending.sends.getD 0 ⟨0, ⟨[], []⟩⟩ = operation := by rw [hsends]; rfl
  rw [hoperation] at hcase
  have herased : s.pending.sends.eraseIdx 0 = [] := by rw [hsends]; rfl
  generalize UdpCompletion.perform P s (.send 0 error) = r at hcase
  cases hcase with
  | attempted endpoint rest hattempt =>
    obtain ⟨-, hrest⟩ := nextAttempt_eq_some hattempt
    apply load_lt_of_triesLeft
    · unfold unfinished
      change ((s.history.current.map _).map _).toList.length + _ = _
      rw [hcurrent]
      rfl
    · rfl
    · unfold triesLeft
      change ((s.pending.sends.eraseIdx 0 ++ [PendingSend.mk operation.buffer rest]).map
        fun other => (s.usableRest other.endpoints).length).sum < _
      rw [herased, hsends]
      change s.usableRest operation.endpoints = endpoint :: s.usableRest rest at hrest
      change (s.usableRest rest).length + 0 < (s.usableRest operation.endpoints).length + 0
      rw [hrest]
      exact Nat.lt_succ_self _
  | ended _ _ hpump => exact hpump.load_lt hcurrent rfl

end UdpSession

/-! ### Objects -/

def UdpEvent.isReceive : UdpEvent → Bool
  | .completion (.receive _ _ _ _) => true
  | _ => false

/-- A session with the handle of its socket. -/
structure UdpObject where
  session : UdpSession
  handle : HandleState

inductive UdpObjectEvent where
  | session (e : UdpEvent)
  | destroySocket (hard : Bool)

namespace UdpObject

open UdpSession

def bind (ipv4Open ipv6Open : Bool) : UdpObject := ⟨.bind ipv4Open ipv6Open, .held⟩

/-- The handle and the handlers of a resolution and of a send are the owners. -/
def destroyed (o : UdpObject) : Bool :=
  o.handle ≠ .held && o.session.pending.resolves.isEmpty && o.session.pending.sends.isEmpty

/-- What destroySocket does with a UDP socket. -/
def destroySocket (o : UdpObject) (hard : Bool) : UdpObject :=
  ⟨if hard then o.session.close else o.session, .released hard⟩

def Enabled (o : UdpObject) : UdpObjectEvent → Prop
  | .session (.call _) => o.handle = .held
  | .session (.completion c) => c.Enabled o.session
  | .destroySocket _ => o.handle = .held

instance (o : UdpObject) (e : UdpObjectEvent) : Decidable (o.Enabled e) := by
  unfold Enabled
  split <;> infer_instance

/-- The handler of a receive returns at once when the socket has been destroyed. -/
def perform (P : Platform) (o : UdpObject) : UdpObjectEvent → UdpObject
  | .session (.completion (.receive index error bytes endpoint)) =>
    let e := UdpEvent.completion (.receive index error bytes endpoint)
    if o.destroyed then
      { o with session.pending.receives := o.session.pending.receives.eraseIdx index }
    else { o with session := UdpSession.perform P o.session e }
  | .session e => { o with session := UdpSession.perform P o.session e }
  | .destroySocket hard => o.destroySocket hard

def step (P : Platform) (o : UdpObject) (e : UdpObjectEvent) : Option UdpObject :=
  if o.Enabled e then some (o.perform P e) else none

variable {P : Platform} {o t : UdpObject}

theorem step_eq_some_iff {e : UdpObjectEvent} :
    step P o e = some t ↔ o.Enabled e ∧ o.perform P e = t := by
  unfold step
  split
  · rename_i h
    simp only [Option.some.injEq, h, true_and]
  · rename_i h
    simp only [reduceCtorEq, h, false_and]

/-- What an event does: a step of the session, the release of the handle, or the end of a
receive that nobody waits for any more. -/
inductive StepCase (P : Platform) (o : UdpObject) : UdpObjectEvent → UdpObject → Prop where
  | session (e : UdpEvent) (s : UdpSession) : UdpSession.step P o.session e = some s →
      (∀ c, e = .call c → o.handle = .held) → (e.isReceive = true → o.destroyed = false) →
      StepCase P o (.session e) { o with session := s }
  | released (hard : Bool) : o.handle = .held →
      StepCase P o (.destroySocket hard) (o.destroySocket hard)
  | ignored (index : ℕ) (error : Option String) (bytes : List UInt8) (endpoint : Endpoint) :
      o.destroyed = true → StepCase P o
        (.session (.completion (.receive index error bytes endpoint)))
        { o with session.pending.receives := o.session.pending.receives.eraseIdx index }

theorem stepCase {e : UdpObjectEvent} (h : step P o e = some t) : StepCase P o e t := by
  obtain ⟨henabled, rfl⟩ := step_eq_some_iff.mp h
  cases e with
  | destroySocket hard => exact .released hard henabled
  | session e =>
    cases e with
    | call c =>
      have hstep : UdpSession.step P o.session (.call c) =
          some (UdpSession.perform P o.session (.call c)) := if_pos trivial
      exact .session _ _ hstep (fun _ _ => henabled) nofun
    | completion c =>
      have hstep := (UdpSession.step_eq_some_iff P o.session _ (.completion c)).mpr
        ⟨henabled, rfl⟩
      cases c with
      | resolve | send => exact .session _ _ hstep nofun nofun
      | receive index error bytes endpoint =>
        unfold perform
        simp only
        split
        · rename_i hdestroyed
          exact .ignored index error bytes endpoint hdestroyed
        · rename_i halive
          exact .session _ _ hstep nofun fun _ => eq_false_of_ne_true halive

/-! ### What holds of every object -/

/-- The socket receives on all of its open sockets until it is destroyed; after that some of
these operations may have ended. -/
structure Receives (ipv4Open ipv6Open : Bool) (o : UdpObject) : Prop where
  operations : ∃ ended, (o.session.pending.receives.map PendingReceive.protocol ++ ended).Perm
    (openProtocols ipv4Open ipv6Open) ∧ (o.destroyed = false → ended = [])
  arrays : ∀ r ∈ o.session.pending.receives, r.recvbuffer.length = recvbufferSize

/-- The invariant of an object with the given sockets. -/
structure Sound (ipv4Open ipv6Open : Bool) (o : UdpObject) : Prop where
  sending : ∃ c, Sending c o.session
  sockets : o.session.socket.ipv4Open = ipv4Open ∧ o.session.socket.ipv6Open = ipv6Open
  receives : o.Receives ipv4Open ipv6Open

variable {ipv4Open ipv6Open : Bool}

theorem sound_bind : (bind ipv4Open ipv6Open).Sound ipv4Open ipv6Open := by
  have hlistens := listens_bind ipv4Open ipv6Open
  have hsockets : (UdpSession.bind ipv4Open ipv6Open).socket.ipv4Open = ipv4Open ∧
      (UdpSession.bind ipv4Open ipv6Open).socket.ipv6Open = ipv6Open :=
    sockets_of_run (P := loopback) (StateMachine.run_nil _ _)
  refine ⟨⟨_, sending_bind ipv4Open ipv6Open⟩, hsockets, ?_, hlistens.arrays⟩
  refine ⟨[], ?_, fun _ => rfl⟩
  have hoperations := hlistens.operations
  rw [hsockets.1, hsockets.2] at hoperations
  rw [List.append_nil]
  exact hoperations

theorem Sound.listens (h : o.Sound ipv4Open ipv6Open) (halive : o.destroyed = false) :
    o.session.Listens := by
  obtain ⟨ended, hperm, hended⟩ := h.receives.operations
  rw [hended halive, List.append_nil] at hperm
  rw [← h.sockets.1, ← h.sockets.2] at hperm
  exact ⟨hperm, h.receives.arrays⟩

theorem Sound.of_listens {s : UdpSession} {handle : HandleState} {c : UdpSession.Script}
    (hsending : Sending c s)
    (hsockets : s.socket.ipv4Open = ipv4Open ∧ s.socket.ipv6Open = ipv6Open)
    (hlistens : s.Listens) : Sound ipv4Open ipv6Open ⟨s, handle⟩ := by
  refine ⟨⟨c, hsending⟩, hsockets, ⟨[], ?_, fun _ => rfl⟩, hlistens.arrays⟩
  have hoperations := hlistens.operations
  rw [hsockets.1, hsockets.2] at hoperations
  rw [List.append_nil]
  exact hoperations

/-- Nothing is left of a destroyed socket that could complete, except receives. -/
theorem nothing_pending (h : o.destroyed = true) :
    o.session.pending.resolves = [] ∧ o.session.pending.sends = [] := by
  unfold destroyed at h
  rw [Bool.and_eq_true, Bool.and_eq_true] at h
  exact ⟨List.isEmpty_iff.mp h.1.2, List.isEmpty_iff.mp h.2⟩

theorem released_of_destroyed (h : o.destroyed = true) : o.handle ≠ .held := by
  unfold destroyed at h
  rw [Bool.and_eq_true, Bool.and_eq_true] at h
  exact of_decide_eq_true h.1.1

/-- After the destruction there are no calls, and only receives complete. -/
theorem alive_of_step {e : UdpEvent} {s : UdpSession}
    (hstep : UdpSession.step P o.session e = some s) (hcall : ∀ c, e = .call c → o.handle = .held)
    (hreceive : e.isReceive = true → o.destroyed = false) : o.destroyed = false := by
  by_contra hdestroyed
  rw [Bool.not_eq_false] at hdestroyed
  obtain ⟨hresolves, hsends⟩ := nothing_pending hdestroyed
  obtain ⟨henabled, -⟩ := (UdpSession.step_eq_some_iff P _ _ _).mp hstep
  cases e with
  | call c => exact released_of_destroyed hdestroyed (hcall c rfl)
  | completion c =>
    cases c with
    | resolve index error results =>
      change index < o.session.pending.resolves.length at henabled
      rw [hresolves] at henabled
      exact Nat.not_lt_zero _ henabled
    | send index error =>
      change index < o.session.pending.sends.length at henabled
      rw [hsends] at henabled
      exact Nat.not_lt_zero _ henabled
    | receive index error bytes endpoint =>
      rw [hreceive rfl] at hdestroyed
      contradiction

theorem sending_erased {c : UdpSession.Script} {s : UdpSession} (h : Sending c s) (index : ℕ) :
    Sending c { s with pending.receives := s.pending.receives.eraseIdx index } :=
  ⟨h.owned, h.flow.transport ⟨rfl, rfl, rfl, rfl, rfl, rfl, rfl⟩ fun _ _ _ hcarries => hcarries,
    h.drained, h.draft, h.requested⟩

theorem Sound.step {e : UdpObjectEvent} (h : o.Sound ipv4Open ipv6Open)
    (hstep : UdpObject.step P o e = some t) : t.Sound ipv4Open ipv6Open := by
  obtain ⟨c, hsending⟩ := h.sending
  cases stepCase hstep with
  | session e s hsession hcall hreceive =>
    have halive := alive_of_step hsession hcall hreceive
    have hsame := sameSockets_step hsession
    exact .of_listens (hsending.step hsession)
      ⟨hsame.1.trans h.sockets.1, hsame.2.trans h.sockets.2⟩ ((h.listens halive).step hsession)
  | released hard hheld =>
    have halive : o.destroyed = false := by
      unfold destroyed
      rw [hheld]
      rfl
    have hlistens := h.listens halive
    unfold destroySocket
    cases hard with
    | false => exact .of_listens hsending h.sockets hlistens
    | true =>
      have hclosed : o.session.close.Listens := ⟨hlistens.operations, hlistens.arrays⟩
      exact Sound.of_listens (s := o.session.close) hsending.close h.sockets hclosed
  | ignored index error bytes endpoint hdestroyed =>
    obtain ⟨ended, hperm, -⟩ := h.receives.operations
    refine ⟨⟨c, sending_erased hsending index⟩, h.sockets, ?_,
      fun r hr => h.receives.arrays r (List.mem_of_mem_eraseIdx hr)⟩
    have hstill : destroyed { o with
        session.pending.receives := o.session.pending.receives.eraseIdx index } = true :=
      hdestroyed
    by_cases hindex : index < o.session.pending.receives.length
    · refine ⟨o.session.pending.receives[index].protocol :: ended, ?_, ?_⟩
      · have hgone := (List.getElem_cons_eraseIdx_perm hindex).map PendingReceive.protocol
        exact (List.perm_middle.trans (hgone.append_right ended)).trans hperm
      · intro halive
        rw [hstill] at halive
        contradiction
    · refine ⟨ended, ?_, ?_⟩
      · change ((o.session.pending.receives.eraseIdx index).map _ ++ _).Perm _
        rw [List.eraseIdx_of_length_le (Nat.not_lt.mp hindex)]
        exact hperm
      · intro halive
        rw [hstill] at halive
        contradiction

theorem sound_of_run {es : List UdpObjectEvent}
    (hrun : StateMachine.run (step P) (bind ipv4Open ipv6Open) es = some o) :
    o.Sound ipv4Open ipv6Open :=
  StateMachine.run_preserves (Sound ipv4Open ipv6Open) (fun _ _ _ h hstep => h.step hstep)
    sound_bind hrun

/-! ### The end -/

/-- What the handlers do after the release of the handle: those of a receive change nothing
about the datagrams that are left, any other one leaves less to be done. -/
structure Winds (e : UdpEvent) (o t : UdpObject) : Prop where
  handle : t.handle = o.handle
  line : t.session.line = o.session.line
  load : if e.isReceive then t.session.load = o.session.load
    else t.session.load < o.session.load

theorem Sound.winds {e : UdpEvent} (h : o.Sound ipv4Open ipv6Open) (hreleased : o.handle ≠ .held)
    (hstep : UdpObject.step P o (.session e) = some t) : Winds e o t := by
  obtain ⟨c, hsending⟩ := h.sending
  cases stepCase hstep with
  | session _ s hsession hcall _ =>
    obtain ⟨henabled, rfl⟩ := (UdpSession.step_eq_some_iff P _ _ _).mp hsession
    cases e with
    | call request => exact absurd (hcall request rfl) hreleased
    | completion done =>
      cases done with
      | resolve index error results =>
        rcases hsending.advances hsession with ⟨_, _, _, _, hreceive⟩ | hadvances
        · contradiction
        · exact ⟨rfl, hadvances.line, hsending.load_resolve P henabled error results⟩
      | send index error =>
        rcases hsending.advances hsession with ⟨_, _, _, _, hreceive⟩ | hadvances
        · contradiction
        · exact ⟨rfl, hadvances.line, hsending.load_sent P henabled error⟩
      | receive index error bytes endpoint =>
        have hsame := sameSending_received P o.session index error bytes endpoint
        exact ⟨rfl, hsame.line, hsame.load⟩
  | ignored index error bytes endpoint _ => exact ⟨rfl, rfl, rfl⟩

/-- A handler of the send pipeline runs, after any number of receives. -/
def Pumps (P : Platform) (o t : UdpObject) : Prop :=
  ∃ receives e, (∀ r ∈ receives, UdpEvent.isReceive r = true) ∧ UdpEvent.isReceive e = false ∧
    StateMachine.run (step P) o ((receives ++ [e]).map .session) = some t

/-- The receives before a handler of the send pipeline. -/
theorem Sound.winds_receives {receives : List UdpEvent} (h : o.Sound ipv4Open ipv6Open)
    (hreleased : o.handle ≠ .held) (hreceives : ∀ r ∈ receives, UdpEvent.isReceive r = true)
    (hrun : StateMachine.run (UdpObject.step P) o (receives.map .session) = some t) :
    t.Sound ipv4Open ipv6Open ∧ t.handle = o.handle ∧ t.session.load = o.session.load := by
  induction receives generalizing o with
  | nil =>
    obtain rfl := Option.some.inj hrun
    exact ⟨h, rfl, rfl⟩
  | cons r receives ih =>
    obtain ⟨u, hfirst, hrest⟩ := (StateMachine.run_cons_eq_some_iff _ _ _ _ _).mp hrun
    have hwinds := h.winds hreleased hfirst
    have hload := hwinds.load
    rw [hreceives r List.mem_cons_self, if_pos rfl] at hload
    obtain ⟨hsound, hhandle, hsame⟩ := ih (h.step hfirst) (hwinds.handle ▸ hreleased)
      (fun s hs => hreceives s (List.mem_cons_of_mem _ hs)) hrest
    exact ⟨hsound, hhandle.trans hwinds.handle, hsame.trans hload⟩

/-- Each handler of the send pipeline leaves less to be done, so they come to an end. -/
theorem Sound.acc_pumps (h : o.Sound ipv4Open ipv6Open) (hreleased : o.handle ≠ .held) :
    Acc (fun v u => Pumps P u v) o := by
  generalize hload : o.session.load = load
  induction load using WellFoundedLT.induction generalizing o with
  | ind load ih =>
    constructor
    rintro v ⟨receives, e, hreceives, he, hrun⟩
    rw [List.map_append, StateMachine.run_append] at hrun
    obtain ⟨u, hbefore, hlast⟩ := Option.bind_eq_some_iff.mp hrun
    obtain ⟨hsound, hhandle, hsame⟩ := h.winds_receives hreleased hreceives hbefore
    obtain ⟨w, hstep, hw⟩ := (StateMachine.run_cons_eq_some_iff _ _ _ _ _).mp hlast
    obtain rfl := Option.some.inj hw
    have hwinds := hsound.winds (hhandle ▸ hreleased) hstep
    have hless := hwinds.load
    rw [he, if_neg Bool.false_ne_true, hsame, hload] at hless
    have hstill : w.handle ≠ .held := by
      rw [hwinds.handle, hhandle]
      exact hreleased
    exact ih _ hless (hsound.step hstep) hstill rfl

/-- What becomes of a socket whose handle is released in the state o. -/
structure Concludes (P : Platform) (ipv4Open ipv6Open hard : Bool) (o t : UdpObject) :
    Prop where
  /-- The datagrams in the queue are still to be sent, unless the release is abortive. -/
  line : t.session.line = o.session.transmissions.map Transmission.datagram ++
    if hard then [] else o.session.queued
  finished : ∀ u ∈ t.session.history.completed,
    u.Finished (usableEndpoints ipv4Open ipv6Open u.results)
  /-- As long as it lives, exactly one handler of the send pipeline is to come. -/
  alive : t.destroyed = false →
    t.session.pending.resolves.length + t.session.pending.sends.length = 1
  destroyed : t.destroyed = true → t.session.history.completed.map Transmission.datagram =
    o.session.transmissions.map Transmission.datagram ++ if hard then [] else o.session.queued
  /-- However they end, only finitely many of them follow. -/
  ends : Acc (fun v u => Pumps P u v) t

theorem Sound.finished (h : o.Sound ipv4Open ipv6Open) :
    ∀ u ∈ o.session.history.completed,
      u.Finished (usableEndpoints ipv4Open ipv6Open u.results) := by
  obtain ⟨c, hsending⟩ := h.sending
  intro u hu
  have hfinished := hsending.flow.finished u hu
  rw [usable_eq, h.sockets.1, h.sockets.2] at hfinished
  exact hfinished

theorem Sound.alive (h : o.Sound ipv4Open ipv6Open) (hreleased : o.handle ≠ .held)
    (halive : o.destroyed = false) :
    o.session.pending.resolves.length + o.session.pending.sends.length = 1 := by
  obtain ⟨c, hsending⟩ := h.sending
  cases hsending.flow.stage with
  | idle _ hresolves hsends _ =>
    unfold destroyed at halive
    rw [hresolves, hsends, decide_eq_true hreleased] at halive
    contradiction
  | resolving place datagram _ hresolves hsends _ _ =>
    rw [hresolves, hsends]
    rfl
  | sending operation u _ hresolves hsends _ _ _ =>
    rw [hresolves, hsends]
    rfl

/-- A socket that has been destroyed has nothing left to send. -/
theorem Sound.line_of_destroyed (h : o.Sound ipv4Open ipv6Open) (hdestroyed : o.destroyed = true) :
    o.session.line = o.session.history.completed.map Transmission.datagram := by
  obtain ⟨c, hsending⟩ := h.sending
  obtain ⟨hresolves, hsends⟩ := nothing_pending hdestroyed
  cases hsending.flow.stage with
  | idle hflag _ _ hcurrent =>
    have hqueued : o.session.queued = [] := by
      have hlength := o.session.socket.sendqueue.length_waiting
      rw [hsending.drained hflag] at hlength
      exact List.map_eq_nil_iff.mpr (List.length_eq_zero_iff.mp hlength)
    unfold line transmissions
    rw [hcurrent, hqueued, Option.toList_none, List.append_nil, List.append_nil]
  | resolving _ _ _ hpending _ _ _ =>
    rw [hresolves] at hpending
    contradiction
  | sending _ _ _ _ hpending _ _ _ =>
    rw [hsends] at hpending
    contradiction

theorem line_destroySocket (o : UdpObject) (hard : Bool) :
    (o.destroySocket hard).session.line =
      o.session.transmissions.map Transmission.datagram ++
        if hard then [] else o.session.queued := by
  cases hard with
  | false => rfl
  | true =>
    have hqueued : o.session.close.queued = [] := by
      have hlength := o.session.socket.sendqueue.clear.length_waiting
      exact List.map_eq_nil_iff.mpr (List.length_eq_zero_iff.mp hlength)
    change o.session.close.line = _
    unfold line
    rw [hqueued]
    rfl

/-- The handlers that follow the release. -/
theorem Sound.released {es : List UdpObjectEvent} (h : o.Sound ipv4Open ipv6Open)
    (hreleased : o.handle ≠ .held)
    (hrun : StateMachine.run (UdpObject.step P) o es = some t) :
    t.Sound ipv4Open ipv6Open ∧ t.handle ≠ .held ∧ t.session.line = o.session.line := by
  apply StateMachine.run_preserves (fun u : UdpObject =>
    u.Sound ipv4Open ipv6Open ∧ u.handle ≠ .held ∧ u.session.line = o.session.line) _ _ hrun
  · rintro u e v ⟨hsound, hstill, hline⟩ hstep
    refine ⟨hsound.step hstep, ?_⟩
    cases e with
    | session e =>
      have hwinds := hsound.winds hstill hstep
      exact ⟨hwinds.handle ▸ hstill, hwinds.line.trans hline⟩
    | destroySocket hard => exact absurd (step_eq_some_iff.mp hstep).1 hstill
  · exact ⟨h, hreleased, rfl⟩

/-- After socket_destroy, whatever the handlers report and in whatever order they run, all
datagrams that the socket had accepted are tried before it is destroyed, and it is destroyed
after finitely many of them; after socket_destroy_abortive only the current one is. -/
theorem released_concludes {es fs : List UdpObjectEvent} {r : UdpObject} {hard : Bool}
    (hrun : StateMachine.run (step P) (bind ipv4Open ipv6Open) es = some o)
    (hrelease : step P o (.destroySocket hard) = some r)
    (hafter : StateMachine.run (step P) r fs = some t) :
    Concludes P ipv4Open ipv6Open hard o t := by
  have hsound : r.Sound ipv4Open ipv6Open := (sound_of_run hrun).step hrelease
  obtain ⟨-, rfl⟩ := step_eq_some_iff.mp hrelease
  have hreleased : (o.perform P (.destroySocket hard)).handle ≠ .held := HandleState.noConfusion
  obtain ⟨hlast, hstill, hline⟩ := hsound.released hreleased hafter
  have hkept := hline.trans (line_destroySocket o hard)
  refine ⟨hkept, hlast.finished, hlast.alive hstill, ?_, hlast.acc_pumps hstill⟩
  intro hdestroyed
  rw [← hlast.line_of_destroyed hdestroyed, hkept]

/-- Two datagrams are accepted, and the handle is released while the first is being sent. -/
theorem released_concludes_two : ∃ o t, o.session.queued.length = 1 ∧ t.destroyed = true ∧
    Concludes loopback true false false o t := by
  have hlast : ((StateMachine.run (step loopback) (bind true false)
      [.session (.call (.write [7])), .session (.call (.send "127.0.0.1" 80)),
        .session (.call (.write [8])), .session (.call (.send "127.0.0.1" 81))]).bind fun o =>
      (step loopback o (.destroySocket false)).bind fun r =>
        (StateMachine.run (step loopback) r [.session (.completion (.send 0 none)),
          .session (.completion (.send 0 none))]).map fun t =>
            (o.session.queued.length, t.destroyed)) = some (1, true) := by decide +kernel
  obtain ⟨o, hrun, hlast⟩ := Option.bind_eq_some_iff.mp hlast
  obtain ⟨r, hrelease, hlast⟩ := Option.bind_eq_some_iff.mp hlast
  obtain ⟨t, hafter, hlast⟩ := Option.map_eq_some_iff.mp hlast
  obtain ⟨hqueued, hdestroyed⟩ := Prod.mk.inj hlast
  exact ⟨o, t, hqueued, hdestroyed, released_concludes hrun hrelease hafter⟩

/-! ### After the destruction -/

/-- From o on, where the socket has been destroyed, to t: each event is the handler of a
receive that was pending in o, and nothing but the pending receives changes. -/
structure RunsOut (es : List UdpObjectEvent) (o t : UdpObject) : Prop where
  destroyed : t.destroyed = true
  handlers : ∀ e ∈ es, ∃ done : UdpEvent, e = .session done ∧ done.isReceive = true
  sublist : t.session.pending.receives.Sublist o.session.pending.receives
  count : t.session.pending.receives.length + es.length = o.session.pending.receives.length
  unchanged : { o with session.pending.receives := t.session.pending.receives } = t

theorem RunsOut.refl (h : o.destroyed = true) : RunsOut [] o o :=
  ⟨h, nofun, List.Sublist.refl _, rfl, rfl⟩

/-- The handler of a receive finds no socket any more, and does not receive again. -/
theorem RunsOut.step {es : List UdpObjectEvent} {e : UdpObjectEvent} {u : UdpObject}
    (h : RunsOut es o t) (hstep : UdpObject.step P t e = some u) : RunsOut (es ++ [e]) o u := by
  have henabled := (step_eq_some_iff.mp hstep).1
  cases stepCase hstep with
  | session e s hsession hcall hreceive =>
    have halive := alive_of_step hsession hcall hreceive
    rw [h.destroyed] at halive
    contradiction
  | released hard hheld => exact absurd hheld (released_of_destroyed h.destroyed)
  | ignored index error bytes endpoint _ =>
    have hindex : index < t.session.pending.receives.length := henabled.1
    refine ⟨h.destroyed, ?_, (List.eraseIdx_sublist _ _).trans h.sublist, ?_, ?_⟩
    · intro e he
      rcases List.mem_append.mp he with hbefore | hlast
      · exact h.handlers e hbefore
      · exact ⟨_, List.mem_singleton.mp hlast, rfl⟩
    · change (t.session.pending.receives.eraseIdx index).length + _ = _
      rw [← h.count, List.length_append, List.length_singleton,
        ← List.length_eraseIdx_add_one hindex]
      omega
    · rw [← h.unchanged]

theorem runsOut_of_run {es : List UdpObjectEvent} (hdestroyed : o.destroyed = true)
    (hrun : StateMachine.run (step P) o es = some t) : RunsOut es o t :=
  StateMachine.run_traces (fun es t => RunsOut es o t) (fun _ _ _ _ h hstep => h.step hstep)
    (RunsOut.refl hdestroyed) hrun

/-- As long as a socket lives, it receives on all sockets that could be opened, each time with
a scratch array of its own and of full size. After its destruction no receive is started: the
handlers of those still pending come to an end, and nothing else happens. -/
theorem receives_of_run {es fs : List UdpObjectEvent}
    (hrun : StateMachine.run (step P) (bind ipv4Open ipv6Open) es = some o)
    (hafter : StateMachine.run (step P) o fs = some t) :
    o.Receives ipv4Open ipv6Open ∧ (o.destroyed = true → RunsOut fs o t) :=
  ⟨(sound_of_run hrun).receives, fun hdestroyed => runsOut_of_run hdestroyed hafter⟩

/-- The handle is released during a send. A datagram arrives before the socket is destroyed,
so that it receives again, and another one afterwards. -/
theorem receives_of_run_destroyed : ∃ (o t : UdpObject) (fs : List UdpObjectEvent),
    o.destroyed = true ∧ o.session.pending.receives.length = 2 ∧
      t.session.pending.receives.length = 1 ∧ fs ≠ [] ∧
      o.Receives true true ∧ RunsOut fs o t := by
  let fs : List UdpObjectEvent := [.session (.completion (.receive 1 none [6] ⟨.v6, 1, 90⟩))]
  have hlast : ((StateMachine.run (step loopback) (bind true true)
      [.session (.completion (.receive 0 (some "reset") [] ⟨.v4, 2, 91⟩)),
        .session (.call (.write [7])), .session (.call (.send "127.0.0.1" 80)),
        .destroySocket false, .session (.completion (.receive 0 none [5] ⟨.v6, 1, 90⟩)),
        .session (.completion (.send 0 none))]).bind fun o =>
          (StateMachine.run (step loopback) o fs).map fun t =>
            (o.destroyed, o.session.pending.receives.length,
              t.session.pending.receives.length)) = some (true, 2, 1) := by decide +kernel
  obtain ⟨o, hrun, hlast⟩ := Option.bind_eq_some_iff.mp hlast
  obtain ⟨t, hafter, hlast⟩ := Option.map_eq_some_iff.mp hlast
  obtain ⟨hdestroyed, hlengths⟩ := Prod.mk.inj hlast
  obtain ⟨hpending, hleft⟩ := Prod.mk.inj hlengths
  obtain ⟨hreceives, hruns⟩ := receives_of_run hrun hafter
  exact ⟨o, t, fs, hdestroyed, hpending, hleft, nofun, hreceives, hruns hdestroyed⟩

end UdpObject

end FaucetNetworking
