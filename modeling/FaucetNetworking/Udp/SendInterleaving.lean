import FaucetNetworking.Udp.HolderSteps

/-!
The send pipeline with both threads. As long as no resolve or send handler runs inside a call
of setSendbufferLimit, every statement of either thread finds the queue in order; a handler
that does can take another datagram out of the queue than the one it sends.
-/
namespace FaucetNetworking

open SizedQueue
open UdpSession (Kept Sending SameSending)

namespace UdpThreads

variable {P : Platform} {s s' : UdpThreads} {t t' : TrackedQueue}

/-! ### The invariant -/

/-- One owner for each buffer. A call of send or broadcast has handed out the send buffer and
has not yet replaced it. -/
def OwnedBy (u : UdpSession) (calling : Bool) (places : List ℕ) : Prop :=
  ∃ outgoing, Parted u.buffers.length u.socket.sendBuffer u.socket.receiveBuffer outgoing
      u.incoming ∧
    places ++ u.outgoing ⊆ if calling then u.socket.sendBuffer :: outgoing else outgoing

/-- The session while the mutex is held. -/
structure Busy (c : UdpSession.Script) (u : UdpSession) (h : Holder) : Prop where
  owned : OwnedBy u h.calling h.position.places
  holds : u.Holds h.position
  draft : if h.calling then c.draft = [] else u.buffer u.socket.sendBuffer = ⟨c.draft, 0⟩
  requested : u.socket.sendqueue.ledger.offered.map (fun offer => offer.1.2) = c.requests

/-- What one of the threads has already subtracted for the front item. -/
def subtracted (s : UdpThreads) : ℕ :=
  match s.limiting, s.holder with
  | some (.inPop position), _ => position.subtracted s.sendqueue
  | _, some h => h.position.subtracted s.sendqueue
  | _, none => 0

/-- The state of both threads when no handler has run inside setSendbufferLimit. -/
structure InOrder (c : UdpSession.Script) (s : UdpThreads) (t : TrackedQueue) : Prop where
  tracks : s.sendqueue.Tracks t
  sums : s.sendqueue.SumsTo s.subtracted
  bounded : s.limiting = none → s.sendqueue.queue.memSize ≤ s.sendqueue.queue.memSizeLimit
  popping : ∀ position, s.limiting = some (.inPop position) → s.sendqueue.queue.queue ≠ []
  exclusive : s.limiting = none ∨ s.holder = none
  free : s.holder = none → Sending c (s.session t)
  busy : ∀ h, s.holder = some h → Busy c (s.session t) h

/-- Nothing is under way that touches the queue. -/
theorem InOrder.of_rest {c : UdpSession.Script} (hlimiting : s.limiting = none)
    (hholder : s.holder = none) (htracks : s.sendqueue.Tracks t) (hsums : s.sendqueue.SumsTo 0)
    (hbounded : s.sendqueue.queue.memSize ≤ s.sendqueue.queue.memSizeLimit)
    (h : Sending c (s.session t)) : InOrder c s t := by
  refine ⟨htracks, ?_, fun _ => hbounded, ?_, Or.inl hlimiting, fun _ => h, ?_⟩
  · unfold subtracted
    rw [hlimiting, hholder]
    exact hsums
  · intro position hpop
    rw [hlimiting] at hpop
    contradiction
  · intro holder hsome
    rw [hholder] at hsome
    contradiction

/-- The mutex is held, and the thread of the client is not in setSendbufferLimit. -/
theorem InOrder.of_busy {c : UdpSession.Script} {h : Holder} (hlimiting : s.limiting = none)
    (hholder : s.holder = some h) (htracks : s.sendqueue.Tracks t)
    (hsums : s.sendqueue.SumsTo (h.position.subtracted s.sendqueue))
    (hbounded : s.sendqueue.queue.memSize ≤ s.sendqueue.queue.memSizeLimit)
    (hbusy : Busy c (s.session t) h) : InOrder c s t := by
  refine ⟨htracks, ?_, fun _ => hbounded, ?_, Or.inl hlimiting, ?_, ?_⟩
  · unfold subtracted
    rw [hlimiting, hholder]
    exact hsums
  · intro position hpop
    rw [hlimiting] at hpop
    contradiction
  · intro hnone
    rw [hholder] at hnone
    contradiction
  · intro other hother
    rw [hholder] at hother
    rwa [← Option.some.inj hother]

theorem InOrder.sums_of_rest {c : UdpSession.Script} (h : InOrder c s t)
    (hlimiting : s.limiting = none) (hholder : s.holder = none) : s.sendqueue.SumsTo 0 := by
  have hsums := h.sums
  unfold subtracted at hsums
  rwa [hlimiting, hholder] at hsums

theorem InOrder.sums_of_busy {c : UdpSession.Script} {holder : Holder} (h : InOrder c s t)
    (hlimiting : s.limiting = none) (hholder : s.holder = some holder) :
    s.sendqueue.SumsTo (holder.position.subtracted s.sendqueue) := by
  have hsums := h.sums
  unfold subtracted at hsums
  rwa [hlimiting, hholder] at hsums

/-- At rest, the queue that the session is seen with can be the real one. -/
theorem InOrder.exact {c : UdpSession.Script} (h : InOrder c s t) (hlimiting : s.limiting = none)
    (hholder : s.holder = none) :
    ∃ r : TrackedQueue, r.queue = s.sendqueue.queue ∧ r.ledger = s.sendqueue.ledger ∧
      Sending c (s.session r) := by
  have hsum := h.sums_of_rest hlimiting hholder
  obtain ⟨r, hqueue, hledger⟩ := h.tracks.exact ⟨hsum, h.bounded hlimiting⟩
  refine ⟨r, hqueue, hledger, ?_⟩
  have hdropped : TrackedQueue.Dropped t r := by
    have hsame : r.ledger = t.ledger := hledger.trans h.tracks.ledger.symm
    exact ⟨⟨0, by rw [hsame]; rfl⟩, by rw [hsame], by rw [hsame]⟩
  exact (h.free hholder).dropped (s := s.session t) hdropped

/-! ### Releasing the mutex -/

theorem OwnedBy.owned {u : UdpSession} {places : List ℕ} (h : OwnedBy u false places) :
    u.Owned := by
  obtain ⟨outgoing, hparted, hsubset⟩ := h
  exact hparted.weaken (List.Subset.trans (List.subset_append_right _ _) hsubset)
    (List.Sublist.refl _)

theorem owned_renewed {u : UdpSession} {places : List ℕ} (h : OwnedBy u true places) :
    UdpSession.Owned { u.allocate with socket.sendBuffer := u.freshPlace } := by
  obtain ⟨outgoing, hparted, hsubset⟩ := h
  have hrenew := hparted.renew (List.Subset.trans (List.subset_append_right _ _) hsubset)
  unfold UdpSession.Owned
  change Parted u.allocate.buffers.length u.buffers.length u.socket.receiveBuffer u.outgoing
    u.incoming
  rwa [UdpSession.length_allocate]

theorem inOrder_release {c : UdpSession.Script} {calling : Bool} {places : List ℕ}
    (hlimiting : s.limiting = none) (htracks : s.sendqueue.Tracks t)
    (hsums : s.sendqueue.SumsTo 0)
    (hbounded : s.sendqueue.queue.memSize ≤ s.sendqueue.queue.memSizeLimit)
    (howned : OwnedBy (s.session t) calling places) (hflow : (s.session t).Flow)
    (hdrained : (s.session t).Drained)
    (hdraft : if calling then c.draft = []
      else (s.session t).buffer (s.session t).socket.sendBuffer = ⟨c.draft, 0⟩)
    (hrequested : t.ledger.offered.map (fun offer => offer.1.2) = c.requests) :
    InOrder c (s.release calling) t := by
  cases calling with
  | false =>
    exact .of_rest (s := { s with holder := none }) hlimiting rfl htracks hsums hbounded
      ⟨howned.owned, hflow, hdrained, hdraft, hrequested⟩
  | true =>
    refine .of_rest (s := s.release true) hlimiting rfl htracks hsums hbounded
      ⟨owned_renewed howned, hflow.renewed _, hdrained, ?_, hrequested⟩
    have hnew : c.draft = [] := hdraft
    rw [hnew]
    exact UdpSession.buffer_freshPlace (s.session t)

/-- A step of the code under the mutex. -/
theorem InOrder.holder {c : UdpSession.Script} (h : InOrder c s t) (hlimiting : s.limiting = none)
    (hstep : s.step P .holder = some s') : ∃ t', InOrder c s' t' := by
  obtain ⟨holder, hholder, hadvance⟩ := Option.bind_eq_some_iff.mp hstep
  obtain ⟨⟨r, next⟩, hr, heq⟩ := Option.map_eq_some_iff.mp hadvance
  have hbusy := h.busy holder hholder
  obtain ⟨t', hadvanced⟩ := advanced h.tracks (h.sums_of_busy hlimiting hholder) hbusy.holds hr
  have hkept := hadvanced.kept
  have hlimiting' : r.limiting = none := hadvanced.limiting.trans hlimiting
  have hbounded : r.sendqueue.queue.memSize ≤ r.sendqueue.queue.memSizeLimit := by
    rw [hadvanced.memSizeLimit]
    exact hadvanced.memSize.trans (h.bounded hlimiting)
  have howned : OwnedBy (r.session t') holder.calling ((next.map HolderAt.places).getD []) := by
    obtain ⟨outgoing, hparted, hsubset⟩ := hbusy.owned
    refine ⟨outgoing, ?_, ?_⟩
    · have hincoming : (r.session t').incoming = (s.session t).incoming := by
        unfold UdpSession.incoming
        rw [hkept.receivequeue]
      rw [hkept.buffers, hkept.sendBuffer, hkept.receiveBuffer, hincoming]
      exact hparted
    · rw [hkept.sendBuffer]
      exact List.Subset.trans hadvanced.outgoing hsubset
  have hdraft : if holder.calling then c.draft = []
      else (r.session t').buffer (r.session t').socket.sendBuffer = ⟨c.draft, 0⟩ := by
    rw [hkept.buffer, hkept.sendBuffer]
    exact hbusy.draft
  have hrequested : t'.ledger.offered.map (fun offer => offer.1.2) = c.requests := by
    have hoffered : t'.ledger.offered = t.ledger.offered := hkept.offered
    rw [hoffered]
    exact hbusy.requested
  cases next with
  | none =>
    obtain rfl : r.release holder.calling = s' := heq
    obtain ⟨hflow, hdrained⟩ := hadvanced.returned rfl
    exact ⟨t', inOrder_release hlimiting' hadvanced.tracks hadvanced.sums hbounded howned hflow
      hdrained hdraft hrequested⟩
  | some position =>
    obtain rfl : { r with holder := some ⟨holder.calling, position⟩ } = s' := heq
    exact ⟨t', .of_busy hlimiting' rfl hadvanced.tracks hadvanced.sums hbounded
      ⟨howned, hadvanced.goesOn position rfl, hdraft, hrequested⟩⟩

/-! ### setSendbufferLimit -/

/-- A step of the loop in setMemSizeLimit, with no handler inside. -/
theorem InOrder.limiting {c : UdpSession.Script} (h : InOrder c s t)
    (hstep : s.step P .limiting = some s') :
    ∃ t', InOrder c s' t' := by
  obtain ⟨position, hposition, hadvance⟩ := Option.bind_eq_some_iff.mp hstep
  obtain ⟨⟨q, next⟩, hnext, rfl⟩ := Option.map_eq_some_iff.mp hadvance
  have hholder : s.holder = none := by
    rcases h.exclusive with hnone | hnone
    · rw [hposition] at hnone
      contradiction
    · exact hnone
  have hsending := h.free hholder
  have hsums := h.sums
  unfold subtracted at hsums
  rw [hposition, hholder] at hsums
  have hbusy : ∀ other, s.holder = some other → Busy c (s.session t) other := h.busy
  cases position with
  | looping =>
    have hsums : s.sendqueue.SumsTo 0 := hsums
    obtain ⟨rfl, rfl⟩ := Prod.mk.inj (Option.some.inj hnext)
    by_cases hover : s.sendqueue.queue.memSize > s.sendqueue.queue.memSizeLimit
    · rw [if_pos hover]
      refine ⟨t, h.tracks, hsums, by simp, ?_, Or.inr hholder, fun _ => hsending, hbusy⟩
      rintro position - hnil
      unfold SharedQueue.SumsTo at hsums
      rw [hnil] at hsums
      simp only [total] at hsums
      omega
    · rw [if_neg hover]
      exact ⟨t, .of_rest (s := { s with limiting := none }) rfl hholder h.tracks hsums
        (Nat.le_of_not_lt hover) hsending⟩
  | inPop position =>
    have hsums : s.sendqueue.SumsTo (position.subtracted s.sendqueue) := hsums
    obtain ⟨⟨r, after⟩, hr, heq⟩ := Option.map_eq_some_iff.mp hnext
    obtain ⟨rfl, rfl⟩ := Prod.mk.inj heq
    have hne := h.popping position hposition
    obtain ⟨hcase, -, -⟩ := PopAt.next_case hr h.tracks hsums hne
    cases hcase with
    | inside position' htracks hqueue hsums' =>
      refine ⟨t, htracks, hsums', by simp, ?_, Or.inr hholder, fun _ => hsending, hbusy⟩
      rintro other -
      change r.queue.queue ≠ []
      rwa [hqueue]
    | popped item others t' hwaiting htracks hledger hsums' =>
      refine ⟨t', htracks, ?_, by simp, by simp, Or.inr hholder, fun _ => ?_, ?_⟩
      · unfold subtracted
        simp only [hholder]
        exact hsums'
      · exact hsending.dropped (TrackedQueue.dropped_of_leave (by decide) hledger)
      · intro other hother
        rw [hholder] at hother
        contradiction

/-! ### The beginning of a handler -/

theorem session_handleReceive (s : UdpThreads) (t : TrackedQueue) (P : Platform) (index : ℕ)
    (error : Option String) (bytes : List UInt8) (endpoint : Endpoint) :
    (s.startHandler P (.receive index error bytes endpoint)).session t =
      UdpCompletion.perform P (s.session t) (.receive index error bytes endpoint) := by
  have hrearm : ∀ (v : UdpSession) (protocol : Protocol) (recvbuffer : List UInt8),
      { (if v.socketOpen protocol then v.asyncReceive protocol recvbuffer else v) with
        socket.sendqueue := t } =
      (if v.socketOpen protocol then
        UdpSession.asyncReceive { v with socket.sendqueue := t } protocol recvbuffer
      else { v with socket.sendqueue := t }) := by
    intro v protocol recvbuffer
    split <;> rfl
  cases error with
  | none => exact hrearm _ _ _
  | some message => exact hrearm _ _ _

theorem InOrder.resolved {c : UdpSession.Script} {index : ℕ} (h : InOrder c s t)
    (hlimiting : s.limiting = none) (hholder : s.holder = none)
    (hindex : index < (s.session t).pending.resolves.length) (error : Option String)
    (results : List Endpoint) : InOrder c (s.startHandler P (.resolve index error results)) t := by
  have hsending := h.free hholder
  obtain ⟨place, datagram, rfl, hflag, hresolves, hsends, hcurrent, hcarries⟩ :=
    hsending.flow.stage.of_resolve (s := s.session t) hindex
  have hkept := UdpSession.kept_resolved (s.session t) 0 results
  have hsubset := UdpSession.resolved_outgoing (s := s.session t) hindex results
  have hfirst : (s.session t).pending.resolves.getD 0 0 = place := by
    rw [hresolves]
    rfl
  have hcurrent' : (UdpSession.noteResults { s.session t with
      pending.resolves := (s.session t).pending.resolves.eraseIdx 0 } results).history.current =
        some ⟨datagram, results, [], []⟩ := by
    change (s.session t).history.current.map _ = _
    rw [hcurrent]
    rfl
  rw [hfirst] at hsubset
  have hplace : s.others.pending.resolves.getD 0 0 = place := hfirst
  refine .of_busy (s := s.startHandler P (.resolve 0 error results)) hlimiting rfl h.tracks
    (h.sums_of_rest hlimiting hholder) (h.bounded hlimiting)
    ⟨⟨_, hsending.owned, ?_⟩, ⟨hsending.flow.toBooks.current hkept rfl rfl hcurrent hcurrent'
      rfl, hflag, ?_, hsends, _, hcurrent', ?_, ?_⟩, hsending.draft, hsending.requested⟩
  · change s.others.pending.resolves.getD 0 0 :: _ ⊆ _
    rw [hplace]
    exact hsubset
  · change (s.session t).pending.resolves.eraseIdx 0 = []
    rw [hresolves]
    rfl
  · rw [hplace]
    exact hkept.carries hcarries
  · rw [UdpSession.usableRest_new]
    exact Transmission.answered_resolved datagram results _ _

theorem InOrder.sent {c : UdpSession.Script} {index : ℕ} (h : InOrder c s t)
    (hlimiting : s.limiting = none) (hholder : s.holder = none)
    (hindex : index < (s.session t).pending.sends.length) (error : Option String) :
    InOrder c (s.startHandler P (.send index error)) t := by
  have hsending := h.free hholder
  obtain ⟨operation, u, rfl, hflag, hresolves, hsends, hcurrent, hcarries, hunderway⟩ :=
    hsending.flow.stage.of_send (s := s.session t) hindex
  have hkept := UdpSession.kept_sent (s.session t) 0 error
  have hsubset := UdpSession.sent_outgoing (s := s.session t) hindex error
  have hfirst : (s.session t).pending.sends.getD 0 ⟨0, ⟨[], []⟩⟩ = operation := by
    rw [hsends]
    rfl
  have hcurrent' : (UdpCompletion.noteOutcome { s.session t with
      pending.sends := (s.session t).pending.sends.eraseIdx 0 } error).history.current =
        some { u with outcomes := u.outcomes ++ [error] } := by
    change (s.session t).history.current.map _ = _
    rw [hcurrent]
    rfl
  rw [hfirst] at hsubset
  have hoperation : s.others.pending.sends.getD 0 ⟨0, ⟨[], []⟩⟩ = operation := hfirst
  refine .of_busy (s := s.startHandler P (.send 0 error)) hlimiting rfl h.tracks
    (h.sums_of_rest hlimiting hholder) (h.bounded hlimiting)
    ⟨⟨_, hsending.owned, ?_⟩, ⟨hsending.flow.toBooks.current hkept rfl rfl hcurrent hcurrent'
      rfl, hflag, hresolves, ?_, _, hcurrent', ?_, ?_⟩, hsending.draft, hsending.requested⟩
  · change (s.others.pending.sends.getD 0 ⟨0, ⟨[], []⟩⟩).buffer :: _ ⊆ _
    rw [hoperation]
    exact hsubset
  · change (s.session t).pending.sends.eraseIdx 0 = []
    rw [hsends]
    rfl
  · rw [hoperation]
    exact hkept.carries hcarries
  · rw [hoperation]
    exact hunderway.answer error

theorem InOrder.handler {c : UdpSession.Script} {done : UdpCompletion} (h : InOrder c s t)
    (hundisturbed : s.Undisturbed (.completion done))
    (hstep : s.step P (.completion done) = some s') : InOrder c s' t := by
  unfold step at hstep
  simp only at hstep
  split at hstep
  case isFalse => contradiction
  case isTrue hguard =>
    obtain ⟨hfree, henabled⟩ := hguard
    have hholder : s.holder = none := Option.isNone_iff_eq_none.mp hfree
    obtain rfl := Option.some.inj hstep
    cases done with
    | resolve index error results => exact h.resolved hundisturbed hholder henabled error results
    | send index error => exact h.sent hundisturbed hholder henabled error
    | receive index error bytes endpoint =>
      refine ⟨h.tracks, h.sums, h.bounded, h.popping, h.exclusive, fun _ => ?_, ?_⟩
      · rw [session_handleReceive]
        exact (h.free hholder).step (e := .completion (.receive index error bytes endpoint))
          ((UdpSession.step_eq_some_iff P _ _ _).mpr ⟨henabled, rfl⟩)
      · intro other hother
        change s.holder = some other at hother
        rw [hholder] at hother
        contradiction

/-! ### The calls of the client -/

/-- The code under the mutex does not notice changes of buffers that it does not send. -/
theorem holds_transport {u v : UdpSession} {position : HolderAt} (h : u.Holds position)
    (hsame : SameSending u v) (hcarries : ∀ place datagram,
      place ∈ position.places ++ u.outgoing → u.Carries place datagram → v.Carries place datagram) :
    v.Holds position := by
  have hqueued : ∀ place datagram, place ∈ u.outgoing → u.Carries place datagram →
      v.Carries place datagram :=
    fun place datagram hplace => hcarries place datagram (List.mem_append_right _ hplace)
  have hresting : u.Resting → v.Resting := fun hrest =>
    ⟨hsame.asyncSendInProgress.trans hrest.flag, hsame.resolves.trans hrest.resolves,
      hsame.sends.trans hrest.sends, hsame.current.trans hrest.current⟩
  cases position with
  | handleSend err place endpoints =>
    obtain ⟨hbooks, hflag, hresolves, hsends, t, hcurrent, hcarried, hanswered⟩ := h
    refine ⟨hbooks.transport hsame hqueued, hsame.asyncSendInProgress.trans hflag,
      hsame.resolves.trans hresolves, hsame.sends.trans hsends, t, hsame.current.trans hcurrent,
      hcarries place _ List.mem_cons_self hcarried, ?_⟩
    rwa [hsame.usable, hsame.usableRest]
  | sendEnded => exact ⟨h.1.transport hsame hqueued, hresting h.2⟩
  | asyncSend => exact ⟨h.1.transport hsame hqueued, hresting h.2⟩
  | peeking =>
    obtain ⟨hbooks, hrest, hne⟩ := h
    refine ⟨hbooks.transport hsame hqueued, hresting hrest, ?_⟩
    rwa [hsame.sendqueue]
  | inPop item position =>
    obtain ⟨hbooks, hrest, others, hwaiting⟩ := h
    refine ⟨hbooks.transport hsame hqueued, hresting hrest, others, ?_⟩
    rwa [hsame.sendqueue]
  | resolving item =>
    obtain ⟨⟨hentries, hprocessed, hfinished, hitem, haddress⟩, hrest⟩ := h
    refine ⟨⟨?_, ?_, ?_, hcarries _ _ List.mem_cons_self hitem, haddress⟩, hresting hrest⟩
    · rw [hsame.sendqueue]
      intro entry hentry
      have hplace : entry.1.buffer ∈ u.outgoing := (u.mem_outgoing _).mpr
        (Or.inl ((UdpSession.mem_queue _ _).mpr ⟨entry, hentry, rfl⟩))
      obtain ⟨hcarried, haddress'⟩ := hentries entry hentry
      exact ⟨hqueued _ _ hplace hcarried, haddress'⟩
    · rw [hsame.sendqueue, hsame.completed]
      exact hprocessed
    · rw [hsame.completed, hsame.usable]
      exact hfinished

/-- While a handler runs, the client changes one of its own two buffers. -/
theorem Busy.setBuffer {c d : UdpSession.Script} {u : UdpSession} {h : Holder} (hbusy : Busy c u h)
    (hcalling : h.calling = false) {place : ℕ}
    (hplace : place = u.socket.sendBuffer ∨ place = u.socket.receiveBuffer) (b : Buffer)
    (hdraft : (u.setBuffer place b).buffer u.socket.sendBuffer = ⟨d.draft, 0⟩)
    (hrequests : d.requests = c.requests) : Busy d (u.setBuffer place b) h := by
  obtain ⟨outgoing, hparted, hsubset⟩ := hbusy.owned
  rw [hcalling] at hsubset
  have hapart : ∀ other ∈ h.position.places ++ u.outgoing, other ≠ place := by
    intro other hother heq
    apply hparted.apart other (hsubset hother)
    rcases hplace with rfl | rfl
    · exact heq ▸ List.mem_cons_self
    · exact heq ▸ List.mem_cons_of_mem _ List.mem_cons_self
  refine ⟨⟨outgoing, ?_, ?_⟩, ?_, ?_, ?_⟩
  · rw [UdpSession.length_setBuffer]
    exact hparted
  · rw [hcalling]
    exact hsubset
  · refine holds_transport (v := u.setBuffer place b) hbusy.holds
      ⟨rfl, rfl, rfl, rfl, rfl, rfl, rfl⟩ ?_
    intro other datagram hother hcarries
    exact hcarries.setBuffer (hapart other hother) b
  · rw [hcalling]
    exact hdraft
  · rw [hrequests]
    exact hbusy.requested

/-- The client changes one of its own two buffers, whoever holds the mutex. -/
theorem InOrder.setBuffer {c d : UdpSession.Script} (h : InOrder c s t)
    (hidle : s.clientIdle = true) {place : ℕ}
    (hplace : place = s.others.socket.sendBuffer ∨ place = s.others.socket.receiveBuffer)
    (b : Buffer) (hrequests : d.requests = c.requests)
    (hfree : Sending c (s.session t) → Sending d ((s.session t).setBuffer place b))
    (hdraft : s.others.socket.sendBuffer < s.others.buffers.length →
      s.others.buffer s.others.socket.sendBuffer = ⟨c.draft, 0⟩ →
      (s.others.setBuffer place b).buffer s.others.socket.sendBuffer = ⟨d.draft, 0⟩) :
    InOrder d { s with others := s.others.setBuffer place b } t := by
  obtain ⟨hlimiting, hcalling⟩ := Bool.and_eq_true_iff.mp hidle
  refine ⟨h.tracks, h.sums, h.bounded, h.popping, h.exclusive,
    fun hholder => hfree (h.free hholder), ?_⟩
  intro holder hholder
  have hbusy := h.busy holder hholder
  have hnot : holder.calling = false := by
    rw [hholder] at hcalling
    simpa only [Option.any_some, Bool.not_eq_true'] using hcalling
  obtain ⟨outgoing, hparted, -⟩ := hbusy.owned
  have hbefore := hbusy.draft
  rw [hnot] at hbefore
  exact hbusy.setBuffer hnot hplace b (hdraft (hparted.owned_lt _ List.mem_cons_self) hbefore)
    hrequests

theorem InOrder.write {c : UdpSession.Script} (h : InOrder c s t) (hidle : s.clientIdle = true)
    (data : List UInt8) : InOrder { c with draft := c.draft ++ data }
      { s with others := s.others.write data } t := by
  refine h.setBuffer (d := { c with draft := c.draft ++ data }) hidle (Or.inl rfl) _ rfl
    (fun hsending => hsending.write data) ?_
  intro hlt hbefore
  rw [UdpSession.buffer_setBuffer_self hlt, hbefore]
  rfl

theorem InOrder.setExposed {c : UdpSession.Script} (h : InOrder c s t) (hidle : s.clientIdle = true)
    (b : Buffer) : InOrder c
      { s with others := s.others.setBuffer s.others.socket.receiveBuffer b } t := by
  refine h.setBuffer (d := c) hidle (Or.inr rfl) b rfl (fun hsending => hsending.setExposed b) ?_
  intro hlt hbefore
  have hne : s.others.socket.sendBuffer ≠ s.others.socket.receiveBuffer := by
    intro heq
    cases hholder : s.holder with
    | none => exact Parted.draft_ne_exposed (h.free hholder).owned heq
    | some holder =>
      obtain ⟨outgoing, hparted, -⟩ := (h.busy holder hholder).owned
      exact hparted.draft_ne_exposed heq
  rw [UdpSession.buffer_setBuffer_of_ne s.others hne, hbefore]

/-- Pushing to the shared queue is pushing to the one of the session. -/
theorem enqueueAll_eq (P : Platform) (port : ℕ) (addrs : List String) (s : UdpThreads)
    (t : TrackedQueue) (hqueue : t.queue = s.sendqueue.queue)
    (hledger : t.ledger = s.sendqueue.ledger) : ∃ r : TrackedQueue,
      s.enqueueAll P port addrs = some ⟨r.queue, r.ledger⟩ ∧
      ((s.session t).enqueueAll P port addrs).2 = s.session r := by
  induction addrs generalizing s t with
  | nil =>
    refine ⟨t, ?_, rfl⟩
    rw [hqueue, hledger]
    rfl
  | cons addr rest ih =>
    have hpush := SharedQueue.push_eq hqueue hledger
      (s.others.queueItem P s.others.socket.sendBuffer addr port)
      ⟨(s.others.buffer s.others.socket.sendBuffer).data, addr, port⟩
    obtain ⟨r, hrest, hsession⟩ := ih { s with sendqueue := ⟨_, _⟩ } _ rfl rfl
    refine ⟨r, ?_, hsession⟩
    rw [enqueueAll, hpush]
    exact hrest

theorem InOrder.broadcast {c : UdpSession.Script} (h : InOrder c s t)
    (hlimiting : s.limiting = none) (hholder : s.holder = none) (addrs : List String) (port : ℕ)
    (hstart : (s.enqueueAll P port addrs).map (fun q => flush { s with sendqueue := q }) =
      some s') :
    ∃ t', InOrder ⟨[], c.requests ++ addrs.map fun addr => ⟨c.draft, addr, port⟩⟩ s' t' := by
  obtain ⟨r, hqueue, hledger, hsending⟩ := h.exact hlimiting hholder
  obtain ⟨r', henqueue, hsession⟩ := enqueueAll_eq P port addrs s r hqueue hledger
  obtain rfl : flush { s with sendqueue := ⟨r'.queue, r'.ledger⟩ } = s' := by
    rw [henqueue] at hstart
    exact Option.some.inj hstart
  have hoffers := (s.session r).enqueueAll_offers P port addrs
  have hflow := hsending.flow.enqueueAll P addrs port hsending.owned.draft_lt hsending.draft
  rw [hsession] at hoffers hflow
  have howned : OwnedBy (s.session r') true [] :=
    ⟨(s.session r).outgoing, hsending.owned, hoffers.outgoing_subset⟩
  have hrequested : r'.ledger.offered.map (fun offer => offer.1.2) =
      c.requests ++ addrs.map fun addr => ⟨c.draft, addr, port⟩ := by
    have hoffered := hoffers.offered
    rw [hsending.requested] at hoffered
    unfold UdpSession.drafts at hoffered
    rw [hsending.draft] at hoffered
    exact hoffered
  refine ⟨r', ?_⟩
  unfold flush
  cases hflag : s.others.socket.asyncSendInProgress with
  | true =>
    rw [if_pos rfl]
    refine inOrder_release (s := { s with sendqueue := ⟨r'.queue, r'.ledger⟩ }) hlimiting
      ⟨rfl, rfl⟩ r'.consistent.sum r'.consistent.bounded howned hflow ?_ rfl hrequested
    intro hidle
    change s.others.socket.asyncSendInProgress = false at hidle
    rw [hflag] at hidle
    contradiction
  | false =>
    rw [if_neg Bool.false_ne_true]
    have hresting : (s.session r').Resting := by
      cases hflow.stage with
      | idle hflag hresolves hsends hcurrent => exact ⟨hflag, hresolves, hsends, hcurrent⟩
      | resolving place datagram htrue _ _ _ _ =>
        change s.others.socket.asyncSendInProgress = true at htrue
        rw [hflag] at htrue
        contradiction
      | sending operation t htrue _ _ _ _ _ =>
        change s.others.socket.asyncSendInProgress = true at htrue
        rw [hflag] at htrue
        contradiction
    exact .of_busy hlimiting rfl ⟨rfl, rfl⟩ r'.consistent.sum r'.consistent.bounded
      ⟨howned, ⟨hflow.toBooks, hresting⟩, rfl, hrequested⟩

theorem InOrder.close {c : UdpSession.Script} (h : InOrder c s t) (hlimiting : s.limiting = none)
    (hholder : s.holder = none) : ∃ t', InOrder { c with draft := [] }
      { s with others := s.others.close, sendqueue := s.sendqueue.clear } t' := by
  obtain ⟨r, hqueue, hledger, hsending⟩ := h.exact hlimiting hholder
  have hcleared : (⟨r.clear.queue, r.clear.ledger⟩ : SharedQueue) = s.sendqueue.clear := by
    unfold SharedQueue.clear
    rw [← hqueue, ← hledger]
    rfl
  have htracks : s.sendqueue.clear.Tracks r.clear := hcleared ▸ ⟨rfl, rfl⟩
  exact ⟨r.clear, .of_rest
    (s := { s with others := s.others.close, sendqueue := s.sendqueue.clear })
    hlimiting hholder htracks rfl (Nat.zero_le _) hsending.close⟩

theorem InOrder.receive {c : UdpSession.Script} (h : InOrder c s t) (hlimiting : s.limiting = none)
    (hholder : s.holder = none) :
    InOrder c { s with others := s.others.receive.2 } t := by
  have hsession : ({ s with others := s.others.receive.2 } : UdpThreads).session t =
      (s.session t).receive.2 := by
    change { s.others.receive.2 with socket.sendqueue := t } = (s.session t).receive.2
    unfold UdpSession.receive
    have hsame : (s.session t).socket.receivequeue = s.others.socket.receivequeue := rfl
    rw [hsame]
    cases s.others.socket.receivequeue.queue.peek <;> rfl
  refine .of_rest (s := { s with others := s.others.receive.2 }) hlimiting hholder h.tracks
    (h.sums_of_rest hlimiting hholder) (h.bounded hlimiting) ?_
  rw [hsession]
  exact (h.free hholder).receive

theorem InOrder.call {c : UdpSession.Script} {request : UdpCall} (h : InOrder c s t)
    (hundisturbed : s.Undisturbed (.call request)) (hstep : s.step P (.call request) = some s') :
    ∃ t', InOrder (c.note (.call request)) s' t' := by
  unfold step at hstep
  simp only at hstep
  split at hstep
  case isFalse => contradiction
  case isTrue hguard =>
    obtain ⟨hidle, hmutex⟩ := Bool.and_eq_true_iff.mp hguard
    have hlimiting : s.limiting = none :=
      Option.isNone_iff_eq_none.mp (Bool.and_eq_true_iff.mp hidle).1
    have hlocked : request.locks = true → s.holder = none := by
      intro hlocks
      rw [hlocks] at hmutex
      exact Option.isNone_iff_eq_none.mp hmutex
    cases request with
    | write data =>
      obtain rfl := Option.some.inj hstep
      exact ⟨t, h.write hidle data⟩
    | send host port => exact h.broadcast hlimiting (hlocked rfl) [host] port hstep
    | broadcast addrs port => exact h.broadcast hlimiting (hlocked rfl) addrs port hstep
    | setSendbufferLimit maxSize =>
      have hholder : s.holder = none := hundisturbed
      obtain rfl := Option.some.inj hstep
      refine ⟨t, ⟨h.tracks.queue, h.tracks.ledger⟩, ?_, nofun, nofun, Or.inr hholder,
        fun _ => h.free hholder, ?_⟩
      · unfold subtracted
        simp only [hholder]
        exact h.sums_of_rest hlimiting hholder
      · exact h.busy
    | close =>
      obtain rfl := Option.some.inj hstep
      exact h.close hlimiting (hlocked rfl)
    | receive =>
      obtain rfl := Option.some.inj hstep
      exact ⟨t, h.receive hlimiting (hlocked rfl)⟩
    | read size =>
      obtain rfl := Option.some.inj hstep
      exact ⟨t, h.setExposed hidle _⟩
    | readString size =>
      obtain rfl := Option.some.inj hstep
      exact ⟨t, h.setExposed hidle _⟩
    | setReadpos pos =>
      obtain rfl := Option.some.inj hstep
      exact ⟨t, h.setExposed hidle _⟩

/-! ### Whole runs -/

/-- What the client has asked for. -/
def script (es : List UdpThreadEvent) : UdpSession.Script :=
  UdpSession.script (es.filterMap (·.seen))

theorem script_concat (es : List UdpThreadEvent) (e : UdpThreadEvent) :
    script (es ++ [e]) = e.seen.elim (script es) (script es).note := by
  unfold script
  rw [List.filterMap_append]
  cases hseen : e.seen with
  | none =>
    rw [List.filterMap_cons_none hseen, List.filterMap_nil, List.append_nil]
    rfl
  | some seen =>
    rw [List.filterMap_cons_some hseen, List.filterMap_nil, UdpSession.script_concat]
    rfl

theorem InOrder.step {es : List UdpThreadEvent} {e : UdpThreadEvent} (h : InOrder (script es) s t)
    (hundisturbed : s.Undisturbed e) (hstep : s.step P e = some s') :
    ∃ t', InOrder (script (es ++ [e])) s' t' := by
  rw [script_concat]
  cases e with
  | call request => exact h.call hundisturbed hstep
  | completion done =>
    have hsame : (script es).note (.completion done) = script es := rfl
    exact ⟨t, hsame ▸ h.handler hundisturbed hstep⟩
  | limiting => exact h.limiting hstep
  | holder => exact h.holder hundisturbed hstep

theorem inOrder_bind (ipv4Open ipv6Open : Bool) :
    InOrder (script []) (bind ipv4Open ipv6Open) .new := by
  refine .of_rest (s := bind ipv4Open ipv6Open) rfl rfl ⟨rfl, rfl⟩ rfl (Nat.zero_le _) ?_
  have hbind := UdpSession.sending_bind ipv4Open ipv6Open
  cases ipv4Open <;> cases ipv6Open <;> exact hbind

theorem inOrder_of_run (P : Platform) (ipv4Open ipv6Open : Bool) {es : List UdpThreadEvent}
    (hrun : StateMachine.run (StateMachine.restrict Undisturbed (step P)) (bind ipv4Open ipv6Open)
      es = some s) : ∃ t, InOrder (script es) s t := by
  apply StateMachine.run_traces (fun es s => ∃ t, InOrder (script es) s t) _ _ hrun
  · rintro es s e s' ⟨t, ht⟩ hstep
    unfold StateMachine.restrict at hstep
    split at hstep
    · rename_i hundisturbed
      exact ht.step hundisturbed hstep
    · contradiction
  · exact ⟨.new, inOrder_bind ipv4Open ipv6Open⟩

/-- The datagram that has left the queue and is not yet current. -/
def inHand (s : UdpThreads) : List Datagram :=
  (s.holder.map fun h => h.position.inHand).getD []

/-- While no call and no handler is running, nothing waits unless something is being sent. -/
def Drained (s : UdpThreads) : Prop :=
  s.limiting = none → s.holder = none → s.others.socket.asyncSendInProgress = false →
    s.sendqueue.queue.queue = []

/-- What holds of the sending direction at any time, between any two steps of the threads. -/
def SendsInOrder (es : List UdpThreadEvent) (s : UdpThreads) : Prop :=
  s.Drained ∧ UdpSession.SendsInOrder (script es).requests s.sendqueue.queue.queue
    s.sendqueue.ledger s.inHand s.others

/-- What the code under the mutex has left of the records. -/
theorem records_of_holds {u : UdpSession} {position : HolderAt} (h : u.Holds position) :
    u.pending.resolves = [] ∧ u.pending.sends = [] ∧
      (u.history.completed ++ u.history.current.toList).map Transmission.datagram ++
        position.inHand = u.socket.sendqueue.ledger.taken.map Prod.snd ∧
      ∀ t ∈ u.history.completed ++ u.history.current.toList,
        ∀ attempt ∈ t.attempts, attempt.2 = t.datagram.payload := by
  have hresting : u.Books → u.Resting → u.pending.resolves = [] ∧ u.pending.sends = [] ∧
      (u.history.completed ++ u.history.current.toList).map Transmission.datagram ++ [] =
        u.socket.sendqueue.ledger.taken.map Prod.snd ∧
      ∀ t ∈ u.history.completed ++ u.history.current.toList,
        ∀ attempt ∈ t.attempts, attempt.2 = t.datagram.payload := by
    intro hbooks hrest
    refine ⟨hrest.resolves, hrest.sends, ?_, ?_⟩
    · rw [List.append_nil]
      exact hbooks.processed.symm
    · rw [hrest.current, Option.toList_none, List.append_nil]
      exact fun t ht => (hbooks.finished t ht).payloads
  cases position with
  | handleSend err place endpoints =>
    obtain ⟨hbooks, -, hresolves, hsends, t, hcurrent, -, hanswered⟩ := h
    refine ⟨hresolves, hsends, ?_, ?_⟩
    · rw [HolderAt.inHand, List.append_nil]
      · exact hbooks.processed.symm
      · exact nofun
    · rw [hcurrent, Option.toList_some]
      intro v hv
      rcases List.mem_append.mp hv with hcompleted | hlast
      · exact (hbooks.finished v hcompleted).payloads
      · rw [List.mem_singleton.mp hlast]
        exact hanswered.payloads
  | sendEnded => exact hresting h.1 h.2
  | asyncSend => exact hresting h.1 h.2
  | peeking => exact hresting h.1 h.2.1
  | inPop item position => exact hresting h.1 h.2.1
  | resolving item =>
    obtain ⟨hcarried, hrest⟩ := h
    refine ⟨hrest.resolves, hrest.sends, ?_, ?_⟩
    · rw [hrest.current, Option.toList_none, List.append_nil]
      exact hcarried.processed.symm
    · rw [hrest.current, Option.toList_none, List.append_nil]
      exact fun t ht => (hcarried.finished t ht).payloads

theorem InOrder.sendsInOrder {es : List UdpThreadEvent} (h : InOrder (script es) s t) :
    SendsInOrder es s := by
  constructor
  · intro _ hholder hidle
    rw [← h.tracks.queue]
    exact (h.free hholder).drained hidle
  rw [← h.tracks.queue, ← h.tracks.ledger]
  unfold inHand
  cases hholder : s.holder with
  | none =>
    have hfree := (h.free hholder).sendsInOrder
    exact ⟨hfree.single, hfree.requested, hfree.entered, hfree.accounted, hfree.queued,
      hfree.in_order, hfree.processed, hfree.payloads, hfree.in_flight⟩
  | some holder =>
    have hbusy := h.busy holder hholder
    obtain ⟨hresolves, hsends, hprocessed, hpayloads⟩ := records_of_holds hbusy.holds
    have hnone : s.others.pending.sends = [] := hsends
    refine ⟨?_, hbusy.requested, Ledger.entered_sublist _, ?_, t.tracks, Ledger.taken_sublist _,
      hprocessed, hpayloads, ?_⟩
    · rw [hnone, show s.others.pending.resolves = [] from hresolves]
      exact Nat.zero_le 1
    · rw [← t.length_waiting]
      exact t.balanced.length_waiting
    · rw [hnone]
      exact nofun

/-- A socket sends in order in every interleaving of its two threads in which no part of a
resolve or send handler runs inside a call of setSendbufferLimit. -/
theorem sendsInOrder_of_undisturbed_run (P : Platform) (ipv4Open ipv6Open : Bool)
    (es : List UdpThreadEvent) (s : UdpThreads)
    (hrun : StateMachine.run (StateMachine.restrict Undisturbed (step P)) (bind ipv4Open ipv6Open)
      es = some s) : SendsInOrder es s := by
  obtain ⟨t, h⟩ := inOrder_of_run P ipv4Open ipv6Open hrun
  exact h.sendsInOrder

/-- Two datagrams wait while the address of a third one is looked up. -/
def waitingTwo : List UdpThreadEvent :=
  [.call (.write [1]), .call (.send "first" 80), .holder, .holder, .holder, .holder, .holder,
    .holder, .call (.write [2]), .call (.send "second" 80), .call (.write [3]),
    .call (.send "third" 80)]

/-- The limit is lowered between two handlers, and the second datagram is dropped. -/
theorem sendsInOrder_of_undisturbed_run_dropped : ∃ s,
    StateMachine.run (StateMachine.restrict Undisturbed (step UdpSession.loopback))
      (bind true false) (waitingTwo ++ [.call (.setSendbufferLimit 50), .limiting, .limiting,
        .limiting, .limiting, .limiting, .completion (.resolve 0 none []), .holder, .holder,
        .holder, .holder, .holder]) = some s ∧
    s.sendqueue.ledger.fates = [.taken, .evicted] ∧
    SendsInOrder (waitingTwo ++ [.call (.setSendbufferLimit 50), .limiting, .limiting,
      .limiting, .limiting, .limiting, .completion (.resolve 0 none []), .holder, .holder,
      .holder, .holder, .holder]) s := by
  have hfates : ((StateMachine.run
      (StateMachine.restrict Undisturbed (step UdpSession.loopback))
      (bind true false) (waitingTwo ++ [.call (.setSendbufferLimit 50), .limiting, .limiting,
        .limiting, .limiting, .limiting, .completion (.resolve 0 none []), .holder, .holder,
        .holder, .holder, .holder])).map fun s => s.sendqueue.ledger.fates) =
      some [.taken, .evicted] := by decide +kernel
  obtain ⟨s, hrun, hsome⟩ := Option.map_eq_some_iff.mp hfates
  exact ⟨s, hrun, hsome,
    sendsInOrder_of_undisturbed_run UdpSession.loopback true false _ s hrun⟩

/-- The second datagram is dropped between the handler's look at it and its pop. The pop takes
the third one out of the queue, which is neither sent nor dropped by the limit or by close. -/
theorem not_sendsInOrder_inside : ¬ ∀ (P : Platform) (ipv4Open ipv6Open : Bool)
    (es : List UdpThreadEvent) (s : UdpThreads),
    StateMachine.run (step P) (bind ipv4Open ipv6Open) es = some s → SendsInOrder es s := by
  intro h
  have hlost : ((StateMachine.run (step UdpSession.loopback) (bind true false)
      (waitingTwo ++ [.completion (.resolve 0 none []), .holder, .holder, .holder, .holder,
        .call (.setSendbufferLimit 50), .limiting, .limiting, .limiting, .limiting, .limiting,
        .holder, .holder, .holder, .holder])).map fun s =>
      (s.inHand, (s.others.history.completed ++ s.others.history.current.toList).map fun t =>
        t.datagram.payload, s.sendqueue.ledger.taken.map fun entry => entry.2.payload)) =
      some ([], [[1], [2]], [[1], [3]]) := by decide +kernel
  obtain ⟨s, hrun, hsome⟩ := Option.map_eq_some_iff.mp hlost
  have hprocessed := (h _ _ _ _ s hrun).2.processed
  simp only [Prod.mk.injEq] at hsome
  obtain ⟨hhand, hsent, htaken⟩ := hsome
  rw [hhand, List.append_nil] at hprocessed
  have hpayloads := congrArg (List.map Datagram.payload) hprocessed
  rw [List.map_map, List.map_map] at hpayloads
  have hdiffer : [[1], [2]] = [[1], [(3 : UInt8)]] :=
    hsent.symm.trans (hpayloads.trans htaken)
  exact absurd hdiffer (by decide)

end UdpThreads

end FaucetNetworking
