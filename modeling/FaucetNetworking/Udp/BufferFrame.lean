import FaucetNetworking.Udp.Lifetime

/-!
Handlers read the outgoing buffers, and leave the draft and the exposed buffer alone. A change
of one of these two can be exchanged with what they do.
-/
namespace FaucetNetworking

namespace UdpSession

variable {P : Platform} {s : UdpSession} {q : ℕ} {b : Buffer}

/-! ### Sending -/

theorem nextAttempt_setBuffer (s : UdpSession) (q : ℕ) (b : Buffer) (err : Option String)
    (endpoints : V4FirstIterator) :
    (s.setBuffer q b).nextAttempt err endpoints = s.nextAttempt err endpoints :=
  nextAttempt_congr (show (s.setBuffer q b).isOpen = s.isOpen from rfl) err endpoints

theorem asyncSendTo_setBuffer {place : ℕ} (hplace : place ≠ q) (endpoint : Endpoint)
    (endpoints : V4FirstIterator) :
    asyncSendTo (s.setBuffer q b) endpoint place endpoints =
      (asyncSendTo s endpoint place endpoints).setBuffer q b := by
  unfold asyncSendTo
  rw [buffer_setBuffer_of_ne s hplace]
  rfl

theorem handleSend_setBuffer_of {place : ℕ} (hplace : place ≠ q) (err : Option String)
    (endpoints : V4FirstIterator)
    (hsend : asyncSend P ((endSend s).setBuffer q b) = (asyncSend P (endSend s)).setBuffer q b) :
    handleSend P (s.setBuffer q b) err place endpoints =
      (handleSend P s err place endpoints).setBuffer q b := by
  rw [handleSend, handleSend, nextAttempt_setBuffer]
  cases s.nextAttempt err endpoints with
  | some found => exact asyncSendTo_setBuffer hplace found.1 found.2
  | none =>
    by_cases hempty : s.socket.sendqueue.isEmpty = true
    · simp only [if_pos hempty]
      exact if_pos hempty
    · simp only [if_neg hempty]
      exact (if_neg hempty).trans hsend

theorem asyncSend_of_nil (h : s.socket.sendqueue.queue.queue = []) : asyncSend P s = s := by
  rw [asyncSend]
  split
  · rfl
  · rename_i hcons
    rw [h] at hcons
    contradiction

theorem asyncSend_of_cons {item : QueueItem} {rest : List QueueItem}
    (h : s.socket.sendqueue.queue.queue = item :: rest) :
    asyncSend P s = (P.fromString item.remoteHost).elim (asyncResolve (beginSend s) item.buffer)
      fun address => handleResolve P (beginSend s) none
        [⟨address.1, address.2, item.remotePort⟩] item.buffer := by
  rw [asyncSend]
  split
  · rename_i hnil
    rw [h] at hnil
    contradiction
  · rename_i hcons
    rw [h] at hcons
    obtain ⟨rfl, rfl⟩ := List.cons.inj hcons
    cases P.fromString item.remoteHost <;> rfl

theorem asyncSend_setBuffer (hs : ∀ item ∈ s.socket.sendqueue.queue.queue, item.buffer ≠ q) :
    asyncSend P (s.setBuffer q b) = (asyncSend P s).setBuffer q b := by
  -- induction on the length of the queue, which every skipped datagram shortens
  induction hn : s.socket.sendqueue.queue.queue.length using Nat.strong_induction_on
    generalizing s with
  | _ n ih =>
    cases hqueue : s.socket.sendqueue.queue.queue with
    | nil => rw [asyncSend_of_nil hqueue, asyncSend_of_nil (s := s.setBuffer q b) hqueue]
    | cons item rest =>
      have hlt : rest.length < n := by
        rw [← hn, hqueue]
        exact Nat.lt_succ_self _
      rw [asyncSend_of_cons hqueue, asyncSend_of_cons (s := s.setBuffer q b) hqueue]
      cases P.fromString item.remoteHost with
      | none => rfl
      | some address =>
        change handleResolve P (beginSend (s.setBuffer q b)) _ _ _ =
          (handleResolve P (beginSend s) _ _ _).setBuffer q b
        rw [handleResolve, handleResolve]
        have hrest := queue_beginSend hqueue
        rw [hqueue] at hs
        obtain ⟨hitem, hs⟩ := List.forall_mem_cons.mp hs
        refine handleSend_setBuffer_of (s := noteResults (beginSend s) _) hitem _ _
          (ih rest.length hlt ?_ (congrArg List.length hrest))
        intro item' hitem'
        exact hs item' (hrest ▸ hitem')

theorem handleSend_setBuffer {place : ℕ} (hplace : place ≠ q)
    (hs : ∀ item ∈ s.socket.sendqueue.queue.queue, item.buffer ≠ q) (err : Option String)
    (endpoints : V4FirstIterator) :
    handleSend P (s.setBuffer q b) err place endpoints =
      (handleSend P s err place endpoints).setBuffer q b :=
  handleSend_setBuffer_of hplace err endpoints (asyncSend_setBuffer (s := endSend s) hs)

theorem handleResolve_setBuffer {place : ℕ} (hplace : place ≠ q)
    (hs : ∀ item ∈ s.socket.sendqueue.queue.queue, item.buffer ≠ q) (error : Option String)
    (results : List Endpoint) :
    handleResolve P (s.setBuffer q b) error results place =
      (handleResolve P s error results place).setBuffer q b := by
  rw [handleResolve, handleResolve]
  exact handleSend_setBuffer (s := noteResults s results) hplace hs _ _

/-! ### Receiving -/

/-- The datagram is stored in a buffer of its own. -/
theorem storeDatagram_setBuffer (hq : q < s.buffers.length) (bytes : List UInt8)
    (endpoint : Endpoint) :
    storeDatagram P (s.setBuffer q b) bytes endpoint =
      (storeDatagram P s bytes endpoint).setBuffer q b := by
  have hplace : (s.setBuffer q b).freshPlace = s.freshPlace := length_setBuffer s q b
  have hne : s.freshPlace ≠ q := (Nat.ne_of_lt hq).symm
  have hswap : ((s.setBuffer q b).allocate.setBuffer s.freshPlace (Buffer.new.write bytes)) =
      (s.allocate.setBuffer s.freshPlace (Buffer.new.write bytes)).setBuffer q b := by
    have hbuffers : ((s.buffers.set q b) ++ [Buffer.new]).set s.freshPlace
        (Buffer.new.write bytes) = ((s.buffers ++ [Buffer.new]).set s.freshPlace
          (Buffer.new.write bytes)).set q b := by
      rw [List.set_comm _ _ hne, List.set_append_left q b hq]
    exact congrArg (fun buffers => { s with buffers }) hbuffers
  have hbuffer := buffer_setBuffer_of_ne
    (s.allocate.setBuffer s.freshPlace (Buffer.new.write bytes)) hne b
  unfold storeDatagram
  simp only [hplace, hswap, queueItem, hbuffer]
  rfl

theorem handleReceive_setBuffer (hq : q < s.buffers.length) (err : Option String)
    (bytesTransferred : ℕ) (endpoint : Endpoint) (protocol : Protocol)
    (recvbuffer : List UInt8) :
    handleReceive P (s.setBuffer q b) err bytesTransferred endpoint protocol recvbuffer =
      (handleReceive P s err bytesTransferred endpoint protocol recvbuffer).setBuffer q b := by
  have hrearm : ∀ t : UdpSession,
      (if (t.setBuffer q b).socketOpen protocol then
        (t.setBuffer q b).asyncReceive protocol recvbuffer else t.setBuffer q b) =
      (if t.socketOpen protocol then t.asyncReceive protocol recvbuffer else t).setBuffer q b := by
    intro t
    by_cases hopen : t.socketOpen protocol = true
    · rw [if_pos hopen]
      exact if_pos hopen
    · rw [if_neg hopen]
      exact if_neg hopen
  cases err with
  | some message => exact hrearm s
  | none =>
    unfold handleReceive
    simp only [storeDatagram_setBuffer hq]
    exact hrearm _

/-- The handler of an operation that is pending. -/
theorem completion_setBuffer {c : UdpCompletion} (hc : c.Enabled s) (hs : q ∉ s.outgoing)
    (hq : q < s.buffers.length) :
    c.perform P (s.setBuffer q b) = (c.perform P s).setBuffer q b := by
  have hqueue : ∀ item ∈ s.socket.sendqueue.queue.queue, item.buffer ≠ q := by
    rintro item hitem rfl
    exact hs ((mem_outgoing s _).mpr (Or.inl (List.mem_map_of_mem hitem)))
  cases c with
  | resolve index error results =>
    have hindex : index < s.pending.resolves.length := hc
    have hplace : s.pending.resolves.getD index 0 ≠ q := by
      rintro rfl
      rw [List.getD_eq_getElem?_getD, List.getElem?_eq_getElem hindex, Option.getD_some] at hs
      exact hs ((mem_outgoing s _).mpr (Or.inr (Or.inl (List.getElem_mem hindex))))
    exact handleResolve_setBuffer
      (s := { s with pending.resolves := s.pending.resolves.eraseIdx index }) hplace hqueue error
      results
  | send index error =>
    have hindex : index < s.pending.sends.length := hc
    have hplace : (s.pending.sends.getD index ⟨0, ⟨[], []⟩⟩).buffer ≠ q := by
      rintro rfl
      rw [List.getD_eq_getElem?_getD, List.getElem?_eq_getElem hindex, Option.getD_some] at hs
      exact hs ((mem_outgoing s _).mpr (Or.inr (Or.inr
        (List.mem_map_of_mem (List.getElem_mem hindex)))))
    exact handleSend_setBuffer (s := UdpCompletion.noteOutcome
      { s with pending.sends := s.pending.sends.eraseIdx index } error) hplace hqueue error _
  | receive index error bytes endpoint =>
    exact handleReceive_setBuffer
      (s := { s with pending.receives := s.pending.receives.eraseIdx index }) hq error _ _ _ _

/-! ### The buffers of the client -/

/-- The buffer that the client writes to, and the one that it reads from. -/
inductive ClientBuffer where
  | draft
  | exposed

def ClientBuffer.place : ClientBuffer → UdpSocket → ℕ
  | .draft, socket => socket.sendBuffer
  | .exposed, socket => socket.receiveBuffer

/-- The buffers stay the same, and so do the client's places. -/
structure Leaves (s t : UdpSession) : Prop where
  place : ∀ k : ClientBuffer, k.place t.socket = k.place s.socket
  buffer : ∀ q < s.buffers.length, t.buffer q = s.buffer q

theorem Kept.leaves {s t : UdpSession} (h : Kept s t) : Leaves s t where
  place
    | .draft => h.sendBuffer
    | .exposed => h.receiveBuffer
  buffer q _ := h.buffer q

theorem leaves_storeDatagram (s : UdpSession) (bytes : List UInt8) (endpoint : Endpoint) :
    Leaves s (storeDatagram P s bytes endpoint) where
  place
    | .draft => rfl
    | .exposed => rfl
  buffer q hq := by
    have hne : q ≠ s.freshPlace := Nat.ne_of_lt hq
    exact (buffer_setBuffer_of_ne s.allocate hne _).trans (buffer_allocate hq)

theorem leaves_completion (s : UdpSession) (c : UdpCompletion) : Leaves s (c.perform P s) := by
  cases c with
  | resolve index error results =>
    have hkept := (handleSend_case P (noteResults
      { s with pending.resolves := s.pending.resolves.eraseIdx index } results)
      (some (error.getD hostNotFound)) (s.pending.resolves.getD index 0) (.new results)).kept
    change Leaves s (handleResolve P _ error results _)
    rw [handleResolve]
    exact ⟨hkept.leaves.place, hkept.leaves.buffer⟩
  | send index error =>
    have hkept := (handleSend_case P (UdpCompletion.noteOutcome
      { s with pending.sends := s.pending.sends.eraseIdx index } error) error
      (s.pending.sends.getD index ⟨0, ⟨[], []⟩⟩).buffer
      (s.pending.sends.getD index ⟨0, ⟨[], []⟩⟩).endpoints).kept
    exact ⟨hkept.leaves.place, hkept.leaves.buffer⟩
  | receive index error bytes endpoint =>
    have hrearm : ∀ (t : UdpSession) protocol recvbuffer, Leaves s t →
        Leaves s (if t.socketOpen protocol then t.asyncReceive protocol recvbuffer else t) := by
      intro t protocol recvbuffer ht
      split
      · exact ⟨ht.place, ht.buffer⟩
      · exact ht
    refine hrearm _ _ _ ?_
    cases error with
    | some message => exact ⟨fun _ => rfl, fun _ _ => rfl⟩
    | none =>
      have hstored := leaves_storeDatagram (P := P)
        { s with pending.receives := s.pending.receives.eraseIdx index }
      exact ⟨(hstored _ _).place, (hstored _ _).buffer⟩

theorem Owned.client_lt (h : s.Owned) (k : ClientBuffer) : k.place s.socket < s.buffers.length := by
  cases k with
  | draft => exact h.draft_lt
  | exposed => exact h.exposed_lt

theorem Owned.client_not_outgoing (h : s.Owned) (k : ClientBuffer) :
    k.place s.socket ∉ s.outgoing := by
  cases k with
  | draft => exact fun hmem => h.draft_not_outgoing hmem rfl
  | exposed => exact fun hmem => h.exposed_not_outgoing hmem rfl

end UdpSession

namespace UdpObject

variable {P : Platform} {f : Buffer → Buffer} {o t : UdpObject} {k : UdpSession.ClientBuffer}

def clientBuffer (o : UdpObject) (k : UdpSession.ClientBuffer) : Buffer :=
  o.session.buffer (k.place o.session.socket)

def withClientBuffer (o : UdpObject) (k : UdpSession.ClientBuffer) (f : Buffer → Buffer) :
    UdpObject :=
  { o with session := o.session.setBuffer (k.place o.session.socket) (f (o.clientBuffer k)) }

theorem perform_withClientBuffer {c : UdpCompletion} (hc : c.Enabled o.session)
    (ho : o.session.Owned) :
    UdpSession.perform P (o.withClientBuffer k f).session (.completion c) =
      (({ o with session := UdpSession.perform P o.session (.completion c) } :
        UdpObject).withClientBuffer k f).session := by
  have hleaves := UdpSession.leaves_completion (P := P) o.session c
  change c.perform P (o.session.setBuffer _ _) = (c.perform P o.session).setBuffer
    (k.place (c.perform P o.session).socket)
    (f ((c.perform P o.session).buffer (k.place (c.perform P o.session).socket)))
  rw [UdpSession.completion_setBuffer hc (ho.client_not_outgoing k) (ho.client_lt k),
    hleaves.place, hleaves.buffer _ (ho.client_lt k)]
  rfl

/-- A handler does the same whatever the client's buffers hold. -/
theorem step_withClientBuffer (ho : o.session.Owned) (c : UdpCompletion) :
    step P (o.withClientBuffer k f) (.session (.completion c)) =
      (step P o (.session (.completion c))).map (withClientBuffer · k f) := by
  have henabled : (o.withClientBuffer k f).Enabled (.session (.completion c)) ↔
      o.Enabled (.session (.completion c)) := by
    cases c <;> exact Iff.rfl
  unfold step
  by_cases h : o.Enabled (.session (.completion c))
  · have hsession := perform_withClientBuffer (P := P) (k := k) (f := f) h ho
    have hperform : (o.withClientBuffer k f).perform P (.session (.completion c)) =
        (o.perform P (.session (.completion c))).withClientBuffer k f := by
      cases c with
      | resolve | send => exact congrArg (fun s => ({ o with session := s } : UdpObject)) hsession
      | receive index error bytes endpoint =>
        by_cases hdestroyed : o.destroyed = true
        · simp only [perform, if_pos hdestroyed]
          exact if_pos hdestroyed
        · simp only [perform, if_neg hdestroyed]
          exact (if_neg hdestroyed).trans
            (congrArg (fun s => ({ o with session := s } : UdpObject)) hsession)
    rw [if_pos h, if_pos (henabled.mpr h), hperform]
    rfl
  · rw [if_neg h, if_neg fun h' => h (henabled.mp h')]
    rfl

theorem same_step (ho : o.session.Owned) {c : UdpCompletion}
    (h : step P o (.session (.completion c)) = some t) :
    t.handle = o.handle ∧ t.clientBuffer k = o.clientBuffer k := by
  cases stepCase h with
  | session e s hsession _ _ =>
    obtain ⟨-, rfl⟩ := (UdpSession.step_eq_some_iff P o.session s _).mp hsession
    have hleaves := UdpSession.leaves_completion (P := P) o.session c
    refine ⟨rfl, ?_⟩
    change (c.perform P o.session).buffer (k.place (c.perform P o.session).socket) = _
    rw [hleaves.place, hleaves.buffer _ (ho.client_lt k)]
    rfl
  | ignored => exact ⟨rfl, rfl⟩

/-- A call that only changes one of the buffers needs nothing but the handle. -/
theorem step_call_withClientBuffer {c : UdpCall} (hperform : ({ o with
      session := c.perform P o.session } : UdpObject) = o.withClientBuffer k f) :
    step P o (.session (.call c)) =
      if o.handle = .held then some (o.withClientBuffer k f) else none := by
  unfold step
  by_cases hheld : o.handle = .held
  · rw [if_pos hheld, ← hperform]
    exact if_pos hheld
  · rw [if_neg hheld]
    exact if_neg hheld

theorem step_read (o : UdpObject) (size : ℕ) : step P o (.session (.call (.read size))) =
    if o.handle = .held then some (o.withClientBuffer .exposed fun b => (b.read size).2)
    else none :=
  step_call_withClientBuffer rfl

theorem step_setReadpos (o : UdpObject) (pos : ℕ) :
    step P o (.session (.call (.setReadpos pos))) = if o.handle = .held then
      some (o.withClientBuffer .exposed (Buffer.setReadpos · pos)) else none :=
  step_call_withClientBuffer rfl

theorem step_write (o : UdpObject) (data : List UInt8) :
    step P o (.session (.call (.write data))) = if o.handle = .held then
      some (o.withClientBuffer .draft (Buffer.write · data)) else none :=
  step_call_withClientBuffer rfl

end UdpObject

end FaucetNetworking
