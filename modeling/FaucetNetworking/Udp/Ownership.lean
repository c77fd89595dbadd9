import FaucetNetworking.Udp.Cases

/-!
Which buffer belongs to whom. The client writes into the draft and reads from the
exposed buffer; the outgoing buffers belong to the send queue and the operations in
progress, the incoming ones to the receive queue. No buffer is in two of these
parts, so that what the client does to its two buffers stays invisible elsewhere.
-/
namespace FaucetNetworking

/-- The parts of a heap with the given number of buffers. Only the outgoing part may
hold a buffer several times, since a broadcast sends one buffer to many addresses. -/
structure Parted (size draft exposed : ℕ) (outgoing incoming : List ℕ) : Prop where
  owned_lt : ∀ place ∈ draft :: exposed :: incoming, place < size
  outgoing_lt : ∀ place ∈ outgoing, place < size
  nodup : (draft :: exposed :: incoming).Nodup
  apart : ∀ place ∈ outgoing, place ∉ draft :: exposed :: incoming

namespace Parted

variable {size draft exposed : ℕ} {outgoing incoming : List ℕ}

theorem weaken (h : Parted size draft exposed outgoing incoming) {outgoing' incoming' : List ℕ}
    (hout : outgoing' ⊆ outgoing) (hin : incoming'.Sublist incoming) :
    Parted size draft exposed outgoing' incoming' := by
  have hsub : (draft :: exposed :: incoming').Sublist (draft :: exposed :: incoming) :=
    (hin.cons_cons exposed).cons_cons draft
  exact ⟨fun place hplace => h.owned_lt place (hsub.subset hplace),
    fun place hplace => h.outgoing_lt place (hout hplace),
    h.nodup.sublist hsub,
    fun place hplace hmem => h.apart place (hout hplace) (hsub.subset hmem)⟩

theorem draft_ne_exposed (h : Parted size draft exposed outgoing incoming) : draft ≠ exposed :=
  fun heq => (List.nodup_cons.mp h.nodup).1 (heq ▸ List.mem_cons_self)

/-- The draft goes out, and a new buffer becomes the draft. -/
theorem renew (h : Parted size draft exposed outgoing incoming) {outgoing' : List ℕ}
    (hout : outgoing' ⊆ draft :: outgoing) :
    Parted (size + 1) size exposed outgoing' incoming := by
  obtain ⟨hdraft, hrest⟩ := List.nodup_cons.mp h.nodup
  have hlt : ∀ place ∈ exposed :: incoming, place < size :=
    fun place hplace => h.owned_lt place (List.mem_cons_of_mem _ hplace)
  have hout_lt : ∀ place ∈ outgoing', place < size := by
    intro place hplace
    rcases List.mem_cons.mp (hout hplace) with rfl | hold
    · exact h.owned_lt place List.mem_cons_self
    · exact h.outgoing_lt place hold
  refine ⟨?_, ?_, ?_, ?_⟩
  · intro place hplace
    rcases List.mem_cons.mp hplace with rfl | hold
    · exact Nat.lt_succ_self _
    · exact Nat.lt_succ_of_lt (hlt place hold)
  · intro place hplace
    exact Nat.lt_succ_of_lt (hout_lt place hplace)
  · exact List.nodup_cons.mpr ⟨fun hmem => Nat.lt_irrefl _ (hlt _ hmem), hrest⟩
  · intro place hplace hmem
    rcases List.mem_cons.mp hmem with rfl | howned
    · exact Nat.lt_irrefl _ (hout_lt place hplace)
    · rcases List.mem_cons.mp (hout hplace) with rfl | hold
      · exact hdraft howned
      · exact h.apart place hold (List.mem_cons_of_mem _ howned)

/-- A new buffer enters the incoming part. -/
theorem arrive (h : Parted size draft exposed outgoing incoming) {incoming' : List ℕ}
    (hin : incoming'.Sublist incoming) :
    Parted (size + 1) draft exposed outgoing (incoming' ++ [size]) := by
  have hweak := h.weaken (List.Subset.refl outgoing) hin
  have hsplit : draft :: exposed :: (incoming' ++ [size]) =
      (draft :: exposed :: incoming') ++ [size] := rfl
  have hmem : ∀ place, place ∈ draft :: exposed :: (incoming' ++ [size]) →
      place ∈ draft :: exposed :: incoming' ∨ place = size := by
    intro place hplace
    rw [hsplit] at hplace
    rcases List.mem_append.mp hplace with hold | hnew
    · exact Or.inl hold
    · exact Or.inr (List.mem_singleton.mp hnew)
  refine ⟨?_, ?_, ?_, ?_⟩
  · intro place hplace
    rcases hmem place hplace with hold | rfl
    · exact Nat.lt_succ_of_lt (hweak.owned_lt place hold)
    · exact Nat.lt_succ_self _
  · intro place hplace
    exact Nat.lt_succ_of_lt (h.outgoing_lt place hplace)
  · rw [hsplit]
    apply List.nodup_append.mpr
    refine ⟨hweak.nodup, List.pairwise_singleton _ size, ?_⟩
    intro place hplace other hother heq
    have hlt := hweak.owned_lt place hplace
    rw [List.mem_singleton.mp hother] at heq
    omega
  · intro place hplace hplace'
    rcases hmem place hplace' with hold | rfl
    · exact hweak.apart place hplace hold
    · exact Nat.lt_irrefl _ (h.outgoing_lt place hplace)

/-- The first incoming buffer takes the place of the exposed one. -/
theorem expose {first : ℕ} {rest : List ℕ}
    (h : Parted size draft exposed outgoing (first :: rest)) :
    Parted size draft first outgoing rest := by
  have hsub : (draft :: first :: rest).Sublist (draft :: exposed :: first :: rest) :=
    (List.sublist_cons_self exposed (first :: rest)).cons_cons draft
  exact ⟨fun place hplace => h.owned_lt place (hsub.subset hplace), h.outgoing_lt,
    h.nodup.sublist hsub,
    fun place hplace hmem => h.apart place hplace (hsub.subset hmem)⟩

end Parted

namespace UdpSession

/-! ### The heap -/

theorem buffer_setBuffer_self {s : UdpSession} {place : ℕ} (h : place < s.buffers.length)
    (b : Buffer) : (s.setBuffer place b).buffer place = b := by
  unfold buffer setBuffer
  rw [List.getD_eq_getElem?_getD, List.getElem?_set_self h, Option.getD_some]

theorem buffer_setBuffer_of_ne (s : UdpSession) {place other : ℕ} (h : other ≠ place)
    (b : Buffer) : (s.setBuffer place b).buffer other = s.buffer other := by
  unfold buffer setBuffer
  rw [List.getD_eq_getElem?_getD, List.getElem?_set_ne h.symm, List.getD_eq_getElem?_getD]

theorem buffer_allocate {s : UdpSession} {place : ℕ} (h : place < s.buffers.length) :
    s.allocate.buffer place = s.buffer place := by
  unfold buffer allocate
  rw [List.getD_eq_getElem?_getD, List.getElem?_append_left h, List.getD_eq_getElem?_getD]

@[simp] theorem length_setBuffer (s : UdpSession) (place : ℕ) (b : Buffer) :
    (s.setBuffer place b).buffers.length = s.buffers.length :=
  List.length_set

@[simp] theorem length_allocate (s : UdpSession) :
    s.allocate.buffers.length = s.buffers.length + 1 :=
  List.length_append

/-! ### What the send pipeline leaves alone -/

/-- All that asyncSend and the handlers of a send do not touch. -/
structure Kept (s t : UdpSession) : Prop where
  buffers : t.buffers = s.buffers
  receivequeue : t.socket.receivequeue = s.socket.receivequeue
  ipv4Open : t.socket.ipv4Open = s.socket.ipv4Open
  ipv6Open : t.socket.ipv6Open = s.socket.ipv6Open
  remoteIp : t.socket.remoteIp = s.socket.remoteIp
  remotePort : t.socket.remotePort = s.socket.remotePort
  receiveBuffer : t.socket.receiveBuffer = s.socket.receiveBuffer
  sendBuffer : t.socket.sendBuffer = s.socket.sendBuffer
  offered : t.socket.sendqueue.ledger.offered = s.socket.sendqueue.ledger.offered
  receives : t.pending.receives = s.pending.receives
  exposed : t.history.exposed = s.history.exposed

theorem Kept.refl (s : UdpSession) : Kept s s :=
  ⟨rfl, rfl, rfl, rfl, rfl, rfl, rfl, rfl, rfl, rfl, rfl⟩

theorem Kept.trans {s t r : UdpSession} (h : Kept s t) (h' : Kept t r) : Kept s r :=
  ⟨h'.buffers.trans h.buffers, h'.receivequeue.trans h.receivequeue,
    h'.ipv4Open.trans h.ipv4Open, h'.ipv6Open.trans h.ipv6Open, h'.remoteIp.trans h.remoteIp,
    h'.remotePort.trans h.remotePort, h'.receiveBuffer.trans h.receiveBuffer,
    h'.sendBuffer.trans h.sendBuffer, h'.offered.trans h.offered, h'.receives.trans h.receives,
    h'.exposed.trans h.exposed⟩

theorem kept_beginSend (s : UdpSession) : Kept s (beginSend s) where
  buffers := rfl
  receivequeue := rfl
  ipv4Open := rfl
  ipv6Open := rfl
  remoteIp := rfl
  remotePort := rfl
  receiveBuffer := rfl
  sendBuffer := rfl
  offered := by
    change s.socket.sendqueue.pop.ledger.offered = _
    rw [s.socket.sendqueue.queue_pop.2]
    rfl
  receives := rfl
  exposed := rfl

theorem kept_endSend (s : UdpSession) : Kept s (endSend s) :=
  ⟨rfl, rfl, rfl, rfl, rfl, rfl, rfl, rfl, rfl, rfl, rfl⟩

theorem kept_noteResults (s : UdpSession) (results : List Endpoint) :
    Kept s (noteResults s results) :=
  ⟨rfl, rfl, rfl, rfl, rfl, rfl, rfl, rfl, rfl, rfl, rfl⟩

theorem kept_asyncResolve (s : UdpSession) (place : ℕ) : Kept s (asyncResolve s place) :=
  ⟨rfl, rfl, rfl, rfl, rfl, rfl, rfl, rfl, rfl, rfl, rfl⟩

theorem kept_asyncSendTo (s : UdpSession) (endpoint : Endpoint) (place : ℕ)
    (endpoints : V4FirstIterator) : Kept s (asyncSendTo s endpoint place endpoints) :=
  ⟨rfl, rfl, rfl, rfl, rfl, rfl, rfl, rfl, rfl, rfl, rfl⟩

theorem Pumped.kept {P : Platform} {s t : UdpSession} (h : Pumped P s t) : Kept s t := by
  induction h with
  | empty s _ => exact Kept.refl s
  | resolving s item rest _ _ => exact (kept_beginSend s).trans (kept_asyncResolve _ _)
  | sending s item rest address endpoint endpoints results _ _ _ _ =>
    exact ((kept_beginSend s).trans (kept_noteResults _ _)).trans (kept_asyncSendTo _ _ _ _)
  | skipped s t item rest address results _ _ _ _ _ ih =>
    exact (((kept_beginSend s).trans (kept_noteResults _ _)).trans (kept_endSend _)).trans ih

theorem SendCase.kept {P : Platform} {s t : UdpSession} {err : Option String} {place : ℕ}
    {endpoints : V4FirstIterator} (h : SendCase P s err place endpoints t) : Kept s t := by
  cases h with
  | attempted endpoint rest _ => exact kept_asyncSendTo _ _ _ _
  | ended _ _ hpump => exact (kept_endSend s).trans hpump.kept

theorem Kept.buffer {s t : UdpSession} (h : Kept s t) (place : ℕ) :
    t.buffer place = s.buffer place := by
  unfold UdpSession.buffer
  rw [h.buffers]

theorem Kept.isOpen {s t : UdpSession} (h : Kept s t) : t.isOpen = s.isOpen := by
  funext endpoint
  unfold UdpSession.isOpen socketOpen
  rw [h.ipv4Open, h.ipv6Open]

/-! ### The parts of the heap of a session -/

def outgoing (s : UdpSession) : List ℕ :=
  s.socket.sendqueue.queue.queue.map QueueItem.buffer ++ s.pending.resolves ++
    s.pending.sends.map PendingSend.buffer

def incoming (s : UdpSession) : List ℕ :=
  s.socket.receivequeue.queue.queue.map QueueItem.buffer

/-- The buffers of a session have one owner each. -/
def Owned (s : UdpSession) : Prop :=
  Parted s.buffers.length s.socket.sendBuffer s.socket.receiveBuffer s.outgoing s.incoming

theorem mem_outgoing (s : UdpSession) (place : ℕ) :
    place ∈ s.outgoing ↔ place ∈ s.socket.sendqueue.queue.queue.map QueueItem.buffer ∨
      place ∈ s.pending.resolves ∨ place ∈ s.pending.sends.map PendingSend.buffer := by
  unfold outgoing
  rw [List.mem_append, List.mem_append, or_assoc]

/-- The item that asyncSend takes out and those that stay were outgoing before. -/
theorem queue_beginSend {s : UdpSession} {item : QueueItem} {rest : List QueueItem}
    (h : s.socket.sendqueue.queue.queue = item :: rest) :
    (beginSend s).socket.sendqueue.queue.queue = rest := by
  have hpop := s.socket.sendqueue.queue_queue_pop
  rw [h] at hpop
  exact hpop

theorem Pumped.outgoing_subset {P : Platform} {s t : UdpSession} (h : Pumped P s t) :
    t.outgoing ⊆ s.outgoing := by
  induction h with
  | empty s _ => exact List.Subset.refl _
  | resolving s item rest hqueue _ =>
    intro place hplace
    rw [mem_outgoing] at hplace ⊢
    change place ∈ (beginSend s).socket.sendqueue.queue.queue.map QueueItem.buffer ∨
      place ∈ s.pending.resolves ++ [item.buffer] ∨
      place ∈ s.pending.sends.map PendingSend.buffer at hplace
    rw [queue_beginSend hqueue, List.mem_append, List.mem_singleton] at hplace
    rw [hqueue, List.map_cons, List.mem_cons]
    tauto
  | sending s item rest address endpoint endpoints results hqueue _ _ _ =>
    intro place hplace
    rw [mem_outgoing] at hplace ⊢
    change place ∈ (beginSend s).socket.sendqueue.queue.queue.map QueueItem.buffer ∨
      place ∈ s.pending.resolves ∨
      place ∈ (s.pending.sends ++ [PendingSend.mk item.buffer endpoints]).map
        PendingSend.buffer at hplace
    rw [queue_beginSend hqueue, List.map_append, List.mem_append, List.map_singleton,
      List.mem_singleton] at hplace
    rw [hqueue, List.map_cons, List.mem_cons]
    tauto
  | skipped s t item rest address results hqueue _ _ _ _ ih =>
    intro place hplace
    have hmem := ih hplace
    rw [mem_outgoing] at hmem ⊢
    change place ∈ (beginSend s).socket.sendqueue.queue.queue.map QueueItem.buffer ∨
      place ∈ s.pending.resolves ∨
      place ∈ s.pending.sends.map PendingSend.buffer at hmem
    rw [queue_beginSend hqueue] at hmem
    rw [hqueue, List.map_cons, List.mem_cons]
    tauto

theorem SendCase.outgoing_subset {P : Platform} {s t : UdpSession} {err : Option String}
    {place : ℕ} {endpoints : V4FirstIterator} (h : SendCase P s err place endpoints t) :
    t.outgoing ⊆ place :: s.outgoing := by
  cases h with
  | attempted endpoint rest _ =>
    intro other hother
    rw [mem_outgoing] at hother
    rw [List.mem_cons, mem_outgoing]
    change other ∈ s.socket.sendqueue.queue.queue.map QueueItem.buffer ∨
      other ∈ s.pending.resolves ∨
      other ∈ (s.pending.sends ++ [PendingSend.mk place rest]).map PendingSend.buffer at hother
    rw [List.map_append, List.mem_append, List.map_singleton, List.mem_singleton] at hother
    tauto
  | ended _ _ hpump =>
    exact fun other hother => List.mem_cons_of_mem _ (hpump.outgoing_subset hother)

/-! ### What the calls do to the queues -/

/-- The datagrams were offered to the send queue, all from the send buffer. -/
structure Offers (s t : UdpSession) (datagrams : List Datagram) : Prop where
  queue : ∃ r, t = { s with socket.sendqueue := r }
  taken : t.socket.sendqueue.ledger.taken = s.socket.sendqueue.ledger.taken
  offered : t.socket.sendqueue.ledger.offered.map (fun offer => offer.1.2) =
    s.socket.sendqueue.ledger.offered.map (fun offer => offer.1.2) ++ datagrams
  entries : ∀ entry ∈ t.socket.sendqueue.ledger.waiting,
    entry ∈ s.socket.sendqueue.ledger.waiting ∨ (entry.1.buffer = s.socket.sendBuffer ∧
      entry.2 ∈ datagrams ∧ entry.1.remoteHost = entry.2.host ∧
      entry.1.remotePort = entry.2.port)

/-- The datagrams that a broadcast of the send buffer consists of. -/
def drafts (s : UdpSession) (addrs : List String) (port : ℕ) : List Datagram :=
  addrs.map fun addr => ⟨(s.buffer s.socket.sendBuffer).data, addr, port⟩

theorem enqueue_offers (P : Platform) (s : UdpSession) (host : String) (port : ℕ) :
    Offers s (s.enqueue P host port).2 (s.drafts [host] port) := by
  obtain ⟨accepted, hpushed⟩ := s.socket.sendqueue.pushed_push
    (s.queueItem P s.socket.sendBuffer host port)
    ⟨(s.buffer s.socket.sendBuffer).data, host, port⟩
  refine ⟨⟨_, rfl⟩, hpushed.taken, ?_, ?_⟩
  · change ((s.socket.sendqueue.push _ _).2.ledger.offered).map _ = _
    rw [hpushed.offered, List.map_append]
    rfl
  · intro entry hentry
    rcases hpushed.mem_waiting hentry with hold | rfl
    · exact Or.inl hold
    · exact Or.inr ⟨rfl, List.mem_singleton_self _, rfl, rfl⟩

theorem enqueueAll_offers (P : Platform) (s : UdpSession) (port : ℕ) (addrs : List String) :
    Offers s (s.enqueueAll P port addrs).2 (s.drafts addrs port) := by
  induction addrs generalizing s with
  | nil => exact ⟨⟨_, rfl⟩, rfl, (List.append_nil _).symm, fun entry hentry => Or.inl hentry⟩
  | cons addr rest ih =>
    obtain ⟨⟨r, hfirst⟩, htaken, hoffered, hentries⟩ := s.enqueue_offers P addr port
    obtain ⟨⟨r', hlast⟩, htaken', hoffered', hentries'⟩ := ih (s.enqueue P addr port).2
    have hsame : (s.enqueue P addr port).2.drafts rest port = s.drafts rest port := rfl
    have hsplit : s.drafts (addr :: rest) port = s.drafts [addr] port ++ s.drafts rest port := rfl
    refine ⟨⟨r', ?_⟩, htaken'.trans htaken, ?_, ?_⟩
    · change ((s.enqueue P addr port).2.enqueueAll P port rest).2 = _
      rw [hlast, hfirst]
    · change List.map _
        ((s.enqueue P addr port).2.enqueueAll P port rest).2.socket.sendqueue.ledger.offered = _
      rw [hoffered', hoffered, hsame, hsplit, List.append_assoc]
    · intro entry hentry
      rw [hsplit]
      rcases hentries' entry hentry with hold | ⟨hplace, hmem, hrest⟩
      · rcases hentries entry hold with hold | ⟨hplace, hmem, hrest⟩
        · exact Or.inl hold
        · exact Or.inr ⟨hplace, List.mem_append_left _ hmem, hrest⟩
      · exact Or.inr ⟨hplace, List.mem_append_right _ hmem, hrest⟩

/-- A received datagram is stored in a new buffer and offered to the receive queue. -/
theorem storeDatagram_stored (P : Platform) (s : UdpSession) (bytes : List UInt8)
    (endpoint : Endpoint) : ∃ r accepted,
      s.storeDatagram P bytes endpoint =
        { s.allocate.setBuffer s.freshPlace ⟨bytes, 0⟩ with socket.receivequeue := r } ∧
      TrackedQueue.Pushed s.socket.receivequeue r
        (⟨P.sizeofQueueItem + bytes.length, s.freshPlace,
            P.toString endpoint.protocol endpoint.address, endpoint.port⟩,
          ⟨bytes, P.toString endpoint.protocol endpoint.address, endpoint.port⟩) accepted := by
  have hplace : s.freshPlace < s.allocate.buffers.length := by
    rw [length_allocate]
    exact Nat.lt_succ_self _
  have hbuffer : (s.allocate.setBuffer s.freshPlace (Buffer.new.write bytes)).buffer
      s.freshPlace = ⟨bytes, 0⟩ := buffer_setBuffer_self hplace _
  have hitem : (s.allocate.setBuffer s.freshPlace (Buffer.new.write bytes)).queueItem P
      s.freshPlace (P.toString endpoint.protocol endpoint.address) endpoint.port =
        ⟨P.sizeofQueueItem + bytes.length, s.freshPlace,
          P.toString endpoint.protocol endpoint.address, endpoint.port⟩ := by
    unfold queueItem
    rw [hbuffer]
    rfl
  obtain ⟨accepted, hpushed⟩ := s.socket.receivequeue.pushed_push
    ⟨P.sizeofQueueItem + bytes.length, s.freshPlace,
      P.toString endpoint.protocol endpoint.address, endpoint.port⟩
    ⟨bytes, P.toString endpoint.protocol endpoint.address, endpoint.port⟩
  refine ⟨_, accepted, ?_, hpushed⟩
  unfold storeDatagram
  simp only [hitem, hbuffer]
  rfl

theorem mem_queue (q : TrackedQueue) (place : ℕ) :
    place ∈ q.queue.queue.map QueueItem.buffer ↔
      ∃ entry ∈ q.ledger.waiting, entry.1.buffer = place := by
  rw [q.tracks, List.map_map, List.mem_map]
  rfl

theorem Offers.outgoing_subset {s t : UdpSession} {datagrams : List Datagram}
    (h : Offers s t datagrams) : t.outgoing ⊆ s.socket.sendBuffer :: s.outgoing := by
  intro place hplace
  rw [mem_outgoing, mem_queue] at hplace
  rw [List.mem_cons, mem_outgoing, mem_queue]
  have hpending : t.pending = s.pending := by
    obtain ⟨r, rfl⟩ := h.queue
    rfl
  rw [hpending] at hplace
  rcases hplace with ⟨entry, hentry, rfl⟩ | hpend
  · rcases h.entries entry hentry with hold | ⟨hdraft, -⟩
    · exact Or.inr (Or.inl ⟨entry, hold, rfl⟩)
    · exact Or.inl hdraft
  · exact Or.inr (Or.inr hpend)

theorem dropped_buffers {q r : TrackedQueue} (h : TrackedQueue.Dropped q r) :
    (r.queue.queue.map QueueItem.buffer).Sublist (q.queue.queue.map QueueItem.buffer) := by
  obtain ⟨count, hwaiting⟩ := h.waiting
  rw [r.tracks, q.tracks, hwaiting, List.map_map, List.map_map]
  exact (List.drop_sublist count q.ledger.waiting).map _

/-! ### Every step keeps the parts apart -/

theorem owned_create (ipv4Open ipv6Open : Bool) : (create ipv4Open ipv6Open).Owned := by
  refine ⟨?_, ?_, ?_, ?_⟩ <;> simp [create, outgoing, incoming, TrackedQueue.new,
    DatagramQueue.new]

theorem owned_bind (ipv4Open ipv6Open : Bool) : (bind ipv4Open ipv6Open).Owned := by
  have hcreate := owned_create ipv4Open ipv6Open
  cases ipv4Open <;> cases ipv6Open <;> exact hcreate

theorem Owned.setBuffer {s : UdpSession} (h : s.Owned) (place : ℕ) (b : Buffer) :
    (s.setBuffer place b).Owned := by
  unfold Owned at h ⊢
  rw [length_setBuffer]
  exact h

theorem Owned.weaken {s t : UdpSession} (h : s.Owned) (hbuffers : t.buffers = s.buffers)
    (hdraft : t.socket.sendBuffer = s.socket.sendBuffer)
    (hexposed : t.socket.receiveBuffer = s.socket.receiveBuffer)
    (hout : t.outgoing ⊆ s.outgoing) (hin : t.incoming.Sublist s.incoming) : t.Owned := by
  unfold Owned
  rw [hbuffers, hdraft, hexposed]
  exact Parted.weaken h hout hin

theorem Owned.broadcast {s : UdpSession} (h : s.Owned) (P : Platform) (addrs : List String)
    (port : ℕ) : (s.broadcast P addrs port).2.Owned := by
  have hoffers := s.enqueueAll_offers P port addrs
  have hsubset := hoffers.outgoing_subset
  obtain ⟨r, hqueue⟩ := hoffers.queue
  change ((s.enqueueAll P port addrs).2.flush P).Owned
  generalize (s.enqueueAll P port addrs).2 = u at hsubset hqueue
  have hkept : ∀ t, Kept u t → t.outgoing ⊆ u.outgoing →
      UdpSession.Owned { t.allocate with socket.sendBuffer := t.freshPlace } := by
    intro t hkept hout
    have hrenew := Parted.renew h (List.Subset.trans hout hsubset)
    unfold Owned
    have hin : incoming { t.allocate with socket.sendBuffer := t.freshPlace } = s.incoming := by
      change t.socket.receivequeue.queue.queue.map _ = _
      rw [hkept.receivequeue, hqueue]
      rfl
    have hlength : t.buffers.length = s.buffers.length := by
      rw [hkept.buffers, hqueue]
    have hexposed : t.socket.receiveBuffer = s.socket.receiveBuffer := by
      rw [hkept.receiveBuffer, hqueue]
    rw [hin]
    change Parted t.allocate.buffers.length t.buffers.length t.socket.receiveBuffer t.outgoing _
    rw [length_allocate, hlength, hexposed]
    exact hrenew
  unfold flush
  cases u.socket.asyncSendInProgress with
  | true => exact hkept u (Kept.refl u) (List.Subset.refl _)
  | false =>
    exact hkept _ (asyncSend_pumped P u).kept (asyncSend_pumped P u).outgoing_subset

theorem Owned.dropped {s : UdpSession} (h : s.Owned) {r : TrackedQueue}
    (hdropped : TrackedQueue.Dropped s.socket.sendqueue r) :
    UdpSession.Owned { s with socket.sendqueue := r } := by
  refine Owned.weaken h rfl rfl rfl ?_ (List.Sublist.refl _)
  intro place hplace
  rw [mem_outgoing] at hplace ⊢
  rcases hplace with hqueue | hpending
  · exact Or.inl ((dropped_buffers hdropped).subset hqueue)
  · exact Or.inr hpending

theorem Owned.setSendbufferLimit {s : UdpSession} (h : s.Owned) (maxSize : ℕ) :
    (s.setSendbufferLimit maxSize).Owned :=
  h.dropped (s.socket.sendqueue.dropped_setMemSizeLimit maxSize)

/-- Both queues are emptied. -/
theorem Owned.cleared {s : UdpSession} (h : s.Owned) : UdpSession.Owned { s with
    socket.sendqueue := s.socket.sendqueue.clear
    socket.receivequeue := s.socket.receivequeue.clear } := by
  have hsend := dropped_buffers s.socket.sendqueue.dropped_clear
  have hreceive := dropped_buffers s.socket.receivequeue.dropped_clear
  refine Owned.weaken h rfl rfl rfl ?_ ?_
  · intro place hplace
    rw [mem_outgoing] at hplace ⊢
    rcases hplace with hqueue | hpending
    · exact Or.inl (hsend.subset hqueue)
    · exact Or.inr hpending
  · exact hreceive

theorem Owned.close {s : UdpSession} (h : s.Owned) : s.close.Owned :=
  (h.cleared.setBuffer _ _).setBuffer _ _

theorem Owned.receive {s : UdpSession} (h : s.Owned) : s.receive.2.Owned := by
  unfold UdpSession.receive
  cases hpeek : s.socket.receivequeue.queue.peek with
  | none => exact h.setBuffer _ _
  | some item =>
    obtain ⟨rest, hqueue⟩ := List.head?_eq_some_iff.mp hpeek
    unfold Owned incoming at h ⊢
    rw [hqueue] at h
    change Parted s.buffers.length s.socket.sendBuffer item.buffer s.outgoing
      (s.socket.receivequeue.pop.queue.queue.map QueueItem.buffer)
    rw [s.socket.receivequeue.queue_queue_pop, hqueue]
    exact h.expose

theorem Owned.storeDatagram {s : UdpSession} (h : s.Owned) (P : Platform) (bytes : List UInt8)
    (endpoint : Endpoint) : (s.storeDatagram P bytes endpoint).Owned := by
  obtain ⟨r, accepted, hstored, hpushed⟩ := s.storeDatagram_stored P bytes endpoint
  obtain ⟨count, hwaiting⟩ := hpushed.waiting
  have hsub : ((s.socket.receivequeue.ledger.waiting.drop count).map
      fun entry => entry.1.buffer).Sublist s.incoming := by
    unfold incoming
    rw [s.socket.receivequeue.tracks, List.map_map]
    exact (List.drop_sublist count _).map _
  have harrive := Parted.arrive h hsub
  have hincoming : r.queue.queue.map QueueItem.buffer =
      (s.socket.receivequeue.ledger.waiting.drop count).map (fun entry => entry.1.buffer) ++
        if accepted then [s.buffers.length] else [] := by
    rw [r.tracks, List.map_map, hwaiting, List.map_append]
    cases accepted <;> rfl
  rw [hstored]
  unfold Owned incoming
  change Parted (s.allocate.setBuffer _ _).buffers.length s.socket.sendBuffer
    s.socket.receiveBuffer s.outgoing (r.queue.queue.map QueueItem.buffer)
  rw [hincoming, length_setBuffer, length_allocate]
  cases accepted with
  | true => exact harrive
  | false =>
    rw [if_neg (by decide), List.append_nil]
    exact harrive.weaken (List.Subset.refl _) (List.sublist_append_left _ _)

theorem Owned.sendCase {s u t : UdpSession} {P : Platform} {err : Option String} {place : ℕ}
    {endpoints : V4FirstIterator} (h : s.Owned) (hkept : Kept s u)
    (hout : place :: u.outgoing ⊆ s.outgoing) (hcase : SendCase P u err place endpoints t) :
    t.Owned := by
  have hall := hkept.trans hcase.kept
  apply h.weaken hall.buffers hall.sendBuffer hall.receiveBuffer
  · exact List.Subset.trans hcase.outgoing_subset hout
  · have hincoming : t.incoming = s.incoming := by
      unfold incoming
      rw [hall.receivequeue]
    simpa only [hincoming] using List.Sublist.refl _

theorem Owned.handleReceive {s : UdpSession} (h : s.Owned) (P : Platform)
    (err : Option String) (bytesTransferred : ℕ) (endpoint : Endpoint) (protocol : Protocol)
    (recvbuffer : List UInt8) :
    (s.handleReceive P err bytesTransferred endpoint protocol recvbuffer).Owned := by
  unfold UdpSession.handleReceive
  cases err with
  | none =>
    have hstored := h.storeDatagram P (recvbuffer.take bytesTransferred) endpoint
    simp only
    split
    · exact hstored
    · exact hstored
  | some message =>
    simp only
    split
    · exact h
    · exact h

/-- The operation that completes is no longer pending, so its buffer belongs to the
handler. -/
theorem resolved_outgoing {s : UdpSession} {index : ℕ} (h : index < s.pending.resolves.length)
    (results : List Endpoint) :
    s.pending.resolves.getD index 0 ::
      (noteResults { s with pending.resolves := s.pending.resolves.eraseIdx index }
        results).outgoing ⊆ s.outgoing := by
  intro place hplace
  rw [mem_outgoing]
  rcases List.mem_cons.mp hplace with rfl | hrest
  · rw [List.getD_eq_getElem?_getD, List.getElem?_eq_getElem h, Option.getD_some]
    exact Or.inr (Or.inl (List.getElem_mem h))
  · rw [mem_outgoing] at hrest
    rcases hrest with hqueue | hresolve | hsend
    · exact Or.inl hqueue
    · exact Or.inr (Or.inl (List.mem_of_mem_eraseIdx hresolve))
    · exact Or.inr (Or.inr hsend)

theorem sent_outgoing {s : UdpSession} {index : ℕ} (h : index < s.pending.sends.length)
    (error : Option String) :
    (s.pending.sends.getD index ⟨0, ⟨[], []⟩⟩).buffer ::
      (UdpCompletion.noteOutcome
        { s with pending.sends := s.pending.sends.eraseIdx index } error).outgoing ⊆
      s.outgoing := by
  intro place hplace
  rw [mem_outgoing]
  rcases List.mem_cons.mp hplace with rfl | hrest
  · rw [List.getD_eq_getElem?_getD, List.getElem?_eq_getElem h, Option.getD_some]
    exact Or.inr (Or.inr (List.mem_map_of_mem (List.getElem_mem h)))
  · rw [mem_outgoing] at hrest
    rcases hrest with hqueue | hresolve | hsend
    · exact Or.inl hqueue
    · exact Or.inr (Or.inl hresolve)
    · obtain ⟨operation, hmem, rfl⟩ := List.mem_map.mp hsend
      exact Or.inr (Or.inr (List.mem_map_of_mem (List.mem_of_mem_eraseIdx hmem)))

/-- What a step of the pipeline is: the handler of an operation that was pending. -/
theorem perform_resolve_case (P : Platform) (s : UdpSession) (index : ℕ)
    (error : Option String) (results : List Endpoint) :
    SendCase P
      (noteResults { s with pending.resolves := s.pending.resolves.eraseIdx index } results)
      (some (error.getD hostNotFound)) (s.pending.resolves.getD index 0) (.new results)
      (UdpCompletion.perform P s (.resolve index error results)) := by
  unfold UdpCompletion.perform
  simp only
  rw [handleResolve]
  exact handleSend_case P _ _ _ _

theorem perform_send_case (P : Platform) (s : UdpSession) (index : ℕ) (error : Option String) :
    SendCase P
      (UdpCompletion.noteOutcome
        { s with pending.sends := s.pending.sends.eraseIdx index } error)
      error (s.pending.sends.getD index ⟨0, ⟨[], []⟩⟩).buffer
      (s.pending.sends.getD index ⟨0, ⟨[], []⟩⟩).endpoints
      (UdpCompletion.perform P s (.send index error)) :=
  handleSend_case P _ _ _ _

theorem kept_resolved (s : UdpSession) (index : ℕ) (results : List Endpoint) :
    Kept s (noteResults { s with pending.resolves := s.pending.resolves.eraseIdx index }
      results) :=
  ⟨rfl, rfl, rfl, rfl, rfl, rfl, rfl, rfl, rfl, rfl, rfl⟩

theorem kept_sent (s : UdpSession) (index : ℕ) (error : Option String) :
    Kept s (UdpCompletion.noteOutcome
      { s with pending.sends := s.pending.sends.eraseIdx index } error) :=
  ⟨rfl, rfl, rfl, rfl, rfl, rfl, rfl, rfl, rfl, rfl, rfl⟩

theorem Owned.step {s t : UdpSession} (h : s.Owned) {P : Platform} {e : UdpEvent}
    (hstep : step P s e = some t) : t.Owned := by
  obtain ⟨henabled, rfl⟩ := (step_eq_some_iff P s t e).mp hstep
  cases e with
  | call c =>
    cases c with
    | write data => exact h.setBuffer _ _
    | send host port => exact h.broadcast P [host] port
    | broadcast addrs port => exact h.broadcast P addrs port
    | setSendbufferLimit maxSize => exact h.setSendbufferLimit maxSize
    | close => exact h.close
    | receive => exact h.receive
    | read size => exact h.setBuffer _ _
    | readString size => exact h.setBuffer _ _
    | setReadpos pos => exact h.setBuffer _ _
  | completion c =>
    cases c with
    | resolve index error results =>
      exact h.sendCase (kept_resolved s index results) (resolved_outgoing henabled results)
        (perform_resolve_case P s index error results)
    | send index error =>
      exact h.sendCase (kept_sent s index error) (sent_outgoing henabled error)
        (perform_send_case P s index error)
    | receive index error bytes endpoint =>
      have hrest : UdpSession.Owned
          { s with pending.receives := s.pending.receives.eraseIdx index } := h
      exact hrest.handleReceive P error bytes.length endpoint _ _

end UdpSession

end FaucetNetworking
