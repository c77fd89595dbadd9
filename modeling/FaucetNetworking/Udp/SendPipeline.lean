import FaucetNetworking.Udp.Ownership

/-!
The sending direction of a UDP socket. At most one datagram is being resolved or
sent; the datagrams leave the queue in their order; and what is handed over for a
datagram is what the client had written for it, at the endpoints that can be tried.
-/
namespace FaucetNetworking

/-- All that was to be done for a datagram has been done. -/
structure Transmission.Finished (t : Transmission) (usable : List Endpoint) : Prop where
  payloads : ∀ attempt ∈ t.attempts, attempt.2 = t.datagram.payload
  answered : t.attempts.length = t.outcomes.length
  tried : t.attempts.map Prod.fst <+: usable
  failed_before : ∀ outcome ∈ t.outcomes.dropLast, outcome ≠ none
  ended : t.outcomes.getLast? = some none ∨
    (t.attempts.map Prod.fst = usable ∧ ∀ outcome ∈ t.outcomes, outcome ≠ none)

/-- The last attempt has not been answered, and all earlier ones have failed. -/
structure Transmission.Underway (t : Transmission) (usable rest : List Endpoint) : Prop where
  payloads : ∀ attempt ∈ t.attempts, attempt.2 = t.datagram.payload
  answered : t.attempts.length = t.outcomes.length + 1
  failed : ∀ outcome ∈ t.outcomes, outcome ≠ none
  order : t.attempts.map Prod.fst ++ rest = usable

/-- Every attempt has been answered, the last one with the given error. -/
structure Transmission.Answered (t : Transmission) (err : Option String)
    (usable rest : List Endpoint) : Prop where
  payloads : ∀ attempt ∈ t.attempts, attempt.2 = t.datagram.payload
  answered : t.attempts.length = t.outcomes.length
  failed_before : ∀ outcome ∈ t.outcomes.dropLast, outcome ≠ none
  failed : err ≠ none → ∀ outcome ∈ t.outcomes, outcome ≠ none
  succeeded : err = none → t.outcomes.getLast? = some none
  order : t.attempts.map Prod.fst ++ rest = usable

theorem Transmission.Answered.finished {t : Transmission} {err : Option String}
    {usable rest : List Endpoint} (h : t.Answered err usable rest)
    (hrest : err ≠ none → rest = []) : t.Finished usable := by
  refine ⟨h.payloads, h.answered, ⟨rest, h.order⟩, h.failed_before, ?_⟩
  by_cases herr : err = none
  · exact Or.inl (h.succeeded herr)
  · right
    have horder := h.order
    rw [hrest herr, List.append_nil] at horder
    exact ⟨horder, h.failed herr⟩

/-- A datagram for which nothing has been tried after its resolution. -/
theorem Transmission.answered_resolved (datagram : Datagram) (results : List Endpoint)
    (message : String) (usable : List Endpoint) :
    Transmission.Answered ⟨datagram, results, [], []⟩ (some message) usable usable where
  payloads := nofun
  answered := rfl
  failed_before := nofun
  failed := nofun
  succeeded := nofun
  order := rfl

theorem Transmission.Underway.answer {t : Transmission} {usable rest : List Endpoint}
    (h : t.Underway usable rest) (err : Option String) :
    Transmission.Answered { t with outcomes := t.outcomes ++ [err] } err usable rest where
  payloads := h.payloads
  answered := by
    rw [h.answered, List.length_append]
    rfl
  failed_before := by
    rw [List.dropLast_concat]
    exact h.failed
  failed := by
    intro herr outcome houtcome
    rcases List.mem_append.mp houtcome with hold | hnew
    · exact h.failed outcome hold
    · rwa [List.mem_singleton.mp hnew]
  succeeded := by
    rintro rfl
    exact List.getLast?_concat
  order := h.order

namespace UdpSession

/-- The buffer holds the payload of the datagram, and nothing has been read of it. -/
def Carries (s : UdpSession) (place : ℕ) (datagram : Datagram) : Prop :=
  place < s.buffers.length ∧ s.buffer place = ⟨datagram.payload, 0⟩

def CarriesEntry (s : UdpSession) (entry : QueueItem × Datagram) : Prop :=
  s.Carries entry.1.buffer entry.2 ∧ entry.1.remoteHost = entry.2.host ∧
    entry.1.remotePort = entry.2.port

/-- What is being done for the current datagram. -/
inductive Stage (s : UdpSession) : Prop where
  | idle : s.socket.asyncSendInProgress = false → s.pending.resolves = [] →
      s.pending.sends = [] → s.history.current = none → Stage s
  | resolving (place : ℕ) (datagram : Datagram) : s.socket.asyncSendInProgress = true →
      s.pending.resolves = [place] → s.pending.sends = [] →
      s.history.current = some ⟨datagram, [], [], []⟩ → s.Carries place datagram → Stage s
  | sending (operation : PendingSend) (t : Transmission) :
      s.socket.asyncSendInProgress = true → s.pending.resolves = [] →
      s.pending.sends = [operation] → s.history.current = some t →
      s.Carries operation.buffer t.datagram →
      t.Underway (s.usable t.results) (s.usableRest operation.endpoints) → Stage s

/-- A resolve can only complete while the current datagram waits for its addresses. -/
theorem Stage.of_resolve {s : UdpSession} (h : s.Stage) {index : ℕ}
    (hindex : index < s.pending.resolves.length) : ∃ place datagram, index = 0 ∧
      s.socket.asyncSendInProgress = true ∧ s.pending.resolves = [place] ∧
      s.pending.sends = [] ∧ s.history.current = some ⟨datagram, [], [], []⟩ ∧
      s.Carries place datagram := by
  cases h with
  | idle _ hresolves _ _ | sending _ _ _ hresolves _ _ _ _ =>
    rw [hresolves] at hindex
    exact absurd hindex (Nat.not_lt_zero _)
  | resolving place datagram hflag hresolves hsends hcurrent hcarries =>
    rw [hresolves, List.length_singleton] at hindex
    exact ⟨place, datagram, Nat.lt_one_iff.mp hindex, hflag, hresolves, hsends, hcurrent,
      hcarries⟩

/-- A send can only complete while it is the one of the current datagram. -/
theorem Stage.of_send {s : UdpSession} (h : s.Stage) {index : ℕ}
    (hindex : index < s.pending.sends.length) : ∃ operation t, index = 0 ∧
      s.socket.asyncSendInProgress = true ∧ s.pending.resolves = [] ∧
      s.pending.sends = [operation] ∧ s.history.current = some t ∧
      s.Carries operation.buffer t.datagram ∧
      t.Underway (s.usable t.results) (s.usableRest operation.endpoints) := by
  cases h with
  | idle _ _ hsends _ | resolving _ _ _ _ hsends _ _ =>
    rw [hsends] at hindex
    exact absurd hindex (Nat.not_lt_zero _)
  | sending operation t hflag hresolves hsends hcurrent hcarries hunderway =>
    rw [hsends, List.length_singleton] at hindex
    exact ⟨operation, t, Nat.lt_one_iff.mp hindex, hflag, hresolves, hsends, hcurrent, hcarries,
      hunderway⟩

/-- What is recorded agrees with the queue. -/
structure Books (s : UdpSession) : Prop where
  entries : ∀ entry ∈ s.socket.sendqueue.ledger.waiting, s.CarriesEntry entry
  processed : s.socket.sendqueue.ledger.taken.map Prod.snd =
    (s.history.completed ++ s.history.current.toList).map Transmission.datagram
  finished : ∀ t ∈ s.history.completed, t.Finished (s.usable t.results)

structure Flow (s : UdpSession) : Prop extends Books s where
  stage : s.Stage

/-- A state in which no datagram is left behind while nothing is being done. -/
def Drained (s : UdpSession) : Prop :=
  s.socket.asyncSendInProgress = false → s.socket.sendqueue.queue.queue = []

theorem Kept.carries {s t : UdpSession} (h : Kept s t) {place : ℕ} {datagram : Datagram}
    (hcarries : s.Carries place datagram) : t.Carries place datagram :=
  ⟨h.buffers ▸ hcarries.1, (h.buffer place).trans hcarries.2⟩

theorem Kept.carriesEntry {s t : UdpSession} (h : Kept s t) {entry : QueueItem × Datagram}
    (hentry : s.CarriesEntry entry) : t.CarriesEntry entry :=
  ⟨h.carries hentry.1, hentry.2⟩

theorem Kept.usable {s t : UdpSession} (h : Kept s t) : t.usable = s.usable := by
  funext results
  unfold UdpSession.usable
  rw [h.isOpen]

theorem Kept.usableRest {s t : UdpSession} (h : Kept s t) : t.usableRest = s.usableRest := by
  funext endpoints
  unfold UdpSession.usableRest
  rw [h.isOpen]

/-! ### One call of asyncSend -/

/-- The record of a datagram that has just been taken out of the queue. -/
theorem Books.beginSend {s : UdpSession} (h : s.Books) (hcurrent : s.history.current = none)
    {item : QueueItem} {rest : List QueueItem}
    (hqueue : s.socket.sendqueue.queue.queue = item :: rest) :
    ∃ datagram, (beginSend s).Books ∧
      (beginSend s).history.current = some ⟨datagram, [], [], []⟩ ∧
      (beginSend s).CarriesEntry (item, datagram) := by
  obtain ⟨datagram, others, hwaiting, hpop, htaken, -⟩ :=
    TrackedQueue.pop_of_cons hqueue
  have hkept := kept_beginSend s
  have hbegun : (UdpSession.beginSend s).history.current = some ⟨datagram, [], [], []⟩ := by
    change s.socket.sendqueue.ledger.waiting.head?.map _ = _
    rw [hwaiting]
    rfl
  have hmem : ∀ entry ∈ (item, datagram) :: others, s.CarriesEntry entry := by
    rw [← hwaiting]
    exact h.entries
  refine ⟨datagram, ⟨?_, ?_, ?_⟩, hbegun, ?_⟩
  · intro entry hentry
    change entry ∈ s.socket.sendqueue.pop.ledger.waiting at hentry
    rw [hpop] at hentry
    exact hkept.carriesEntry (hmem entry (List.mem_cons_of_mem _ hentry))
  · rw [hbegun]
    change s.socket.sendqueue.pop.ledger.taken.map _ = (s.history.completed ++ _).map _
    rw [htaken, List.map_append, h.processed, hcurrent]
    simp only [Option.toList_none, List.append_nil, Option.toList_some, List.map_append,
      List.map_cons, List.map_nil]
  · intro t ht
    rw [hkept.usable]
    exact h.finished t ht
  · exact hkept.carriesEntry (hmem _ List.mem_cons_self)

/-- The current transmission is over. -/
theorem Books.endSend {s : UdpSession} (h : s.Books) {t : Transmission}
    (hcurrent : s.history.current = some t) (hfinished : t.Finished (s.usable t.results)) :
    (endSend s).Books := by
  refine ⟨?_, ?_, ?_⟩
  · exact fun entry hentry => (kept_endSend s).carriesEntry (h.entries entry hentry)
  · change s.socket.sendqueue.ledger.taken.map _ =
      (s.history.completed ++ s.history.current.toList ++ []).map _
    rw [List.append_nil]
    exact h.processed
  · intro u hu
    change u ∈ s.history.completed ++ s.history.current.toList at hu
    rw [hcurrent] at hu
    rcases List.mem_append.mp hu with hold | hnew
    · exact h.finished u hold
    · rw [List.mem_singleton.mp hnew]
      exact hfinished

/-- Only the record of the current datagram changes. -/
theorem Books.current {s u : UdpSession} (h : s.Books) (hkept : Kept s u)
    (hqueue : u.socket.sendqueue = s.socket.sendqueue)
    (hcompleted : u.history.completed = s.history.completed) {t t' : Transmission}
    (hcurrent : s.history.current = some t) (hcurrent' : u.history.current = some t')
    (hsame : t'.datagram = t.datagram) : u.Books := by
  refine ⟨?_, ?_, ?_⟩
  · rw [hqueue]
    exact fun entry hentry => hkept.carriesEntry (h.entries entry hentry)
  · rw [hqueue, h.processed, hcompleted, hcurrent, hcurrent']
    simp only [Option.toList_some, List.map_append, List.map_cons, List.map_nil, hsame]
  · rw [hcompleted, hkept.usable]
    exact h.finished

/-- A new attempt is on its way. -/
theorem flow_asyncSendTo {s : UdpSession} (h : s.Books) {t : Transmission} {err : Option String}
    {place : ℕ} {endpoint : Endpoint} {endpoints rest : V4FirstIterator}
    (hflag : s.socket.asyncSendInProgress = true) (hresolves : s.pending.resolves = [])
    (hsends : s.pending.sends = []) (hcurrent : s.history.current = some t)
    (hcarries : s.Carries place t.datagram)
    (hanswered : t.Answered err (s.usable t.results) (s.usableRest endpoints))
    (hattempt : s.nextAttempt err endpoints = some (endpoint, rest)) :
    (asyncSendTo s endpoint place rest).Flow := by
  obtain ⟨herr, hrest⟩ := nextAttempt_eq_some hattempt
  have hkept := kept_asyncSendTo s endpoint place rest
  have hcurrent' : (asyncSendTo s endpoint place rest).history.current =
      some { t with attempts := t.attempts ++ [(endpoint, (s.buffer place).data)] } := by
    change s.history.current.map _ = _
    rw [hcurrent]
    rfl
  refine ⟨h.current hkept rfl rfl hcurrent hcurrent' rfl, ?_⟩
  have hsends' : (asyncSendTo s endpoint place rest).pending.sends = [⟨place, rest⟩] := by
    change s.pending.sends ++ _ = _
    rw [hsends]
    rfl
  refine .sending ⟨place, rest⟩ _ hflag hresolves hsends' hcurrent' (hkept.carries hcarries) ?_
  rw [hkept.usable, hkept.usableRest]
  refine ⟨?_, ?_, hanswered.failed herr, ?_⟩
  · intro attempt hmem
    rcases List.mem_append.mp hmem with hold | hnew
    · exact hanswered.payloads attempt hold
    · rw [List.mem_singleton.mp hnew]
      exact congrArg Buffer.data hcarries.2
  · rw [List.length_append, hanswered.answered]
    rfl
  · rw [List.map_append, List.append_assoc, ← hanswered.order, hrest]
    rfl

theorem Pumped.flow {P : Platform} {s t : UdpSession} (h : Pumped P s t) :
    s.Books → s.pending.resolves = [] → s.pending.sends = [] → s.history.current = none →
      s.socket.asyncSendInProgress = false → t.Flow ∧ t.Drained := by
  induction h with
  | empty s hqueue =>
    intro hbooks hresolves hsends hcurrent hflag
    exact ⟨⟨hbooks, .idle hflag hresolves hsends hcurrent⟩, fun _ => hqueue⟩
  | resolving s item rest hqueue _ =>
    intro hbooks hresolves hsends hcurrent hflag
    obtain ⟨datagram, hbooks', hcurrent', hentry⟩ := hbooks.beginSend hcurrent hqueue
    have hkept := kept_asyncResolve (beginSend s) item.buffer
    refine ⟨⟨hbooks'.current hkept rfl rfl hcurrent' hcurrent' rfl, ?_⟩, nofun⟩
    have hresolves' : (asyncResolve (beginSend s) item.buffer).pending.resolves =
        [item.buffer] := by
      change s.pending.resolves ++ _ = _
      rw [hresolves]
      rfl
    exact .resolving item.buffer datagram rfl hresolves' hsends hcurrent'
      (hkept.carries hentry.1)
  | sending s item rest address endpoint endpoints results hqueue _ _ hattempt =>
    intro hbooks hresolves hsends hcurrent hflag
    obtain ⟨datagram, hbooks', hcurrent', hentry⟩ := hbooks.beginSend hcurrent hqueue
    have hkept := kept_noteResults (beginSend s) results
    have hcurrent'' : (noteResults (beginSend s) results).history.current =
        some ⟨datagram, results, [], []⟩ := by
      change (beginSend s).history.current.map _ = _
      rw [hcurrent']
      rfl
    refine ⟨?_, nofun⟩
    have hanswered : Transmission.Answered ⟨datagram, results, [], []⟩ (some hostNotFound)
        ((noteResults (beginSend s) results).usable results)
        ((noteResults (beginSend s) results).usableRest (.new results)) := by
      rw [usableRest_new]
      exact Transmission.answered_resolved datagram results hostNotFound _
    exact flow_asyncSendTo (hbooks'.current hkept rfl rfl hcurrent' hcurrent'' rfl) rfl hresolves
      hsends hcurrent'' (hkept.carries hentry.1) hanswered hattempt
  | skipped s t item rest address results hqueue _ _ hattempt _ ih =>
    intro hbooks hresolves hsends hcurrent hflag
    obtain ⟨datagram, hbooks', hcurrent', hentry⟩ := hbooks.beginSend hcurrent hqueue
    have hkept := kept_noteResults (beginSend s) results
    have hcurrent'' : (noteResults (beginSend s) results).history.current =
        some ⟨datagram, results, [], []⟩ := by
      change (beginSend s).history.current.map _ = _
      rw [hcurrent']
      rfl
    have hrest := nextAttempt_eq_none hattempt
    rw [usableRest_new] at hrest
    have hfinished := (Transmission.answered_resolved datagram results hostNotFound
      ((noteResults (beginSend s) results).usable results)).finished fun _ => hrest
    exact ih ((hbooks'.current hkept rfl rfl hcurrent' hcurrent'' rfl).endSend hcurrent''
      hfinished) hresolves hsends rfl rfl

/-- The handler of the operation that was pending for the current datagram. -/
theorem SendCase.flow {P : Platform} {s r : UdpSession} {err : Option String} {place : ℕ}
    {endpoints : V4FirstIterator} {t : Transmission} (h : s.Books)
    (hflag : s.socket.asyncSendInProgress = true) (hresolves : s.pending.resolves = [])
    (hsends : s.pending.sends = []) (hcurrent : s.history.current = some t)
    (hcarries : s.Carries place t.datagram)
    (hanswered : t.Answered err (s.usable t.results) (s.usableRest endpoints))
    (hcase : SendCase P s err place endpoints r) : r.Flow ∧ r.Drained := by
  cases hcase with
  | attempted endpoint rest hattempt =>
    refine ⟨flow_asyncSendTo h hflag hresolves hsends hcurrent hcarries hanswered hattempt, ?_⟩
    intro hidle
    change s.socket.asyncSendInProgress = false at hidle
    rw [hflag] at hidle
    contradiction
  | ended _ hnone hpump =>
    have hrest : err ≠ none → s.usableRest endpoints = [] := by
      intro herr
      obtain ⟨message, rfl⟩ := Option.ne_none_iff_exists'.mp herr
      exact nextAttempt_eq_none hnone
    exact hpump.flow (h.endSend hcurrent (hanswered.finished hrest)) hresolves hsends rfl rfl

/-! ### The calls of the client -/

/-- Two sessions with the same send pipeline, up to the contents of the buffers. -/
structure SameSending (s t : UdpSession) : Prop where
  sendqueue : t.socket.sendqueue = s.socket.sendqueue
  asyncSendInProgress : t.socket.asyncSendInProgress = s.socket.asyncSendInProgress
  isOpen : t.isOpen = s.isOpen
  resolves : t.pending.resolves = s.pending.resolves
  sends : t.pending.sends = s.pending.sends
  completed : t.history.completed = s.history.completed
  current : t.history.current = s.history.current

theorem SameSending.usable {s t : UdpSession} (h : SameSending s t) : t.usable = s.usable := by
  funext results
  unfold UdpSession.usable
  rw [h.isOpen]

theorem SameSending.usableRest {s t : UdpSession} (h : SameSending s t) :
    t.usableRest = s.usableRest := by
  funext endpoints
  unfold UdpSession.usableRest
  rw [h.isOpen]

/-- The books are about the buffers of the queued items only. -/
theorem Books.transport {s t : UdpSession} (h : s.Books) (hsame : SameSending s t)
    (hcarries : ∀ place datagram, place ∈ s.outgoing → s.Carries place datagram →
      t.Carries place datagram) : t.Books := by
  refine ⟨?_, ?_, ?_⟩
  · rw [hsame.sendqueue]
    intro entry hentry
    have hplace : entry.1.buffer ∈ s.outgoing :=
      (s.mem_outgoing _).mpr (Or.inl ((mem_queue _ _).mpr ⟨entry, hentry, rfl⟩))
    obtain ⟨hcarried, haddress⟩ := h.entries entry hentry
    exact ⟨hcarries _ _ hplace hcarried, haddress⟩
  · rw [hsame.sendqueue, hsame.completed, hsame.current]
    exact h.processed
  · rw [hsame.completed, hsame.usable]
    exact h.finished

/-- The pipeline does not notice changes of other buffers than its own. -/
theorem Flow.transport {s t : UdpSession} (h : s.Flow) (hsame : SameSending s t)
    (hcarries : ∀ place datagram, place ∈ s.outgoing → s.Carries place datagram →
      t.Carries place datagram) : t.Flow := by
  refine ⟨h.toBooks.transport hsame hcarries, ?_⟩
  cases h.stage with
  | idle hflag hresolves hsends hcurrent =>
    exact .idle (hsame.asyncSendInProgress.trans hflag) (hsame.resolves.trans hresolves)
      (hsame.sends.trans hsends) (hsame.current.trans hcurrent)
  | resolving place datagram hflag hresolves hsends hcurrent hcarried =>
    have hplace : place ∈ s.outgoing := by
      rw [mem_outgoing, hresolves]
      exact Or.inr (Or.inl List.mem_cons_self)
    exact .resolving place datagram (hsame.asyncSendInProgress.trans hflag)
      (hsame.resolves.trans hresolves) (hsame.sends.trans hsends)
      (hsame.current.trans hcurrent) (hcarries _ _ hplace hcarried)
  | sending operation u hflag hresolves hsends hcurrent hcarried hunderway =>
    have hplace : operation.buffer ∈ s.outgoing := by
      rw [mem_outgoing, hsends]
      exact Or.inr (Or.inr List.mem_cons_self)
    refine .sending operation u (hsame.asyncSendInProgress.trans hflag)
      (hsame.resolves.trans hresolves) (hsame.sends.trans hsends)
      (hsame.current.trans hcurrent) (hcarries _ _ hplace hcarried) ?_
    rwa [hsame.usable, hsame.usableRest]

theorem Carries.setBuffer {s : UdpSession} {place other : ℕ} {datagram : Datagram}
    (h : s.Carries place datagram) (hne : place ≠ other) (b : Buffer) :
    (s.setBuffer other b).Carries place datagram :=
  ⟨by rw [length_setBuffer]; exact h.1, (buffer_setBuffer_of_ne s hne b).trans h.2⟩

theorem Carries.allocate {s : UdpSession} {place : ℕ} {datagram : Datagram}
    (h : s.Carries place datagram) : s.allocate.Carries place datagram :=
  ⟨by rw [length_allocate]; exact Nat.lt_succ_of_lt h.1, (buffer_allocate h.1).trans h.2⟩

theorem Owned.draft_not_outgoing {s : UdpSession} (h : s.Owned) {place : ℕ}
    (hplace : place ∈ s.outgoing) : place ≠ s.socket.sendBuffer :=
  fun heq => h.apart place hplace (heq ▸ List.mem_cons_self)

theorem Owned.exposed_not_outgoing {s : UdpSession} (h : s.Owned) {place : ℕ}
    (hplace : place ∈ s.outgoing) : place ≠ s.socket.receiveBuffer :=
  fun heq => h.apart place hplace (heq ▸ List.mem_cons_of_mem _ List.mem_cons_self)

/-- The client changes one of its own two buffers. -/
theorem Flow.setBuffer {s : UdpSession} (h : s.Flow) (howned : s.Owned) {place : ℕ}
    (hplace : place = s.socket.sendBuffer ∨ place = s.socket.receiveBuffer) (b : Buffer) :
    (s.setBuffer place b).Flow := by
  refine Flow.transport h (t := s.setBuffer place b) ⟨rfl, rfl, rfl, rfl, rfl, rfl, rfl⟩ ?_
  intro other datagram hother hcarries
  apply hcarries.setBuffer
  rcases hplace with rfl | rfl
  · exact howned.draft_not_outgoing hother
  · exact howned.exposed_not_outgoing hother

/-- Another queue with the same taken entries. -/
theorem Flow.requeue {s : UdpSession} (h : s.Flow) {r : TrackedQueue}
    (htaken : r.ledger.taken = s.socket.sendqueue.ledger.taken)
    (hentries : ∀ entry ∈ r.ledger.waiting, s.CarriesEntry entry) :
    Flow { s with socket.sendqueue := r } where
  entries := hentries
  processed := htaken ▸ h.processed
  finished := h.finished
  stage := by
    cases h.stage with
    | idle hflag hresolves hsends hcurrent => exact .idle hflag hresolves hsends hcurrent
    | resolving place datagram hflag hresolves hsends hcurrent hcarries =>
      exact .resolving place datagram hflag hresolves hsends hcurrent hcarries
    | sending operation t hflag hresolves hsends hcurrent hcarries hunderway =>
      exact .sending operation t hflag hresolves hsends hcurrent hcarries hunderway

theorem Flow.dropped {s : UdpSession} (h : s.Flow) {r : TrackedQueue}
    (hdropped : TrackedQueue.Dropped s.socket.sendqueue r) :
    Flow { s with socket.sendqueue := r } :=
  h.requeue hdropped.taken fun entry hentry => h.entries entry (hdropped.mem_waiting hentry)

theorem queue_eq_nil_of_dropped {q r : TrackedQueue} (h : TrackedQueue.Dropped q r)
    (hnil : q.queue.queue = []) : r.queue.queue = [] := by
  obtain ⟨count, hwaiting⟩ := h.waiting
  have hlength := q.length_waiting
  rw [hnil] at hlength
  rw [r.tracks, hwaiting, List.length_eq_zero_iff.mp hlength]
  simp only [List.drop_nil, List.map_nil]

theorem Flow.enqueueAll {s : UdpSession} (h : s.Flow) (P : Platform) (addrs : List String)
    (port : ℕ) {draft : List UInt8} (hlt : s.socket.sendBuffer < s.buffers.length)
    (hdraft : s.buffer s.socket.sendBuffer = ⟨draft, 0⟩) :
    (s.enqueueAll P port addrs).2.Flow := by
  obtain ⟨⟨r, hqueue⟩, htaken, -, hentries⟩ := s.enqueueAll_offers P port addrs
  rw [hqueue] at htaken hentries ⊢
  apply h.requeue htaken
  intro entry hentry
  rcases hentries entry hentry with hold | ⟨hplace, hmem, haddress⟩
  · exact h.entries entry hold
  · obtain ⟨addr, -, hdatagram⟩ := List.mem_map.mp hmem
    refine ⟨?_, haddress⟩
    rw [hplace, ← hdatagram]
    exact ⟨hlt, by rw [hdraft]⟩

/-- The send buffer is replaced by a new one. -/
theorem Flow.renewed {s : UdpSession} (h : s.Flow) (place : ℕ) :
    Flow { s.allocate with socket.sendBuffer := place } := by
  refine Flow.transport h (t := { s.allocate with socket.sendBuffer := place })
    ⟨rfl, rfl, rfl, rfl, rfl, rfl, rfl⟩ ?_
  intro other datagram _ hcarries
  exact hcarries.allocate

theorem Flow.flush {s : UdpSession} (h : s.Flow) (P : Platform) :
    (s.flush P).Flow ∧ (s.flush P).Drained := by
  unfold UdpSession.flush
  cases hflag : s.socket.asyncSendInProgress with
  | true =>
    refine ⟨h.renewed _, ?_⟩
    intro hidle
    change s.socket.asyncSendInProgress = false at hidle
    rw [hflag] at hidle
    contradiction
  | false =>
    have hpumped : (asyncSend P s).Flow ∧ (asyncSend P s).Drained := by
      cases h.stage with
      | idle _ hresolves hsends hcurrent =>
        exact (asyncSend_pumped P s).flow h.toBooks hresolves hsends hcurrent hflag
      | resolving place datagram htrue _ _ _ _ =>
        rw [hflag] at htrue
        contradiction
      | sending operation t htrue _ _ _ _ _ =>
        rw [hflag] at htrue
        contradiction
    exact ⟨hpumped.1.renewed _, hpumped.2⟩

theorem Flow.receive {s : UdpSession} (h : s.Flow) (howned : s.Owned) : s.receive.2.Flow := by
  unfold UdpSession.receive
  cases hpeek : s.socket.receivequeue.queue.peek with
  | none =>
    have hcleared := h.setBuffer howned (Or.inr rfl) (s.buffer s.socket.receiveBuffer).clear
    exact hcleared.transport ⟨rfl, rfl, rfl, rfl, rfl, rfl, rfl⟩ fun _ _ _ hcarries => hcarries
  | some item =>
    exact h.transport ⟨rfl, rfl, rfl, rfl, rfl, rfl, rfl⟩ fun _ _ _ hcarries => hcarries

theorem Flow.storeDatagram {s : UdpSession} (h : s.Flow) (P : Platform) (bytes : List UInt8)
    (endpoint : Endpoint) : (s.storeDatagram P bytes endpoint).Flow := by
  obtain ⟨r, accepted, hstored, -⟩ := s.storeDatagram_stored P bytes endpoint
  rw [hstored]
  refine h.transport ⟨rfl, rfl, rfl, rfl, rfl, rfl, rfl⟩ ?_
  intro place datagram _ hcarries
  exact hcarries.allocate.setBuffer (Nat.ne_of_lt hcarries.1) _

theorem Flow.close {s : UdpSession} (h : s.Flow) (howned : s.Owned) : s.close.Flow := by
  have hcleared : Flow { s with
      socket.sendqueue := s.socket.sendqueue.clear
      socket.receivequeue := s.socket.receivequeue.clear } :=
    (h.dropped s.socket.sendqueue.dropped_clear).transport ⟨rfl, rfl, rfl, rfl, rfl, rfl, rfl⟩
      fun _ _ _ hcarries => hcarries
  have hparted : UdpSession.Owned { s with
      socket.sendqueue := s.socket.sendqueue.clear
      socket.receivequeue := s.socket.receivequeue.clear } := howned.cleared
  have hfirst := hcleared.setBuffer hparted (Or.inl rfl)
    (s.buffer s.socket.sendBuffer).clear
  exact hfirst.setBuffer (hparted.setBuffer _ _) (Or.inr rfl) _

/-! ### Whole runs -/

/-- What the client has asked for: the bytes written since the last boundary, and
the datagrams requested so far. -/
structure Script where
  draft : List UInt8
  requests : List Datagram

def Script.note (c : Script) : UdpEvent → Script
  | .call (.write data) => { c with draft := c.draft ++ data }
  | .call (.send host port) => ⟨[], c.requests ++ [⟨c.draft, host, port⟩]⟩
  | .call (.broadcast addrs port) =>
    ⟨[], c.requests ++ addrs.map fun addr => ⟨c.draft, addr, port⟩⟩
  | .call .close => { c with draft := [] }
  | _ => c

def script (es : List UdpEvent) : Script := es.foldl Script.note ⟨[], []⟩

theorem script_concat (es : List UdpEvent) (e : UdpEvent) :
    script (es ++ [e]) = (script es).note e := by
  unfold script
  rw [List.foldl_append]
  rfl

/-- The send pipeline after the events of a run. -/
structure Sending (c : Script) (s : UdpSession) : Prop where
  owned : s.Owned
  flow : s.Flow
  drained : s.Drained
  draft : s.buffer s.socket.sendBuffer = ⟨c.draft, 0⟩
  requested : s.socket.sendqueue.ledger.offered.map (fun offer => offer.1.2) = c.requests

theorem Owned.draft_lt {s : UdpSession} (h : s.Owned) :
    s.socket.sendBuffer < s.buffers.length := h.owned_lt _ List.mem_cons_self

theorem Owned.exposed_lt {s : UdpSession} (h : s.Owned) :
    s.socket.receiveBuffer < s.buffers.length :=
  h.owned_lt _ (List.mem_cons_of_mem _ List.mem_cons_self)

theorem buffer_freshPlace (s : UdpSession) : s.allocate.buffer s.freshPlace = .new := by
  unfold buffer allocate freshPlace
  rw [List.getD_eq_getElem?_getD, List.getElem?_concat_length, Option.getD_some]

theorem Sending.write {c : Script} {s : UdpSession} (h : Sending c s) (data : List UInt8) :
    Sending { c with draft := c.draft ++ data } (s.write data) where
  owned := h.owned.setBuffer _ _
  flow := h.flow.setBuffer h.owned (Or.inl rfl) _
  drained := h.drained
  draft := by
    change (s.setBuffer _ _).buffer s.socket.sendBuffer = _
    rw [buffer_setBuffer_self h.owned.draft_lt, h.draft]
    rfl
  requested := h.requested

/-- The client changes the buffer it reads from. -/
theorem Sending.setExposed {c : Script} {s : UdpSession} (h : Sending c s) (b : Buffer) :
    Sending c (s.setBuffer s.socket.receiveBuffer b) where
  owned := h.owned.setBuffer _ _
  flow := h.flow.setBuffer h.owned (Or.inr rfl) _
  drained := h.drained
  draft := by
    change (s.setBuffer _ _).buffer s.socket.sendBuffer = _
    rw [buffer_setBuffer_of_ne s (Parted.draft_ne_exposed h.owned), h.draft]
  requested := h.requested

theorem Sending.broadcast {c : Script} {s : UdpSession} (h : Sending c s) (P : Platform)
    (addrs : List String) (port : ℕ) :
    Sending ⟨[], c.requests ++ addrs.map fun addr => ⟨c.draft, addr, port⟩⟩
      (s.broadcast P addrs port).2 := by
  have henqueued := h.flow.enqueueAll P addrs port h.owned.draft_lt h.draft
  obtain ⟨hflow, hdrained⟩ := henqueued.flush P
  have hkept : Kept (s.enqueueAll P port addrs).2 (asyncSend P (s.enqueueAll P port addrs).2) :=
    (asyncSend_pumped P _).kept
  refine ⟨h.owned.broadcast P addrs port, hflow, hdrained, buffer_freshPlace _, ?_⟩
  have hoffered : ((s.broadcast P addrs port).2).socket.sendqueue.ledger.offered =
      (s.enqueueAll P port addrs).2.socket.sendqueue.ledger.offered := by
    change ((s.enqueueAll P port addrs).2.flush P).socket.sendqueue.ledger.offered = _
    unfold flush
    cases (s.enqueueAll P port addrs).2.socket.asyncSendInProgress with
    | true => rfl
    | false => exact hkept.offered
  rw [hoffered, (s.enqueueAll_offers P port addrs).offered, h.requested]
  unfold drafts
  rw [h.draft]

/-- Items leave the queue without being sent. -/
theorem Sending.dropped {c : Script} {s : UdpSession} (h : Sending c s) {r : TrackedQueue}
    (hdropped : TrackedQueue.Dropped s.socket.sendqueue r) :
    Sending c { s with socket.sendqueue := r } where
  owned := h.owned.dropped hdropped
  flow := h.flow.dropped hdropped
  drained := fun hidle => queue_eq_nil_of_dropped hdropped (h.drained hidle)
  draft := h.draft
  requested := by
    change r.ledger.offered.map _ = _
    rw [hdropped.offered, h.requested]

theorem Sending.setSendbufferLimit {c : Script} {s : UdpSession} (h : Sending c s)
    (maxSize : ℕ) : Sending c (s.setSendbufferLimit maxSize) :=
  h.dropped (s.socket.sendqueue.dropped_setMemSizeLimit maxSize)

theorem Sending.close {c : Script} {s : UdpSession} (h : Sending c s) :
    Sending { c with draft := [] } s.close where
  owned := h.owned.close
  flow := h.flow.close h.owned
  drained := fun _ => rfl
  draft := by
    have hne := Parted.draft_ne_exposed h.owned
    exact (buffer_setBuffer_of_ne _ hne _).trans (buffer_setBuffer_self h.owned.draft_lt _)
  requested := by
    change s.socket.sendqueue.clear.ledger.offered.map _ = _
    rw [s.socket.sendqueue.dropped_clear.offered, h.requested]

theorem Sending.receive {c : Script} {s : UdpSession} (h : Sending c s) :
    Sending c s.receive.2 := by
  have howned := h.owned.receive
  have hflow := h.flow.receive h.owned
  have hcleared := h.setExposed (s.buffer s.socket.receiveBuffer).clear
  unfold UdpSession.receive at howned hflow ⊢
  cases hpeek : s.socket.receivequeue.queue.peek with
  | none =>
    rw [hpeek] at howned hflow
    exact ⟨howned, hflow, hcleared.drained, hcleared.draft, hcleared.requested⟩
  | some item =>
    rw [hpeek] at howned hflow
    exact ⟨howned, hflow, h.drained, h.draft, h.requested⟩

theorem Sending.handleReceive {c : Script} {s : UdpSession} (h : Sending c s) (P : Platform)
    (err : Option String) (bytesTransferred : ℕ) (endpoint : Endpoint) (protocol : Protocol)
    (recvbuffer : List UInt8) :
    Sending c (s.handleReceive P err bytesTransferred endpoint protocol recvbuffer) := by
  have hrearm : ∀ t : UdpSession, Sending c t → Sending c
      (if t.socketOpen protocol then t.asyncReceive protocol recvbuffer else t) := by
    intro t ht
    split
    · exact ⟨ht.owned,
        ht.flow.transport ⟨rfl, rfl, rfl, rfl, rfl, rfl, rfl⟩ fun _ _ _ hcarries => hcarries,
        ht.drained, ht.draft, ht.requested⟩
    · exact ht
  unfold UdpSession.handleReceive
  cases err with
  | none =>
    apply hrearm
    have howned := h.owned.storeDatagram P (recvbuffer.take bytesTransferred) endpoint
    have hflow := h.flow.storeDatagram P (recvbuffer.take bytesTransferred) endpoint
    obtain ⟨r, accepted, hstored, -⟩ :=
      s.storeDatagram_stored P (recvbuffer.take bytesTransferred) endpoint
    simp only [hstored] at howned hflow ⊢
    refine ⟨howned, hflow, h.drained, ?_, h.requested⟩
    have hlt := h.owned.draft_lt
    have hne : s.socket.sendBuffer ≠ s.freshPlace := Nat.ne_of_lt hlt
    change (s.allocate.setBuffer s.freshPlace _).buffer s.socket.sendBuffer = _
    rw [buffer_setBuffer_of_ne _ hne, buffer_allocate hlt, h.draft]
  | some message => exact hrearm s h

/-- A handler of the pipeline leaves the requests and the draft alone. -/
theorem Sending.sendCase {c : Script} {s u r : UdpSession} (h : Sending c s)
    (hkept : Kept s u) (howned : r.Owned) (hflow : r.Flow) (hdrained : r.Drained)
    (hkept' : Kept u r) : Sending c r where
  owned := howned
  flow := hflow
  drained := hdrained
  draft := by
    have hall := hkept.trans hkept'
    rw [hall.buffer, hall.sendBuffer, h.draft]
  requested := by rw [(hkept.trans hkept').offered, h.requested]

theorem Sending.resolve {c : Script} {s : UdpSession} (h : Sending c s) (P : Platform)
    {index : ℕ} (hindex : index < s.pending.resolves.length) (error : Option String)
    (results : List Endpoint) :
    Sending c (UdpCompletion.perform P s (.resolve index error results)) := by
  have hcase := perform_resolve_case P s index error results
  have hkept := kept_resolved s index results
  have howned := h.owned.sendCase hkept (resolved_outgoing hindex results) hcase
  obtain ⟨place, datagram, rfl, hflag, hresolves, hsends, hcurrent, hcarries⟩ :=
    h.flow.stage.of_resolve hindex
  generalize UdpCompletion.perform P s (.resolve 0 error results) = r at hcase howned ⊢
  rw [show s.pending.resolves.getD 0 0 = place by rw [hresolves]; rfl] at hcase
  have herased : s.pending.resolves.eraseIdx 0 = [] := by rw [hresolves]; rfl
  have hcurrent' : (noteResults { s with
      pending.resolves := s.pending.resolves.eraseIdx 0 } results).history.current =
        some ⟨datagram, results, [], []⟩ := by
    change s.history.current.map _ = _
    rw [hcurrent]
    rfl
  have hanswered := Transmission.answered_resolved datagram results
    (error.getD hostNotFound) ((noteResults { s with
      pending.resolves := s.pending.resolves.eraseIdx 0 } results).usable results)
  have hbooks := h.flow.toBooks.current hkept rfl rfl hcurrent hcurrent' rfl
  obtain ⟨hflow, hdrained⟩ := SendCase.flow hbooks hflag herased hsends hcurrent'
    (hkept.carries hcarries) (by rw [usableRest_new]; exact hanswered) hcase
  exact h.sendCase hkept howned hflow hdrained hcase.kept

theorem Sending.sent {c : Script} {s : UdpSession} (h : Sending c s) (P : Platform)
    {index : ℕ} (hindex : index < s.pending.sends.length) (error : Option String) :
    Sending c (UdpCompletion.perform P s (.send index error)) := by
  have hcase := perform_send_case P s index error
  have hkept := kept_sent s index error
  have howned := h.owned.sendCase hkept (sent_outgoing hindex error) hcase
  obtain ⟨operation, t, rfl, hflag, hresolves, hsends, hcurrent, hcarries, hunderway⟩ :=
    h.flow.stage.of_send hindex
  generalize UdpCompletion.perform P s (.send 0 error) = r at hcase howned ⊢
  have hoperation : s.pending.sends.getD 0 ⟨0, ⟨[], []⟩⟩ = operation := by rw [hsends]; rfl
  rw [hoperation] at hcase
  have herased : s.pending.sends.eraseIdx 0 = [] := by rw [hsends]; rfl
  have hcurrent' : (UdpCompletion.noteOutcome { s with
      pending.sends := s.pending.sends.eraseIdx 0 } error).history.current =
        some { t with outcomes := t.outcomes ++ [error] } := by
    change s.history.current.map _ = _
    rw [hcurrent]
    rfl
  have hbooks := h.flow.toBooks.current hkept rfl rfl hcurrent hcurrent' rfl
  obtain ⟨hflow, hdrained⟩ := SendCase.flow hbooks hflag hresolves herased hcurrent'
    (hkept.carries hcarries)
    (by rw [hkept.usable, hkept.usableRest]; exact hunderway.answer error) hcase
  exact h.sendCase hkept howned hflow hdrained hcase.kept

theorem Sending.step {c : Script} {s t : UdpSession} (h : Sending c s) {P : Platform}
    {e : UdpEvent} (hstep : step P s e = some t) : Sending (c.note e) t := by
  obtain ⟨henabled, rfl⟩ := (step_eq_some_iff P s t e).mp hstep
  cases e with
  | call request =>
    cases request with
    | write data => exact h.write data
    | send host port => exact h.broadcast P [host] port
    | broadcast addrs port => exact h.broadcast P addrs port
    | setSendbufferLimit maxSize => exact h.setSendbufferLimit maxSize
    | close => exact h.close
    | receive => exact h.receive
    | read size => exact h.setExposed _
    | readString size => exact h.setExposed _
    | setReadpos pos => exact h.setExposed _
  | completion done =>
    cases done with
    | resolve index error results => exact h.resolve P henabled error results
    | send index error => exact h.sent P henabled error
    | receive index error bytes endpoint =>
      have hrest : Sending c { s with
          pending.receives := s.pending.receives.eraseIdx index } :=
        ⟨h.owned, h.flow.transport ⟨rfl, rfl, rfl, rfl, rfl, rfl, rfl⟩
          fun _ _ _ hcarries => hcarries, h.drained, h.draft, h.requested⟩
      exact hrest.handleReceive P error bytes.length endpoint _ _

theorem sending_bind (ipv4Open ipv6Open : Bool) :
    Sending ⟨[], []⟩ (bind ipv4Open ipv6Open) := by
  have hflow : Flow (bind ipv4Open ipv6Open) := by
    cases ipv4Open <;> cases ipv6Open <;>
      exact ⟨⟨nofun, rfl, nofun⟩, .idle rfl rfl rfl rfl⟩
  refine ⟨owned_bind ipv4Open ipv6Open, hflow, ?_, ?_, ?_⟩ <;>
    cases ipv4Open <;> cases ipv6Open
  all_goals first | rfl | exact fun _ => rfl

theorem sending_of_run (P : Platform) (ipv4Open ipv6Open : Bool) {es : List UdpEvent}
    {s : UdpSession} (hrun : StateMachine.run (step P) (bind ipv4Open ipv6Open) es = some s) :
    Sending (script es) s := by
  apply StateMachine.run_traces (fun es s => Sending (script es) s) _ _ hrun
  · intro es s e t hs hstep
    rw [script_concat]
    exact hs.step hstep
  · exact sending_bind ipv4Open ipv6Open

/-- What holds of the sending direction, with the datagrams that the client has asked for, the
send queue, its ledger, and the datagrams that are on their way from it to the resolver. -/
structure SendsInOrder (requests : List Datagram) (queue : List QueueItem)
    (ledger : Ledger (QueueItem × Datagram)) (inHand : List Datagram) (s : UdpSession) :
    Prop where
  single : s.pending.resolves.length + s.pending.sends.length ≤ 1
  /-- The datagrams offered to the queue are those that the client asked for. -/
  requested : ledger.offered.map (fun offer => offer.1.2) = requests
  entered : ledger.entered.Sublist (ledger.offered.map Prod.fst)
  /-- Each one that entered has left with its fate or is still queued. -/
  accounted : ledger.fates.length + queue.length = ledger.entered.length
  queued : queue = (ledger.entered.drop ledger.fates.length).map Prod.fst
  in_order : ledger.taken.Sublist ledger.entered
  processed : (s.history.completed ++ s.history.current.toList).map Transmission.datagram ++
    inHand = ledger.taken.map Prod.snd
  payloads : ∀ t ∈ s.history.completed ++ s.history.current.toList,
    ∀ attempt ∈ t.attempts, attempt.2 = t.datagram.payload
  /-- While a send is in progress, its buffer keeps what was handed over. -/
  in_flight : ∀ operation ∈ s.pending.sends, ∃ t, s.history.current = some t ∧
    (s.buffer operation.buffer).data = t.datagram.payload

theorem Flow.current_payloads {s : UdpSession} (h : s.Flow) {t : Transmission}
    (hcurrent : s.history.current = some t) :
    ∀ attempt ∈ t.attempts, attempt.2 = t.datagram.payload := by
  cases h.stage with
  | idle _ _ _ hnone =>
    rw [hcurrent] at hnone
    contradiction
  | resolving place datagram _ _ _ hsome _ =>
    rw [hcurrent] at hsome
    rw [Option.some.inj hsome]
    exact nofun
  | sending operation u _ _ _ hsome _ hunderway =>
    rw [hcurrent] at hsome
    rw [Option.some.inj hsome]
    exact hunderway.payloads

theorem Flow.single {s : UdpSession} (h : s.Flow) :
    s.pending.resolves.length + s.pending.sends.length ≤ 1 := by
  cases h.stage with
  | idle _ hresolves hsends _ =>
    rw [hresolves, hsends]
    exact Nat.zero_le 1
  | resolving place datagram _ hresolves hsends _ _ =>
    rw [hresolves, hsends]
    exact Nat.le_refl 1
  | sending operation t _ hresolves hsends _ _ _ =>
    rw [hresolves, hsends]
    exact Nat.le_refl 1

theorem Flow.in_flight {s : UdpSession} (h : s.Flow) {operation : PendingSend}
    (hmem : operation ∈ s.pending.sends) : ∃ t, s.history.current = some t ∧
      (s.buffer operation.buffer).data = t.datagram.payload := by
  obtain ⟨index, hindex, rfl⟩ := List.mem_iff_getElem.mp hmem
  obtain ⟨only, t, rfl, -, -, hsends, hcurrent, hcarries, -⟩ := h.stage.of_send hindex
  have honly : s.pending.sends[0] = only := by simp only [hsends, List.getElem_cons_zero]
  rw [honly]
  exact ⟨t, hcurrent, by rw [hcarries.2]⟩

theorem Sending.sendsInOrder {c : Script} {s : UdpSession} (h : Sending c s) :
    SendsInOrder c.requests s.socket.sendqueue.queue.queue s.socket.sendqueue.ledger [] s := by
  refine ⟨h.flow.single, h.requested, Ledger.entered_sublist _, ?_,
    s.socket.sendqueue.tracks, Ledger.taken_sublist _, ?_, ?_,
    fun operation hmem => h.flow.in_flight hmem⟩
  · rw [← s.socket.sendqueue.length_waiting]
    exact s.socket.sendqueue.balanced.length_waiting
  · rw [List.append_nil]
    exact h.flow.processed.symm
  · intro t ht
    rcases List.mem_append.mp ht with hcompleted | hcurrent
    · exact (h.flow.finished t hcompleted).payloads
    · exact h.flow.current_payloads (Option.mem_toList.mp hcurrent)

/-- Every run of a socket sends in order. -/
theorem sendsInOrder_of_run (P : Platform) (ipv4Open ipv6Open : Bool) (es : List UdpEvent)
    (s : UdpSession) (hrun : StateMachine.run (step P) (bind ipv4Open ipv6Open) es = some s) :
    s.Drained ∧ SendsInOrder (script es).requests s.socket.sendqueue.queue.queue
      s.socket.sendqueue.ledger [] s := by
  have h := sending_of_run P ipv4Open ipv6Open hrun
  exact ⟨h.drained, h.sendsInOrder⟩

/-- A platform that knows one literal address. -/
def loopback : Platform where
  fromString := fun host => if host = "127.0.0.1" then some (.v4, 0x7f000001) else none
  toString := fun _ _ => "127.0.0.1"
  sizeofQueueItem := 40
  sizeofQueueItem_le := by decide

end UdpSession

end FaucetNetworking
