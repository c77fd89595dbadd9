import FaucetNetworking.Udp.SendPipeline
import FaucetNetworking.Udp.Threads

/-!
The steps of the code that holds the mutex. As long as it finds the queue as it has left it,
each of its steps keeps the send pipeline in order; the sizes of the queued items add up but
for what a pop has subtracted already.
-/
namespace FaucetNetworking

open SizedQueue

/-! ### The shared queue -/

namespace SharedQueue

variable {q q' : SharedQueue} {t : TrackedQueue} {fate : Fate}

/-- The tracked queue has the same items and the same ledger. -/
structure Tracks (q : SharedQueue) (t : TrackedQueue) : Prop where
  queue : t.queue.queue = q.queue.queue
  ledger : t.ledger = q.ledger

/-- Once the sizes add up again there is a tracked queue that is the same in all. -/
theorem Tracks.exact (h : Tracks q t) (hq : q.queue.Consistent) :
    ∃ r : TrackedQueue, r.queue = q.queue ∧ r.ledger = q.ledger := by
  refine ⟨⟨q.queue, q.ledger, hq, ?_, ?_⟩, rfl, rfl⟩
  · rw [← h.ledger]
    exact t.balanced
  · rw [← h.ledger, ← h.queue]
    exact t.tracks

/-- The front item leaves, whatever the sizes are. -/
theorem Tracks.popFront (h : Tracks q t) (hpop : q.popFront fate = some q') :
    ∃ item others r, t.ledger.waiting = item :: others ∧ Tracks q' r ∧
      r.ledger = t.ledger.leave 1 fate ∧ q'.queue.queue = q.queue.queue.tail ∧
      q'.queue.memSize = q.queue.memSize ∧ q'.queue.memSizeLimit = q.queue.memSizeLimit := by
  have htracks := t.tracks
  rw [h.queue] at htracks
  unfold SharedQueue.popFront at hpop
  split at hpop
  · contradiction
  · rename_i front rest hqueue
    obtain rfl := Option.some.inj hpop
    rw [hqueue] at htracks
    obtain ⟨item, others, hwaiting, -, hothers⟩ := List.map_eq_cons_iff.mp htracks.symm
    have hbalanced : (t.ledger.leave 1 fate).Balanced := by
      apply t.balanced.leave
      rw [hwaiting]
      exact Nat.succ_le_succ (Nat.zero_le _)
    have hrest : rest = (t.ledger.leave 1 fate).waiting.map Prod.fst := by
      rw [Ledger.waiting_leave, hwaiting]
      exact hothers.symm
    refine ⟨item, others, ⟨⟨total QueueItem.memSize rest, total QueueItem.memSize rest, rest⟩,
      t.ledger.leave 1 fate, ⟨rfl, Nat.le_refl _⟩, hbalanced, hrest⟩, hwaiting,
      ⟨rfl, congrArg (Ledger.leave · 1 fate) h.ledger⟩, rfl, by rw [hqueue]; rfl, rfl, rfl⟩

/-- On a queue whose sizes add up, a push is the one of the tracked queue. -/
theorem push_eq (hqueue : t.queue = q.queue) (hledger : t.ledger = q.ledger) (item : QueueItem)
    (datagram : Datagram) : q.push item datagram =
      some ⟨(t.push item datagram).2.queue, (t.push item datagram).2.ledger⟩ := by
  obtain ⟨hpush, hafter⟩ := t.queue_push item datagram
  rw [hqueue] at hpush
  unfold SharedQueue.push
  rw [hpush, hafter]
  unfold TrackedQueue.ledgerAfterPush
  rw [hqueue, hledger]

end SharedQueue

/-- What a pop has already subtracted for the item that is still in front. -/
def PopAt.subtracted (q : SharedQueue) : PopAt → ℕ
  | .popping => total QueueItem.memSize q.queue.queue.head?.toList
  | _ => 0

/-- The sizes add up, up to what is subtracted already. -/
def SharedQueue.SumsTo (q : SharedQueue) (subtracted : ℕ) : Prop :=
  q.queue.memSize + subtracted = total QueueItem.memSize q.queue.queue

/-- A step inside a pop: the items stay, or the front one leaves as the pop returns. -/
inductive PopAt.Case (fate : Fate) (q : SharedQueue) (t : TrackedQueue) (q' : SharedQueue) :
    Option PopAt → Prop where
  | inside (position : PopAt) : q'.Tracks t → q'.queue.queue = q.queue.queue →
      q'.SumsTo (position.subtracted q') → Case fate q t q' (some position)
  | popped (item : QueueItem × Datagram) (others : List (QueueItem × Datagram))
      (r : TrackedQueue) : t.ledger.waiting = item :: others → q'.Tracks r →
      r.ledger = t.ledger.leave 1 fate → q'.SumsTo 0 → Case fate q t q' none

theorem PopAt.next_case {fate : Fate} {q q' : SharedQueue} {t : TrackedQueue}
    {position : PopAt} {next : Option PopAt} (h : position.next fate q = some (q', next))
    (htracks : q.Tracks t) (hsums : q.SumsTo (position.subtracted q))
    (hne : q.queue.queue ≠ []) :
    PopAt.Case fate q t q' next ∧ q'.queue.memSize ≤ q.queue.memSize ∧
      q'.queue.memSizeLimit = q.queue.memSizeLimit := by
  obtain ⟨front, rest, hqueue⟩ := List.exists_cons_of_ne_nil hne
  cases position with
  | testing =>
    have hfull : q.isEmpty = false := by
      unfold SharedQueue.isEmpty DatagramQueue.isEmpty
      rw [hqueue]
      rfl
    obtain ⟨rfl, rfl⟩ := Prod.mk.inj (Option.some.inj h)
    rw [hfull]
    exact ⟨.inside .subtracting htracks rfl hsums, Nat.le_refl _, rfl⟩
  | subtracting =>
    obtain ⟨r, hr, heq⟩ := Option.map_eq_some_iff.mp h
    obtain ⟨rfl, rfl⟩ := Prod.mk.inj heq
    unfold SharedQueue.subtractFront DatagramQueue.peek at hr
    rw [hqueue] at hr
    obtain rfl := Option.some.inj hr
    have hsum : q.queue.memSize + 0 = total QueueItem.memSize q.queue.queue := hsums
    rw [hqueue] at hsum
    have hle : front.memSize ≤ q.queue.memSize := by
      simp only [total] at hsum
      omega
    refine ⟨.inside .popping ⟨htracks.queue, htracks.ledger⟩ rfl ?_, ?_, rfl⟩
    · unfold SharedQueue.SumsTo PopAt.subtracted
      simp only [hqueue, sizeSub_of_le hle, List.head?_cons, Option.toList_some, total] at hsum ⊢
      omega
    · simp only [sizeSub_of_le hle]
      exact Nat.sub_le _ _
  | popping =>
    obtain ⟨r, hr, heq⟩ := Option.map_eq_some_iff.mp h
    obtain ⟨rfl, rfl⟩ := Prod.mk.inj heq
    obtain ⟨item, others, t', hwaiting, htracks', hledger, htail, hsame, hlimit⟩ :=
      htracks.popFront hr
    refine ⟨.popped item others t' hwaiting htracks' hledger ?_, Nat.le_of_eq hsame, hlimit⟩
    unfold SharedQueue.SumsTo PopAt.subtracted at hsums
    unfold SharedQueue.SumsTo
    rw [hsame, htail, hqueue]
    simp only [hqueue, List.head?_cons, Option.toList_some, total] at hsums
    simp only [List.tail_cons]
    omega

/-! ### The code under the mutex -/

namespace UdpSession

/-- Nothing is being resolved or sent. -/
structure Resting (s : UdpSession) : Prop where
  flag : s.socket.asyncSendInProgress = false
  resolves : s.pending.resolves = []
  sends : s.pending.sends = []
  current : s.history.current = none

/-- The books while an item has been taken out of the queue and is not yet current. -/
structure Carried (s : UdpSession) (item : QueueItem × Datagram) : Prop where
  entries : ∀ entry ∈ s.socket.sendqueue.ledger.waiting, s.CarriesEntry entry
  processed : s.socket.sendqueue.ledger.taken.map Prod.snd =
    s.history.completed.map Transmission.datagram ++ [item.2]
  finished : ∀ t ∈ s.history.completed, t.Finished (s.usable t.results)
  item : s.CarriesEntry item

/-- What holds where the code under the mutex is. -/
def Holds (s : UdpSession) : HolderAt → Prop
  | .handleSend err place endpoints => s.Books ∧ s.socket.asyncSendInProgress = true ∧
    s.pending.resolves = [] ∧ s.pending.sends = [] ∧ ∃ t, s.history.current = some t ∧
      s.Carries place t.datagram ∧
      t.Answered err (s.usable t.results) (s.usableRest endpoints)
  | .sendEnded => s.Books ∧ s.Resting
  | .asyncSend => s.Books ∧ s.Resting
  | .peeking => s.Books ∧ s.Resting ∧ s.socket.sendqueue.queue.queue ≠ []
  | .inPop item _ => s.Books ∧ s.Resting ∧
    ∃ others, s.socket.sendqueue.ledger.waiting = item :: others
  | .resolving item => s.Carried item ∧ s.Resting

end UdpSession

namespace HolderAt

/-- The buffer that the code has in its hands. -/
def places : HolderAt → List ℕ
  | .handleSend _ place _ => [place]
  | .resolving item => [item.1.buffer]
  | _ => []

/-- The datagram that has left the queue and is not yet current. -/
def inHand : HolderAt → List Datagram
  | .resolving item => [item.2]
  | _ => []

def subtracted (q : SharedQueue) : HolderAt → ℕ
  | .inPop _ position => position.subtracted q
  | _ => 0

end HolderAt

open UdpSession (Kept Resting Carried hostNotFound)

namespace UdpThreads

variable {P : Platform} {s s' : UdpThreads} {t t' : TrackedQueue}

/-- The session that the threads share, with a queue that is in order. -/
def session (s : UdpThreads) (t : TrackedQueue) : UdpSession :=
  { s.others with socket.sendqueue := t }

/-- What one step of the code under the mutex leaves: the code has returned, or it goes on. -/
structure Advanced (s : UdpThreads) (t : TrackedQueue) (position : HolderAt) (s' : UdpThreads)
    (t' : TrackedQueue) (next : Option HolderAt) : Prop where
  tracks : s'.sendqueue.Tracks t'
  kept : Kept (s.session t) (s'.session t')
  sums : s'.sendqueue.SumsTo ((next.map fun position => position.subtracted s'.sendqueue).getD 0)
  memSize : s'.sendqueue.queue.memSize ≤ s.sendqueue.queue.memSize
  memSizeLimit : s'.sendqueue.queue.memSizeLimit = s.sendqueue.queue.memSizeLimit
  limiting : s'.limiting = s.limiting
  outgoing : (next.map HolderAt.places).getD [] ++ (s'.session t').outgoing ⊆
    position.places ++ (s.session t).outgoing
  goesOn : ∀ position, next = some position → (s'.session t').Holds position
  returned : next = none → (s'.session t').Flow ∧ (s'.session t').Drained

/-- A step that changes neither the queue nor the rest. -/
theorem Advanced.stay {position : HolderAt} {next : Option HolderAt}
    (htracks : s.sendqueue.Tracks t) (hsums : s.sendqueue.SumsTo 0)
    (hnext : ∀ position, next = some position → position.places = [] ∧
      position.subtracted s.sendqueue = 0 ∧ (s.session t).Holds position)
    (hreturned : next = none → (s.session t).Flow ∧ (s.session t).Drained) :
    Advanced s t position s t next := by
  refine ⟨htracks, Kept.refl _, ?_, Nat.le_refl _, rfl, rfl, ?_, fun p hp => (hnext p hp).2.2,
    hreturned⟩
  · cases next with
    | none => exact hsums
    | some p =>
      obtain ⟨-, hzero, -⟩ := hnext p rfl
      change s.sendqueue.SumsTo (p.subtracted s.sendqueue)
      rw [hzero]
      exact hsums
  · cases next with
    | none => exact List.subset_append_right _ _
    | some p =>
      obtain ⟨hplaces, -, -⟩ := hnext p rfl
      change p.places ++ _ ⊆ _
      rw [hplaces]
      exact List.subset_append_right _ _

theorem isEmpty_iff (htracks : s.sendqueue.Tracks t) :
    s.sendqueue.isEmpty = true ↔ (s.session t).socket.sendqueue.queue.queue = [] := by
  change s.sendqueue.isEmpty = true ↔ t.queue.queue = []
  rw [htracks.queue]
  exact List.isEmpty_iff

theorem flow_of_resting {u : UdpSession} (h : u.Books) (hrest : u.Resting) : u.Flow :=
  ⟨h, .idle hrest.flag hrest.resolves hrest.sends hrest.current⟩

/-- The two tests for an empty queue. -/
theorem advanced_test (htracks : s.sendqueue.Tracks t) (hsums : s.sendqueue.SumsTo 0)
    {position next : HolderAt} (hplaces : next.places = [])
    (hsubtracted : next.subtracted s.sendqueue = 0) (hbooks : (s.session t).Books)
    (hrest : (s.session t).Resting)
    (hnext : (s.session t).socket.sendqueue.queue.queue ≠ [] → (s.session t).Holds next) :
    Advanced s t position s t (if s.sendqueue.isEmpty then none else some next) := by
  by_cases hempty : s.sendqueue.isEmpty = true
  · rw [if_pos hempty]
    exact .stay htracks hsums nofun fun _ =>
      ⟨flow_of_resting hbooks hrest, fun _ => (isEmpty_iff htracks).mp hempty⟩
  · rw [if_neg hempty]
    refine .stay htracks hsums ?_ nofun
    rintro p hp
    obtain rfl := Option.some.inj hp
    exact ⟨hplaces, hsubtracted, hnext fun hnil => hempty ((isEmpty_iff htracks).mpr hnil)⟩

/-- The handler of a failed or finished operation, up to the end of the current datagram. -/
theorem advanced_handleSend {err : Option String} {place : ℕ} {endpoints : V4FirstIterator}
    {next : Option HolderAt} (htracks : s.sendqueue.Tracks t) (hsums : s.sendqueue.SumsTo 0)
    (h : (s.session t).Holds (.handleSend err place endpoints))
    (hstep : s.advance P (.handleSend err place endpoints) = some (s', next)) :
    Advanced s t (.handleSend err place endpoints) s' t next := by
  obtain ⟨hbooks, hflag, hresolves, hsends, u, hcurrent, hcarries, hanswered⟩ := h
  have hsame : s.others.nextAttempt err endpoints = (s.session t).nextAttempt err endpoints :=
    UdpSession.nextAttempt_congr (show s.others.isOpen = (s.session t).isOpen from rfl) err
      endpoints
  unfold advance at hstep
  simp only [hsame] at hstep
  cases hattempt : (s.session t).nextAttempt err endpoints with
  | some found =>
    obtain ⟨endpoint, rest⟩ := found
    rw [hattempt] at hstep
    obtain ⟨rfl, rfl⟩ := Prod.mk.inj (Option.some.inj hstep)
    have hflow := UdpSession.flow_asyncSendTo hbooks hflag hresolves hsends hcurrent hcarries
      hanswered hattempt
    refine ⟨htracks, UdpSession.kept_asyncSendTo (s.session t) endpoint place rest, hsums,
      Nat.le_refl _, rfl, rfl, ?_, by simp, fun _ => ⟨hflow, ?_⟩⟩
    · exact (UdpSession.SendCase.attempted (P := P) endpoint rest hattempt).outgoing_subset
    · intro hidle
      change s.others.socket.asyncSendInProgress = true at hflag
      change s.others.socket.asyncSendInProgress = false at hidle
      rw [hflag] at hidle
      contradiction
  | none =>
    rw [hattempt] at hstep
    obtain ⟨rfl, rfl⟩ := Prod.mk.inj (Option.some.inj hstep)
    have hrest : err ≠ none → (s.session t).usableRest endpoints = [] := by
      intro herr
      obtain ⟨message, rfl⟩ := Option.ne_none_iff_exists'.mp herr
      exact UdpSession.nextAttempt_eq_none hattempt
    have hended := hbooks.endSend hcurrent (hanswered.finished hrest)
    refine ⟨htracks, UdpSession.kept_endSend (s.session t), hsums, Nat.le_refl _, rfl, rfl,
      List.subset_cons_self _ _, ?_, by simp⟩
    intro p hp
    obtain rfl := Option.some.inj hp
    exact ⟨hended, rfl, hresolves, hsends, rfl⟩

/-- The item that has been taken out and those that stay were outgoing before. -/
theorem outgoing_popped {r : TrackedQueue} {item : QueueItem × Datagram}
    {others : List (QueueItem × Datagram)} (hwaiting : t.ledger.waiting = item :: others)
    (hleft : r.ledger.waiting = others) :
    item.1.buffer :: (s.session r).outgoing ⊆ (s.session t).outgoing := by
  have hqueue : (s.session t).socket.sendqueue.queue.queue = item.1 :: others.map Prod.fst := by
    change t.queue.queue = _
    rw [t.tracks, hwaiting]
    rfl
  have hrest : (s.session r).socket.sendqueue.queue.queue = others.map Prod.fst := by
    change r.queue.queue = _
    rw [r.tracks, hleft]
  intro place hplace
  rw [UdpSession.mem_outgoing, hqueue]
  rcases List.mem_cons.mp hplace with rfl | hout
  · exact Or.inl List.mem_cons_self
  · rw [UdpSession.mem_outgoing, hrest] at hout
    exact hout.imp (List.mem_cons_of_mem _) id

/-- A step of the pop that asyncSend does; the item is still in front when it leaves. -/
theorem advanced_inPop {item : QueueItem × Datagram} {position : PopAt}
    {next : Option HolderAt} (htracks : s.sendqueue.Tracks t)
    (hsums : s.sendqueue.SumsTo (position.subtracted s.sendqueue))
    (h : (s.session t).Holds (.inPop item position))
    (hstep : s.advance P (.inPop item position) = some (s', next)) :
    ∃ t', Advanced s t (.inPop item position) s' t' next := by
  obtain ⟨hbooks, hrest, others, hwaiting⟩ := h
  change t.ledger.waiting = item :: others at hwaiting
  have hqueue : t.queue.queue = item.1 :: others.map Prod.fst := by
    rw [t.tracks, hwaiting]
    rfl
  have hne : s.sendqueue.queue.queue ≠ [] := by
    rw [← htracks.queue, hqueue]
    exact List.cons_ne_nil _ _
  obtain ⟨⟨q, after⟩, hnext, heq⟩ := Option.map_eq_some_iff.mp hstep
  obtain ⟨rfl, rfl⟩ := Prod.mk.inj heq
  obtain ⟨hcase, hle, hlimit⟩ := PopAt.next_case hnext htracks hsums hne
  cases hcase with
  | inside p htracks' _ hsums' =>
    refine ⟨t, htracks', ⟨rfl, rfl, rfl, rfl, rfl, rfl, rfl, rfl, rfl, rfl, rfl⟩, hsums', hle,
      hlimit, rfl, List.Subset.refl _, ?_, nofun⟩
    intro next hp
    obtain rfl := Option.some.inj hp
    exact ⟨hbooks, hrest, others, hwaiting⟩
  | popped item' others' r hwaiting' htracks' hledger hsums' =>
    rw [hwaiting] at hwaiting'
    obtain ⟨rfl, rfl⟩ := List.cons.inj hwaiting'
    have hleft : r.ledger.waiting = others := by
      rw [hledger, Ledger.waiting_leave, hwaiting]
      rfl
    have hoffered : r.ledger.offered = t.ledger.offered := by
      rw [hledger]
      rfl
    refine ⟨r, htracks', ⟨rfl, rfl, rfl, rfl, rfl, rfl, rfl, rfl, hoffered, rfl, rfl⟩, hsums', hle,
      hlimit, rfl, ?_, ?_, nofun⟩
    · exact outgoing_popped hwaiting hleft
    · intro next hp
      obtain rfl := Option.some.inj hp
      have hentry : ∀ entry ∈ item :: others, (s.session t).CarriesEntry entry := by
        rw [← hwaiting]
        exact hbooks.entries
      refine ⟨⟨?_, ?_, hbooks.finished, hentry item List.mem_cons_self⟩,
        hrest.flag, hrest.resolves, hrest.sends, hrest.current⟩
      · intro entry hmem
        change entry ∈ r.ledger.waiting at hmem
        rw [hleft] at hmem
        exact hentry entry (List.mem_cons_of_mem _ hmem)
      · have hprocessed := hbooks.processed
        rw [hrest.current, Option.toList_none, List.append_nil] at hprocessed
        change r.ledger.taken.map Prod.snd = _
        rw [hledger, Ledger.taken_leave_one t.balanced hwaiting, List.map_append]
        exact congrArg (· ++ [item.2]) hprocessed

/-- The item becomes the current datagram. -/
theorem Carried.books {u v : UdpSession} {item : QueueItem × Datagram} (h : u.Carried item)
    (hkept : Kept u v) (hqueue : v.socket.sendqueue = u.socket.sendqueue)
    (hcompleted : v.history.completed = u.history.completed) {t : Transmission}
    (hcurrent : v.history.current = some t) (hdatagram : t.datagram = item.2) : v.Books := by
  refine ⟨?_, ?_, ?_⟩
  · rw [hqueue]
    exact fun entry hentry => hkept.carriesEntry (h.entries entry hentry)
  · rw [hqueue, h.processed, hcompleted, hcurrent, Option.toList_some, List.map_append,
      List.map_singleton, hdatagram]
  · rw [hcompleted, hkept.usable]
    exact h.finished

theorem advanced_resolving {item : QueueItem × Datagram} {next : Option HolderAt}
    (htracks : s.sendqueue.Tracks t) (hsums : s.sendqueue.SumsTo 0)
    (h : (s.session t).Holds (.resolving item))
    (hstep : s.advance P (.resolving item) = some (s', next)) :
    Advanced s t (.resolving item) s' t next := by
  obtain ⟨hcarried, hrest⟩ := h
  unfold advance at hstep
  simp only at hstep
  cases haddress : P.fromString item.1.remoteHost with
  | some address =>
    rw [haddress] at hstep
    obtain ⟨rfl, rfl⟩ := Prod.mk.inj (Option.some.inj hstep)
    refine ⟨htracks, ⟨rfl, rfl, rfl, rfl, rfl, rfl, rfl, rfl, rfl, rfl, rfl⟩, hsums,
      Nat.le_refl _, rfl, rfl, List.Subset.refl _, ?_, by simp⟩
    intro p hp
    obtain rfl := Option.some.inj hp
    refine ⟨Carried.books hcarried ⟨rfl, rfl, rfl, rfl, rfl, rfl, rfl, rfl, rfl, rfl, rfl⟩ rfl rfl
      rfl rfl, rfl, hrest.resolves, hrest.sends, _, rfl, hcarried.item.1, ?_⟩
    rw [UdpSession.usableRest_new]
    exact Transmission.answered_resolved item.2 _ hostNotFound _
  | none =>
    rw [haddress] at hstep
    obtain ⟨rfl, rfl⟩ := Prod.mk.inj (Option.some.inj hstep)
    refine ⟨htracks, ⟨rfl, rfl, rfl, rfl, rfl, rfl, rfl, rfl, rfl, rfl, rfl⟩, hsums,
      Nat.le_refl _, rfl, rfl, ?_, by simp, fun _ => ⟨⟨?_, ?_⟩, ?_⟩⟩
    · intro place hplace
      rw [HolderAt.places, List.singleton_append, List.mem_cons, UdpSession.mem_outgoing]
      rcases (UdpSession.mem_outgoing _ _).mp hplace with hqueue | hresolve | hsend
      · exact Or.inr (Or.inl hqueue)
      · rcases List.mem_append.mp hresolve with hold | hnew
        · exact Or.inr (Or.inr (Or.inl hold))
        · exact Or.inl (List.mem_singleton.mp hnew)
      · exact Or.inr (Or.inr (Or.inr hsend))
    · exact Carried.books hcarried ⟨rfl, rfl, rfl, rfl, rfl, rfl, rfl, rfl, rfl, rfl, rfl⟩ rfl rfl
        rfl rfl
    · refine .resolving item.1.buffer item.2 rfl ?_ hrest.sends rfl hcarried.item.1
      change s.others.pending.resolves ++ [item.1.buffer] = _
      rw [show s.others.pending.resolves = [] from hrest.resolves, List.nil_append]
    · intro hidle
      exact Bool.noConfusion (hidle : true = false)

/-- Every step of the code under the mutex keeps the send pipeline in order, when the queue is
as this code has left it. -/
theorem advanced {position : HolderAt} {next : Option HolderAt} (htracks : s.sendqueue.Tracks t)
    (hsums : s.sendqueue.SumsTo (position.subtracted s.sendqueue))
    (h : (s.session t).Holds position) (hstep : s.advance P position = some (s', next)) :
    ∃ t', Advanced s t position s' t' next := by
  cases position with
  | handleSend err place endpoints => exact ⟨t, advanced_handleSend htracks hsums h hstep⟩
  | sendEnded =>
    obtain ⟨rfl, rfl⟩ := Prod.mk.inj (Option.some.inj hstep)
    exact ⟨t, advanced_test htracks hsums rfl rfl h.1 h.2 fun _ => h⟩
  | asyncSend =>
    obtain ⟨rfl, rfl⟩ := Prod.mk.inj (Option.some.inj hstep)
    exact ⟨t, advanced_test htracks hsums rfl rfl h.1 h.2 fun hne => ⟨h.1, h.2, hne⟩⟩
  | peeking =>
    obtain ⟨hbooks, hrest, hne⟩ := h
    obtain ⟨item, hpeek, heq⟩ := Option.map_eq_some_iff.mp hstep
    obtain ⟨rfl, rfl⟩ := Prod.mk.inj heq
    refine ⟨t, .stay htracks hsums ?_ nofun⟩
    intro p hp
    obtain rfl := Option.some.inj hp
    obtain ⟨others, hwaiting⟩ := List.head?_eq_some_iff.mp hpeek
    rw [← htracks.ledger] at hwaiting
    exact ⟨rfl, rfl, hbooks, hrest, others, hwaiting⟩
  | inPop item position => exact advanced_inPop htracks hsums h hstep
  | resolving item => exact ⟨t, advanced_resolving htracks hsums h hstep⟩

end UdpThreads

end FaucetNetworking
