import FaucetNetworking.Lib.Ledger
import FaucetNetworking.Udp.DatagramQueue

/-!
A datagram queue with the ledger of its datagrams. The queue is in a consistent
state, so its operations cannot fault, and its items are those of the entries
that are waiting in the ledger.
-/
namespace FaucetNetworking

open SizedQueue

/-- A datagram with the address and the port it goes to or comes from. -/
structure Datagram where
  payload : List UInt8
  host : String
  port : ℕ
  deriving DecidableEq, Repr

structure TrackedQueue where
  queue : DatagramQueue
  ledger : Ledger (QueueItem × Datagram)
  consistent : queue.Consistent
  balanced : ledger.Balanced
  tracks : queue.queue = ledger.waiting.map Prod.fst

namespace TrackedQueue

def new : TrackedQueue where
  queue := .new
  ledger := .empty
  consistent := DatagramQueue.consistent_new
  balanced := Ledger.balanced_empty
  tracks := rfl

def isEmpty (q : TrackedQueue) : Bool := q.queue.isEmpty

def waiting (q : TrackedQueue) : List (QueueItem × Datagram) := q.ledger.waiting

theorem length_waiting (q : TrackedQueue) : q.ledger.waiting.length = q.queue.queue.length := by
  rw [q.tracks, List.length_map]

/-- The first entries leave so that a suffix of the queue is left. -/
theorem tracks_leave (q : TrackedQueue) {kept : List QueueItem} (h : kept <:+ q.queue.queue)
    (fate : Fate) :
    kept = (q.ledger.leave (q.queue.queue.length - kept.length) fate).waiting.map Prod.fst := by
  have hdrop := List.suffix_iff_eq_drop.mp h
  rw [Ledger.waiting_leave, List.map_drop, ← q.tracks]
  exact hdrop

theorem balanced_leave (q : TrackedQueue) {count : ℕ} (h : count ≤ q.queue.queue.length)
    (fate : Fate) : (q.ledger.leave count fate).Balanced :=
  q.balanced.leave (Nat.le_trans h (Nat.le_of_eq q.length_waiting.symm)) fate

/-- The ledger when the queue has become r by pushing an entry. -/
def ledgerAfterPush (q : TrackedQueue) (r : DatagramQueue) (entry : QueueItem × Datagram) :
    Ledger (QueueItem × Datagram) :=
  if q.queue.memSizeLimit < entry.1.memSize then q.ledger.offer entry false
  else (q.ledger.leave (q.queue.queue.length + 1 - r.queue.length) .evicted).offer entry true

theorem kept_of_push {q : DatagramQueue} (hq : q.Consistent) {item : QueueItem}
    (hitem : ¬ q.memSizeLimit < item.memSize) {discarded : Bool} {r : DatagramQueue}
    (h : q.push item = .ok (discarded, r)) :
    ∃ kept, kept <:+ q.queue ∧ r.queue = kept ++ [item] ∧
      q.queue.length + 1 - r.queue.length = q.queue.length - kept.length := by
  rw [DatagramQueue.push_eq hq (Nat.le_of_not_lt hitem)] at h
  injection h with h
  have hqueue : r.queue = fit QueueItem.memSize (q.memSizeLimit - item.memSize) q.queue ++
      [item] := by rw [← (Prod.mk.inj h).2]
  refine ⟨_, fit_suffix _ _ _, hqueue, ?_⟩
  rw [hqueue, List.length_append, List.length_singleton]
  omega

theorem balanced_afterPush (q : TrackedQueue) {entry : QueueItem × Datagram} {discarded : Bool}
    {r : DatagramQueue} (h : q.queue.push entry.1 = .ok (discarded, r)) :
    (q.ledgerAfterPush r entry).Balanced := by
  unfold ledgerAfterPush
  by_cases hover : q.queue.memSizeLimit < entry.1.memSize
  · rw [if_pos hover]
    exact q.balanced.offer entry false
  · obtain ⟨kept, -, -, hcount⟩ := kept_of_push q.consistent hover h
    rw [if_neg hover, hcount]
    exact (q.balanced_leave (Nat.sub_le _ _) _).offer entry true

theorem tracks_afterPush (q : TrackedQueue) {entry : QueueItem × Datagram} {discarded : Bool}
    {r : DatagramQueue} (h : q.queue.push entry.1 = .ok (discarded, r)) :
    r.queue = (q.ledgerAfterPush r entry).waiting.map Prod.fst := by
  unfold ledgerAfterPush
  by_cases hover : q.queue.memSizeLimit < entry.1.memSize
  · rw [if_pos hover, Ledger.waiting_offer_false]
    rw [DatagramQueue.push_of_oversize hover] at h
    injection h with h
    rw [← (Prod.mk.inj h).2]
    exact q.tracks
  · obtain ⟨kept, hsuffix, hqueue, hcount⟩ := kept_of_push q.consistent hover h
    have hbalanced := q.balanced_leave (Nat.sub_le q.queue.queue.length kept.length) .evicted
    rw [if_neg hover, hcount, Ledger.waiting_offer_true hbalanced, List.map_append,
      ← q.tracks_leave hsuffix]
    exact hqueue

theorem push_ne_error (q : TrackedQueue) (item : QueueItem) (fault : QueueFault) :
    q.queue.push item ≠ .error fault := by
  intro h
  by_cases hover : q.queue.memSizeLimit < item.memSize
  · rw [DatagramQueue.push_of_oversize hover] at h
    contradiction
  · rw [DatagramQueue.push_eq q.consistent (Nat.le_of_not_lt hover)] at h
    contradiction

/-- Returns whether datagrams have been discarded. -/
def push (q : TrackedQueue) (item : QueueItem) (datagram : Datagram) : Bool × TrackedQueue :=
  match h : q.queue.push item with
  | .error fault => absurd h (q.push_ne_error item fault)
  | .ok (discarded, r) =>
    (discarded,
      { queue := r
        ledger := q.ledgerAfterPush r (item, datagram)
        consistent := q.consistent.push h
        balanced := q.balanced_afterPush h
        tracks := q.tracks_afterPush h })

def pop (q : TrackedQueue) : TrackedQueue :=
  match h : q.queue.pop with
  | .error fault => absurd h (by rw [DatagramQueue.pop_eq q.consistent]; exact nofun)
  | .ok r =>
    { queue := r
      ledger := q.ledger.leave (q.queue.queue.length - r.queue.length) .taken
      consistent := q.consistent.pop h
      balanced := q.balanced_leave (Nat.sub_le _ _) .taken
      tracks := by
        apply q.tracks_leave
        rw [DatagramQueue.pop_eq q.consistent] at h
        rw [← Except.ok.inj h]
        exact List.tail_suffix q.queue.queue }

def clear (q : TrackedQueue) : TrackedQueue where
  queue := q.queue.clear
  ledger := q.ledger.leave q.queue.queue.length .cleared
  consistent := q.consistent.clear
  balanced := q.balanced_leave (Nat.le_refl _) .cleared
  tracks := q.tracks_leave (List.nil_suffix) .cleared

def setMemSizeLimit (q : TrackedQueue) (limit : ℕ) : TrackedQueue :=
  match h : q.queue.setMemSizeLimit limit with
  | .error fault =>
    absurd h (by rw [DatagramQueue.setMemSizeLimit_eq q.consistent]; exact nofun)
  | .ok r =>
    { queue := r
      ledger := q.ledger.leave (q.queue.queue.length - r.queue.length) .evicted
      consistent := q.consistent.setMemSizeLimit h
      balanced := q.balanced_leave (Nat.sub_le _ _) .evicted
      tracks := by
        apply q.tracks_leave
        rw [DatagramQueue.setMemSizeLimit_eq q.consistent] at h
        rw [← Except.ok.inj h]
        exact fit_suffix _ _ _ }

/-! ### What the operations do to the ledger -/

theorem queue_push (q : TrackedQueue) (item : QueueItem) (datagram : Datagram) :
    q.queue.push item = .ok ((q.push item datagram).1, (q.push item datagram).2.queue) ∧
      (q.push item datagram).2.ledger =
        q.ledgerAfterPush (q.push item datagram).2.queue (item, datagram) := by
  unfold push
  split
  · rename_i fault h
    exact absurd h (q.push_ne_error item fault)
  · rename_i discarded r h
    exact ⟨h, rfl⟩

/-- The longest part of the queue that fits beside a new item. -/
def KeptBeside (q : TrackedQueue) (item : QueueItem) (kept : List QueueItem) : Prop :=
  IsLongestSuffix (fun kept => total QueueItem.memSize (kept ++ [item]) ≤ q.queue.memSizeLimit)
    q.queue.queue kept

/-- A datagram is refused because it is larger than the limit, or it enters behind
those that have not been evicted for it. -/
theorem ledger_push (q : TrackedQueue) (item : QueueItem) (datagram : Datagram) :
    (q.queue.memSizeLimit < item.memSize ∧
        (q.push item datagram).2.ledger = q.ledger.offer (item, datagram) false) ∨
      (item.memSize ≤ q.queue.memSizeLimit ∧ ∃ count, count ≤ q.ledger.waiting.length ∧
        (q.push item datagram).2.ledger =
          (q.ledger.leave count .evicted).offer (item, datagram) true ∧
        q.KeptBeside item (q.queue.queue.drop count)) := by
  obtain ⟨hpush, hledger⟩ := q.queue_push item datagram
  rw [hledger]
  unfold ledgerAfterPush
  by_cases hover : q.queue.memSizeLimit < item.memSize
  · left
    rw [if_pos hover]
    exact ⟨hover, rfl⟩
  · right
    have hfits := Nat.le_of_not_lt hover
    obtain ⟨kept, hsuffix, hqueue, hcount⟩ := kept_of_push q.consistent hover hpush
    rw [if_neg hover, hcount]
    refine ⟨hfits, _, ?_, rfl, ?_⟩
    · rw [q.length_waiting]
      exact Nat.sub_le _ _
    · obtain ⟨discarded, r, kept', hpush', hqueue', hlongest, -⟩ :=
        q.consistent.dropsOldest.push item hfits
      rw [hpush] at hpush'
      rw [← (Prod.mk.inj (Except.ok.inj hpush')).2, hqueue] at hqueue'
      rw [← List.suffix_iff_eq_drop.mp hsuffix, List.append_cancel_right hqueue']
      exact hlongest

theorem memSizeLimit_push (q : TrackedQueue) (item : QueueItem) (datagram : Datagram) :
    (q.push item datagram).2.queue.memSizeLimit = q.queue.memSizeLimit := by
  obtain ⟨hpush, -⟩ := q.queue_push item datagram
  by_cases hover : q.queue.memSizeLimit < item.memSize
  · rw [DatagramQueue.push_of_oversize hover] at hpush
    rw [← (Prod.mk.inj (Except.ok.inj hpush)).2]
  · rw [DatagramQueue.push_eq q.consistent (Nat.le_of_not_lt hover)] at hpush
    rw [← (Prod.mk.inj (Except.ok.inj hpush)).2]

theorem queue_pop (q : TrackedQueue) : q.queue.pop = .ok q.pop.queue ∧
    q.pop.ledger = q.ledger.leave (q.queue.queue.length - q.pop.queue.queue.length) .taken := by
  unfold pop
  split
  · rename_i fault h
    rw [DatagramQueue.pop_eq q.consistent] at h
    contradiction
  · rename_i r h
    exact ⟨h, rfl⟩

theorem queue_queue_pop (q : TrackedQueue) : q.pop.queue.queue = q.queue.queue.tail := by
  have hpop := q.queue_pop.1
  rw [DatagramQueue.pop_eq q.consistent] at hpop
  rw [← Except.ok.inj hpop]

theorem memSizeLimit_pop (q : TrackedQueue) :
    q.pop.queue.memSizeLimit = q.queue.memSizeLimit := by
  have hpop := q.queue_pop.1
  rw [DatagramQueue.pop_eq q.consistent] at hpop
  rw [← Except.ok.inj hpop]

theorem ledger_pop (q : TrackedQueue) (h : q.queue.queue ≠ []) :
    q.pop.ledger = q.ledger.leave 1 .taken := by
  have hlength := List.length_pos_iff.mpr h
  have hone : q.queue.queue.length - q.queue.queue.tail.length = 1 := by
    rw [List.length_tail]
    omega
  rw [q.queue_pop.2, q.queue_queue_pop, hone]

theorem ledger_clear (q : TrackedQueue) :
    q.clear.ledger = q.ledger.leave q.ledger.waiting.length .cleared := by
  rw [q.length_waiting]
  rfl

theorem ledger_setMemSizeLimit (q : TrackedQueue) (limit : ℕ) :
    ∃ count, count ≤ q.ledger.waiting.length ∧
      (q.setMemSizeLimit limit).ledger = q.ledger.leave count .evicted := by
  unfold setMemSizeLimit
  split
  · rename_i fault h
    rw [DatagramQueue.setMemSizeLimit_eq q.consistent] at h
    contradiction
  · rename_i r h
    refine ⟨_, ?_, rfl⟩
    rw [q.length_waiting]
    exact Nat.sub_le _ _

/-! ### What they do to the entries -/

/-- The entries of r are the last ones of q, and the others did not leave by being
taken. -/
structure Dropped (q r : TrackedQueue) : Prop where
  waiting : ∃ count, r.ledger.waiting = q.ledger.waiting.drop count
  taken : r.ledger.taken = q.ledger.taken
  offered : r.ledger.offered = q.ledger.offered

theorem dropped_of_leave {q r : TrackedQueue} {count : ℕ} {fate : Fate} (hfate : fate ≠ .taken)
    (h : r.ledger = q.ledger.leave count fate) : Dropped q r where
  waiting := ⟨count, by rw [h, Ledger.waiting_leave]⟩
  taken := by rw [h, Ledger.taken_leave_of_ne q.balanced count hfate]
  offered := by rw [h]; rfl

theorem dropped_clear (q : TrackedQueue) : Dropped q q.clear :=
  dropped_of_leave (by decide) q.ledger_clear

theorem dropped_setMemSizeLimit (q : TrackedQueue) (limit : ℕ) :
    Dropped q (q.setMemSizeLimit limit) := by
  obtain ⟨count, -, hledger⟩ := q.ledger_setMemSizeLimit limit
  exact dropped_of_leave (by decide) hledger

/-- The entries after a push. -/
structure Pushed (q r : TrackedQueue) (entry : QueueItem × Datagram) (accepted : Bool) :
    Prop where
  waiting : ∃ count, r.ledger.waiting =
    q.ledger.waiting.drop count ++ if accepted then [entry] else []
  taken : r.ledger.taken = q.ledger.taken
  offered : r.ledger.offered = q.ledger.offered ++ [(entry, accepted)]
  accepted_iff : accepted = true ↔ entry.1.memSize ≤ q.queue.memSizeLimit
  evicted : ∃ count, r.ledger.fates = q.ledger.fates ++ List.replicate count .evicted ∧
    (accepted = true → q.KeptBeside entry.1 (q.queue.queue.drop count))
  memSizeLimit : r.queue.memSizeLimit = q.queue.memSizeLimit

theorem pushed_push (q : TrackedQueue) (item : QueueItem) (datagram : Datagram) :
    ∃ accepted, Pushed q (q.push item datagram).2 (item, datagram) accepted := by
  have hlimit := q.memSizeLimit_push item datagram
  rcases q.ledger_push item datagram with
    ⟨hover, hledger⟩ | ⟨hfits, count, hcount, hledger, hkept⟩
  · refine ⟨false, ⟨0, ?_⟩, ?_, ?_, ?_, ⟨0, ?_, nofun⟩, hlimit⟩
    · rw [hledger, Ledger.waiting_offer_false, if_neg (by decide), List.drop_zero,
        List.append_nil]
    · rw [hledger, Ledger.taken_offer q.balanced]
    · rw [hledger]
      rfl
    · simp only [Bool.false_eq_true, false_iff]
      exact Nat.not_le_of_lt hover
    · rw [hledger, List.replicate_zero, List.append_nil]
      rfl
  · have hbalanced := q.balanced.leave hcount .evicted
    refine ⟨true, ⟨count, ?_⟩, ?_, ?_, ?_, ⟨count, ?_, fun _ => hkept⟩, hlimit⟩
    · rw [hledger, Ledger.waiting_offer_true hbalanced, Ledger.waiting_leave, if_pos rfl]
    · rw [hledger, Ledger.taken_offer hbalanced,
        Ledger.taken_leave_of_ne q.balanced count (by decide)]
    · rw [hledger]
      rfl
    · simp only [true_iff]
      exact hfits
    · rw [hledger]
      rfl

theorem Pushed.entered {q r : TrackedQueue} {entry : QueueItem × Datagram}
    (h : Pushed q r entry true) : r.ledger.entered = q.ledger.entered ++ [entry] := by
  unfold Ledger.entered
  rw [h.offered, List.filter_append, List.map_append]
  rfl

theorem Pushed.mem_waiting {q r : TrackedQueue} {entry other : QueueItem × Datagram}
    {accepted : Bool} (h : Pushed q r entry accepted) (hother : other ∈ r.ledger.waiting) :
    other ∈ q.ledger.waiting ∨ other = entry := by
  obtain ⟨count, hwaiting⟩ := h.waiting
  rw [hwaiting] at hother
  rcases List.mem_append.mp hother with hold | hnew
  · exact Or.inl (List.mem_of_mem_drop hold)
  · cases accepted with
    | false => exact absurd hnew List.not_mem_nil
    | true => exact Or.inr (List.mem_singleton.mp hnew)

theorem Dropped.mem_waiting {q r : TrackedQueue} {other : QueueItem × Datagram}
    (h : Dropped q r) (hother : other ∈ r.ledger.waiting) : other ∈ q.ledger.waiting := by
  obtain ⟨count, hwaiting⟩ := h.waiting
  rw [hwaiting] at hother
  exact List.mem_of_mem_drop hother

/-- The entry whose item is at the front is the one that pop takes. -/
theorem pop_of_cons {q : TrackedQueue} {item : QueueItem} {rest : List QueueItem}
    (h : q.queue.queue = item :: rest) : ∃ datagram others,
      q.ledger.waiting = (item, datagram) :: others ∧ q.pop.ledger.waiting = others ∧
      q.pop.ledger.taken = q.ledger.taken ++ [(item, datagram)] ∧
      q.pop.ledger.offered = q.ledger.offered := by
  have hne : q.queue.queue ≠ [] := by
    rw [h]
    exact List.cons_ne_nil item rest
  have htracks := q.tracks
  rw [h] at htracks
  obtain ⟨entry, others, hwaiting, rfl, -⟩ := List.map_eq_cons_iff.mp htracks.symm
  refine ⟨entry.2, others, hwaiting, ?_, ?_, ?_⟩
  · rw [q.ledger_pop hne, Ledger.waiting_leave, hwaiting]
    rfl
  · rw [q.ledger_pop hne, Ledger.taken_leave_one q.balanced hwaiting]
  · rw [q.ledger_pop hne]
    rfl

end TrackedQueue

end FaucetNetworking
