import FaucetNetworking.Lib.SizedQueue

/-!
The bounded queue of datagrams. Its unsigned arithmetic and its loops are only
safe because memSize is the sum of the queued sizes: a subtraction that would
wrap and a loop that would never end are faults of the model. A size_t is a
natural number, which loses nothing because memSize stays below the limit.
-/
namespace FaucetNetworking

open SizedQueue

/-- The buffer is the place of a Buffer that is shared by pointer. -/
structure QueueItem where
  memSize : ℕ
  buffer : ℕ
  remoteHost : String
  remotePort : ℕ
  deriving DecidableEq, Repr

inductive QueueFault where
  | underflow
  | endlessLoop
  deriving DecidableEq, Repr

structure DatagramQueue where
  memSize : ℕ
  memSizeLimit : ℕ
  queue : List QueueItem
  deriving DecidableEq, Repr

namespace DatagramQueue

def DEFAULT_MEM_LIMIT : ℕ := 2 * 1024 * 1024

def new : DatagramQueue := ⟨0, DEFAULT_MEM_LIMIT, []⟩

def subtract (a b : ℕ) : Except QueueFault ℕ := if b ≤ a then .ok (a - b) else .error .underflow

/-- The loop that pops while there is too little room, with the flag that it sets.
On an empty queue pop does nothing, so the condition stays true forever. -/
def popWhile (tooFull : ℕ → Except QueueFault Bool) :
    Bool → ℕ → List QueueItem → Except QueueFault (Bool × ℕ × List QueueItem)
  | discarded, memSize, [] =>
    match tooFull memSize with
    | .error fault => .error fault
    | .ok true => .error .endlessLoop
    | .ok false => .ok (discarded, memSize, [])
  | discarded, memSize, front :: rest =>
    match tooFull memSize with
    | .error fault => .error fault
    | .ok true =>
      match subtract memSize front.memSize with
      | .error fault => .error fault
      | .ok memSize => popWhile tooFull true memSize rest
    | .ok false => .ok (discarded, memSize, front :: rest)

def pop (q : DatagramQueue) : Except QueueFault DatagramQueue :=
  match q.queue with
  | [] => .ok q
  | front :: rest =>
    match subtract q.memSize front.memSize with
    | .error fault => .error fault
    | .ok memSize => .ok { q with memSize := memSize, queue := rest }

/-- The condition of the loop in push. -/
def noRoomFor (q : DatagramQueue) (item : QueueItem) (memSize : ℕ) : Except QueueFault Bool :=
  if memSize > q.memSizeLimit then .ok true
  else
    match subtract q.memSizeLimit memSize with
    | .error fault => .error fault
    | .ok room => .ok (decide (room < item.memSize))

/-- Returns whether datagrams have been discarded. -/
def push (q : DatagramQueue) (item : QueueItem) : Except QueueFault (Bool × DatagramQueue) :=
  if q.memSizeLimit < item.memSize then .ok (true, q)
  else
    match popWhile (q.noRoomFor item) false q.memSize q.queue with
    | .error fault => .error fault
    | .ok (datagramsDiscarded, memSize, queue) =>
      .ok (datagramsDiscarded,
        { q with memSize := memSize + item.memSize, queue := queue ++ [item] })

def peek (q : DatagramQueue) : Option QueueItem := q.queue.head?

def isEmpty (q : DatagramQueue) : Bool := q.queue.isEmpty

def clear (q : DatagramQueue) : DatagramQueue := { q with memSize := 0, queue := [] }

def setMemSizeLimit (q : DatagramQueue) (limit : ℕ) : Except QueueFault DatagramQueue :=
  match popWhile (fun memSize => .ok (decide (memSize > limit))) false q.memSize q.queue with
  | .error fault => .error fault
  | .ok (_, memSize, queue) => .ok ⟨memSize, limit, queue⟩

/-! ### The sum of the sizes -/

/-- What makes the arithmetic safe. -/
structure Consistent (q : DatagramQueue) : Prop where
  sum : q.memSize = total QueueItem.memSize q.queue
  bounded : q.memSize ≤ q.memSizeLimit

theorem subtract_of_le {a b : ℕ} (h : b ≤ a) : subtract a b = .ok (a - b) := if_pos h

theorem consistent_new : new.Consistent := ⟨rfl, Nat.zero_le _⟩

/-- A loop that runs while more than the given room is taken leaves what fits. -/
theorem popWhile_eq {tooFull : ℕ → Except QueueFault Bool} {room : ℕ}
    (hfull : ∀ memSize, tooFull memSize = .ok (decide (room < memSize))) (discarded : Bool)
    (queue : List QueueItem) :
    popWhile tooFull discarded (total QueueItem.memSize queue) queue =
      .ok (discarded || decide (room < total QueueItem.memSize queue),
        total QueueItem.memSize (fit QueueItem.memSize room queue),
        fit QueueItem.memSize room queue) := by
  induction queue generalizing discarded with
  | nil =>
    have hfits : ¬ room < total QueueItem.memSize [] := Nat.not_lt_zero room
    simp only [popWhile, hfull, decide_eq_false hfits, Bool.or_false, fit]
  | cons front rest ih =>
    by_cases h : room < total QueueItem.memSize (front :: rest)
    · have hrest : total QueueItem.memSize (front :: rest) - front.memSize =
          total QueueItem.memSize rest := Nat.add_sub_cancel_left _ _
      have hle : front.memSize ≤ total QueueItem.memSize (front :: rest) := Nat.le_add_right _ _
      simp only [popWhile, hfull, decide_eq_true h, subtract_of_le hle, hrest, ih,
        fit_cons_of_not_fits _ h, Bool.true_or, Bool.or_true]
    · simp only [popWhile, hfull, decide_eq_false h, Bool.or_false,
        fit_of_fits _ (Nat.le_of_not_lt h)]

theorem noRoomFor_eq {q : DatagramQueue} {item : QueueItem} (h : item.memSize ≤ q.memSizeLimit)
    (memSize : ℕ) :
    q.noRoomFor item memSize = .ok (decide (q.memSizeLimit - item.memSize < memSize)) := by
  unfold noRoomFor
  by_cases hover : memSize > q.memSizeLimit
  · have hlt : q.memSizeLimit - item.memSize < memSize := by omega
    rw [if_pos hover, decide_eq_true hlt]
  · have hiff : q.memSizeLimit - memSize < item.memSize ↔
        q.memSizeLimit - item.memSize < memSize := by omega
    rw [if_neg hover, subtract_of_le (Nat.le_of_not_lt hover)]
    simp only [hiff]

theorem push_of_oversize {q : DatagramQueue} {item : QueueItem}
    (h : q.memSizeLimit < item.memSize) : q.push item = .ok (true, q) := if_pos h

theorem push_eq {q : DatagramQueue} (hq : q.Consistent) {item : QueueItem}
    (h : item.memSize ≤ q.memSizeLimit) :
    q.push item = .ok (decide (q.memSizeLimit - item.memSize < q.memSize), { q with
      memSize := total QueueItem.memSize
        (fit QueueItem.memSize (q.memSizeLimit - item.memSize) q.queue) + item.memSize
      queue := fit QueueItem.memSize (q.memSizeLimit - item.memSize) q.queue ++ [item] }) := by
  unfold push
  rw [if_neg (Nat.not_lt_of_le h), hq.sum, popWhile_eq (noRoomFor_eq h)]
  rfl

theorem setMemSizeLimit_eq {q : DatagramQueue} (hq : q.Consistent) (limit : ℕ) :
    q.setMemSizeLimit limit = .ok ⟨total QueueItem.memSize (fit QueueItem.memSize limit q.queue),
      limit, fit QueueItem.memSize limit q.queue⟩ := by
  unfold setMemSizeLimit
  rw [hq.sum, popWhile_eq (fun _ => rfl)]

theorem pop_eq {q : DatagramQueue} (hq : q.Consistent) :
    q.pop = .ok { q with
      memSize := total QueueItem.memSize q.queue.tail
      queue := q.queue.tail } := by
  obtain ⟨memSize, memSizeLimit, queue⟩ := q
  have hsum : memSize = total QueueItem.memSize queue := hq.sum
  subst hsum
  cases queue with
  | nil => rfl
  | cons front rest =>
    have hle : front.memSize ≤ front.memSize + total QueueItem.memSize rest :=
      Nat.le_add_right _ _
    simp only [pop, total, subtract_of_le hle, List.tail_cons, Nat.add_sub_cancel_left]

theorem Consistent.push {q r : DatagramQueue} {item : QueueItem} {discarded : Bool}
    (hq : q.Consistent) (h : q.push item = .ok (discarded, r)) : r.Consistent := by
  by_cases hover : q.memSizeLimit < item.memSize
  · rw [push_of_oversize hover] at h
    injection h with h
    rwa [← (Prod.mk.inj h).2]
  · rw [push_eq hq (Nat.le_of_not_lt hover)] at h
    injection h with h
    rw [← (Prod.mk.inj h).2]
    constructor
    · simp only [total_append, total, Nat.add_zero]
    · have hle := total_fit_le QueueItem.memSize (q.memSizeLimit - item.memSize) q.queue
      change _ + item.memSize ≤ q.memSizeLimit
      omega

theorem Consistent.pop {q r : DatagramQueue} (hq : q.Consistent) (h : q.pop = .ok r) :
    r.Consistent := by
  rw [pop_eq hq] at h
  injection h with h
  rw [← h]
  have hle := total_le_of_suffix QueueItem.memSize (List.tail_suffix q.queue)
  exact ⟨rfl, Nat.le_trans hle (hq.sum ▸ hq.bounded)⟩

theorem Consistent.clear {q : DatagramQueue} (_hq : q.Consistent) : q.clear.Consistent :=
  ⟨rfl, Nat.zero_le _⟩

theorem Consistent.setMemSizeLimit {q r : DatagramQueue} {limit : ℕ} (hq : q.Consistent)
    (h : q.setMemSizeLimit limit = .ok r) : r.Consistent := by
  rw [setMemSizeLimit_eq hq limit] at h
  injection h with h
  rw [← h]
  exact ⟨rfl, total_fit_le QueueItem.memSize limit q.queue⟩

/-! ### Any sequence of operations -/

inductive QueueOperation where
  | push (item : QueueItem)
  | pop
  | clear
  | setMemSizeLimit (limit : ℕ)
  deriving DecidableEq, Repr

def perform (q : DatagramQueue) : QueueOperation → Except QueueFault DatagramQueue
  | .push item => (q.push item).map Prod.snd
  | .pop => q.pop
  | .clear => .ok q.clear
  | .setMemSizeLimit limit => q.setMemSizeLimit limit

def performAll (q : DatagramQueue) : List QueueOperation → Except QueueFault DatagramQueue
  | [] => .ok q
  | operation :: rest => (q.perform operation).bind fun q => q.performAll rest

theorem Consistent.perform {q : DatagramQueue} (hq : q.Consistent)
    (operation : QueueOperation) : ∃ r, q.perform operation = .ok r ∧ r.Consistent := by
  cases operation with
  | push item =>
    by_cases hover : q.memSizeLimit < item.memSize
    · have hpush := push_of_oversize hover
      exact ⟨q, by rw [DatagramQueue.perform, hpush]; rfl, hq⟩
    · have hpush := push_eq hq (Nat.le_of_not_lt hover)
      exact ⟨_, by rw [DatagramQueue.perform, hpush]; rfl, hq.push hpush⟩
  | pop => exact ⟨_, pop_eq hq, hq.pop (pop_eq hq)⟩
  | clear => exact ⟨q.clear, rfl, hq.clear⟩
  | setMemSizeLimit limit =>
    have hlimit := setMemSizeLimit_eq hq limit
    exact ⟨_, hlimit, hq.setMemSizeLimit hlimit⟩

theorem Consistent.performAll {q : DatagramQueue} (hq : q.Consistent)
    (operations : List QueueOperation) :
    ∃ r, q.performAll operations = .ok r ∧ r.Consistent := by
  induction operations generalizing q with
  | nil => exact ⟨q, rfl, hq⟩
  | cons operation rest ih =>
    obtain ⟨r, hr, hconsistent⟩ := hq.perform operation
    obtain ⟨t, ht, hlast⟩ := ih hconsistent
    exact ⟨t, by rw [DatagramQueue.performAll, hr]; exact ht, hlast⟩

/-- What the next push and the next setMemSizeLimit keep of a queue. -/
structure DropsOldest (q : DatagramQueue) : Prop where
  sum : q.memSize = total QueueItem.memSize q.queue
  bounded : q.memSize ≤ q.memSizeLimit
  oversize : ∀ item, q.memSizeLimit < item.memSize → q.push item = .ok (true, q)
  push : ∀ item, item.memSize ≤ q.memSizeLimit → ∃ discarded r kept,
    q.push item = .ok (discarded, r) ∧ r.queue = kept ++ [item] ∧
      IsLongestSuffix (fun kept => total QueueItem.memSize (kept ++ [item]) ≤ q.memSizeLimit)
        q.queue kept ∧
      (discarded = true ↔ kept ≠ q.queue)
  setMemSizeLimit : ∀ limit, ∃ r, q.setMemSizeLimit limit = .ok r ∧ r.memSizeLimit = limit ∧
    IsLongestSuffix (fun kept => total QueueItem.memSize kept ≤ limit) q.queue r.queue

theorem Consistent.dropsOldest {q : DatagramQueue} (hq : q.Consistent) : q.DropsOldest where
  sum := hq.sum
  bounded := hq.bounded
  oversize := fun _ => push_of_oversize
  push := by
    intro item hitem
    refine ⟨_, _, _, push_eq hq hitem, rfl, ?_, ?_⟩
    · have hlongest := fit_isLongestSuffix QueueItem.memSize
        (q.memSizeLimit - item.memSize) q.queue
      have hallowed : ∀ kept, total QueueItem.memSize (kept ++ [item]) ≤ q.memSizeLimit ↔
          total QueueItem.memSize kept ≤ q.memSizeLimit - item.memSize := by
        intro kept
        simp only [total_append, total]
        omega
      simpa only [hallowed] using hlongest
    · rw [decide_eq_true_eq, fit_ne_self_iff, hq.sum]
  setMemSizeLimit := fun limit =>
    ⟨_, setMemSizeLimit_eq hq limit, rfl, fit_isLongestSuffix QueueItem.memSize limit q.queue⟩

/-- No sequence of operations on a new queue faults, and the queue afterwards
drops the oldest datagrams first and no more than necessary. -/
theorem dropsOldest_of_performAll (operations : List QueueOperation) :
    ∃ q, new.performAll operations = .ok q ∧ q.DropsOldest := by
  obtain ⟨q, hq, hconsistent⟩ := consistent_new.performAll operations
  exact ⟨q, hq, hconsistent.dropsOldest⟩

end DatagramQueue

end FaucetNetworking
