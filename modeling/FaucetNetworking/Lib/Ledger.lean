import Mathlib.Data.Nat.Notation

/-!
The ledger of a queue: everything that was offered to it, whether it was let in,
and how the entries left. Entries leave in the order in which they entered, so
the fates are a list that starts with the fate of the first entry.
-/

/-- How an entry left its queue. -/
inductive Fate where
  | taken
  | evicted
  | cleared
  deriving DecidableEq, Repr

structure Ledger (α : Type*) where
  offered : List (α × Bool)
  fates : List Fate

namespace Ledger

variable {α : Type*}

def empty : Ledger α := ⟨[], []⟩

def offer (l : Ledger α) (x : α) (accepted : Bool) : Ledger α :=
  { l with offered := l.offered ++ [(x, accepted)] }

/-- The first entries that are still waiting leave. -/
def leave (l : Ledger α) (count : ℕ) (fate : Fate) : Ledger α :=
  { l with fates := l.fates ++ List.replicate count fate }

def entered (l : Ledger α) : List α := (l.offered.filter Prod.snd).map Prod.fst

def waiting (l : Ledger α) : List α := l.entered.drop l.fates.length

/-- The entries that left by being taken. -/
def taken (l : Ledger α) : List α :=
  ((l.entered.zip l.fates).filter fun entry => entry.2 == .taken).map Prod.fst

/-- Only entries have left. -/
def Balanced (l : Ledger α) : Prop := l.fates.length ≤ l.entered.length

theorem balanced_empty : (empty : Ledger α).Balanced := Nat.le_refl 0

@[simp] theorem entered_offer_true (l : Ledger α) (x : α) :
    (l.offer x true).entered = l.entered ++ [x] := by
  simp only [entered, offer, List.filter_append, List.filter_cons_of_pos, List.filter_nil,
    List.map_append, List.map_cons, List.map_nil]

@[simp] theorem entered_offer_false (l : Ledger α) (x : α) :
    (l.offer x false).entered = l.entered := by
  simp only [entered, offer, List.filter_append, Bool.false_eq_true, not_false_eq_true,
    List.filter_cons_of_neg, List.filter_nil, List.append_nil]

@[simp] theorem entered_leave (l : Ledger α) (count : ℕ) (fate : Fate) :
    (l.leave count fate).entered = l.entered := rfl

/-- What has left, and behind it what is waiting. -/
theorem entered_eq (l : Ledger α) : l.entered = l.entered.take l.fates.length ++ l.waiting :=
  (List.take_append_drop l.fates.length l.entered).symm

theorem entered_sublist (l : Ledger α) : l.entered.Sublist (l.offered.map Prod.fst) :=
  (List.filter_sublist).map Prod.fst

theorem map_fst_zip_sublist (xs : List α) (fates : List Fate) :
    ((xs.zip fates).map Prod.fst).Sublist xs := by
  induction xs generalizing fates with
  | nil => exact List.Sublist.refl []
  | cons x rest ih =>
    cases fates with
    | nil => exact List.nil_sublist _
    | cons fate fates => exact (ih fates).cons_cons x

theorem taken_sublist (l : Ledger α) : l.taken.Sublist l.entered :=
  ((List.filter_sublist).map Prod.fst).trans (map_fst_zip_sublist l.entered l.fates)

theorem Balanced.length_waiting {l : Ledger α} (h : l.Balanced) :
    l.fates.length + l.waiting.length = l.entered.length := by
  unfold Balanced at h
  unfold waiting
  rw [List.length_drop]
  omega

theorem Balanced.offer {l : Ledger α} (h : l.Balanced) (x : α) (accepted : Bool) :
    (l.offer x accepted).Balanced := by
  unfold Balanced at h ⊢
  cases accepted with
  | false => rwa [entered_offer_false]
  | true =>
    rw [entered_offer_true, List.length_append]
    exact Nat.le_trans h (Nat.le_add_right _ _)

theorem Balanced.leave {l : Ledger α} (h : l.Balanced) {count : ℕ}
    (hcount : count ≤ l.waiting.length) (fate : Fate) : (l.leave count fate).Balanced := by
  have hlength := h.length_waiting
  unfold Balanced
  rw [entered_leave]
  simp only [Ledger.leave, List.length_append, List.length_replicate]
  omega

theorem waiting_offer_true {l : Ledger α} (h : l.Balanced) (x : α) :
    (l.offer x true).waiting = l.waiting ++ [x] := by
  unfold waiting
  rw [entered_offer_true]
  exact List.drop_append_of_le_length h

@[simp] theorem waiting_offer_false (l : Ledger α) (x : α) :
    (l.offer x false).waiting = l.waiting := by
  unfold waiting
  rw [entered_offer_false]
  rfl

@[simp] theorem waiting_leave (l : Ledger α) (count : ℕ) (fate : Fate) :
    (l.leave count fate).waiting = l.waiting.drop count := by
  unfold waiting
  rw [entered_leave, List.drop_drop]
  simp only [leave, List.length_append, List.length_replicate]

/-- Fates that are given to the first part of a list do not reach behind it. -/
theorem zip_append_of_le (front back : List α) (fates : List Fate)
    (h : fates.length ≤ front.length) : (front ++ back).zip fates = front.zip fates := by
  induction front generalizing fates with
  | nil =>
    rw [List.length_eq_zero_iff.mp (Nat.le_zero.mp h)]
    simp only [List.zip_nil_right]
  | cons x rest ih =>
    cases fates with
    | nil => simp only [List.zip_nil_right]
    | cons fate fates =>
      have hrest := ih fates (Nat.le_of_succ_le_succ h)
      simp only [List.cons_append, List.zip_cons_cons, hrest]

theorem taken_offer {l : Ledger α} (h : l.Balanced) (x : α) (accepted : Bool) :
    (l.offer x accepted).taken = l.taken := by
  cases accepted with
  | false =>
    unfold taken
    rw [entered_offer_false]
    rfl
  | true =>
    have hfates : (l.offer x true).fates = l.fates := rfl
    unfold taken
    rw [entered_offer_true, hfates, zip_append_of_le l.entered [x] l.fates h]

/-- The fates of the entries that leave now stand behind all earlier ones. -/
theorem zip_leave {l : Ledger α} (h : l.Balanced) (count : ℕ) (fate : Fate) :
    (l.leave count fate).entered.zip (l.leave count fate).fates =
      l.entered.zip l.fates ++ l.waiting.zip (List.replicate count fate) := by
  have hlength : (l.entered.take l.fates.length).length = l.fates.length :=
    List.length_take_of_le h
  have hleft : l.entered.zip l.fates = (l.entered.take l.fates.length).zip l.fates := by
    have hzip := zip_append_of_le (l.entered.take l.fates.length) l.waiting l.fates
      (Nat.le_of_eq hlength.symm)
    rwa [← entered_eq] at hzip
  rw [entered_leave, hleft, ← List.zip_append hlength, ← entered_eq]
  rfl

theorem taken_leave_of_ne {l : Ledger α} (h : l.Balanced) (count : ℕ) {fate : Fate}
    (hfate : fate ≠ .taken) : (l.leave count fate).taken = l.taken := by
  have hnone : (l.waiting.zip (List.replicate count fate)).filter
      (fun entry => entry.2 == .taken) = [] := by
    apply List.filter_eq_nil_iff.mpr
    rintro ⟨x, f⟩ hmem
    have hf : f = fate := List.eq_of_mem_replicate (List.of_mem_zip hmem).2
    simpa only [hf, beq_iff_eq] using hfate
  unfold taken
  rw [zip_leave h, List.filter_append, hnone, List.append_nil]

theorem taken_leave_one {l : Ledger α} (h : l.Balanced) {x : α} {rest : List α}
    (hwaiting : l.waiting = x :: rest) : (l.leave 1 .taken).taken = l.taken ++ [x] := by
  unfold taken
  rw [zip_leave h, hwaiting, List.filter_append, List.map_append]
  simp only [List.replicate_one, List.zip_cons_cons, List.zip_nil_right, beq_self_eq_true,
    List.filter_cons_of_pos, List.filter_nil, List.map_cons, List.map_nil]

end Ledger
