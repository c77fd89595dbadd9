import FaucetNetworking.Lib.StateMachine
import Mathlib.Data.List.Basic

/-!
Objects on a heap that is never compacted, so that a place stands for one object. Each object
is a state machine of its own, and one at a time takes a step. What has happened to an object
is a run of its machine, whatever the others have done meanwhile.
-/
namespace ObjectHeap

open StateMachine

variable {α ε : Type*}

/-- An object is put behind the others, or one of them takes a step. -/
inductive Change (α ε : Type*) where
  | create (a : α)
  | step (place : ℕ) (e : ε)

def apply (step : α → ε → Option α) (heap : List α) : Change α ε → Option (List α)
  | .create a => some (heap ++ [a])
  | .step place e => heap[place]?.bind fun a => (step a e).map (heap.set place)

/-- What a change is to the object at a place. -/
def Change.eventAt (place : ℕ) : Change α ε → List ε
  | .create _ => []
  | .step p e => if p = place then [e] else []

def eventsAt (place : ℕ) (changes : List (Change α ε)) : List ε :=
  changes.flatMap (Change.eventAt place)

theorem Change.eventAt_step_self (place : ℕ) (e : ε) :
    (Change.step place e : Change α ε).eventAt place = [e] := if_pos rfl

theorem Change.eventAt_step_of_ne {place p : ℕ} (h : p ≠ place) (e : ε) :
    (Change.step p e : Change α ε).eventAt place = [] := if_neg h

variable {step : α → ε → Option α} {heap heap' : List α} {place : ℕ} {a b : α}

theorem apply_step_eq_some_iff {e : ε} : apply step heap (.step place e) = some heap' ↔
    ∃ a b, heap[place]? = some a ∧ step a e = some b ∧ heap' = heap.set place b := by
  unfold apply
  simp only [Option.bind_eq_some_iff, Option.map_eq_some_iff]
  constructor
  · rintro ⟨a, ha, b, hb, rfl⟩
    exact ⟨a, b, ha, hb, rfl⟩
  · rintro ⟨a, b, ha, hb, rfl⟩
    exact ⟨a, ha, b, hb, rfl⟩

/-- A change is a run of each object that is on the heap. -/
theorem run_of_apply {change : Change α ε} (h : apply step heap change = some heap')
    (ha : heap[place]? = some a) :
    ∃ b, heap'[place]? = some b ∧ run step a (change.eventAt place) = some b := by
  cases change with
  | create c =>
    obtain rfl := Option.some.inj h
    have hlt : place < heap.length := (List.getElem?_eq_some_iff.mp ha).1
    exact ⟨a, by rw [List.getElem?_append_left hlt, ha], rfl⟩
  | step p e =>
    obtain ⟨c, d, hc, hd, rfl⟩ := apply_step_eq_some_iff.mp h
    by_cases hp : p = place
    · subst p
      obtain rfl := Option.some.inj (ha.symm.trans hc)
      have hlt : place < heap.length := (List.getElem?_eq_some_iff.mp ha).1
      rw [Change.eventAt_step_self]
      exact ⟨d, List.getElem?_set_self hlt, (run_cons_eq_some_iff step a d e []).mpr ⟨d, hd, rfl⟩⟩
    · rw [Change.eventAt_step_of_ne hp]
      exact ⟨a, by rw [List.getElem?_set_ne hp, ha], rfl⟩

theorem run_object {changes : List (Change α ε)}
    (hrun : run (apply step) heap changes = some heap') (ha : heap[place]? = some a) :
    ∃ b, heap'[place]? = some b ∧ run step a (eventsAt place changes) = some b := by
  induction changes generalizing heap a with
  | nil =>
    obtain rfl := Option.some.inj hrun
    exact ⟨a, ha, rfl⟩
  | cons change changes ih =>
    obtain ⟨middle, hchange, hrest⟩ := (run_cons_eq_some_iff _ _ _ _ _).mp hrun
    obtain ⟨c, hc, hfirst⟩ := run_of_apply hchange ha
    obtain ⟨b, hb, hlast⟩ := ih hrest hc
    exact ⟨b, hb, run_append_eq_some hfirst hlast⟩

/-- An object that comes onto the heap in a change has had no event before. -/
theorem eventAt_of_created {change : Change α ε} (h : apply step heap change = some heap')
    (hnew : heap[place]? = none) (hb : heap'[place]? = some b) :
    change = .create b ∧ change.eventAt place = [] := by
  have hle : heap.length ≤ place := List.getElem?_eq_none_iff.mp hnew
  cases change with
  | create c =>
    obtain rfl := Option.some.inj h
    rw [List.getElem?_append_right hle] at hb
    have hlast : place - heap.length = 0 := by
      by_contra hne
      rw [List.getElem?_eq_none (by rw [List.length_singleton]; omega)] at hb
      contradiction
    rw [hlast] at hb
    obtain rfl := Option.some.inj hb
    exact ⟨rfl, rfl⟩
  | step p e =>
    obtain ⟨c, d, -, -, rfl⟩ := apply_step_eq_some_iff.mp h
    have hnone : (heap.set p d)[place]? = none :=
      List.getElem?_eq_none (by rw [List.length_set]; exact hle)
    rw [hnone] at hb
    contradiction

theorem eventAt_of_absent {change : Change α ε} (h : apply step heap change = some heap')
    (hnew : heap'[place]? = none) : change.eventAt place = [] := by
  cases change with
  | create c => rfl
  | step p e =>
    obtain ⟨c, d, hc, -, rfl⟩ := apply_step_eq_some_iff.mp h
    apply Change.eventAt_step_of_ne
    rintro rfl
    rw [List.getElem?_set_self (List.getElem?_eq_some_iff.mp hc).1] at hnew
    contradiction

/-- Whatever is on the heap at the end has been put there by a change, and all events at its
place are those of its run. -/
theorem run_created {changes : List (Change α ε)}
    (hrun : run (apply step) heap changes = some heap') (hnew : heap[place]? = none)
    (hb : heap'[place]? = some b) :
    ∃ a, .create a ∈ changes ∧ run step a (eventsAt place changes) = some b := by
  induction changes generalizing heap with
  | nil =>
    obtain rfl := Option.some.inj hrun
    rw [hnew] at hb
    contradiction
  | cons change changes ih =>
    obtain ⟨middle, hchange, hrest⟩ := (run_cons_eq_some_iff _ _ _ _ _).mp hrun
    have hsplit : eventsAt place (change :: changes) =
      change.eventAt place ++ eventsAt place changes := List.flatMap_cons
    rw [hsplit]
    cases hmiddle : middle[place]? with
    | none =>
      rw [eventAt_of_absent hchange hmiddle, List.nil_append]
      obtain ⟨a, ha, hlast⟩ := ih hrest hmiddle
      exact ⟨a, List.mem_cons_of_mem _ ha, hlast⟩
    | some c =>
      obtain ⟨rfl, hnone⟩ := eventAt_of_created hchange hnew hmiddle
      obtain ⟨d, hd, hlast⟩ := run_object hrest hmiddle
      obtain rfl := Option.some.inj (hb.symm.trans hd)
      rw [hnone, List.nil_append]
      exact ⟨c, List.mem_cons_self, hlast⟩

/-! ### Steps that can be exchanged -/

section

variable {ρ : Type*}

/-- One object is changed, and something is learned of it. -/
def modify (f : α → Option (ρ × α)) (heap : List α) (place : ℕ) : Option (ρ × List α) :=
  heap[place]?.bind fun a => (f a).map fun r => (r.1, heap.set place r.2)

/-- Changes of two objects can be exchanged, and so can those of one object when they can be
exchanged there. -/
theorem modify_exchange {f : α → Option (ρ × α)} {p : ℕ} {e : ε}
    (h : place = p → ∀ a, heap[p]? = some a →
      (f a).bind (fun r => (step r.2 e).map (Prod.mk r.1)) = (step a e).bind f) :
    (modify f heap place).bind (fun r => (apply step r.2 (.step p e)).map (Prod.mk r.1)) =
      (apply step heap (.step p e)).bind fun heap => modify f heap place := by
  have happly : ∀ heap : List α, apply step heap (.step p e) =
      heap[p]?.bind fun a => (step a e).map (heap.set p) := fun _ => rfl
  simp only [modify, happly]
  by_cases hp : place = p
  · subst p
    cases ha : heap[place]? with
    | none => simp only [Option.bind_none]
    | some a =>
      have hlt : place < heap.length := (List.getElem?_eq_some_iff.mp ha).1
      have hself : ∀ b, (heap.set place b)[place]? = some b := fun b => List.getElem?_set_self hlt
      have hexchange := h rfl a ha
      simp only [Option.bind_some]
      cases hf : f a with
      | none =>
        cases hs : step a e with
        | none => simp only [Option.map_none, Option.bind_none]
        | some b =>
          rw [hf, hs, Option.bind_none, Option.bind_some] at hexchange
          simp only [Option.map_none, Option.bind_none, Option.map_some, Option.bind_some, hself,
            ← hexchange]
      | some r =>
        rw [hf, Option.bind_some] at hexchange
        simp only [Option.map_some, Option.bind_some, hself]
        cases hs : step a e with
        | none =>
          rw [hs, Option.bind_none, Option.map_eq_none_iff] at hexchange
          simp only [hexchange, Option.map_none, Option.bind_none]
        | some b =>
          rw [hs, Option.bind_some] at hexchange
          simp only [Option.map_some, Option.bind_some, hself, List.set_set, ← hexchange]
          cases step r.2 e with
          | none => simp only [Option.map_none]
          | some c => simp only [Option.map_some, List.set_set]
  · have hother : ∀ b, (heap.set place b)[p]? = heap[p]? := fun b => List.getElem?_set_ne hp
    have hother' : ∀ b, (heap.set p b)[place]? = heap[place]? := fun b =>
      List.getElem?_set_ne (Ne.symm hp)
    cases ha : heap[place]? with
    | none =>
      cases hc : heap[p]? with
      | none => simp only [Option.bind_none]
      | some c =>
        cases hs : step c e with
        | none => simp only [Option.bind_none, Option.bind_some, hs, Option.map_none]
        | some d => simp only [Option.bind_none, Option.bind_some, hs, Option.map_some, hother', ha]
    | some a =>
      cases hf : f a with
      | none =>
        cases hc : heap[p]? with
        | none => simp only [Option.bind_none, Option.bind_some, hf, Option.map_none]
        | some c =>
          cases hs : step c e with
          | none => simp only [Option.bind_none, Option.bind_some, hf, hs, Option.map_none]
          | some d => simp only [Option.bind_none, Option.bind_some, hf, hs, Option.map_none,
              Option.map_some, hother', ha]
      | some r =>
        cases hc : heap[p]? with
        | none => simp only [Option.bind_none, Option.bind_some, hf, Option.map_some,
            Option.map_none, hother, hc]
        | some c =>
          cases hs : step c e with
          | none => simp only [Option.bind_none, Option.bind_some, hf, hs, Option.map_some,
              Option.map_none, hother, hc]
          | some d => simp only [Option.bind_some, hf, hs, Option.map_some, hother, hother', ha, hc,
              List.set_comm _ _ hp]

end

end ObjectHeap
