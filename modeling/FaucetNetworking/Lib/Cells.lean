import Mathlib.Data.Nat.Notation
import Mathlib.Data.List.Basic

/-!
Memory cells that may still be uninitialised. A read succeeds only if every
cell it covers has been written, and a memory extends another one when it keeps
all of its written cells, so that a successful read stays valid.
-/
namespace Cells

variable {α : Type*}

/-- Read all the cells; an uninitialised one makes the read fail. -/
def readAll : List (Option α) → Option (List α)
  | [] => some []
  | none :: _ => none
  | some x :: rest => (readAll rest).map (x :: ·)

def slice (cells : List (Option α)) (offset len : ℕ) : List (Option α) :=
  (cells.drop offset).take len

def overwrite (cells : List (Option α)) (offset : ℕ) (data : List α) : List (Option α) :=
  cells.take offset ++ data.map some ++ cells.drop (offset + data.length)

/-- The second memory keeps every written cell of the first. -/
def Extends (cells cells' : List (Option α)) : Prop :=
  cells.length = cells'.length ∧
    ∀ (i : ℕ) (x : α), cells[i]? = some (some x) → cells'[i]? = some (some x)

theorem readAll_eq_some_iff (cells : List (Option α)) (data : List α) :
    readAll cells = some data ↔ cells = data.map some := by
  induction cells generalizing data with
  | nil =>
    constructor
    · intro h
      rw [← Option.some.inj h]
      rfl
    · intro h
      rw [List.map_eq_nil_iff.mp h.symm]
      rfl
  | cons cell rest ih =>
    cases cell with
    | none => cases data <;> simp [readAll]
    | some x =>
      cases data with
      | nil => simp [readAll]
      | cons y ys =>
        simp only [readAll, Option.map_eq_some_iff, List.map_cons, List.cons.injEq,
          Option.some.injEq]
        constructor
        · rintro ⟨zs, hzs, hx, hy⟩
          exact ⟨hx, hy ▸ (ih zs).mp hzs⟩
        · rintro ⟨hx, hrest⟩
          exact ⟨ys, (ih ys).mpr hrest, hx, rfl⟩

theorem length_overwrite (cells : List (Option α)) (offset : ℕ) (data : List α)
    (h : offset + data.length ≤ cells.length) :
    (overwrite cells offset data).length = cells.length := by
  simp only [overwrite, List.length_append, List.length_take, List.length_map, List.length_drop]
  omega

theorem Extends.refl (cells : List (Option α)) : Extends cells cells :=
  ⟨rfl, fun _ _ h => h⟩

theorem Extends.trans {cells cells' cells'' : List (Option α)} (h : Extends cells cells')
    (h' : Extends cells' cells'') : Extends cells cells'' :=
  ⟨h.1.trans h'.1, fun i x hx => h'.2 i x (h.2 i x hx)⟩

/-- What has been read once is read again from any extension. -/
theorem readAll_slice_extends {cells cells' : List (Option α)} (h : Extends cells cells')
    {offset len : ℕ} {data : List α} (hread : readAll (slice cells offset len) = some data) :
    readAll (slice cells' offset len) = some data := by
  have hcells := (readAll_eq_some_iff _ _).mp hread
  apply (readAll_eq_some_iff _ _).mpr
  rw [← hcells]
  apply List.ext_getElem?
  intro i
  by_cases hi : i < len
  · simp only [slice, List.getElem?_take_of_lt hi, List.getElem?_drop]
    have hat : cells[offset + i]? = (data.map some)[i]? := by
      rw [← hcells]
      simp only [slice, List.getElem?_take_of_lt hi, List.getElem?_drop]
    rw [hat, List.getElem?_map]
    rw [List.getElem?_map] at hat
    cases hx : data[i]? with
    | none =>
      rw [hx] at hat
      have hlen := List.getElem?_eq_none_iff.mp hat
      simp only [Option.map_none, List.getElem?_eq_none_iff]
      have hsame := h.1
      omega
    | some x =>
      rw [hx] at hat
      exact h.2 _ x hat
  · have hlen : ∀ c : List (Option α), (slice c offset len)[i]? = none := by
      intro c
      rw [List.getElem?_eq_none_iff]
      simp only [slice, List.length_take]
      omega
    rw [hlen, hlen]

/-- Writing over cells that were uninitialised extends the memory. -/
theorem extends_overwrite (front : List (Option α)) (free : ℕ) (data : List α)
    (h : data.length ≤ free) :
    Extends (front ++ List.replicate free none)
      (overwrite (front ++ List.replicate free none) front.length data) := by
  constructor
  · rw [length_overwrite]
    simp only [List.length_append, List.length_replicate]
    omega
  · intro i x hx
    by_cases hi : i < front.length
    · rw [List.getElem?_append_left hi] at hx
      rw [overwrite, List.append_assoc, List.getElem?_append_left
        (by rw [List.length_take, List.length_append]; omega)]
      rw [List.getElem?_take_of_lt hi, List.getElem?_append_left hi]
      exact hx
    · rw [List.getElem?_append_right (by omega)] at hx
      simp only [List.getElem?_replicate] at hx
      split at hx <;> simp at hx

theorem overwrite_append_replicate (front : List (Option α)) (free : ℕ) (data : List α) :
    overwrite (front ++ List.replicate free none) front.length data =
      front ++ data.map some ++ List.replicate (free - data.length) none := by
  simp [overwrite, List.drop_append]

end Cells
