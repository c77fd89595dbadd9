import FaucetNetworking.Lib.CyclicSearch
import FaucetNetworking.Lib.Ieee754
import FaucetNetworking.Lib.StateMachine
import FaucetNetworking.Machine
import Mathlib.Data.List.AList

/-!
The handles of the objects that a script uses. A 32-bit counter gives out handles and
skips those that are in use, so after it has wrapped it meets the handles of objects that
are still alive. The functions that take a double look only at those that are uint32
values.
-/
namespace FaucetNetworking

open CyclicSearch Ieee754

/-- The elements are pointers, which may be null. -/
structure HandleMap (α : Type*) where
  nextHandle : UInt32
  content : AList fun _ : UInt32 => α

/-- How the conversion of a double to an uint32_t ends. -/
inductive NumericCast where
  | value (n : UInt32)
  | badNumericCast
  | undefined
  deriving DecidableEq, Repr

/-- The range is checked before the fraction is cut off, by comparisons that do not
hold of a NaN. -/
def numericCast : Value → NumericCast
  | .nan => .undefined
  | .infinite _ => .badNumericCast
  | .finite q =>
    if q ≤ -1 then .badNumericCast
    else if 2 ^ 32 ≤ q then .badNumericCast
    else .value (UInt32.ofNat ⌊q⌋.toNat)

/-- The two functions that take a handle as a double do nothing unless it is one. -/
def withHandle {σ : Type*} (handle : Datum binary64) (otherwise : σ) (f : UInt32 → σ) :
    Outcome σ :=
  if handle.value.trunc.eq handle.value then
    match numericCast handle.value with
    | .value n => .ok (f n)
    | .badNumericCast => .ok otherwise
    | .undefined => .undefined
  else .ok otherwise

namespace HandleMap

variable {α : Type*}

def new : HandleMap α := ⟨1, ∅⟩

def size (m : HandleMap α) : ℕ := m.content.keys.length

/-- The condition that ends the loop of allocate. -/
def usable (m : HandleMap α) (handle : UInt32) : Bool := handle ∉ m.content && handle != 0

/-- After 2^32 steps of the loop the counter is where it was, so the loop never ends. -/
def allocate (m : HandleMap α) (element : α) : Option (UInt32 × HandleMap α) :=
  (search m.usable (· + 1) (2 ^ 32) m.nextHandle).map fun handle =>
    (handle, { nextHandle := handle + 1, content := m.content.insert handle element })

variable {ρ : Type*}

/-- The cast gives the pointer as one to the requested type, if it is that. -/
def find (m : HandleMap α) (cast : α → Option ρ) (handle : UInt32) : Option ρ :=
  (m.content.lookup handle).bind cast

def findDouble (m : HandleMap α) (cast : α → Option ρ) (handle : Datum binary64) :
    Outcome (Option ρ) := withHandle handle none (m.find cast)

def release (m : HandleMap α) (handle : UInt32) : HandleMap α :=
  { m with content := m.content.erase handle }

def releaseDouble (m : HandleMap α) (handle : Datum binary64) : Outcome (HandleMap α) :=
  withHandle handle m m.release

def releaseAll (m : HandleMap α) : HandleMap α := { m with content := ∅ }

end HandleMap

/-! ### Doubles as handles -/

theorem numericCast_natCast (n : UInt32) : numericCast (.finite (n.toNat : ℚ)) = .value n := by
  have hlow : ¬ (n.toNat : ℚ) ≤ -1 := by
    have hpos : (0 : ℚ) ≤ n.toNat := Nat.cast_nonneg _
    linarith
  have hhigh : ¬ (2 ^ 32 : ℚ) ≤ n.toNat := by
    have hlt : (n.toNat : ℚ) < 2 ^ 32 := by exact_mod_cast n.toNat_lt
    exact not_le.mpr hlt
  unfold numericCast
  simp only
  rw [if_neg hlow, if_neg hhigh, Int.floor_natCast, Int.toNat_natCast, UInt32.ofNat_toNat]

theorem withHandle_of_value {σ : Type*} {handle : Datum binary64} {n : UInt32}
    (h : handle.value = .finite n.toNat) (otherwise : σ) (f : UInt32 → σ) :
    withHandle handle otherwise f = .ok (f n) := by
  have htrunc : handle.value.trunc.eq handle.value = true :=
    (Value.eq_trunc_iff _).mpr (Or.inr ⟨n.toNat, by rw [h]; rfl⟩)
  unfold withHandle
  rw [if_pos htrunc, h, numericCast_natCast]

/-- A double that is not an uint32 value, be it a NaN, infinite, out of range or not an
integer, does nothing. -/
theorem withHandle_otherwise {σ : Type*} {handle : Datum binary64}
    (h : ∀ n : UInt32, handle.value ≠ .finite n.toNat) (otherwise : σ) (f : UInt32 → σ) :
    withHandle handle otherwise f = .ok otherwise := by
  unfold withHandle
  by_cases htrunc : handle.value.trunc.eq handle.value = true
  · rw [if_pos htrunc]
    rcases (Value.eq_trunc_iff _).mp htrunc with ⟨negative, hvalue⟩ | ⟨n, hvalue⟩
    · rw [hvalue]
      rfl
    · have hrange : ¬ (0 ≤ n ∧ n < 2 ^ 32) := by
        rintro ⟨hlow, hhigh⟩
        have hlt : n.toNat < UInt32.size := by
          unfold UInt32.size
          omega
        apply h (UInt32.ofNat n.toNat)
        rw [hvalue, UInt32.toNat_ofNat_of_lt' hlt]
        congr 1
        exact_mod_cast (Int.toNat_of_nonneg hlow).symm
      have hbad : numericCast (.finite (n : ℚ)) = .badNumericCast := by
        unfold numericCast
        simp only
        by_cases hlow : (n : ℚ) ≤ -1
        · rw [if_pos hlow]
        · rw [if_neg hlow, if_pos]
          have hn : ¬ n ≤ -1 := fun hle => hlow (by exact_mod_cast hle)
          have hhigh : 2 ^ 32 ≤ n := by omega
          exact_mod_cast hhigh
      rw [hvalue, hbad]
  · rw [if_neg htrunc]

namespace HandleMap

variable {α : Type*}

/-! ### The search for a handle -/

theorem iterate_succ (k : ℕ) (x : UInt32) : (· + 1)^[k] x = x + UInt32.ofNat k := by
  induction k with
  | zero => exact (UInt32.add_zero x).symm
  | succ k ih =>
    rw [Function.iterate_succ_apply', ih, UInt32.ofNat_add, UInt32.add_assoc]
    rfl

/-- The counter goes through all its values before it repeats one. -/
theorem covers_succ : Covers (fun x : UInt32 => x + 1) (2 ^ 32) := by
  intro x y
  refine ⟨(y - x).toNat, (y - x).toNat_lt, ?_⟩
  rw [iterate_succ, UInt32.ofNat_toNat, UInt32.add_comm, UInt32.sub_add_cancel]

theorem usable_iff (m : HandleMap α) (handle : UInt32) :
    m.usable handle = true ↔ handle ∉ m.content ∧ handle ≠ 0 := by
  unfold usable
  rw [Bool.and_eq_true, decide_eq_true_iff, bne_iff_ne]

/-- With fewer than 2^32 - 1 elements there is a handle that is not in use. -/
theorem exists_usable {m : HandleMap α} (h : m.size < 2 ^ 32 - 1) :
    ∃ handle, m.usable handle = true := by
  have hcard : (insert 0 (m.content.keys.map UInt32.toNat).toFinset).card <
      (Finset.range (2 ^ 32)).card := by
    have hinsert := Finset.card_insert_le 0 (m.content.keys.map UInt32.toNat).toFinset
    have hkeys := List.toFinset_card_le (m.content.keys.map UInt32.toNat)
    rw [List.length_map] at hkeys
    unfold size at h
    rw [Finset.card_range]
    omega
  obtain ⟨n, hn, hfree⟩ := Finset.exists_mem_notMem_of_card_lt_card hcard
  have hlt : n < UInt32.size := Finset.mem_range.mp hn
  have hback : (UInt32.ofNat n).toNat = n := UInt32.toNat_ofNat_of_lt' hlt
  refine ⟨UInt32.ofNat n, (m.usable_iff _).mpr ⟨?_, ?_⟩⟩
  · intro hmem
    apply hfree
    apply Finset.mem_insert_of_mem
    rw [List.mem_toFinset, List.mem_map]
    exact ⟨UInt32.ofNat n, AList.mem_keys.mp hmem, hback⟩
  · intro hzero
    apply hfree
    rw [hzero] at hback
    rw [← hback]
    exact Finset.mem_insert_self _ _

/-- What allocate does when it returns. -/
structure Allocated (m t : HandleMap α) (element : α) (handle : UInt32) : Prop where
  fresh : handle ∉ m.content
  ne_zero : handle ≠ 0
  next : t.nextHandle = handle + 1
  content : t.content = m.content.insert handle element

theorem allocated_of_eq {m t : HandleMap α} {element : α} {handle : UInt32}
    (h : m.allocate element = some (handle, t)) : Allocated m t element handle := by
  obtain ⟨found, hfound, heq⟩ := Option.map_eq_some_iff.mp h
  obtain ⟨rfl, rfl⟩ := Prod.mk.inj heq
  obtain ⟨hfree, hzero⟩ := (m.usable_iff found).mp (search_sound hfound).1
  exact ⟨hfree, hzero, rfl, rfl⟩

theorem allocate_returns {m : HandleMap α} (h : m.size < 2 ^ 32 - 1) (element : α) :
    ∃ handle t, m.allocate element = some (handle, t) ∧ Allocated m t element handle := by
  obtain ⟨free, hfree⟩ := exists_usable h
  obtain ⟨handle, hfound⟩ := Option.ne_none_iff_exists'.mp
    (search_of_covers covers_succ hfree m.nextHandle)
  have hallocate : m.allocate element = some
      (handle, { nextHandle := handle + 1, content := m.content.insert handle element }) := by
    unfold allocate
    rw [hfound]
    rfl
  exact ⟨handle, _, hallocate, allocated_of_eq hallocate⟩

/-- Where allocate has no result, its loop would not end after any number of steps. -/
theorem allocate_forever {m : HandleMap α} {element : α} (h : m.allocate element = none)
    (n : ℕ) : search m.usable (· + 1) n m.nextHandle = none :=
  search_forever covers_succ (Option.map_eq_none_iff.mp h) n

/-- A counter that is not in use is the next handle. -/
theorem allocate_of_usable {m t : HandleMap α} {element : α} {handle : UInt32}
    (h : m.allocate element = some (handle, t)) (husable : m.usable m.nextHandle = true) :
    handle = m.nextHandle := by
  have hfound : search m.usable (· + 1) (2 ^ 32) m.nextHandle = some m.nextHandle :=
    search_of_free husable (2 ^ 32 - 1)
  unfold allocate at h
  rw [hfound] at h
  exact (Prod.mk.inj (Option.some.inj h)).1.symm

/-! ### Runs -/

inductive HandleOperation (α : Type*) where
  | allocate (element : α)
  | release (handle : UInt32)
  | releaseDouble (handle : Datum binary64)
  | releaseAll

/-- A map with the handles that it has returned. -/
structure HandleSession (α : Type*) where
  map : HandleMap α
  returned : List UInt32

def HandleSession.step (s : HandleSession α) : HandleOperation α → Option (HandleSession α)
  | .allocate element => (s.map.allocate element).map fun result =>
      ⟨result.2, s.returned ++ [result.1]⟩
  | .release handle => some { s with map := s.map.release handle }
  | .releaseDouble handle =>
    (s.map.releaseDouble handle).toOption.map fun map => { s with map := map }
  | .releaseAll => some { s with map := s.map.releaseAll }

/-- The handles of the first allocations. -/
def firstHandles (count : ℕ) : List UInt32 :=
  (List.range count).map fun i => UInt32.ofNat (i + 1)

/-- As long as the counter has not wrapped, it is ahead of all handles. -/
structure Unwrapped (s : HandleSession α) : Prop where
  next : s.map.nextHandle = UInt32.ofNat (s.returned.length + 1)
  live : ∀ handle ∈ s.map.content, handle.toNat ≤ s.returned.length
  returned : s.returned = firstHandles s.returned.length

/-- No element is taken away from its handle by releasing. -/
theorem Unwrapped.shrink {s t : HandleSession α} (h : Unwrapped s)
    (hnext : t.map.nextHandle = s.map.nextHandle) (hreturned : t.returned = s.returned)
    (hlive : ∀ handle ∈ t.map.content, handle ∈ s.map.content) : Unwrapped t where
  next := by rw [hnext, hreturned, h.next]
  live := by
    intro handle hmem
    rw [hreturned]
    exact h.live handle (hlive handle hmem)
  returned := by
    rw [hreturned]
    exact h.returned

theorem firstHandles_succ (count : ℕ) :
    firstHandles (count + 1) = firstHandles count ++ [UInt32.ofNat (count + 1)] := by
  unfold firstHandles
  rw [List.range_succ, List.map_append, List.map_singleton]

theorem toNat_ofNat_succ {count : ℕ} (h : count + 1 < 2 ^ 32) :
    (UInt32.ofNat (count + 1)).toNat = count + 1 := UInt32.toNat_ofNat_of_lt' h

theorem Unwrapped.allocate {s : HandleSession α} (h : Unwrapped s) {element : α}
    {handle : UInt32} {m : HandleMap α} (hallocate : s.map.allocate element = some (handle, m))
    (hcount : s.returned.length + 1 < 2 ^ 32 - 1) :
    Unwrapped ⟨m, s.returned ++ [handle]⟩ := by
  have hnext := @toNat_ofNat_succ s.returned.length (by omega)
  have husable : s.map.usable s.map.nextHandle = true := by
    rw [usable_iff, h.next]
    refine ⟨?_, ?_⟩
    · intro hmem
      have hle := h.live _ hmem
      omega
    · intro hzero
      rw [hzero] at hnext
      contradiction
  have hhandle := allocate_of_usable hallocate husable
  rw [h.next] at hhandle
  have hdone := allocated_of_eq hallocate
  refine ⟨?_, ?_, ?_⟩
  · rw [hdone.next, hhandle, List.length_append, List.length_singleton]
    exact (UInt32.ofNat_add _ 1).symm
  · intro other hmem
    rw [List.length_append, List.length_singleton]
    change other ∈ m.content at hmem
    rw [hdone.content, AList.mem_insert] at hmem
    rcases hmem with rfl | hold
    · rw [hhandle, hnext]
    · exact Nat.le_succ_of_le (h.live other hold)
  · rw [List.length_append, List.length_singleton, firstHandles_succ, ← h.returned, hhandle]

theorem unwrapped_new : Unwrapped (⟨new, []⟩ : HandleSession α) where
  next := rfl
  live := fun handle hmem => absurd hmem (AList.notMem_empty handle)
  returned := rfl

theorem releaseDouble_cases {m t : HandleMap α} {handle : Datum binary64}
    (h : m.releaseDouble handle = .ok t) : t = m ∨ ∃ n, t = m.release n := by
  unfold releaseDouble withHandle at h
  split at h
  · split at h
    · exact Or.inr ⟨_, (Outcome.ok.inj h).symm⟩
    · exact Or.inl (Outcome.ok.inj h).symm
    · contradiction
  · exact Or.inl (Outcome.ok.inj h).symm

theorem Unwrapped.release {s : HandleSession α} (h : Unwrapped s) (handle : UInt32) :
    Unwrapped { s with map := s.map.release handle } :=
  h.shrink rfl rfl fun _ hmem => (AList.mem_erase.mp hmem).2

theorem Unwrapped.step {s t : HandleSession α} {operation : HandleOperation α}
    (h : s.returned.length < 2 ^ 32 - 1 → Unwrapped s) (hstep : s.step operation = some t)
    (hcount : t.returned.length < 2 ^ 32 - 1) : Unwrapped t := by
  cases operation with
  | allocate element =>
    obtain ⟨⟨handle, m⟩, hallocate, rfl⟩ := Option.map_eq_some_iff.mp hstep
    have hlength : (s.returned ++ [handle]).length = s.returned.length + 1 :=
      List.length_append
    simp only [hlength] at hcount
    exact (h (Nat.lt_of_succ_lt hcount)).allocate hallocate hcount
  | release handle =>
    obtain rfl := Option.some.inj hstep
    exact (h hcount).release handle
  | releaseDouble handle =>
    obtain ⟨m, hrelease, rfl⟩ := Option.map_eq_some_iff.mp hstep
    rcases releaseDouble_cases ((Outcome.toOption_eq_some_iff _ m).mp hrelease) with
      rfl | ⟨n, rfl⟩
    · exact h hcount
    · exact (h hcount).release n
  | releaseAll =>
    obtain rfl := Option.some.inj hstep
    exact (h hcount).shrink rfl rfl fun handle hmem =>
      absurd hmem (AList.notMem_empty handle)

theorem nodup_firstHandles {count : ℕ} (h : count < 2 ^ 32 - 1) :
    (firstHandles count).Nodup := by
  apply List.Nodup.map_on _ List.nodup_range
  intro i hi j hj heq
  have hback := congrArg UInt32.toNat heq
  rw [List.mem_range] at hi hj
  rw [toNat_ofNat_succ (by omega), toNat_ofNat_succ (by omega)] at hback
  omega

/-- What the functions of a handle map do to the associations, with elements that are
requested as some type. -/
structure SoundHandles (ρ : Type*) (s : HandleSession α) : Prop where
  /-- As long as a handle is left, allocate returns, with a handle that was free. -/
  allocate : s.map.size < 2 ^ 32 - 1 → ∀ element, ∃ handle m,
    s.map.allocate element = some (handle, m) ∧ handle ≠ 0 ∧ handle ∉ s.map.content ∧
      (∀ cast : α → Option ρ, m.find cast handle = cast element) ∧
      ∀ other, other ≠ handle → m.content.lookup other = s.map.content.lookup other
  release : ∀ handle, (s.map.release handle).content.lookup handle = none ∧
    ∀ other, other ≠ handle →
      (s.map.release handle).content.lookup other = s.map.content.lookup other
  releaseAll : ∀ handle, s.map.releaseAll.content.lookup handle = none
  /-- A handle that was returned is not returned again before the counter has wrapped. -/
  distinct : s.returned.length < 2 ^ 32 - 1 → s.returned.Nodup
  /-- Doubles stand for the uint32 values among them and for nothing else. -/
  doubles : ∀ (handle : Datum binary64) (n : UInt32), handle.value = .finite n.toNat →
    s.map.releaseDouble handle = .ok (s.map.release n) ∧
      ∀ cast : α → Option ρ, s.map.findDouble cast handle = .ok (s.map.find cast n)
  others : ∀ handle : Datum binary64, (∀ n : UInt32, handle.value ≠ .finite n.toNat) →
    s.map.releaseDouble handle = .ok s.map ∧
      ∀ cast : α → Option ρ, s.map.findDouble cast handle = .ok none

/-- Handles are sound in every run, also one that is longer than the range of the counter. -/
theorem soundHandles_of_run (ρ : Type*) (operations : List (HandleOperation α))
    (s : HandleSession α)
    (hrun : StateMachine.run HandleSession.step ⟨new, []⟩ operations = some s) :
    SoundHandles ρ s := by
  have hunwrapped : s.returned.length < 2 ^ 32 - 1 → Unwrapped s := by
    apply StateMachine.run_preserves
      (fun s : HandleSession α => s.returned.length < 2 ^ 32 - 1 → Unwrapped s) _ _ hrun
    · intro u operation t hu hstep
      exact Unwrapped.step hu hstep
    · exact fun _ => unwrapped_new
  refine ⟨?_, ?_, fun handle => AList.lookup_empty handle, ?_, ?_, ?_⟩
  · intro hsize element
    obtain ⟨handle, m, hallocate, hdone⟩ := allocate_returns hsize element
    refine ⟨handle, m, hallocate, hdone.ne_zero, hdone.fresh, ?_, ?_⟩
    · intro cast
      unfold find
      rw [hdone.content, AList.lookup_insert, Option.bind_some]
    · intro other hother
      rw [hdone.content, AList.lookup_insert_ne hother]
  · intro handle
    exact ⟨AList.lookup_erase handle _, fun other hother => AList.lookup_erase_ne hother⟩
  · intro hcount
    rw [(hunwrapped hcount).returned]
    exact nodup_firstHandles hcount
  · intro handle n hvalue
    exact ⟨withHandle_of_value hvalue _ _, fun cast => withHandle_of_value hvalue _ _⟩
  · intro handle hvalue
    exact ⟨withHandle_otherwise hvalue _ _, fun cast => withHandle_otherwise hvalue _ _⟩

/-- A handle that was released is not the next one. -/
theorem soundHandles_of_run_three : ∃ s : HandleSession String,
    StateMachine.run HandleSession.step ⟨new, []⟩
      [.allocate "socket", .allocate "buffer", .release 2, .allocate "acceptor"] = some s ∧
      s.returned = [1, 2, 3] ∧ SoundHandles String s := by
  have hreturned : (StateMachine.run HandleSession.step (⟨new, []⟩ : HandleSession String)
      [.allocate "socket", .allocate "buffer", .release 2, .allocate "acceptor"]).map
        HandleSession.returned = some [1, 2, 3] := by decide +kernel
  obtain ⟨s, hrun, hhandles⟩ := Option.map_eq_some_iff.mp hreturned
  exact ⟨s, hrun, hhandles, soundHandles_of_run String _ s hrun⟩

end HandleMap

end FaucetNetworking
