import FaucetNetworking.Tcp.Connection
import FaucetNetworking.TypedAccess

/-!
The conversion of doubles to integers that cannot fail on a number. What is out of range
becomes the nearest limit of the target type; the rest loses its fraction. The upper limit
is compared as a double, which for a 64-bit type is not the limit itself.
-/
namespace FaucetNetworking

open Ieee754

/-- The target type is given by its limits, and by the double that the upper one becomes. -/
def clippedInt (lowest max : ℤ) (bound : ℚ) (value : Value) : Option ℤ :=
  if value.le (.finite lowest) then some lowest
  else if (Value.finite bound).le value then some max
  else
    match value with
    | .finite q => some (if q < 0 then ⌈q⌉ else ⌊q⌋)
    | _ => none

def clippedInt8 : Value → Option ℤ := clippedInt (-(2 ^ 7)) (2 ^ 7 - 1) (2 ^ 7 - 1)

def clippedInt64 : Value → Option ℤ := clippedInt (-(2 ^ 63)) (2 ^ 63 - 1) (2 ^ 63)

def clippedSize (value : Value) : Option ℕ :=
  (clippedInt 0 TcpConnected.sizeMax TcpConnected.sizeMax value).map Int.toNat

section

variable {lowest max : ℤ} {bound : ℚ}

/-- Only for a NaN there is no result. -/
theorem exists_clippedInt {value : Value} (h : value ≠ .nan) :
    ∃ n, clippedInt lowest max bound value = some n := by
  unfold clippedInt
  cases value with
  | nan => exact absurd rfl h
  | infinite negative =>
    cases negative with
    | true => exact ⟨lowest, rfl⟩
    | false => exact ⟨max, rfl⟩
  | finite q =>
    split
    · exact ⟨lowest, rfl⟩
    · split
      · exact ⟨max, rfl⟩
      · exact ⟨_, rfl⟩

/-- An integer in the range is not changed. -/
theorem clippedInt_intCast (hbound : (max : ℚ) ≤ bound) {n : ℤ} (hlow : lowest ≤ n)
    (hhigh : n ≤ max) : clippedInt lowest max bound (.finite n) = some n := by
  unfold clippedInt
  simp only [Value.le, decide_eq_true_eq, Int.cast_le, Int.ceil_intCast, Int.floor_intCast,
    ite_self]
  by_cases hlowest : n ≤ lowest
  · rw [if_pos hlowest, le_antisymm hlow hlowest]
  · rw [if_neg hlowest]
    split
    · rename_i hmax
      have hle : max ≤ n := by exact_mod_cast hbound.trans hmax
      rw [le_antisymm hhigh hle]
    · rfl

end

theorem exists_clippedSize {value : Value} (h : value ≠ .nan) :
    ∃ n, clippedSize value = some n := by
  obtain ⟨n, hn⟩ := @exists_clippedInt 0 TcpConnected.sizeMax TcpConnected.sizeMax _ h
  refine ⟨n.toNat, ?_⟩
  unfold clippedSize
  rw [hn, Option.map_some]

/-- Every size_t is a double, and is converted back to itself. -/
theorem clippedSize_natCast {n : ℕ} (h : n ≤ TcpConnected.sizeMax) :
    clippedSize (.finite n) = some n := by
  have hcast := @clippedInt_intCast 0 TcpConnected.sizeMax TcpConnected.sizeMax
    (by push_cast; exact le_refl _) n (Int.natCast_nonneg n) (by exact_mod_cast h)
  unfold clippedSize
  rw [Int.cast_natCast] at hcast
  rw [hcast, Option.map_some, Int.toNat_natCast]

end FaucetNetworking
