import Mathlib.Algebra.Order.Ring.Int
import Mathlib.Data.Nat.Notation

/-!
The C++ machine model shared by the other modules, for the 32-bit target the
project is built for. A size_t that counts bytes in memory is a natural number;
a subtraction of two of them wraps when it underflows, and a conversion between
size_t and the signed 32-bit int keeps the low 32 bits.
-/
namespace FaucetNetworking

/-- How a member function ends: it returns, or it throws and leaves the object
in the state given, or it runs into undefined behaviour. -/
inductive Outcome (σ : Type*) where
  | ok (s : σ)
  | throws (what : String) (s : σ)
  | undefined

namespace Outcome

variable {σ : Type*}

def toOption : Outcome σ → Option σ
  | .ok s => some s
  | .throws _ _ => none
  | .undefined => none

def map {τ : Type*} (f : σ → τ) : Outcome σ → Outcome τ
  | .ok s => .ok (f s)
  | .throws what s => .throws what (f s)
  | .undefined => .undefined

@[simp] theorem toOption_eq_some_iff (o : Outcome σ) (s : σ) :
    o.toOption = some s ↔ o = .ok s := by
  cases o <;> simp [toOption]

end Outcome

/-- What an implementation decides about std::string: the width of its size_t, the greatest
length, and what the length_error of resize says. -/
structure StringLimits where
  width : ℕ
  maxSize : ℕ
  maxSize_lt : maxSize < 2 ^ width
  tooLong : String

/-- The string of the 32-bit MinGW that the README names. -/
def StringLimits.mingw : StringLimits where
  width := 32
  maxSize := 0x3ffffffc
  maxSize_lt := by decide
  tooLong := "basic_string::resize"

/-- Conversion of a size_t to int. -/
def toInt (n : ℕ) : ℤ := Int.bmod n (2 ^ 32)

/-- Conversion of an int to size_t. -/
def toSize (i : ℤ) : ℕ := (i % 2 ^ 32).toNat

/-- Conversion of an int to bool. -/
def toBool (i : ℤ) : Bool := i != 0

/-- Subtraction of two size_t values. -/
def sizeSub (a b : ℕ) : ℕ := if b ≤ a then a - b else toSize ((a : ℤ) - b)

theorem toInt_of_lt {n : ℕ} (h : n < 2 ^ 31) : toInt n = n := by
  unfold toInt
  exact Int.bmod_eq_of_le (by omega) (by omega)

theorem toSize_natCast {n : ℕ} (h : n < 2 ^ 32) : toSize n = n := by
  unfold toSize
  omega

theorem sizeSub_of_le {a b : ℕ} (h : b ≤ a) : sizeSub a b = a - b := by
  unfold sizeSub
  rw [if_pos h]

end FaucetNetworking
