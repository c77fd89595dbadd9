import Mathlib.Data.Nat.Notation
import Mathlib.Logic.Function.Basic

/-!
Owners that each have at most one object. No object has two owners, and an object that has
one is alive.
-/
namespace Ownership

variable {κ ρ : Type*}

/-- Each owner is given by what it leads to. -/
structure Exclusive (target : κ → Option ρ) (alive : ρ → Prop) : Prop where
  alive : ∀ owner place, target owner = some place → alive place
  sole : ∀ owner owner' place, target owner = some place → target owner' = some place →
    owner = owner'

variable {target : κ → Option ρ} {alive alive' : ρ → Prop} {owner : κ} {place : ρ}

theorem Exclusive.mono (h : Exclusive target alive)
    (hmono : ∀ owner place, target owner = some place → alive place → alive' place) :
    Exclusive target alive' where
  alive := fun owner place howner => hmono owner place howner (h.alive owner place howner)
  sole := h.sole

variable [DecidableEq κ]

/-- An object without an owner is given to one. -/
theorem Exclusive.assign (h : Exclusive target alive) (hfree : ∀ owner, target owner ≠ some place)
    (halive : alive place) : Exclusive (Function.update target owner (some place)) alive where
  alive := by
    intro other q hother
    by_cases heq : other = owner
    · rw [heq, Function.update_self] at hother
      obtain rfl := Option.some.inj hother
      exact halive
    · rw [Function.update_of_ne heq] at hother
      exact h.alive other q hother
  sole := by
    intro first second q hfirst hsecond
    by_cases heq : first = owner
    · by_cases heq' : second = owner
      · exact heq.trans heq'.symm
      · rw [heq, Function.update_self] at hfirst
        rw [Function.update_of_ne heq', ← hfirst] at hsecond
        exact absurd hsecond (hfree second)
    · by_cases heq' : second = owner
      · rw [heq', Function.update_self] at hsecond
        rw [Function.update_of_ne heq, ← hsecond] at hfirst
        exact absurd hfirst (hfree first)
      · rw [Function.update_of_ne heq] at hfirst
        rw [Function.update_of_ne heq'] at hsecond
        exact h.sole first second q hfirst hsecond

theorem eq_of_update_none (hother : Function.update target owner none owner' = some place) :
    owner' ≠ owner ∧ target owner' = some place := by
  have hne : owner' ≠ owner := by
    rintro rfl
    rw [Function.update_self] at hother
    contradiction
  rw [Function.update_of_ne hne] at hother
  exact ⟨hne, hother⟩

/-- An owner gives its object up. -/
theorem Exclusive.clear (h : Exclusive target alive) (owner : κ) :
    Exclusive (Function.update target owner none) alive where
  alive := fun other q hother => h.alive other q (eq_of_update_none hother).2
  sole := fun first second q hfirst hsecond =>
    h.sole first second q (eq_of_update_none hfirst).2 (eq_of_update_none hsecond).2

/-- Nobody owns an object that has been given up. -/
theorem Exclusive.free_of_clear (h : Exclusive target alive) (howner : target owner = some place)
    (owner' : κ) : Function.update target owner none owner' ≠ some place := by
  intro hother
  obtain ⟨hne, hother⟩ := eq_of_update_none hother
  exact hne (h.sole owner' owner place hother howner)

end Ownership
