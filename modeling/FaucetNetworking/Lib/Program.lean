import Mathlib.Data.Nat.Notation

/-!
Programs that make calls and go on with what the calls return. A call has an effect on
a state that the program does not see, which is given as a relation. A program keeps an
invariant when this holds before and after each of its calls, whatever they return.
-/
universe u v w x y

inductive Program (Q : Type u) (R : Q → Type v) (α : Type w) where
  | done (a : α)
  | call (q : Q) (next : R q → Program Q R α)

namespace Program

variable {Q : Type u} {R : Q → Type v} {α : Type w} {β : Type x} {γ : Type y}

def bind : Program Q R α → (α → Program Q R β) → Program Q R β
  | .done a, f => f a
  | .call q next, f => .call q fun r => (next r).bind f

instance : Monad (Program Q R) where
  pure := .done
  bind := bind

/-- The program that only makes this call. -/
def request (q : Q) : Program Q R (R q) := .call q .done

/-! ### Invariants and postconditions -/

/-- What a call can do to the state, and return. -/
abbrev Effect (Q : Type u) (R : Q → Type v) (γ : Type y) := (q : Q) → γ → R q → γ → Prop

variable (effect : Effect Q R γ) (I : γ → Prop)

/-- The invariant holds until the program is done, and the postcondition then. -/
def Keeps (post : α → γ → Prop) : Program Q R α → γ → Prop
  | .done a, g => I g ∧ post a g
  | .call q next, g => I g ∧ ∀ r g', effect q g r g' → (next r).Keeps post g'

variable {effect I}

theorem Keeps.inv {post : α → γ → Prop} {p : Program Q R α} {g : γ}
    (h : p.Keeps effect I post g) : I g := by
  cases p with
  | done a => exact h.1
  | call q next => exact h.1

theorem Keeps.bind {post : β → γ → Prop} {p : Program Q R α} {f : α → Program Q R β} {g : γ}
    (h : p.Keeps effect I (fun a => (f a).Keeps effect I post) g) :
    (p.bind f).Keeps effect I post g := by
  induction p generalizing g with
  | done a => exact h.2
  | call q next ih => exact ⟨h.1, fun r g' heffect => ih r (h.2 r g' heffect)⟩

theorem Keeps.mono {post post' : α → γ → Prop} {p : Program Q R α} {g : γ}
    (h : p.Keeps effect I post g) (hpost : ∀ a g, I g → post a g → post' a g) :
    p.Keeps effect I post' g := by
  induction p generalizing g with
  | done a => exact ⟨h.1, hpost a g h.1 h.2⟩
  | call q next ih => exact ⟨h.1, fun r g' heffect => ih r (h.2 r g' heffect)⟩

/-! ### Contracts -/

section

variable (allowed : Q → γ → Prop) (after : (q : Q) → R q → γ → γ)

/-- What the program knows decides which calls it may make, and each result adds to it. -/
def Meets (post : α → γ → Prop) : Program Q R α → γ → Prop
  | .done a, g => post a g
  | .call q next, g => allowed q g ∧ ∀ r, (next r).Meets post (after q r g)

variable {allowed after}

theorem Meets.bind {post : β → γ → Prop} {p : Program Q R α} {f : α → Program Q R β} {g : γ}
    (h : p.Meets allowed after (fun a => (f a).Meets allowed after post) g) :
    (p.bind f).Meets allowed after post g := by
  induction p generalizing g with
  | done a => exact h
  | call q next ih => exact ⟨h.1, fun r => ih r (h.2 r)⟩

theorem Meets.mono {post post' : α → γ → Prop} {p : Program Q R α} {g : γ}
    (h : p.Meets allowed after post g) (hpost : ∀ a g, post a g → post' a g) :
    p.Meets allowed after post' g := by
  induction p generalizing g with
  | done a => exact hpost a g h
  | call q next ih => exact ⟨h.1, fun r => ih r (h.2 r)⟩

end

end Program
