import Mathlib.Data.Nat.Notation

/-!
Runs of a deterministic state machine whose steps may be refused. A step takes
the current state and an event; the result is absent when the event cannot
happen there. Invariants are preserved along runs, and a machine can be
restricted to the steps that satisfy a side condition on the state before.
-/
namespace StateMachine

variable {σ ε : Type*}

def run (step : σ → ε → Option σ) : σ → List ε → Option σ
  | s, [] => some s
  | s, e :: es => (step s e).bind fun t => run step t es

/-- The machine that takes only those steps whose condition holds beforehand. -/
def restrict (cond : σ → ε → Prop) [∀ s e, Decidable (cond s e)]
    (step : σ → ε → Option σ) (s : σ) (e : ε) : Option σ :=
  if cond s e then step s e else none

@[simp] theorem run_nil (step : σ → ε → Option σ) (s : σ) : run step s [] = some s := rfl

theorem run_cons_eq_some_iff (step : σ → ε → Option σ) (s t : σ) (e : ε) (es : List ε) :
    run step s (e :: es) = some t ↔ ∃ r, step s e = some r ∧ run step r es = some t := by
  simp only [run, Option.bind_eq_some_iff]

theorem run_append (step : σ → ε → Option σ) (s : σ) (es fs : List ε) :
    run step s (es ++ fs) = (run step s es).bind fun t => run step t fs := by
  induction es generalizing s with
  | nil => rfl
  | cons e es ih =>
    simp only [List.cons_append, run, Option.bind_assoc]
    congr 1
    funext t
    exact ih t

theorem run_append_eq_some {step : σ → ε → Option σ} {s t r : σ} {es fs : List ε}
    (hst : run step s es = some t) (htr : run step t fs = some r) :
    run step s (es ++ fs) = some r := by
  rw [run_append, hst]
  exact htr

/-- A property kept by every step is kept by every run. -/
theorem run_preserves {step : σ → ε → Option σ} (inv : σ → Prop)
    (hstep : ∀ s e t, inv s → step s e = some t → inv t)
    {s t : σ} {es : List ε} (hs : inv s) (hrun : run step s es = some t) : inv t := by
  induction es generalizing s with
  | nil =>
    rw [← Option.some.inj hrun]
    exact hs
  | cons e es ih =>
    obtain ⟨r, hr, hrest⟩ := (run_cons_eq_some_iff step s t e es).mp hrun
    exact ih (hstep s e r hs hr) hrest

/-- A relation between two states that is reflexive, transitive and contains
every step taken under an invariant relates the two ends of every run. -/
theorem run_relates {step : σ → ε → Option σ} (inv : σ → Prop) (rel : σ → σ → Prop)
    (hrefl : ∀ s, rel s s) (htrans : ∀ s t r, rel s t → rel t r → rel s r)
    (hinv : ∀ s e t, inv s → step s e = some t → inv t)
    (hstep : ∀ s e t, inv s → step s e = some t → rel s t)
    {s t : σ} {es : List ε} (hs : inv s) (hrun : run step s es = some t) : rel s t := by
  induction es generalizing s with
  | nil =>
    rw [← Option.some.inj hrun]
    exact hrefl s
  | cons e es ih =>
    obtain ⟨r, hr, hrest⟩ := (run_cons_eq_some_iff step s t e es).mp hrun
    exact htrans s r t (hstep s e r hs hr) (ih (hinv s e r hs hr) hrest)

/-- A property of a state and of the events that have led to it. -/
theorem run_traces {step : σ → ε → Option σ} (inv : List ε → σ → Prop)
    (hstep : ∀ es s e t, inv es s → step s e = some t → inv (es ++ [e]) t)
    {s t : σ} {es : List ε} (hs : inv [] s) (hrun : run step s es = some t) : inv es t := by
  have hgeneral : ∀ (past future : List ε) (r : σ), inv past r →
      run step r future = some t → inv (past ++ future) t := by
    intro past future
    induction future generalizing past with
    | nil =>
      intro r hr hlast
      rw [List.append_nil, ← Option.some.inj hlast]
      exact hr
    | cons e rest ih =>
      intro r hr hrest
      obtain ⟨u, hu, hlast⟩ := (run_cons_eq_some_iff step r t e rest).mp hrest
      have hnext := ih (past ++ [e]) u (hstep past r e u hr hu) hlast
      rwa [List.append_assoc, List.singleton_append] at hnext
  exact hgeneral [] es s hs hrun

section Restrict

variable (cond : σ → ε → Prop) [∀ s e, Decidable (cond s e)] (step : σ → ε → Option σ)

theorem restrict_eq_some_iff (s t : σ) (e : ε) :
    restrict cond step s e = some t ↔ cond s e ∧ step s e = some t := by
  unfold restrict
  split
  · rename_i h
    simp only [h, true_and]
  · rename_i h
    simp only [reduceCtorEq, h, false_and]

/-- A run of the restricted machine is a run of the machine. -/
theorem run_of_run_restrict {s t : σ} {es : List ε}
    (hrun : run (restrict cond step) s es = some t) : run step s es = some t := by
  induction es generalizing s with
  | nil => exact hrun
  | cons e es ih =>
    obtain ⟨r, hr, hrest⟩ := (run_cons_eq_some_iff _ s t e es).mp hrun
    apply (run_cons_eq_some_iff _ s t e es).mpr
    exact ⟨r, ((restrict_eq_some_iff cond step s r e).mp hr).2, ih hrest⟩

end Restrict

end StateMachine
