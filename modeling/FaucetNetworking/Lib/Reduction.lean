import FaucetNetworking.Lib.StateMachine

/-!
Blocks of steps that are interrupted by others. When the steps of a block can be exchanged
with those of the others, all but one of them, the block can be taken at once: the steps of
the others that come before the one are taken first, and those that come after it last. A
run whose blocks are all of this kind then has the effect of a run without interruptions.
States are compared by what can be seen of them.
-/
namespace StateMachine

variable {σ ε ν : Type*}

/-! ### What can be seen of a run -/

/-- What can be seen of the next state depends on what can be seen of the state. -/
def Respects (step : σ → ε → Option σ) (view : σ → ν) : Prop :=
  ∀ s t e, view s = view t → (step s e).map view = (step t e).map view

section

variable {step : σ → ε → Option σ} {view : σ → ν}

theorem Respects.run_eq (h : Respects step view) {s t : σ} (hsame : view s = view t) (es : List ε) :
    (run step s es).map view = (run step t es).map view := by
  induction es generalizing s t with
  | nil => exact congrArg some hsame
  | cons e es ih =>
    have hnext := h s t e hsame
    unfold run
    cases hs : step s e with
    | none =>
      rw [hs] at hnext
      rw [Option.map_eq_none_iff.mp hnext.symm]
    | some u =>
      rw [hs] at hnext
      obtain ⟨v, hv, hview⟩ := Option.map_eq_some_iff.mp hnext.symm
      rw [hv]
      exact ih hview.symm

/-- A run that looks like another one goes on like it. -/
theorem Respects.append (h : Respects step view) {s t : σ} {x y : List ε}
    (hsame : (run step s x).map view = (run step t y).map view) (es : List ε) :
    (run step s (x ++ es)).map view = (run step t (y ++ es)).map view := by
  rw [run_append, run_append]
  cases hs : run step s x with
  | none =>
    rw [hs] at hsame
    rw [Option.map_eq_none_iff.mp hsame.symm]
  | some u =>
    rw [hs] at hsame
    obtain ⟨v, hv, hview⟩ := Option.map_eq_some_iff.mp hsame.symm
    rw [hv]
    exact h.run_eq hview.symm es

theorem run_pair (step : σ → ε → Option σ) (s : σ) (e f : ε) :
    run step s [e, f] = (step s e).bind fun t => step t f :=
  congrArg (Option.bind _) (funext fun t => Option.bind_fun_some (step t f))

end

/-! ### Blocks -/

/-- The events of a block are a party's own, and begin with one that begins a block. The next
step of a mobile state can be exchanged with steps of the others, and in a free state so can
all steps that remain of the block. An invariant may be used for it. -/
structure Reduction (step : σ → ε → Option σ) (own begins : ε → Bool) (view : σ → ν) where
  Inv : σ → Prop
  Idle : σ → Prop
  Mobile : σ → Prop
  Free : σ → Prop
  /-- All steps but one can be exchanged. -/
  Once : σ → Prop
  respects : Respects step view
  inv_step : ∀ s t e, Inv s → step s e = some t → Inv t
  own_of_begins : ∀ e, begins e = true → own e = true
  idle_of_begins : ∀ s t e, begins e = true → step s e = some t → Idle s
  begins_of_idle : ∀ s t e, Idle s → own e = true → step s e = some t → begins e = true
  idle_other : ∀ s t e, Idle s → own e = false → step s e = some t → Idle t
  mobile_of_idle : ∀ s, Idle s → Mobile s
  mobile_other : ∀ s t e, Mobile s → own e = false → step s e = some t → Mobile t
  mobile_of_free : ∀ s, Free s → Mobile s
  free_step : ∀ s t e, Free s → begins e = false → step s e = some t → Free t
  once_other : ∀ s t e, Once s → own e = false → step s e = some t → Once t
  once_own : ∀ s t e, Once s → own e = true → begins e = false → step s e = some t →
    Free t ∨ Mobile s ∧ Once t
  exchange : ∀ s e f, Inv s → Mobile s → own e = true → own f = false →
    (run step s [e, f]).map view = (run step s [f, e]).map view

/-- The events of each block follow each other. -/
inductive Serial (own begins : ε → Bool) : List ε → Prop where
  | nil : Serial own begins []
  | other {f : ε} {es : List ε} : own f = false → Serial own begins es →
      Serial own begins (f :: es)
  | block {e : ε} {es fs : List ε} : begins e = true →
      (∀ f ∈ es, own f = true ∧ begins f = false) → Serial own begins fs →
      Serial own begins (e :: es ++ fs)

theorem Serial.others {own begins : ε → Bool} {es fs : List ε} (hes : ∀ e ∈ es, own e = false)
    (hfs : Serial own begins fs) : Serial own begins (es ++ fs) := by
  induction es with
  | nil => exact hfs
  | cons e es ih =>
    obtain ⟨he, hes⟩ := List.forall_mem_cons.mp hes
    exact .other he (ih hes)

namespace Reduction

variable {step : σ → ε → Option σ} {own begins : ε → Bool} {view : σ → ν}
  (r : Reduction step own begins view) {s t : σ} {e f : ε} {es : List ε}
include r

end Reduction

/-! ### Runs -/

/-- The steps of the party come in the order that they had, and so do those of the others. -/
structure Reordered (own : ε → Bool) (es fs : List ε) : Prop where
  party : fs.filter own = es.filter own
  others : (fs.filter fun f => !own f) = es.filter fun e => !own e

theorem Reordered.append {own : ε → Bool} {es es' fs fs' : List ε} (h : Reordered own es fs)
    (h' : Reordered own es' fs') : Reordered own (es ++ es') (fs ++ fs') where
  party := by rw [List.filter_append, List.filter_append, h.party, h'.party]
  others := by rw [List.filter_append, List.filter_append, h.others, h'.others]

namespace Reduction

variable {step : σ → ε → Option σ} {own begins : ε → Bool} {view : σ → ν}
  (r : Reduction step own begins view) {s t : σ}
include r

end Reduction

/-! ### What is returned -/

section

variable {ω : Type*} (step : σ → ε → Option σ) (out : σ → ε → List ω)

/-- All that the steps of a run return. -/
def outputs : σ → List ε → List ω
  | _, [] => []
  | s, e :: es => out s e ++ (step s e).elim [] fun t => outputs t es

/-- The machine that also keeps what its steps have returned. -/
def logged (a : σ × List ω) (e : ε) : Option (σ × List ω) :=
  (step a.1 e).map fun t => (t, a.2 ++ out a.1 e)

variable {step out}

theorem step_of_logged {a b : σ × List ω} {e : ε} (h : logged step out a e = some b) :
    step a.1 e = some b.1 := by
  obtain ⟨t, ht, rfl⟩ := Option.map_eq_some_iff.mp h
  exact ht

theorem run_logged (s : σ) (ws : List ω) (es : List ε) :
    run (logged step out) (s, ws) es =
      (run step s es).map fun t => (t, ws ++ outputs step out s es) := by
  induction es generalizing s ws with
  | nil => exact congrArg (fun vs => some (s, vs)) (List.append_nil ws).symm
  | cons e es ih =>
    have hlogged : logged step out (s, ws) e = (step s e).map fun t => (t, ws ++ out s e) := rfl
    unfold run outputs
    rw [hlogged]
    cases step s e with
    | none => rfl
    | some t =>
      rw [Option.map_some, Option.bind_some, Option.bind_some, ih, List.append_assoc]
      rfl

theorem outputs_cons_of_step {s t : σ} {e : ε} (h : step s e = some t) (es : List ε) :
    outputs step out s (e :: es) = out s e ++ outputs step out t es := by
  change out s e ++ ((step s e).elim [] fun t => outputs step out t es) = _
  rw [h]
  rfl

theorem outputs_singleton (s : σ) (e : ε) : outputs step out s [e] = out s e := by
  unfold outputs
  cases step s e <;> exact List.append_nil (out s e)

variable {own begins : ε → Bool} {view : σ → ν}

/-- The others return nothing, and do not change what the party returns. -/
def Reduction.logged (r : Reduction step own begins view)
    (hview : ∀ s t e, view s = view t → out s e = out t e)
    (hothers : ∀ s f, own f = false → out s f = [])
    (hstable : ∀ s t e f, own f = false → step s f = some t → out t e = out s e) :
    Reduction (StateMachine.logged step out) own begins (Prod.map view id) where
  Inv a := r.Inv a.1
  Idle a := r.Idle a.1
  Mobile a := r.Mobile a.1
  Free a := r.Free a.1
  Once a := r.Once a.1
  respects := by
    rintro ⟨s, ws⟩ ⟨t, vs⟩ e hsame
    obtain ⟨hs, rfl⟩ := Prod.mk.inj hsame
    have hstep := congrArg (Option.map fun v => (v, ws ++ out s e)) (r.respects s t e hs)
    rw [Option.map_map, Option.map_map, hview s t e hs] at hstep
    unfold StateMachine.logged
    rw [Option.map_map, Option.map_map, hview s t e hs]
    exact hstep
  inv_step a b e ha h := r.inv_step a.1 b.1 e ha (step_of_logged h)
  own_of_begins := r.own_of_begins
  idle_of_begins a b e he h := r.idle_of_begins a.1 b.1 e he (step_of_logged h)
  begins_of_idle a b e ha he h := r.begins_of_idle a.1 b.1 e ha he (step_of_logged h)
  idle_other a b e ha he h := r.idle_other a.1 b.1 e ha he (step_of_logged h)
  mobile_of_idle a := r.mobile_of_idle a.1
  mobile_other a b e ha he h := r.mobile_other a.1 b.1 e ha he (step_of_logged h)
  mobile_of_free a := r.mobile_of_free a.1
  free_step a b e ha he h := r.free_step a.1 b.1 e ha he (step_of_logged h)
  once_other a b e ha he h := r.once_other a.1 b.1 e ha he (step_of_logged h)
  once_own a b e ha he hbegins h := r.once_own a.1 b.1 e ha he hbegins (step_of_logged h)
  exchange := by
    rintro ⟨s, ws⟩ e f hinv hs he hf
    have hboth := r.exchange s e f hinv hs he hf
    rw [run_logged, run_logged, Option.map_map, Option.map_map]
    cases hef : run step s [e, f] with
    | none =>
      rw [hef] at hboth
      rw [Option.map_eq_none_iff.mp hboth.symm]
      rfl
    | some t =>
      obtain ⟨t', hfe, hsame⟩ := Option.map_eq_some_iff.mp (hboth.symm.trans (congrArg _ hef))
      obtain ⟨u, hu, -⟩ := (run_cons_eq_some_iff step s t e [f]).mp hef
      obtain ⟨v, hv, -⟩ := (run_cons_eq_some_iff step s t' f [e]).mp hfe
      have houtputs : outputs step out s [e, f] = outputs step out s [f, e] := by
        rw [outputs_cons_of_step hu, outputs_cons_of_step hv, outputs_singleton,
          outputs_singleton, hothers u f hf, hothers s f hf, hstable s v e f hf hv,
          List.append_nil, List.nil_append]
      rw [hfe, houtputs]
      exact congrArg (fun w => some (w, ws ++ outputs step out s [f, e])) hsame.symm

end

end StateMachine
