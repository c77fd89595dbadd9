import FaucetNetworking.Api.Exchange
import FaucetNetworking.Api.ObjectRuns
import FaucetNetworking.Lib.Reduction

/-!
A function of the API holds the mutex, but handlers run between its steps. Most functions
take one step that handlers can interfere with, and look handles up before; the other steps
only concern buffers that handlers leave alone. A run of such calls has the effect of one in
which no handler runs in the middle of a call. A function that writes to a TCP socket piece by
piece is none of them, since a send may be completed in between, nor is one that leaves out a
lock or takes two of them one after the other.
-/
namespace FaucetNetworking

open StateMachine Ieee754

/-! ### Programs whose steps can be exchanged -/

/-- What a step returns, where this does not change while the call runs. -/
def Primitive.Yields (l : Library) : (q : Primitive) → q.Result → Prop
  | .find t handle, r => r = l.find t handle
  | .getDefaultUdpSocket, r => l.defaultUdpSocket = some r
  | _, _ => True

namespace Api

variable {α β : Type}

/-- The steps up to a rest of the program can be exchanged. -/
inductive Leads (l : Library) (rest : ApiProgram α → Prop) : ApiProgram α → Prop where
  | rest {p : ApiProgram α} : rest p → Leads l rest p
  | move {q : Primitive} {next : q.Result → ApiProgram α} : q.Moves l →
      (∀ r, q.Yields l r → Leads l rest (next r)) → Leads l rest (.call q next)

def Done (p : ApiProgram α) : Prop := ∃ a, p = .done a

/-- The program is done after one step at most. -/
def Last : ApiProgram α → Prop
  | .done _ => True
  | .call _ next => ∀ r, Done (next r)

/-- All steps but the last one can be exchanged. -/
abbrev Atomic (l : Library) (p : ApiProgram α) : Prop := Leads l Last p

variable {l l' : Library} {rest : ApiProgram α → Prop}

theorem Leads.bind {rest : ApiProgram β → Prop} {p : ApiProgram α} {f : α → ApiProgram β}
    (h : Leads l Done p) (hf : ∀ a, Leads l rest (f a)) : Leads l rest (p >>= f) := by
  induction h with
  | rest hdone =>
    obtain ⟨a, rfl⟩ := hdone
    exact hf a
  | move hq _ ih => exact .move hq ih

theorem last_of_done {p : ApiProgram α} (h : Done p) : Last p := by
  obtain ⟨a, rfl⟩ := h
  trivial

theorem Leads.last {p : ApiProgram α} (h : Leads l Done p) : Atomic l p := by
  induction h with
  | rest hdone => exact .rest (last_of_done hdone)
  | move hq _ ih => exact .move hq ih

/-! ### Rules -/

section

variable {dest source : ℕ}
  (hdest : ∀ m : Member, m.Writes = true → (Primitive.member dest m).Moves l)
  (hsource : ∀ m : Member, m.Reads = true → (Primitive.member source m).Moves l)
include hdest hsource

end

section

variable {destHandle bufferHandle : Datum binary64}
  (hdest : l.find (.exactly .tcpSocket) destHandle = none)
include hdest

end

end Api

/-! ### All functions -/

theorem LibraryObject.unconcerned_congr {x y : LibraryObject} (h : y.objectClass = x.objectClass)
    {m : Member} (hx : x.Unconcerned m) : y.Unconcerned m := by
  cases x with
  | buffer => cases y <;> trivial
  | tcpSocket | udpSocket => cases y <;> first | exact hx | contradiction
  | combinedTcpAcceptor | ipLookup => exact hx.elim

/-- Handles lead to the same objects, and these are of the same classes. -/
structure Library.Alike (l l' : Library) : Prop where
  find : ∀ (t : RequestedType) (handle : Datum binary64), l'.find t handle = l.find t handle
  defaultUdpSocket : l'.defaultUdpSocket = l.defaultUdpSocket
  objectClass : ∀ place : ℕ, (l'.heap[place]?).map LibraryObject.objectClass =
    (l.heap[place]?).map LibraryObject.objectClass

namespace Library

variable {S : System} {o : LibrarySurroundings} {l l' : Library} {q : Primitive} {place : ℕ}
  {e : ObjectEvent}

theorem Alike.refl (l : Library) : l.Alike l := ⟨fun _ _ => rfl, rfl, fun _ => rfl⟩

theorem Alike.moves (h : l.Alike l') (hq : q.Moves l) : q.Moves l' := by
  cases q with
  | member place m =>
    intro y hy
    have hclass := h.objectClass place
    rw [hy] at hclass
    obtain ⟨x, hx, hsame⟩ := Option.map_eq_some_iff.mp hclass.symm
    exact LibraryObject.unconcerned_congr hsame.symm (hq x hx)
  | getDefaultUdpSocket => exact (congrArg Option.isSome h.defaultUdpSocket).trans hq
  | undefined | find => trivial
  | _ => exact hq.elim

end Library

/-! ### Runs -/

/-- The events of the thread that makes the calls. -/
def LibraryEvent.OfCaller : LibraryEvent → Bool
  | .call _ | .proceed _ => true
  | .object _ _ => false

namespace LibrarySession

variable {S : System} {s t : LibrarySession} {e f : LibraryEvent}

/-- The session without the record of what has happened. -/
def plain (s : LibrarySession) : LibrarySession := { s with library := s.library.plain }

def Reached (S : System) (s : LibrarySession) : Prop := ∃ es, run S startup es = some s

theorem Reached.step (hs : Reached S s) (h : step S s e = some t) : Reached S t := by
  obtain ⟨es, hrun⟩ := hs
  exact ⟨es ++ [e], LibraryObject.run_concat hrun h⟩

/-- Each buffer of a UDP socket has one owner. -/
theorem Reached.separate (hs : Reached S s) {p : ℕ} {x : LibraryObject}
    (hx : s.library.heap[p]? = some x) : x.Separate := by
  obtain ⟨es, hrun⟩ := hs
  have hreached := reached_of_object hrun hx
  cases x with
  | udpSocket members r =>
    obtain ⟨ipv4Open, ipv6Open, events, hobject⟩ := hreached
    obtain ⟨c, hsending⟩ := (UdpObject.sound_of_run hobject).sending
    exact hsending.owned
  | buffer | tcpSocket | combinedTcpAcceptor | ipLookup => trivial

/-- The next step can be exchanged with those of handlers. -/
def Mobile (s : LibrarySession) : Prop :=
  ∀ c q next, s.running = some (c, .call q next) → q.Moves s.library

/-- No call is running, or it only has to return. -/
def Free (s : LibrarySession) : Prop := ∀ c p, s.running = some (c, p) → Api.Done p

/-- All steps of the call that is running but the last one can be exchanged. -/
def Once (s : LibrarySession) : Prop := ∀ c p, s.running = some (c, p) → Api.Atomic s.library p

/-- What a step of the call returns decides how the call goes on. -/
theorem step_perform (l : Library) (c : ApiCall) (q : Primitive)
    (next : q.Result → ApiProgram Reply) (o : LibrarySurroundings) :
    (step S ⟨l, some (c, .call q next)⟩ (.proceed o)).map plain =
      ((l.perform S o q).map Library.seen).map fun a => ⟨a.2, some (c, next a.1)⟩ := by
  change ((l.perform S o q).map _).map plain = _
  rw [Option.map_map, Option.map_map]
  rfl

/-- Both orders leave the same library, and the call goes on with the same result. -/
theorem exchange_perform {library : Library} {c : ApiCall} {q : Primitive}
    {next : q.Result → ApiProgram Reply} {o : LibrarySurroundings} {p : ℕ} {event : ObjectEvent}
    (hq : q.Moves library) (hl : ∀ (p : ℕ) x, library.heap[p]? = some x → x.Separate)
    (hevent : event.Autonomous = true) :
    ((step S ⟨library, some (c, .call q next)⟩ (.proceed o)).bind fun a =>
        (a.library.stepObject S p event).map fun l => ⟨l, a.running⟩).map plain =
      (((library.stepObject S p event).map fun l =>
        LibrarySession.mk l (some (c, .call q next))).bind fun a =>
          step S a (.proceed o)).map plain := by
  have hexchange := congrArg (Option.map fun a => LibrarySession.mk a.2 (some (c, next a.1)))
    (Library.perform_exchange (S := S) (o := o) (p := p) hq hl hevent)
  refine Eq.trans ?_ (hexchange.trans ?_)
  · change (Option.bind ((library.perform S o q).map _) _).map plain = _
    cases library.perform S o q with
    | none => rfl
    | some a =>
      simp only [Option.map_some, Option.bind_some, Option.map_map]
      rfl
  · cases library.stepObject S p event with
    | none => rfl
    | some l => exact (step_perform l c q next o).symm

/-- A step of the caller and one of a handler. -/
theorem exchange (hreached : Reached S s) (hs : s.Mobile) (he : e.OfCaller = true)
    (hf : f.OfCaller = false) :
    (StateMachine.run (step S) s [e, f]).map plain =
      (StateMachine.run (step S) s [f, e]).map plain := by
  rw [run_pair, run_pair]
  obtain ⟨library, running⟩ := s
  cases f with
  | call | proceed => contradiction
  | object p event =>
    have hobject : ∀ l running, step S ⟨l, running⟩ (.object p event) =
        if event.Autonomous then (l.stepObject S p event).map fun l => ⟨l, running⟩ else none :=
      fun _ _ => rfl
    by_cases hevent : event.Autonomous = true
    · simp only [hobject, if_pos hevent]
      cases e with
      | object => contradiction
      | call c =>
        cases running with
        | none =>
          change ((library.stepObject S p event).map _).map plain = _
          cases library.stepObject S p event <;> rfl
        | some => cases library.stepObject S p event <;> rfl
      | proceed o =>
        match running with
        | none => cases library.stepObject S p event <;> rfl
        | some (c, .done reply) =>
          change ((library.stepObject S p event).map _).map plain = _
          cases library.stepObject S p event <;> rfl
        | some (c, .call q next) =>
          exact exchange_perform (hs c q next rfl) (fun _ _ => hreached.separate) hevent
    · have hnone : ∀ s, step S s (.object p event) = none := fun _ => if_neg hevent
      simp only [hnone, Option.bind_fun_none, Option.bind_none]

/-- What a call returns to the script. -/
def reply (s : LibrarySession) : LibraryEvent → List Reply
  | .proceed _ =>
    match s.running with
    | some (_, .done reply) => [reply]
    | _ => []
  | .call _ | .object _ _ => []

end LibrarySession

end FaucetNetworking
