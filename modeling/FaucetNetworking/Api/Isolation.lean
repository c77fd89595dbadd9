import FaucetNetworking.Api.ReceiveBuffers

/-!
The pointers that are used, and the objects that are not touched. A call that runs uses only
pointers to objects of the right class that have not been released, and what has not been
named by a handle changes only by its own handlers.
-/
namespace FaucetNetworking

open Ieee754 StateMachine Ownership

/-- The pointer that a primitive dereferences, and the type that it must be of. -/
def Primitive.uses : Primitive → Option (ℕ × RequestedType)
  | .member place m => some (place, m.requestedType)
  | .accept place => some (place, .exactly .combinedTcpAcceptor)
  | .destroySocket _ place _ => some (place, .fallible)
  | _ => none

/-- One literal address, and two addresses that have texts. -/
def loopbackSystem : System := ⟨UdpSession.loopback, LookupSession.loopbackText⟩

/-- All calls succeed, and no bytes arrive. -/
def quiet : LibrarySurroundings where
  receive := ⟨.ok 0, none⟩
  peek := .wouldBlock
  setOption := none
  closeError := none
  enter := ⟨.ok ⟨.v4, 0x7f000001, 80⟩, .ok ⟨.v4, 0x7f000001, 1024⟩, .ok "127.0.0.1", .ok (), .ok ()⟩
  between := []
  dualStack := default
  broadcastAddresses := []
  uninitialised := fun n => ByteDigits.Image.encode n 0

namespace LibrarySession

/-- A script creates a buffer. -/
def oneBuffer : List LibraryEvent := [.call .bufferCreate, .proceed quiet, .proceed quiet]

/-- A call with its steps. -/
def called (c : ApiCall) (steps : ℕ) : List LibraryEvent :=
  .call c :: List.replicate steps (.proceed quiet)

def secondHandle : Datum binary64 := Datum.ofInt binary64 2 (by decide)

/-- A script connects, listens, sends its buffer without a socket of its own, and releases the
connecting socket. -/
def visit : List LibraryEvent :=
  oneBuffer ++ called (.tcpConnect "127.0.0.1" (Datum.ofInt binary64 82 (by decide))) 2 ++
    called (.tcpListen (Datum.ofInt binary64 81 (by decide))) 2 ++
    called (.writeString Handles.firstHandle [104, 105]) 3 ++
    called (.udpSend Handles.firstHandle "127.0.0.1" (Datum.ofInt binary64 90 (by decide))) 6 ++
    called (.socketDestroy secondHandle) 3

/-- While the buffer is cleared, the connection is established and the datagram sent. -/
def aftermath : List LibraryEvent :=
  called (.bufferClear Handles.firstHandle) 1 ++
    .object 1 (.tcpSocket (.completion (.connect 0 none none quiet.enter))) ::
    .object 3 (.udpSocket (.session (.completion (.send 0 none)))) ::
    List.replicate 2 (.proceed quiet)

/-- A datagram arrives for the first object. -/
def received (bytes : List UInt8) : LibraryEvent :=
  .object 0 (.udpSocket (.session (.completion (.receive 0 none bytes ⟨.v4, 1, 90⟩))))

/-- While a script reads from the datagram that it has received, another one arrives. -/
def reading : List LibraryEvent :=
  called (.udpBind (Datum.ofInt binary64 90 (by decide))) 2 ++ received [104, 0, 105] ::
    called (.udpReceive Handles.firstHandle) 3 ++
    called (.fnetHiddenReadCstring Handles.firstHandle) 3 ++ [received [7]]

variable {S : System} {s t : LibrarySession} {place : ℕ}

/-! ### Owners -/

/-- A handle leads to an object of its own that has not been released, and a socket that has
not been released is not lost. -/
structure Owned (l : Library) : Prop where
  handles : ∀ key place, l.handles.content.lookup key = some place →
    l.defaultUdpSocket ≠ some place ∧ ∃ x, l.heap[place]? = some x ∧ x.Held
  sole : ∀ key key' place, l.handles.content.lookup key = some place →
    l.handles.content.lookup key' = some place → key = key'
  default : ∀ place, l.defaultUdpSocket = some place →
    ∃ x, l.heap[place]? = some x ∧ x.Held ∧ x.objectClass = .udpSocket
  reachable : ∀ place x, l.heap[place]? = some x → x.Held → x.Lasting →
    (∃ key, l.handles.content.lookup key = some place) ∨ l.defaultUdpSocket = some place

theorem owned_of_run {es : List LibraryEvent} (hrun : run S startup es = some s) :
    Owned s.library := by
  have h := (orderly_of_run hrun).consistent
  refine ⟨fun key place hkey => ⟨?_, ?_⟩, fun key key' place hkey hkey' => ?_,
    fun place hplace => ?_, fun place x hx hheld hlasting => ?_⟩
  · intro hdefault
    exact absurd (h.exclusive.sole (some key) none place hkey hdefault) (Option.some_ne_none key)
  · exact h.exclusive.alive (some key) place hkey
  · exact Option.some.inj (h.exclusive.sole (some key) (some key') place hkey hkey')
  · obtain ⟨x, hx, hclass⟩ := h.default place hplace
    obtain ⟨x', hx', hheld⟩ := h.exclusive.alive none place hplace
    obtain rfl := Option.some.inj (hx.symm.trans hx')
    exact ⟨x, hx, hheld, hclass⟩
  · obtain ⟨owner, howner⟩ := h.lasting place x hx hheld hlasting
    cases owner with
    | none => exact Or.inr howner
    | some key => exact Or.inl ⟨key, howner⟩

theorem owned_of_run_visit : ∃ s, run loopbackSystem startup visit = some s ∧
    s.library.heap.length = 4 ∧ s.library.defaultUdpSocket = some 3 ∧
    s.library.pointer secondHandle = none ∧ Owned s.library := by
  have hs : (run loopbackSystem startup visit).map (fun s => (s.library.heap.length,
      s.library.defaultUdpSocket, s.library.pointer secondHandle)) = some (4, some 3, none) := by
    decide +kernel
  obtain ⟨s, hrun, hs⟩ := Option.map_eq_some_iff.mp hs
  obtain ⟨hlength, hs⟩ := Prod.mk.inj hs
  obtain ⟨hdefault, hpointer⟩ := Prod.mk.inj hs
  exact ⟨s, hrun, hlength, hdefault, hpointer, owned_of_run hrun⟩

/-! ### Pointers that are used -/

/-- One of the handles of the call leads there. -/
def Names (l : Library) (c : ApiCall) (place : ℕ) : Prop :=
  ∃ handle ∈ c.handles, l.pointer handle = some place

theorem Orderly.pointer_of_found {l : Library} {c : ApiCall} {g : Knowledge}
    {handle : Datum binary64} {t : RequestedType} (hconsistent : l.Consistent S)
    (hknows : l.Knows c.handles g) (hfound : (handle, t, place) ∈ g.found) :
    Names l c place ∧ ∃ x, l.heap[place]? = some x ∧ x.Held ∧ t.includes x.objectClass = true := by
  obtain ⟨hhandle, hfind⟩ := hknows.found handle t place hfound
  obtain ⟨hpointer, x, hx, hincludes⟩ := Library.find_eq_some_iff.mp hfind
  obtain ⟨key, -, howner⟩ := Option.bind_eq_some_iff.mp hpointer
  obtain ⟨x', hx', hheld⟩ := hconsistent.exclusive.alive (some key) place howner
  obtain rfl := Option.some.inj (hx.symm.trans hx')
  exact ⟨⟨handle, hhandle, hpointer⟩, x, hx, hheld, hincludes⟩

theorem includes_of_drafts {g : Knowledge} {m : Member} (h : g.Drafts m) :
    m.requestedType.includes .udpSocket = true := by
  cases m with
  | write | sendTo | broadcast => rfl
  | _ => exact h.elim

/-- What a call may do next with a pointer. -/
theorem uses_of_allowed {l : Library} {c : ApiCall} {g : Knowledge} {q : Primitive}
    {t : RequestedType} (h : l.Consistent S) (hknows : l.Knows c.handles g)
    (hallowed : Knowledge.Allowed c.handles q g) (huses : q.uses = some (place, t)) :
    (Names l c place ∨ l.defaultUdpSocket = some place) ∧
      ∃ x, l.heap[place]? = some x ∧ x.Held ∧ t.includes x.objectClass = true := by
  cases q with
  | member p m =>
    obtain ⟨rfl, rfl⟩ := Prod.mk.inj (Option.some.inj huses)
    rcases hallowed.2 with ⟨handle, t, hfound, hrefines⟩ | ⟨hdefault, hdrafts⟩
    · obtain ⟨hnames, x, hx, hheld, hincludes⟩ :=
        Orderly.pointer_of_found h hknows hfound
      exact ⟨Or.inl hnames, x, hx, hheld, hrefines _ hincludes⟩
    · have hplace := hknows.default p hdefault
      obtain ⟨x, hx, hclass⟩ := h.default p hplace
      obtain ⟨x', hx', hheld⟩ := h.exclusive.alive none p hplace
      obtain rfl := Option.some.inj (hx.symm.trans hx')
      refine ⟨Or.inr hplace, x, hx, hheld, ?_⟩
      rw [hclass]
      exact includes_of_drafts hdrafts
  | accept p =>
    obtain ⟨rfl, rfl⟩ := Prod.mk.inj (Option.some.inj huses)
    obtain ⟨-, handle, t, hfound, hrefines⟩ := hallowed
    obtain ⟨hnames, x, hx, hheld, hincludes⟩ :=
      Orderly.pointer_of_found h hknows hfound
    exact ⟨Or.inl hnames, x, hx, hheld, hrefines _ hincludes⟩
  | destroySocket handle p hard =>
    obtain ⟨rfl, rfl⟩ := Prod.mk.inj (Option.some.inj huses)
    obtain ⟨-, c', hfound, hc⟩ := hallowed
    obtain ⟨hnames, x, hx, hheld, hincludes⟩ :=
      Orderly.pointer_of_found h hknows hfound
    refine ⟨Or.inl hnames, x, hx, hheld, ?_⟩
    have hclass : x.objectClass = c' := of_decide_eq_true hincludes
    rw [hclass]
    rcases hc with rfl | rfl | rfl <;> rfl
  | _ => contradiction

theorem reseated_of_allowed {handles : List (Datum binary64)} {g : Knowledge} {q : Primitive}
    {t : RequestedType} (hallowed : Knowledge.Allowed handles q g)
    (huses : q.uses = some (place, t)) : g.reseated = false := by
  cases q with
  | member | accept | destroySocket => exact hallowed.1
  | _ => contradiction

/-- The pointer is to an object of the class that has not been released, and the call has it
by one of its handles or from the default socket. Since the call was made, no UDP socket has
got another receive buffer. -/
structure Valid (S : System) (es : List LibraryEvent) (s : LibrarySession) (c : ApiCall)
    (place : ℕ) (t : RequestedType) : Prop where
  named : Names s.library c place ∨ s.library.defaultUdpSocket = some place
  object : ∃ x, s.library.heap[place]? = some x ∧ x.Held ∧ t.includes x.objectClass = true
  seated : ∃ past future before, es = past ++ .call c :: future ∧ (∀ d, .call d ∉ future) ∧
    run S startup past = some before ∧ before.library.Seated s.library

/-- In every run, the pointer that a call uses next is valid. -/
theorem pointer_of_run {es : List LibraryEvent} {c : ApiCall} {q : Primitive}
    {next : q.Result → ApiProgram Reply} {t : RequestedType}
    (hrun : run S startup es = some s) (hrunning : s.running = some (c, .call q next))
    (huses : q.uses = some (place, t)) : Valid S es s c place t := by
  obtain ⟨g, ⟨hallowed, -⟩, hknows, past, future, before, hsplit, hfuture, hpast, hseated⟩ :=
    (traced_of_run hrun).obeys c _ hrunning
  obtain ⟨hnames, hobject⟩ :=
    uses_of_allowed (orderly_of_run hrun).consistent hknows hallowed huses
  exact ⟨hnames, hobject, past, future, before, hsplit, hfuture, hpast,
    hseated (reseated_of_allowed hallowed huses)⟩

/-- The pointer that a call dereferences next. -/
def nextUse (s : LibrarySession) : Option (ℕ × RequestedType) :=
  match s.running with
  | some (_, .call q _) => q.uses
  | _ => none

/-- The script reads the bytes before the zero. -/
theorem pointer_of_run_reading : ∃ s c, run loopbackSystem startup reading = some s ∧
    s.nextUse = some (0, .readWritable) ∧
    Valid loopbackSystem reading s c 0 .readWritable := by
  have hs : (run loopbackSystem startup reading).map nextUse =
      some (some (0, .readWritable)) := by decide +kernel
  obtain ⟨s, hrun, huse⟩ := Option.map_eq_some_iff.mp hs
  cases hrunning : s.running with
  | none =>
    unfold nextUse at huse
    rw [hrunning] at huse
    contradiction
  | some current =>
    obtain ⟨c, p⟩ := current
    cases p with
    | done reply =>
      unfold nextUse at huse
      rw [hrunning] at huse
      contradiction
    | call q next =>
      have huses : q.uses = some (0, .readWritable) := by
        unfold nextUse at huse
        rw [hrunning] at huse
        exact huse
      exact ⟨s, c, hrun, huse, pointer_of_run hrun hrunning huses⟩

end LibrarySession

/-! ### Objects that are not touched -/

namespace Library

variable {S : System} {l l' l'' : Library} {place : ℕ}

/-- The owner is the one that it was, and only handlers have run. -/
structure Untouched (S : System) (l l' : Library) (place : ℕ) : Prop where
  owner : ∀ owner, l'.target owner = some place ↔ l.target owner = some place
  object : ∀ x, l.heap[place]? = some x → ∃ y events, l'.heap[place]? = some y ∧
    (∀ e ∈ events, ObjectEvent.Autonomous e = true) ∧ run (LibraryObject.step S) x events = some y

theorem Untouched.of_same (howner : ∀ owner, l'.target owner = some place ↔
    l.target owner = some place) (hheap : ∀ x, l.heap[place]? = some x → l'.heap[place]? = some x) :
    Untouched S l l' place :=
  ⟨howner, fun x hx => ⟨x, [], hheap x hx, nofun, rfl⟩⟩

theorem Untouched.refl (S : System) (l : Library) (place : ℕ) : Untouched S l l place :=
  .of_same (fun _ => Iff.rfl) fun _ h => h

theorem Untouched.trans (h : Untouched S l l' place) (h' : Untouched S l' l'' place) :
    Untouched S l l'' place where
  owner := fun owner => (h'.owner owner).trans (h.owner owner)
  object := by
    intro x hx
    obtain ⟨y, events, hy, hautonomous, hrun⟩ := h.object x hx
    obtain ⟨z, events', hz, hautonomous', hrun'⟩ := h'.object y hy
    refine ⟨z, events ++ events', hz, fun e he => ?_, run_append_eq_some hrun hrun'⟩
    rcases List.mem_append.mp he with hfirst | hsecond
    · exact hautonomous e hfirst
    · exact hautonomous' e hsecond

theorem untouched_stepObject {p : ℕ} {e : ObjectEvent} (h : l.stepObject S p e = some l')
    (hother : p ≠ place) : Untouched S l l' place := by
  obtain ⟨x, y, -, -, rfl⟩ := stepObject_eq_some_iff.mp h
  refine .of_same (fun owner => by cases owner <;> exact Iff.rfl) fun z hz => ?_
  exact (List.getElem?_set_ne hother).trans hz

/-- The object's own handler runs. -/
theorem untouched_handler {e : ObjectEvent} (h : l.stepObject S place e = some l')
    (he : e.Autonomous = true) : Untouched S l l' place := by
  obtain ⟨x, y, hx, hy, rfl⟩ := stepObject_eq_some_iff.mp h
  refine ⟨fun owner => by cases owner <;> exact Iff.rfl, fun z hz => ?_⟩
  obtain rfl := Option.some.inj (hx.symm.trans hz)
  refine ⟨y, [e], List.getElem?_set_self (List.getElem?_eq_some_iff.mp hx).1, ?_, ?_⟩
  · intro e' he'
    rw [List.mem_singleton.mp he']
    exact he
  · exact (run_cons_eq_some_iff _ _ _ _ _).mpr ⟨y, hy, rfl⟩

theorem Untouched.assign {owner : Option UInt32} {x : LibraryObject}
    (hheap : l'.heap = l.heap ++ [x])
    (htarget : l'.target = Function.update l.target owner (some l.heap.length))
    (hunused : l.target owner = none) (hplace : place < l.heap.length) :
    Untouched S l l' place := by
  refine .of_same (fun other => ?_) fun z hz => ?_
  · rw [htarget]
    by_cases hother : other = owner
    · rw [hother, Function.update_self, hunused]
      refine iff_of_false (fun h => ?_) (Option.some_ne_none place).symm
      exact Nat.ne_of_gt hplace (Option.some.inj h)
    · rw [Function.update_of_ne hother]
  · rw [hheap, List.getElem?_append_left hplace, hz]

theorem untouched_release {handle : Datum binary64} (hother : l.pointer handle ≠ some place) :
    Untouched S l (l.release handle) place := by
  refine .of_same (fun owner => ?_) fun z hz => ?_
  · cases hkey : handleKey handle with
    | none =>
      have hsame : l.release handle = l := by
        unfold release
        rw [hkey]
      rw [hsame]
    | some key =>
      rw [target_release hkey]
      by_cases howner : owner = some key
      · rw [howner, Function.update_self]
        refine iff_of_false (Option.some_ne_none place).symm fun h => hother ?_
        exact Option.bind_eq_some_iff.mpr ⟨key, hkey, h⟩
      · rw [Function.update_of_ne howner]
  · rw [(l.heap_release handle).1]
    exact hz

/-- A call does not touch what its handles and the default pointer do not lead to. -/
theorem untouched_primitive {handles : List (Datum binary64)} {g : Knowledge} {q : Primitive}
    {result : q.Result} (hknows : l.Knows handles g) (hallowed : Knowledge.Allowed handles q g)
    (hcase : PrimitiveCase S l q result l') (hplace : place < l.heap.length)
    (hhandles : ∀ handle ∈ handles, l.pointer handle ≠ some place)
    (hdefault : l.defaultUdpSocket ≠ some place) : Untouched S l l' place := by
  have hpointer : ∀ handle t p, (handle, t, p) ∈ g.found →
      l.pointer handle = some p ∧ p ≠ place := by
    intro handle t p hfound
    obtain ⟨hhandle, hfind⟩ := hknows.found handle t p hfound
    have hp := (find_eq_some_iff.mp hfind).1
    refine ⟨hp, ?_⟩
    rintro rfl
    exact hhandles handle hhandle hp
  have hpoints : ∀ p t, g.Points p t → p ≠ place := by
    rintro p t ⟨handle, t', hfound, -⟩
    exact (hpointer handle t' p hfound).2
  cases hcase with
  | find | observed | defaultThere | size => exact .refl S l place
  | changed p m result o x e l' _ _ hstep =>
    refine untouched_stepObject hstep ?_
    rcases hallowed.2 with hpoint | ⟨hp, -⟩
    · exact hpoints p _ hpoint
    · rintro rfl
      exact hdefault (hknows.default p hp)
  | allocated c x handle l' _ hallocate =>
    obtain ⟨hheap, -, hunused, htarget⟩ := target_allocate hallocate
    exact .assign hheap htarget hunused hplace
  | waiting p calls between l' hstep => exact untouched_stepObject hstep (hpoints p _ hallowed.2)
  | accepted p calls between x handle l' l'' hstep _ hallocate =>
    obtain ⟨hheap, -, hunused, htarget⟩ := target_allocate hallocate
    refine (untouched_stepObject hstep (hpoints p _ hallowed.2)).trans
      (.assign hheap htarget hunused ?_)
    obtain ⟨y, z, -, -, rfl⟩ := stepObject_eq_some_iff.mp hstep
    exact hplace.trans_eq List.length_set.symm
  | destroyed handle p hard x e l' _ _ hstep =>
    obtain ⟨-, c, hfound, -⟩ := hallowed
    obtain ⟨hp, hother⟩ := hpointer handle _ p hfound
    refine (untouched_stepObject hstep hother).trans (untouched_release fun hsame => ?_)
    have hkept : l'.pointer handle = l.pointer handle := by
      obtain ⟨y, z, -, -, rfl⟩ := stepObject_eq_some_iff.mp hstep
      rfl
    rw [hkept, hp] at hsame
    exact hother (Option.some.inj hsame)
  | released handle =>
    obtain ⟨c, p, hfound, -⟩ := hallowed
    obtain ⟨hp, hother⟩ := hpointer handle _ p hfound
    refine untouched_release fun hsame => ?_
    rw [hp] at hsame
    exact hother (Option.some.inj hsame)
  | defaultBound o hnone =>
    exact .assign rfl (l.target_bindDefault _) hnone hplace
  | order => exact .of_same (fun owner => by cases owner <;> exact Iff.rfl) fun _ h => h

/-- No handler changes a buffer. -/
theorem Untouched.buffer (h : Untouched S l l' place) {r : ByteOrdered Buffer}
    (hr : l.heap[place]? = some (.buffer r)) : l'.heap[place]? = some (.buffer r) := by
  obtain ⟨y, events, hy, hautonomous, hrun⟩ := h.object _ hr
  cases events with
  | nil =>
    obtain rfl := Option.some.inj hrun
    exact hy
  | cons e events =>
    obtain ⟨z, hz, -⟩ := (run_cons_eq_some_iff _ _ _ _ _).mp hrun
    have he := hautonomous e List.mem_cons_self
    cases LibraryObject.stepCase hz with
    | bufferOrder | buffer => contradiction

end Library

namespace LibrarySession

variable {S : System} {s t : LibrarySession} {place : ℕ}

theorem untouched_step {e : LibraryEvent} (h : s.Orderly S)
    (hstep : LibrarySession.step S s e = some t) (hplace : place < s.library.heap.length)
    (hdefault : s.library.defaultUdpSocket ≠ some place)
    (hrunning : ∀ c p, s.running = some (c, p) → ¬ Names s.library c place) :
    s.library.Untouched S t.library place := by
  cases stepCase hstep with
  | called c _ => exact .refl S _ place
  | returned c reply o _ => exact .refl S _ place
  | performed c q next result l o hcurrent hcase =>
    obtain ⟨g, ⟨hallowed, -⟩, hknows⟩ := h.obeys c _ hcurrent
    refine Library.untouched_primitive hknows hallowed hcase hplace ?_ hdefault
    intro handle hhandle hpointer
    exact hrunning c _ hcurrent ⟨handle, hhandle, hpointer⟩
  | handled p e l hautonomous hl =>
    by_cases hp : p = place
    · subst p
      exact Library.untouched_handler hl hautonomous
    · exact Library.untouched_stepObject hl hp

theorem names_congr {l l' : Library} (h : l.Untouched S l' place) (c : ApiCall) :
    Names l' c place ↔ Names l c place := by
  have hpointer : ∀ handle, l'.pointer handle = some place ↔ l.pointer handle = some place := by
    intro handle
    unfold Library.pointer
    rw [Option.bind_eq_some_iff, Option.bind_eq_some_iff]
    exact exists_congr fun key => and_congr_right fun _ => h.owner (some key)
  unfold Names
  simp only [hpointer]

theorem running_step {e : LibraryEvent} (hstep : LibrarySession.step S s e = some t)
    {c : ApiCall} {p : ApiProgram Reply} (hrunning : t.running = some (c, p)) :
    e = .call c ∨ ∃ p, s.running = some (c, p) := by
  cases stepCase hstep with
  | called c' _ =>
    obtain ⟨rfl, -⟩ := Prod.mk.inj (Option.some.inj hrunning)
    exact Or.inl rfl
  | returned c' reply o _ => contradiction
  | performed c' q next result l o hcurrent _ =>
    obtain ⟨rfl, -⟩ := Prod.mk.inj (Option.some.inj hrunning)
    exact Or.inr ⟨_, hcurrent⟩
  | handled place e l _ _ => exact Or.inr ⟨p, hrunning⟩

theorem untouched_run {fs : List LibraryEvent} (h : s.Orderly S)
    (hplace : place < s.library.heap.length) (hdefault : s.library.defaultUdpSocket ≠ some place)
    (hrunning : ∀ c p, s.running = some (c, p) → ¬ Names s.library c place)
    (hcalls : ∀ c, .call c ∈ fs → ¬ Names s.library c place) (hrun : run S s fs = some t) :
    s.library.Untouched S t.library place := by
  induction fs generalizing s with
  | nil =>
    obtain rfl := Option.some.inj hrun
    exact .refl S _ place
  | cons e fs ih =>
    obtain ⟨r, hstep, hrest⟩ := (run_cons_eq_some_iff _ _ _ _ _).mp hrun
    have hfirst := untouched_step h hstep hplace hdefault hrunning
    refine hfirst.trans (ih (h.step hstep) ?_ ?_ ?_ ?_ hrest)
    · obtain ⟨x, hx⟩ : ∃ x, s.library.heap[place]? = some x :=
        ⟨_, List.getElem?_eq_getElem hplace⟩
      obtain ⟨y, -, hy, -⟩ := hfirst.object x hx
      exact (List.getElem?_eq_some_iff.mp hy).1
    · exact fun hsame => hdefault ((hfirst.owner none).mp hsame)
    · intro c p hcurrent
      rw [names_congr hfirst]
      rcases running_step hstep hcurrent with rfl | ⟨p', hcurrent'⟩
      · exact hcalls c List.mem_cons_self
      · exact hrunning c p' hcurrent'
    · intro c hc
      rw [names_congr hfirst]
      exact hcalls c (List.mem_cons_of_mem _ hc)

/-- Whatever the script and the handlers do, an object that no call names by a handle, be it
that its handle has been released, keeps its owner, and only its own handlers change it. -/
theorem isolated_of_run {es fs : List LibraryEvent} (hrun : run S startup es = some s)
    (hplace : place < s.library.heap.length) (hdefault : s.library.defaultUdpSocket ≠ some place)
    (hrunning : ∀ c p, s.running = some (c, p) → ¬ Names s.library c place)
    (hcalls : ∀ c, .call c ∈ fs → ¬ Names s.library c place) (hrest : run S s fs = some t) :
    s.library.Untouched S t.library place ∧
      ∀ r, s.library.heap[place]? = some (.buffer r) →
        t.library.heap[place]? = some (.buffer r) := by
  have h := untouched_run (orderly_of_run hrun) hplace hdefault hrunning hcalls hrest
  exact ⟨h, fun r hr => h.buffer hr⟩

/-- The handler of the released socket runs in the middle of a call for the buffer. -/
theorem isolated_of_run_aftermath : ∃ s t, run loopbackSystem startup visit = some s ∧
    run loopbackSystem s aftermath = some t ∧ t.library.heap.length = 4 ∧
    s.library.Untouched loopbackSystem t.library 1 := by
  have hs : (run loopbackSystem startup visit).map (fun s => (s.library.heap.length,
      s.library.defaultUdpSocket, s.library.pointer Handles.firstHandle, s.running.isNone)) =
        some (4, some 3, some 0, true) := by decide +kernel
  have ht : ((run loopbackSystem startup visit).bind fun s =>
      run loopbackSystem s aftermath).map (fun t => t.library.heap.length) = some 4 := by
    decide +kernel
  obtain ⟨s, hrun, hs⟩ := Option.map_eq_some_iff.mp hs
  obtain ⟨t, hrest, ht⟩ := Option.map_eq_some_iff.mp ht
  rw [hrun] at hrest
  obtain ⟨hlength, hs⟩ := Prod.mk.inj hs
  obtain ⟨hdefault, hs⟩ := Prod.mk.inj hs
  obtain ⟨hpointer, hidle⟩ := Prod.mk.inj hs
  refine ⟨s, t, hrun, hrest, ht, (isolated_of_run hrun ?_ ?_ ?_ ?_ hrest).1⟩
  · rw [hlength]
    decide
  · rw [hdefault]
    decide
  · intro c p hrunning
    rw [hrunning] at hidle
    contradiction
  · rintro c hc ⟨handle, hhandle, hnamed⟩
    simp only [aftermath, called, List.replicate, List.cons_append, List.nil_append,
      List.mem_cons, LibraryEvent.call.injEq, reduceCtorEq, List.not_mem_nil,
      or_false] at hc
    rw [hc] at hhandle
    obtain rfl := List.mem_singleton.mp hhandle
    rw [hpointer] at hnamed
    contradiction

end LibrarySession

end FaucetNetworking
