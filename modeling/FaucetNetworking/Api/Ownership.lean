import FaucetNetworking.Api.Contracts
import FaucetNetworking.Api.ObjectSteps
import FaucetNetworking.Lib.Ownership

/-!
Who owns the objects. Every handle and the default pointer have an object of their own, which
has not been released, and every socket that has not been released has an owner.
-/
namespace FaucetNetworking

open Ieee754 StateMachine Ownership

/-- Sockets and acceptors know that they have been released; a buffer or a lookup is gone
with its handle. -/
def LibraryObject.Lasting (x : LibraryObject) : Prop :=
  x.objectClass ≠ .buffer ∧ x.objectClass ≠ .ipLookup

namespace Library

variable {S : System} {o : LibrarySurroundings} {l l' : Library} {place : ℕ} {x y : LibraryObject}

/-! ### What the functions of the library do -/

theorem stepObject_eq_some_iff {e : ObjectEvent} : l.stepObject S place e = some l' ↔
    ∃ x y, l.heap[place]? = some x ∧ x.step S e = some y ∧
      l' = { l with heap := l.heap.set place y, changes := l.changes ++ [.step place e] } := by
  unfold stepObject
  rw [Option.map_eq_some_iff]
  constructor
  · rintro ⟨heap, hheap, rfl⟩
    obtain ⟨x, y, hx, hy, rfl⟩ := ObjectHeap.apply_step_eq_some_iff.mp hheap
    exact ⟨x, y, hx, hy, rfl⟩
  · rintro ⟨x, y, hx, hy, rfl⟩
    exact ⟨_, ObjectHeap.apply_step_eq_some_iff.mpr ⟨x, y, hx, hy, rfl⟩, rfl⟩

theorem created_udpBind (l : Library) (o : LibrarySurroundings) (port : UInt16) :
    LibraryObject.Created S (l.udpBind o port) := by
  have hsession : (UdpSession.bindPort o.dualStack port).session = UdpSession.bind
      (UdpSession.bindSockets o.dualStack port).v4socket.isOpen
      (UdpSession.bindSockets o.dualStack port).v6socket.isOpen := by
    unfold UdpSession.bindPort
    simp only
    split <;> rfl
  unfold udpBind
  simp only [hsession]
  exact .udpSocket _ _ _ _

theorem created_construct {c : Construction} (h : l.construct S o c = some x) :
    LibraryObject.Created S x := by
  cases c with
  | buffer =>
    obtain rfl := Option.some.inj h
    exact .buffer _
  | tcpConnectTo host port =>
    obtain rfl := Option.some.inj h
    exact .tcpSocket _ _ (.connectTo _ _)
  | tcpError message =>
    obtain rfl := Option.some.inj h
    exact .tcpSocket _ _ (.error _)
  | udpBind port =>
    obtain rfl := Option.some.inj h
    exact l.created_udpBind o port
  | udpError =>
    obtain rfl := Option.some.inj h
    exact .udpSocket _ _ _ _
  | combinedTcpAcceptor port =>
    obtain ⟨bound, hbound, rfl⟩ := Option.map_eq_some_iff.mp h
    obtain ⟨a, ha, rfl⟩ := Option.map_eq_some_iff.mp hbound
    exact .combinedTcpAcceptor _ _ _ a ha
  | ipLookup host protocol =>
    obtain rfl := Option.some.inj h
    exact .ipLookup _ _

/-- All that a primitive can do. -/
inductive PrimitiveCase (S : System) (l : Library) :
    (q : Primitive) → q.Result → Library → Prop where
  | find (t : RequestedType) (handle : Datum binary64) :
      PrimitiveCase S l (.find t handle) (l.find t handle) l
  | observed (place : ℕ) (m : Member) (result : m.Result) (o : LibrarySurroundings)
      (x : LibraryObject) : l.heap[place]? = some x → x.call S o m = some (none, result) →
      PrimitiveCase S l (.member place m) result l
  | changed (place : ℕ) (m : Member) (result : m.Result) (o : LibrarySurroundings)
      (x : LibraryObject) (e : ObjectEvent) (l' : Library) : l.heap[place]? = some x →
      x.call S o m = some (some e, result) → l.stepObject S place e = some l' →
      PrimitiveCase S l (.member place m) result l'
  | allocated (c : Construction) (x : LibraryObject) (handle : UInt32) (l' : Library) :
      LibraryObject.Created S x → l.allocate x = some (handle, l') →
      PrimitiveCase S l (.allocate c) handle l'
  | waiting (place : ℕ) (calls : EnterCalls) (between : List AcceptCompletion) (l' : Library) :
      l.stepObject S place (.combinedTcpAcceptor (.accept calls between)) = some l' →
      PrimitiveCase S l (.accept place) none l'
  | accepted (place : ℕ) (calls : EnterCalls) (between : List AcceptCompletion)
      (x : LibraryObject) (handle : UInt32) (l' l'' : Library) :
      l.stepObject S place (.combinedTcpAcceptor (.accept calls between)) = some l' →
      LibraryObject.Created S x → l'.allocate x = some (handle, l'') →
      PrimitiveCase S l (.accept place) (some handle) l''
  | destroyed (handle : Datum binary64) (place : ℕ) (hard : Bool) (x : LibraryObject)
      (e : ObjectEvent) (l' : Library) : l.heap[place]? = some x → destroyEvent hard x = some e →
      l.stepObject S place e = some l' →
      PrimitiveCase S l (.destroySocket handle place hard) () (l'.release handle)
  | released (handle : Datum binary64) :
      PrimitiveCase S l (.release handle) () (l.release handle)
  | defaultThere (place : ℕ) : l.defaultUdpSocket = some place →
      PrimitiveCase S l .getDefaultUdpSocket place l
  | defaultBound (o : LibrarySurroundings) : l.defaultUdpSocket = none →
      PrimitiveCase S l .getDefaultUdpSocket l.heap.length
        { l.create (l.udpBind o 0) with defaultUdpSocket := some l.heap.length }
  | order (littleEndian : Bool) : PrimitiveCase S l (.setLittleEndianDefault littleEndian) ()
      { l with littleEndianDefault := littleEndian }
  | size : PrimitiveCase S l .size l.handles.size l

theorem primitiveCase {q : Primitive} {result : q.Result}
    (h : l.perform S o q = some (result, l')) : PrimitiveCase S l q result l' := by
  cases q with
  | undefined => exact result.elim
  | find t handle =>
    obtain ⟨rfl, rfl⟩ := Prod.mk.inj (Option.some.inj h)
    exact .find t handle
  | member place m =>
    obtain ⟨x, hx, h⟩ := Option.bind_eq_some_iff.mp h
    obtain ⟨⟨event, result'⟩, hcall, h⟩ := Option.bind_eq_some_iff.mp h
    cases event with
    | none =>
      obtain ⟨rfl, rfl⟩ := Prod.mk.inj (Option.some.inj h)
      exact .observed place m result' o x hx hcall
    | some e =>
      obtain ⟨l'', hstep, hsame⟩ := Option.map_eq_some_iff.mp h
      obtain ⟨rfl, rfl⟩ := Prod.mk.inj hsame
      exact .changed place m result' o x e l'' hx hcall hstep
  | allocate c =>
    obtain ⟨x, hx, h⟩ := Option.bind_eq_some_iff.mp h
    exact .allocated c x result l' (created_construct hx) h
  | accept place =>
    change l.accept S o place = some (result, l') at h
    unfold accept at h
    split at h
    · obtain ⟨polled, hpolled, h⟩ := Option.bind_eq_some_iff.mp h
      obtain ⟨l'', hstep, h⟩ := Option.bind_eq_some_iff.mp h
      split at h
      · obtain ⟨rfl, rfl⟩ := Prod.mk.inj (Option.some.inj h)
        exact .waiting place o.enter o.between l'' hstep
      · rename_i accepted haccepted
        obtain ⟨allocated, hallocated, hsame⟩ := Option.map_eq_some_iff.mp h
        obtain ⟨rfl, rfl⟩ := Prod.mk.inj hsame
        have hcreated := (CombinedTcpAcceptor.accept_created hpolled).2 accepted haccepted
        exact .accepted place o.enter o.between _ _ l'' _ hstep (.tcpSocket _ accepted hcreated)
          hallocated
    · contradiction
  | destroySocket handle place hard =>
    obtain ⟨x, hx, h⟩ := Option.bind_eq_some_iff.mp h
    obtain ⟨e, he, h⟩ := Option.bind_eq_some_iff.mp h
    obtain ⟨l'', hstep, hsame⟩ := Option.map_eq_some_iff.mp h
    obtain ⟨-, rfl⟩ := Prod.mk.inj hsame
    exact .destroyed handle place hard x e l'' hx he hstep
  | release handle =>
    obtain ⟨-, rfl⟩ := Prod.mk.inj (Option.some.inj h)
    exact .released handle
  | getDefaultUdpSocket =>
    cases hdefault : l.defaultUdpSocket with
    | some place =>
      unfold perform at h
      simp only [hdefault] at h
      obtain ⟨rfl, rfl⟩ := Prod.mk.inj (Option.some.inj h)
      exact .defaultThere _ hdefault
    | none =>
      unfold perform at h
      simp only [hdefault] at h
      obtain ⟨rfl, rfl⟩ := Prod.mk.inj (Option.some.inj h)
      exact .defaultBound o hdefault
  | setLittleEndianDefault littleEndian =>
    obtain ⟨-, rfl⟩ := Prod.mk.inj (Option.some.inj h)
    exact .order littleEndian
  | size =>
    obtain ⟨rfl, rfl⟩ := Prod.mk.inj (Option.some.inj h)
    exact .size

/-! ### Owners -/

/-- The owners are the default pointer and the handles. -/
def target (l : Library) : Option UInt32 → Option ℕ
  | none => l.defaultUdpSocket
  | some key => l.handles.content.lookup key

def Alive (l : Library) (place : ℕ) : Prop := ∃ x, l.heap[place]? = some x ∧ x.Held

/-- The heap is what its history has made of it, and its objects have the owners that they
should have. -/
structure Consistent (S : System) (l : Library) : Prop where
  history : run (ObjectHeap.apply (LibraryObject.step S)) [] l.changes = some l.heap
  created : ∀ x, .create x ∈ l.changes → LibraryObject.Created S x
  exclusive : Exclusive l.target l.Alive
  lasting : ∀ place x, l.heap[place]? = some x → x.Held → x.Lasting →
    ∃ owner, l.target owner = some place
  default : ∀ place, l.defaultUdpSocket = some place →
    ∃ x, l.heap[place]? = some x ∧ x.objectClass = .udpSocket

theorem target_startup (owner : Option UInt32) : startup.target owner = none := by
  cases owner <;> rfl

theorem consistent_startup (S : System) : startup.Consistent S where
  history := rfl
  created := fun _ h => absurd h List.not_mem_nil
  exclusive := {
    alive := fun owner place h => by
      rw [target_startup] at h
      contradiction
    sole := fun owner owner' place h => by
      rw [target_startup] at h
      contradiction }
  lasting := by
    intro place x h
    rw [show startup.heap = [] from rfl, List.getElem?_nil] at h
    contradiction
  default := fun _ h => absurd h (Option.some_ne_none _).symm

theorem target_allocate {handle : UInt32} (h : l.allocate x = some (handle, l')) :
    l'.heap = l.heap ++ [x] ∧ l'.changes = l.changes ++ [.create x] ∧
      l.target (some handle) = none ∧
      l'.target = Function.update l.target (some handle) (some l.heap.length) := by
  obtain ⟨⟨found, handles⟩, hallocate, hsame⟩ := Option.map_eq_some_iff.mp h
  obtain ⟨rfl, rfl⟩ := Prod.mk.inj hsame
  have hdone := HandleMap.allocated_of_eq hallocate
  refine ⟨rfl, rfl, AList.lookup_eq_none.mpr hdone.fresh, ?_⟩
  funext owner
  cases owner with
  | none => exact (Function.update_of_ne (Option.some_ne_none found).symm _ _).symm
  | some key =>
    change handles.content.lookup key = _
    rw [hdone.content]
    by_cases hkey : key = found
    · rw [hkey, AList.lookup_insert, Function.update_self]
    · rw [AList.lookup_insert_ne hkey, Function.update_of_ne (by simpa using hkey)]
      rfl

theorem target_release {handle : Datum binary64} {key : UInt32}
    (hkey : handleKey handle = some key) :
    (l.release handle).target = Function.update l.target (some key) none := by
  have hrelease : l.release handle = { l with handles := l.handles.release key } := by
    unfold release
    rw [hkey]
  rw [hrelease]
  funext owner
  cases owner with
  | none => exact (Function.update_of_ne (Option.some_ne_none key).symm _ _).symm
  | some other =>
    change (l.handles.content.erase key).lookup other = _
    by_cases hother : other = key
    · rw [hother, AList.lookup_erase, Function.update_self]
    · rw [AList.lookup_erase_ne hother, Function.update_of_ne (by simpa using hother)]
      rfl

theorem target_bindDefault (l : Library) (x : LibraryObject) :
    ({ l.create x with defaultUdpSocket := some l.heap.length } : Library).target =
      Function.update l.target none (some l.heap.length) := by
  funext owner
  cases owner with
  | none => exact (Function.update_self none (some l.heap.length) l.target).symm
  | some key => exact (Function.update_of_ne (Option.some_ne_none key) _ _).symm

theorem heap_release (l : Library) (handle : Datum binary64) :
    (l.release handle).heap = l.heap ∧ (l.release handle).changes = l.changes := by
  unfold release
  split <;> exact ⟨rfl, rfl⟩

/-! ### Invariants of the library -/

theorem lt_of_alive (h : l.Alive place) : place < l.heap.length := by
  obtain ⟨x, hx, -⟩ := h
  exact (List.getElem?_eq_some_iff.mp hx).1

/-- An object that comes onto the heap has no owner yet. -/
theorem Consistent.fresh (h : l.Consistent S) (owner : Option UInt32) :
    l.target owner ≠ some l.heap.length := by
  intro howner
  exact Nat.lt_irrefl _ (lt_of_alive (h.exclusive.alive owner _ howner))

theorem history_step (h : l.Consistent S) {e : ObjectEvent} (hx : l.heap[place]? = some x)
    (hy : x.step S e = some y) : run (ObjectHeap.apply (LibraryObject.step S)) []
      (l.changes ++ [.step place e]) = some (l.heap.set place y) :=
  run_append_eq_some h.history ((run_cons_eq_some_iff _ _ _ _ _).mpr
    ⟨_, ObjectHeap.apply_step_eq_some_iff.mpr ⟨x, y, hx, hy, rfl⟩, rfl⟩)

theorem created_step (h : l.Consistent S) (e : ObjectEvent) (z : LibraryObject)
    (hz : .create z ∈ l.changes ++ [.step place e]) : LibraryObject.Created S z := by
  rcases List.mem_append.mp hz with hold | hnew
  · exact h.created z hold
  · exact nomatch List.mem_singleton.mp hnew

/-- What is on the heap after an object has taken a step. -/
theorem getElem?_set_cases {heap : List LibraryObject} {p : ℕ} {z : LibraryObject}
    (hz : (heap.set place y)[p]? = some z) :
    p = place ∧ z = y ∨ p ≠ place ∧ heap[p]? = some z := by
  by_cases hp : p = place
  · subst p
    have hlt : place < heap.length := by
      have hlt := (List.getElem?_eq_some_iff.mp hz).1
      rwa [List.length_set] at hlt
    rw [List.getElem?_set_self hlt] at hz
    exact Or.inl ⟨rfl, (Option.some.inj hz).symm⟩
  · rw [List.getElem?_set_ne (Ne.symm hp)] at hz
    exact Or.inr ⟨hp, hz⟩

theorem objectClass_set {heap : List LibraryObject} {e : ObjectEvent}
    (hx : heap[place]? = some x) (hy : x.step S e = some y) {p : ℕ} {z : LibraryObject}
    (hz : heap[p]? = some z) :
    ∃ z', (heap.set place y)[p]? = some z' ∧ z'.objectClass = z.objectClass := by
  by_cases hp : p = place
  · subst p
    obtain rfl := Option.some.inj (hx.symm.trans hz)
    exact ⟨y, List.getElem?_set_self (List.getElem?_eq_some_iff.mp hx).1,
      LibraryObject.objectClass_step hy⟩
  · exact ⟨z, by rw [List.getElem?_set_ne (Ne.symm hp), hz], rfl⟩

theorem Consistent.stepObject (h : l.Consistent S) {e : ObjectEvent}
    (hstep : l.stepObject S place e = some l') (hkept : e.Destroys = false) :
    l'.Consistent S := by
  obtain ⟨x, y, hx, hy, rfl⟩ := stepObject_eq_some_iff.mp hstep
  have hheld := LibraryObject.held_step hy hkept
  refine ⟨history_step h hx hy, created_step h e, ?_, ?_, ?_⟩
  · refine h.exclusive.mono fun owner p howner halive => ?_
    obtain ⟨z, hz, hzheld⟩ := halive
    by_cases hp : p = place
    · subst p
      obtain rfl := Option.some.inj (hx.symm.trans hz)
      exact ⟨y, List.getElem?_set_self (List.getElem?_eq_some_iff.mp hx).1, hheld.mpr hzheld⟩
    · exact ⟨z, (List.getElem?_set_ne (Ne.symm hp)).trans hz, hzheld⟩
  · intro p z hz hzheld hlasting
    rcases getElem?_set_cases hz with ⟨rfl, rfl⟩ | ⟨-, hz⟩
    · refine h.lasting _ x hx (hheld.mp hzheld) ?_
      unfold LibraryObject.Lasting at hlasting ⊢
      rwa [LibraryObject.objectClass_step hy] at hlasting
    · exact h.lasting p z hz hzheld hlasting
  · intro p hp
    obtain ⟨z, hz, hclass⟩ := h.default p hp
    obtain ⟨z', hz', hsame⟩ := objectClass_set hx hy hz
    exact ⟨z', hz', hsame.trans hclass⟩

/-- A new object goes to an owner. -/
theorem Consistent.assign (h : l.Consistent S) {owner : Option UInt32}
    (hx : LibraryObject.Created S x) (hheap : l'.heap = l.heap ++ [x])
    (hchanges : l'.changes = l.changes ++ [.create x])
    (htarget : l'.target = Function.update l.target owner (some l.heap.length))
    (hunused : l.target owner = none)
    (hclass : owner = none → x.objectClass = .udpSocket) : l'.Consistent S := by
  have hkept : ∀ {p : ℕ} {z : LibraryObject}, l.heap[p]? = some z → l'.heap[p]? = some z := by
    intro p z hz
    rw [hheap, List.getElem?_append_left (List.getElem?_eq_some_iff.mp hz).1, hz]
  have hnew : l'.heap[l.heap.length]? = some x := by rw [hheap, List.getElem?_concat_length]
  refine ⟨?_, ?_, ?_, ?_, ?_⟩
  · rw [hchanges, hheap]
    exact run_append_eq_some h.history rfl
  · intro z hz
    rw [hchanges] at hz
    rcases List.mem_append.mp hz with hold | hlast
    · exact h.created z hold
    · obtain rfl := ObjectHeap.Change.create.inj (List.mem_singleton.mp hlast)
      exact hx
  · rw [htarget]
    refine Exclusive.assign (h.exclusive.mono ?_) h.fresh
      ⟨x, hnew, LibraryObject.held_of_created hx⟩
    rintro _ p - ⟨z, hz, hzheld⟩
    exact ⟨z, hkept hz, hzheld⟩
  · intro p z hz hzheld hlasting
    by_cases hp : p = l.heap.length
    · exact ⟨owner, by rw [htarget, Function.update_self, hp]⟩
    · have hlt : p < l.heap.length := by
        have hlt := (List.getElem?_eq_some_iff.mp hz).1
        rw [hheap, List.length_append, List.length_singleton] at hlt
        omega
      rw [hheap, List.getElem?_append_left hlt] at hz
      obtain ⟨other, hother⟩ := h.lasting p z hz hzheld hlasting
      refine ⟨other, ?_⟩
      have hne : other ≠ owner := by
        rintro rfl
        rw [hunused] at hother
        contradiction
      rw [htarget, Function.update_of_ne hne, hother]
  · intro p hp
    have hp : l'.target none = some p := hp
    rw [htarget] at hp
    by_cases howner : none = owner
    · rw [← howner, Function.update_self] at hp
      obtain rfl := Option.some.inj hp
      exact ⟨x, hnew, hclass howner.symm⟩
    · rw [Function.update_of_ne howner] at hp
      obtain ⟨z, hz, hzclass⟩ := h.default p hp
      exact ⟨z, hkept hz, hzclass⟩

/-- A handle is released whose object does not have to know. -/
theorem Consistent.release (h : l.Consistent S) {handle : Datum binary64}
    (hplace : l.pointer handle = some place) (hx : l.heap[place]? = some x)
    (hclass : x.objectClass = .buffer ∨ x.objectClass = .ipLookup) :
    (l.release handle).Consistent S := by
  obtain ⟨key, hkey, howner⟩ := Option.bind_eq_some_iff.mp hplace
  have howner : l.target (some key) = some place := howner
  obtain ⟨hheap, hchanges⟩ := l.heap_release handle
  have htarget := target_release (l := l) hkey
  refine ⟨?_, ?_, ?_, ?_, ?_⟩
  · rw [hheap, hchanges]
    exact h.history
  · rw [hchanges]
    exact h.created
  · rw [htarget]
    refine (h.exclusive.clear (some key)).mono fun _ p _ halive => ?_
    unfold Alive
    rw [hheap]
    exact halive
  · intro p z hz hzheld hlasting
    rw [hheap] at hz
    obtain ⟨owner, hp⟩ := h.lasting p z hz hzheld hlasting
    refine ⟨owner, ?_⟩
    have hne : owner ≠ some key := by
      rintro rfl
      obtain rfl := Option.some.inj (howner.symm.trans hp)
      obtain rfl := Option.some.inj (hx.symm.trans hz)
      rcases hclass with hclass | hclass
      · exact hlasting.1 hclass
      · exact hlasting.2 hclass
    rw [htarget, Function.update_of_ne hne, hp]
  · intro p hp
    have hp : (l.release handle).target none = some p := hp
    rw [htarget, Function.update_of_ne (Option.some_ne_none key).symm] at hp
    rw [hheap]
    exact h.default p hp

/-- The object of a socket is told that its handle is released. -/
theorem Consistent.destroySocket (h : l.Consistent S) {handle : Datum binary64} {hard : Bool}
    {e : ObjectEvent} (hplace : l.pointer handle = some place) (hx : l.heap[place]? = some x)
    (he : destroyEvent hard x = some e) (hstep : l.stepObject S place e = some l') :
    (l'.release handle).Consistent S := by
  obtain ⟨key, hkey, howner⟩ := Option.bind_eq_some_iff.mp hplace
  have howner : l.target (some key) = some place := howner
  obtain ⟨x', y, hx', hy, hl'⟩ := stepObject_eq_some_iff.mp hstep
  obtain rfl := Option.some.inj (hx.symm.trans hx')
  have hheap : (l'.release handle).heap = l.heap.set place y := by
    rw [(l'.heap_release handle).1, hl']
  have hchanges : (l'.release handle).changes = l.changes ++ [.step place e] := by
    rw [(l'.heap_release handle).2, hl']
  have htarget : (l'.release handle).target = Function.update l.target (some key) none := by
    rw [target_release hkey, hl']
    rfl
  have hfree := h.exclusive.free_of_clear howner
  refine ⟨?_, ?_, ?_, ?_, ?_⟩
  · rw [hheap, hchanges]
    exact history_step h hx hy
  · rw [hchanges]
    exact created_step h e
  · rw [htarget]
    refine (h.exclusive.clear (some key)).mono fun owner p hp halive => ?_
    obtain ⟨z, hz, hzheld⟩ := halive
    have hne : place ≠ p := by
      rintro rfl
      exact hfree owner hp
    refine ⟨z, ?_, hzheld⟩
    rw [hheap, List.getElem?_set_ne hne, hz]
  · intro p z hz hzheld hlasting
    rw [hheap] at hz
    rcases getElem?_set_cases hz with ⟨rfl, rfl⟩ | ⟨hne, hz⟩
    · exact absurd hzheld (LibraryObject.not_held_destroy he hy)
    · obtain ⟨owner, hp⟩ := h.lasting p z hz hzheld hlasting
      refine ⟨owner, ?_⟩
      have hother : owner ≠ some key := by
        rintro rfl
        exact hne (Option.some.inj (hp.symm.trans howner))
      rw [htarget, Function.update_of_ne hother, hp]
  · intro p hp
    have hp : (l'.release handle).target none = some p := hp
    rw [htarget, Function.update_of_ne (Option.some_ne_none key).symm] at hp
    obtain ⟨z, hz, hclass⟩ := h.default p hp
    obtain ⟨z', hz', hsame⟩ := objectClass_set hx hy hz
    rw [hheap]
    exact ⟨z', hz', hsame.trans hclass⟩

/-! ### What a call knows -/

/-- What a running call has found is still what its handles lead to. -/
structure Knows (l : Library) (handles : List (Datum binary64)) (g : Knowledge) : Prop where
  found : ∀ handle t place, (handle, t, place) ∈ g.found →
    handle ∈ handles ∧ l.find t handle = some place
  default : ∀ place, g.defaultSocket = some place → l.defaultUdpSocket = some place

/-- Pointers that have been found are found again. -/
structure KeepsPointers (l l' : Library) : Prop where
  find : ∀ t handle place, l.find t handle = some place → l'.find t handle = some place
  default : ∀ place, l.defaultUdpSocket = some place → l'.defaultUdpSocket = some place

theorem find_eq_some_iff {t : RequestedType} {handle : Datum binary64} :
    l.find t handle = some place ↔ l.pointer handle = some place ∧
      ∃ x, l.heap[place]? = some x ∧ t.includes x.objectClass = true := by
  unfold find cast
  rw [Option.bind_eq_some_iff]
  constructor
  · rintro ⟨p, hp, h⟩
    split at h
    · rename_i hincludes
      obtain rfl := Option.some.inj h
      exact ⟨hp, by simpa [Option.any_eq_true] using hincludes⟩
    · contradiction
  · rintro ⟨hp, x, hx, hincludes⟩
    refine ⟨place, hp, if_pos ?_⟩
    rw [hx]
    exact hincludes

/-- Owners keep their objects, and the objects their classes. -/
theorem KeepsPointers.of_target
    (htarget : ∀ owner place, l.target owner = some place → l'.target owner = some place)
    (hclass : ∀ (p : ℕ) (z : LibraryObject), l.heap[p]? = some z →
      ∃ z', l'.heap[p]? = some z' ∧ z'.objectClass = z.objectClass) : l.KeepsPointers l' where
  find := by
    intro t handle place h
    obtain ⟨hpointer, z, hz, hincludes⟩ := find_eq_some_iff.mp h
    obtain ⟨key, hkey, howner⟩ := Option.bind_eq_some_iff.mp hpointer
    obtain ⟨z', hz', hsame⟩ := hclass place z hz
    refine find_eq_some_iff.mpr ⟨?_, z', hz', by rw [hsame]; exact hincludes⟩
    exact Option.bind_eq_some_iff.mpr ⟨key, hkey, htarget (some key) place howner⟩
  default := fun place h => htarget none place h

theorem keepsPointers_stepObject {e : ObjectEvent} (h : l.stepObject S place e = some l') :
    l.KeepsPointers l' := by
  obtain ⟨x, y, hx, hy, rfl⟩ := stepObject_eq_some_iff.mp h
  exact .of_target (fun owner p howner => by cases owner <;> exact howner) fun p z hz =>
    objectClass_set hx hy hz

theorem KeepsPointers.assign {owner : Option UInt32} (hheap : l'.heap = l.heap ++ [x])
    (htarget : l'.target = Function.update l.target owner (some l.heap.length))
    (hunused : l.target owner = none) : l.KeepsPointers l' := by
  refine .of_target ?_ ?_
  · intro other p hother
    have hne : other ≠ owner := by
      rintro rfl
      rw [hunused] at hother
      contradiction
    rw [htarget, Function.update_of_ne hne, hother]
  · intro p z hz
    refine ⟨z, ?_, rfl⟩
    rw [hheap, List.getElem?_append_left (List.getElem?_eq_some_iff.mp hz).1, hz]

theorem Knows.mono {handles : List (Datum binary64)} {g : Knowledge} (h : l.Knows handles g)
    (hkept : l.KeepsPointers l') : l'.Knows handles g where
  found := fun handle t place hfound =>
    ⟨(h.found handle t place hfound).1, hkept.find t handle place (h.found handle t place hfound).2⟩
  default := fun place hplace => hkept.default place (h.default place hplace)

theorem default_release (l : Library) (handle : Datum binary64) :
    (l.release handle).defaultUdpSocket = l.defaultUdpSocket := by
  unfold release
  split <;> rfl

theorem Knows.afterMember {handles : List (Datum binary64)} {g : Knowledge}
    (h : l.Knows handles g) (place : ℕ) (m : Member) (r : m.Result) :
    l.Knows handles (g.afterMember place m r) := by
  obtain ⟨hfound, hdefault⟩ := g.pointers_afterMember place m r
  refine ⟨?_, ?_⟩
  · rw [hfound]
    exact h.found
  · rw [hdefault]
    exact h.default

/-- Nothing is known any more once a handle has been released. -/
theorem knows_released {handles : List (Datum binary64)} {g : Knowledge}
    (hdefault : ∀ place, g.defaultSocket = some place → l.defaultUdpSocket = some place) :
    l.Knows handles { g with found := [] } where
  found := fun _ _ _ h => absurd h List.not_mem_nil
  default := hdefault

/-- What a call may do keeps the library consistent, and what it knows remains true. -/
theorem Consistent.perform (h : l.Consistent S) {handles : List (Datum binary64)} {g : Knowledge}
    (hknows : l.Knows handles g) {q : Primitive} {result : q.Result}
    (hallowed : Knowledge.Allowed handles q g) (hcase : PrimitiveCase S l q result l') :
    l'.Consistent S ∧ l'.Knows handles (Knowledge.after q result g) := by
  cases hcase with
  | find t handle =>
    refine ⟨h, ?_⟩
    cases hfind : l.find t handle with
    | none => exact hknows
    | some place =>
      refine ⟨fun handle' t' place' hfound => ?_, hknows.default⟩
      rcases List.mem_cons.mp hfound with hnew | hold
      · obtain ⟨rfl, hpair⟩ := Prod.mk.inj hnew
        obtain ⟨rfl, rfl⟩ := Prod.mk.inj hpair
        exact ⟨hallowed, hfind⟩
      · exact hknows.found handle' t' place' hold
  | observed place m result o x _ _ => exact ⟨h, hknows.afterMember place m result⟩
  | changed place m result o x e l' _ hcall hstep =>
    exact ⟨h.stepObject hstep (LibraryObject.kind_call hcall).1,
      (hknows.mono (keepsPointers_stepObject hstep)).afterMember place m result⟩
  | allocated c x handle l' hx hallocate =>
    obtain ⟨hheap, hchanges, hunused, htarget⟩ := target_allocate hallocate
    exact ⟨h.assign hx hheap hchanges htarget hunused nofun,
      hknows.mono (.assign hheap htarget hunused)⟩
  | waiting place calls between l' hstep =>
    exact ⟨h.stepObject hstep rfl, hknows.mono (keepsPointers_stepObject hstep)⟩
  | accepted place calls between x handle l' l'' hstep hx hallocate =>
    obtain ⟨hheap, hchanges, hunused, htarget⟩ := target_allocate hallocate
    exact ⟨(h.stepObject hstep rfl).assign hx hheap hchanges htarget hunused nofun,
      (hknows.mono (keepsPointers_stepObject hstep)).mono (.assign hheap htarget hunused)⟩
  | destroyed handle place hard x e l' hx he hstep =>
    obtain ⟨-, c, hfound, -⟩ := hallowed
    obtain ⟨hpointer, -⟩ := find_eq_some_iff.mp (hknows.found handle _ place hfound).2
    refine ⟨h.destroySocket hpointer hx he hstep, knows_released fun p hp => ?_⟩
    rw [default_release]
    exact (keepsPointers_stepObject hstep).default p (hknows.default p hp)
  | released handle =>
    obtain ⟨c, place, hfound, hc⟩ := hallowed
    obtain ⟨hpointer, x, hx, hclass⟩ := find_eq_some_iff.mp (hknows.found handle _ place hfound).2
    have hclass : x.objectClass = c := of_decide_eq_true hclass
    refine ⟨h.release hpointer hx ?_, knows_released fun p hp => ?_⟩
    · rw [hclass]
      exact hc
    · rw [default_release]
      exact hknows.default p hp
  | defaultThere place hplace =>
    refine ⟨h, hknows.found, fun p hp => ?_⟩
    obtain rfl := Option.some.inj hp
    exact hplace
  | defaultBound o hnone =>
    have htarget := l.target_bindDefault (l.udpBind o 0)
    refine ⟨h.assign (l.created_udpBind o 0) rfl rfl htarget hnone fun _ => rfl, ?_⟩
    refine ⟨(hknows.mono (.assign rfl htarget hnone)).found, fun p hp => ?_⟩
    exact hp
  | order littleEndian =>
    exact ⟨⟨h.history, h.created, h.exclusive, h.lasting, h.default⟩,
      ⟨hknows.found, hknows.default⟩⟩
  | size => exact ⟨h, hknows⟩

end Library

/-! ### Runs -/

namespace LibrarySession

variable {S : System} {s t : LibrarySession} {e : LibraryEvent}

/-- All that can happen. -/
inductive StepCase (S : System) (s : LibrarySession) : LibraryEvent → LibrarySession → Prop where
  | called (c : ApiCall) : s.running = none →
      StepCase S s (.call c) ⟨s.library, some (c, c.program)⟩
  | returned (c : ApiCall) (reply : Reply) (o : LibrarySurroundings) :
      s.running = some (c, .done reply) → StepCase S s (.proceed o) ⟨s.library, none⟩
  | performed (c : ApiCall) (q : Primitive) (next : q.Result → ApiProgram Reply)
      (result : q.Result) (l : Library) (o : LibrarySurroundings) :
      s.running = some (c, .call q next) → Library.PrimitiveCase S s.library q result l →
      StepCase S s (.proceed o) ⟨l, some (c, next result)⟩
  | handled (place : ℕ) (e : ObjectEvent) (l : Library) : e.Autonomous = true →
      s.library.stepObject S place e = some l →
      StepCase S s (.object place e) ⟨l, s.running⟩

theorem stepCase (h : step S s e = some t) : StepCase S s e t := by
  unfold step at h
  cases e with
  | call c =>
    simp only at h
    split at h
    · rename_i hidle
      obtain rfl := Option.some.inj h
      exact .called c hidle
    · contradiction
  | proceed o =>
    simp only at h
    split at h
    · contradiction
    · rename_i c reply hrunning
      obtain rfl := Option.some.inj h
      exact .returned c reply o hrunning
    · rename_i c q next hrunning
      obtain ⟨performed, hperformed, rfl⟩ := Option.map_eq_some_iff.mp h
      exact .performed c q next _ _ o hrunning (Library.primitiveCase hperformed)
  | object place e =>
    simp only at h
    split at h
    · rename_i hautonomous
      obtain ⟨l, hl, rfl⟩ := Option.map_eq_some_iff.mp h
      exact .handled place e l hautonomous hl
    · contradiction

/-- The library is consistent, and the call that is running obeys with what it knows. -/
structure Orderly (S : System) (s : LibrarySession) : Prop where
  consistent : s.library.Consistent S
  obeys : ∀ c p, s.running = some (c, p) →
    ∃ g, Api.Obeys c.handles p g ∧ s.library.Knows c.handles g

theorem orderly_startup (S : System) : startup.Orderly S where
  consistent := Library.consistent_startup S
  obeys := nofun

theorem Orderly.step (h : s.Orderly S) (hstep : LibrarySession.step S s e = some t) :
    t.Orderly S := by
  cases stepCase hstep with
  | called c _ =>
    refine ⟨h.consistent, fun c' p hrunning => ?_⟩
    obtain ⟨rfl, rfl⟩ := Prod.mk.inj (Option.some.inj hrunning)
    exact ⟨.nothing, c.obeys, fun _ _ _ hfound => absurd hfound List.not_mem_nil, nofun⟩
  | returned c reply o _ => exact ⟨h.consistent, nofun⟩
  | performed c q next result l o hrunning hcase =>
    obtain ⟨g, ⟨hallowed, hnext⟩, hknows⟩ := h.obeys c _ hrunning
    obtain ⟨hconsistent, hknows'⟩ := h.consistent.perform hknows hallowed hcase
    refine ⟨hconsistent, fun c' p hrunning' => ?_⟩
    obtain ⟨rfl, rfl⟩ := Prod.mk.inj (Option.some.inj hrunning')
    exact ⟨_, hnext result, hknows'⟩
  | handled place e l hautonomous hl =>
    refine ⟨h.consistent.stepObject hl (LibraryObject.destroys_of_autonomous hautonomous), ?_⟩
    intro c p hrunning
    obtain ⟨g, hobeys, hknows⟩ := h.obeys c p hrunning
    exact ⟨g, hobeys, hknows.mono (Library.keepsPointers_stepObject hl)⟩

theorem orderly_of_run {es : List LibraryEvent} (hrun : run S startup es = some s) :
    s.Orderly S :=
  run_preserves (Orderly S) (fun _ _ _ => Orderly.step) (orderly_startup S) hrun

end LibrarySession

end FaucetNetworking
