import FaucetNetworking.Api.Isolation
import FaucetNetworking.Udp.Network

/-!
The default UDP socket, which no handle leads to. The functions that are given a buffer instead
of a socket write its content to the default socket and send that at once, so that every one of
its datagrams is the whole content of a buffer.
-/
namespace FaucetNetworking

open Ieee754 StateMachine

namespace Library

variable {S : System} {l l' : Library} {place : ℕ} {x : LibraryObject}
  {draft : Option (List UInt8)}

/-- There has been a moment when a buffer had this content. -/
def BufferHeld (S : System) (l : Library) (data : List UInt8) : Prop :=
  ∃ (past future : List (ObjectHeap.Change LibraryObject ObjectEvent))
    (heap : List LibraryObject) (place : ℕ) (r : ByteOrdered Buffer),
    l.changes = past ++ future ∧ run (ObjectHeap.apply (LibraryObject.step S)) [] past = some heap ∧
      heap[place]? = some (.buffer r) ∧ r.object.data = data

def Grows (l l' : Library) : Prop := ∃ new, l'.changes = l.changes ++ new

theorem Grows.refl (l : Library) : l.Grows l := ⟨[], (List.append_nil _).symm⟩

theorem Grows.trans {l'' : Library} (h : l.Grows l') (h' : l'.Grows l'') : l.Grows l'' := by
  obtain ⟨new, hnew⟩ := h
  obtain ⟨new', hnew'⟩ := h'
  exact ⟨new ++ new', by rw [hnew', hnew, List.append_assoc]⟩

theorem BufferHeld.mono {data : List UInt8} (h : l.BufferHeld S data) (hgrows : l.Grows l') :
    l'.BufferHeld S data := by
  obtain ⟨past, future, heap, place, r, hchanges, hheld⟩ := h
  obtain ⟨new, hnew⟩ := hgrows
  exact ⟨past, future ++ new, heap, place, r,
    by rw [hnew, hchanges, List.append_assoc], hheld⟩

theorem bufferHeld_now (h : l.Consistent S) {r : ByteOrdered Buffer}
    (hr : l.heap[place]? = some (.buffer r)) : l.BufferHeld S r.object.data :=
  ⟨l.changes, [], l.heap, place, r, (List.append_nil _).symm, h.history, hr, rfl⟩

/-- The draft is all that the default socket has been given since its last datagram, and all
datagrams are contents of buffers. -/
structure Drafted (S : System) (l : Library) (draft : Option (List UInt8)) : Prop where
  unbound : l.defaultUdpSocket = none → draft = none
  socket : ∀ place members r, l.defaultUdpSocket = some place →
    l.heap[place]? = some (.udpSocket members r) → ∃ c, UdpSession.Sending c r.object.session ∧
      c.draft = draft.getD [] ∧ ∀ d ∈ c.requests, l.BufferHeld S d.payload
  held : ∀ data, draft = some data → l.BufferHeld S data

theorem drafted_startup (S : System) : startup.Drafted S none :=
  ⟨fun _ => rfl, fun _ _ _ h => absurd h (Option.some_ne_none _).symm, nofun⟩

/-- Something else happens. -/
theorem Drafted.transport (h : l.Drafted S draft) (hgrows : l.Grows l')
    (hdefault : l'.defaultUdpSocket = l.defaultUdpSocket)
    (hheap : ∀ place, l.defaultUdpSocket = some place → l'.heap[place]? = l.heap[place]?) :
    l'.Drafted S draft where
  unbound := by
    rw [hdefault]
    exact h.unbound
  socket := by
    intro place members r hplace hr
    rw [hdefault] at hplace
    rw [hheap place hplace] at hr
    obtain ⟨c, hsending, hdraft, hrequests⟩ := h.socket place members r hplace hr
    exact ⟨c, hsending, hdraft, fun d hd => (hrequests d hd).mono hgrows⟩
  held := fun data hdata => (h.held data hdata).mono hgrows

theorem grows_stepObject {e : ObjectEvent} (h : l.stepObject S place e = some l') :
    l.Grows l' ∧ l'.defaultUdpSocket = l.defaultUdpSocket := by
  obtain ⟨x, y, -, -, rfl⟩ := stepObject_eq_some_iff.mp h
  exact ⟨⟨_, rfl⟩, rfl⟩

theorem Drafted.stepOther {e : ObjectEvent} (h : l.Drafted S draft)
    (hstep : l.stepObject S place e = some l') (hother : l.defaultUdpSocket ≠ some place) :
    l'.Drafted S draft := by
  obtain ⟨hgrows, hdefault⟩ := grows_stepObject hstep
  refine h.transport hgrows hdefault fun p hp => ?_
  obtain ⟨x, y, -, -, rfl⟩ := stepObject_eq_some_iff.mp hstep
  refine List.getElem?_set_ne ?_
  rintro rfl
  exact hother hp

theorem Drafted.append (h : l.Drafted S draft) (hconsistent : l.Consistent S)
    (hheap : l'.heap = l.heap ++ [x]) (hchanges : l'.changes = l.changes ++ [.create x])
    (hdefault : l'.defaultUdpSocket = l.defaultUdpSocket) : l'.Drafted S draft := by
  refine h.transport ⟨_, hchanges⟩ hdefault fun p hp => ?_
  obtain ⟨z, hz, -⟩ := hconsistent.default p hp
  rw [hheap, List.getElem?_append_left (List.getElem?_eq_some_iff.mp hz).1]

/-- The default socket itself takes a step, after which its client has asked for no other
datagrams than before, or for one that is the draft. -/
theorem Drafted.stepDefault {e : UdpObjectEvent} {draft' : Option (List UInt8)}
    (h : l.Drafted S draft) (hplace : l.defaultUdpSocket = some place)
    (hstep : l.stepObject S place (.udpSocket e) = some l')
    (hnote : ∀ c : UdpSession.Script, c.draft = draft.getD [] →
      (e.seen.foldl .note c).draft = draft'.getD [] ∧
        ∀ d ∈ (e.seen.foldl .note c).requests, d ∈ c.requests ∨ draft = some d.payload)
    (hheld : ∀ data, draft' = some data → l.BufferHeld S data) : l'.Drafted S draft' := by
  obtain ⟨hgrows, hdefault⟩ := grows_stepObject hstep
  obtain ⟨x, y, hx, hy, rfl⟩ := stepObject_eq_some_iff.mp hstep
  refine ⟨fun hnone => ?_, ?_, fun data hdata => (hheld data hdata).mono hgrows⟩
  · rw [hdefault, hplace] at hnone
    contradiction
  · intro p members r hp hr
    obtain rfl := Option.some.inj (hplace.symm.trans hp)
    have hset : (l.heap.set place y)[place]? = some y :=
      List.getElem?_set_self (List.getElem?_eq_some_iff.mp hx).1
    obtain rfl := Option.some.inj (hset.symm.trans hr)
    cases LibraryObject.stepCase hy with
    | udp _ before e t ht =>
      obtain ⟨c, hsending, hdraft, hrequests⟩ := h.socket place members before hplace hx
      obtain ⟨hdraft', hrequests'⟩ := hnote c hdraft
      refine ⟨_, UdpObject.sending_step hsending ht, hdraft', fun d hd => ?_⟩
      rcases hrequests' d hd with hold | hnew
      · exact (hrequests d hold).mono hgrows
      · exact (h.held _ hnew).mono hgrows

/-! ### What a call does to it -/

variable {handles : List (Datum binary64)} {g : Knowledge}

/-- No handle leads to the default socket. -/
theorem not_default_of_found (hconsistent : l.Consistent S) (hknows : l.Knows handles g)
    {handle : Datum binary64} {t : RequestedType} (hfound : (handle, t, place) ∈ g.found) :
    l.defaultUdpSocket ≠ some place := by
  intro hdefault
  obtain ⟨-, hfind⟩ := hknows.found handle t place hfound
  obtain ⟨hpointer, -⟩ := find_eq_some_iff.mp hfind
  obtain ⟨key, -, howner⟩ := Option.bind_eq_some_iff.mp hpointer
  exact absurd (hconsistent.exclusive.sole (some key) none place howner hdefault)
    (Option.some_ne_none key)

theorem draft_afterMember_of_ne (h : g.defaultSocket ≠ some place) (m : Member) (r : m.Result) :
    (g.afterMember place m r).draft = g.draft := by
  cases m with
  | contents => exact g.draft_see place _
  | write | sendTo | broadcast => exact congrArg Knowledge.draft (if_neg h)
  | _ => rfl

/-- What sends or writes changes the object. -/
theorem draft_of_observed {o : LibrarySurroundings} {m : Member} {r : m.Result}
    (h : x.call S o m = some (none, r)) : (g.afterMember place m r).draft = g.draft := by
  cases m with
  | write | sendTo | broadcast =>
    obtain ⟨a, -, hsame⟩ := Option.map_eq_some_iff.mp h
    exact absurd (Prod.mk.inj hsame).1 (Option.some_ne_none _)
  | contents => exact g.draft_see place _
  | _ => rfl

theorem seen_afterMember {m : Member} {r : m.Result} {data : List UInt8}
    (h : data ∈ (g.afterMember place m r).seen) : data ∈ g.seen ∨
      ∃ b : Buffer, (⟨m, r⟩ : Σ m : Member, m.Result) = ⟨.contents, b⟩ ∧ data = b.data ∧
        g.pointsToBuffer place = true := by
  have hdraft : ∀ draft, (g.setDraft place draft).seen = g.seen := by
    intro draft
    unfold Knowledge.setDraft
    split <;> rfl
  cases m with
  | contents =>
    change data ∈ (g.see place (Buffer.data r)).seen at h
    unfold Knowledge.see at h
    split at h
    · rename_i hbuffer
      rcases List.mem_cons.mp h with hnew | hold
      · exact Or.inr ⟨r, rfl, hnew, hbuffer⟩
      · exact Or.inl hold
    · exact Or.inl h
  | write data' =>
    change data ∈ (g.setDraft place (some data')).seen at h
    rw [hdraft] at h
    exact Or.inl h
  | sendTo | broadcast =>
    change data ∈ (g.setDraft place none).seen at h
    rw [hdraft] at h
    exact Or.inl h
  | _ => exact Or.inl h

/-- What is read from a pointer to a buffer is the content of that buffer. -/
theorem bufferHeld_of_contents {o : LibrarySurroundings} {b : Buffer}
    (hconsistent : l.Consistent S) (hknows : l.Knows handles g)
    (hx : l.heap[place]? = some x) (hcall : x.call S o .contents = some (none, b))
    (hbuffer : g.pointsToBuffer place = true) : l.BufferHeld S b.data := by
  obtain ⟨⟨handle, t, p⟩, hfound, hsame⟩ := List.any_eq_true.mp hbuffer
  rw [Bool.and_eq_true] at hsame
  have ht : t = .exactly .buffer := of_decide_eq_true hsame.1
  have hp : p = place := of_decide_eq_true hsame.2
  subst t p
  obtain ⟨-, hfind⟩ := hknows.found handle _ place hfound
  obtain ⟨-, x', hx', hclass⟩ := find_eq_some_iff.mp hfind
  obtain rfl := Option.some.inj (hx.symm.trans hx')
  cases x with
  | buffer r =>
    obtain rfl := (Prod.mk.inj (Option.some.inj hcall)).2
    exact bufferHeld_now hconsistent hx
  | tcpSocket | udpSocket | combinedTcpAcceptor | ipLookup => contradiction

/-- The default socket is written to, or sends what has been written. -/
theorem Drafted.member {m : Member} {result : m.Result} {o : LibrarySurroundings}
    {e : ObjectEvent} (h : l.Drafted S g.draft) (hconsistent : l.Consistent S)
    (hseen : ∀ data ∈ g.seen, l.BufferHeld S data) (hdefault : g.defaultSocket = some place)
    (hplace : l.defaultUdpSocket = some place) (hdrafts : g.Drafts m)
    (hx : l.heap[place]? = some x) (hcall : x.call S o m = some (some e, result))
    (hstep : l.stepObject S place e = some l') :
    l'.Drafted S (g.afterMember place m result).draft := by
  obtain ⟨x', hx', hclass⟩ := hconsistent.default place hplace
  obtain rfl := Option.some.inj (hx.symm.trans hx')
  cases x with
  | buffer | tcpSocket | combinedTcpAcceptor | ipLookup => contradiction
  | udpSocket members r =>
    have hset : ∀ draft, (g.setDraft place draft).draft = draft := fun draft =>
      congrArg Knowledge.draft (if_pos hdefault)
    cases m with
    | write data =>
      obtain ⟨hnone, hdata⟩ := hdrafts
      obtain rfl := Option.some.inj (Prod.mk.inj (Option.some.inj hcall)).1
      change l'.Drafted S (g.setDraft place (some data)).draft
      rw [hset]
      refine h.stepDefault hplace hstep (fun c hc => ⟨?_, fun d hd => Or.inl hd⟩) ?_
      · rw [hnone] at hc
        change c.draft ++ data = data
        rw [hc]
        rfl
      · intro data' hdata'
        obtain rfl := Option.some.inj hdata'
        exact hseen data hdata
    | sendTo host port =>
      obtain ⟨data, hdata⟩ := Option.ne_none_iff_exists'.mp hdrafts
      obtain rfl := Option.some.inj (Prod.mk.inj (Option.some.inj hcall)).1
      change l'.Drafted S (g.setDraft place none).draft
      rw [hset]
      refine h.stepDefault hplace hstep (fun c hc => ⟨rfl, fun d hd => ?_⟩) nofun
      rw [hdata] at hc ⊢
      rcases List.mem_append.mp hd with hold | hnew
      · exact Or.inl hold
      · rw [List.mem_singleton.mp hnew]
        exact Or.inr (congrArg some hc).symm
    | broadcast port =>
      obtain ⟨data, hdata⟩ := Option.ne_none_iff_exists'.mp hdrafts
      obtain rfl := Option.some.inj (Prod.mk.inj (Option.some.inj hcall)).1
      change l'.Drafted S (g.setDraft place none).draft
      rw [hset]
      refine h.stepDefault hplace hstep (fun c hc => ⟨rfl, fun d hd => ?_⟩) nofun
      rw [hdata] at hc ⊢
      rcases List.mem_append.mp hd with hold | hnew
      · exact Or.inl hold
      · obtain ⟨addr, -, rfl⟩ := List.mem_map.mp hnew
        exact Or.inr (congrArg some hc).symm
    | _ => exact hdrafts.elim

/-- The contents that a call has seen, and what it has written to the default socket. -/
structure Witnessed (S : System) (l : Library) (g : Knowledge) : Prop where
  drafted : l.Drafted S g.draft
  seen : ∀ data ∈ g.seen, l.BufferHeld S data

theorem Witnessed.transport {g' : Knowledge} (h : l.Witnessed S g)
    (hdrafted : l'.Drafted S g'.draft) (hgrows : l.Grows l') (hseen : g'.seen = g.seen) :
    l'.Witnessed S g' :=
  ⟨hdrafted, fun data hdata => (h.seen data (hseen ▸ hdata)).mono hgrows⟩

theorem Witnessed.append {g' : Knowledge} (h : l.Witnessed S g) (hconsistent : l.Consistent S)
    (hheap : l'.heap = l.heap ++ [x]) (hchanges : l'.changes = l.changes ++ [.create x])
    (hdefault : l'.defaultUdpSocket = l.defaultUdpSocket) (hdraft : g'.draft = g.draft)
    (hseen : g'.seen = g.seen) : l'.Witnessed S g' := by
  refine h.transport ?_ ⟨_, hchanges⟩ hseen
  rw [hdraft]
  exact h.drafted.append hconsistent hheap hchanges hdefault

theorem default_allocate {handle : UInt32} (h : l.allocate x = some (handle, l')) :
    l'.defaultUdpSocket = l.defaultUdpSocket := by
  obtain ⟨_, -, hsame⟩ := Option.map_eq_some_iff.mp h
  obtain ⟨-, rfl⟩ := Prod.mk.inj hsame
  rfl

theorem grows_release (l : Library) (handle : Datum binary64) : l.Grows (l.release handle) :=
  ⟨[], by rw [(l.heap_release handle).2, List.append_nil]⟩

theorem Drafted.release (h : l.Drafted S draft) (handle : Datum binary64) :
    (l.release handle).Drafted S draft :=
  h.transport (l.grows_release handle) (l.default_release handle) fun p _ => by
    rw [(l.heap_release handle).1]

/-- The default socket is bound when it is needed first. -/
theorem Drafted.bind (h : l.Drafted S draft) (o : LibrarySurroundings)
    (hnone : l.defaultUdpSocket = none) :
    Drafted S { l.create (l.udpBind o 0) with defaultUdpSocket := some l.heap.length } draft := by
  have hdraft := h.unbound hnone
  subst draft
  refine ⟨fun _ => rfl, fun p members r hp hr => ?_, nofun⟩
  obtain rfl := Option.some.inj hp
  have hnew : (l.heap ++ [l.udpBind o 0])[l.heap.length]? = some (.udpSocket members r) := hr
  rw [List.getElem?_concat_length] at hnew
  have hcreated : LibraryObject.Created S (l.udpBind o 0) := l.created_udpBind o 0
  rw [Option.some.inj hnew] at hcreated
  cases hcreated with
  | udpSocket littleEndian members ipv4Open ipv6Open =>
    exact ⟨_, UdpSession.sending_bind ipv4Open ipv6Open, rfl, nofun⟩

theorem Witnessed.primitive {q : Primitive} {result : q.Result} (h : l.Witnessed S g)
    (hconsistent : l.Consistent S) (hknows : l.Knows handles g)
    (hallowed : Knowledge.Allowed handles q g) (hcase : PrimitiveCase S l q result l') :
    l'.Witnessed S (Knowledge.after q result g) := by
  cases hcase with
  | find t handle =>
    cases hfind : l.find t handle with
    | none => exact h
    | some place => exact ⟨h.drafted, h.seen⟩
  | observed place m result o x hx hcall =>
    refine ⟨?_, fun data hdata => ?_⟩
    · change l.Drafted S (g.afterMember place m result).draft
      rw [draft_of_observed hcall]
      exact h.drafted
    · rcases seen_afterMember hdata with hold | ⟨b, hsame, rfl, hbuffer⟩
      · exact h.seen data hold
      · cases hsame
        exact bufferHeld_of_contents hconsistent hknows hx hcall hbuffer
  | changed place m result o x e l' hx hcall hstep =>
    have hgrows := (grows_stepObject hstep).1
    refine ⟨?_, fun data hdata => ?_⟩
    · change l'.Drafted S (g.afterMember place m result).draft
      rcases hallowed.2 with ⟨handle, t, hfound, -⟩ | ⟨hdefault, hdrafts⟩
      · have hother := not_default_of_found hconsistent hknows hfound
        rw [draft_afterMember_of_ne fun hdefault => hother (hknows.default place hdefault)]
        exact h.drafted.stepOther hstep hother
      · exact h.drafted.member hconsistent h.seen hdefault (hknows.default place hdefault) hdrafts
          hx hcall hstep
    · rcases seen_afterMember hdata with hold | ⟨b, hsame, -, -⟩
      · exact (h.seen data hold).mono hgrows
      · cases hsame
        obtain ⟨r, -, hevent⟩ := LibraryObject.event_of_map hcall
        contradiction
  | allocated c x handle l' _ hallocate =>
    obtain ⟨hheap, hchanges, -, -⟩ := target_allocate hallocate
    exact h.append hconsistent hheap hchanges (default_allocate hallocate) rfl rfl
  | waiting place calls between l' hstep =>
    obtain ⟨-, handle, t, hfound, -⟩ := hallowed
    exact h.transport (h.drafted.stepOther hstep (not_default_of_found hconsistent hknows hfound))
      (grows_stepObject hstep).1 rfl
  | accepted place calls between x handle l' l'' hstep _ hallocate =>
    obtain ⟨-, handle', t, hfound, -⟩ := hallowed
    obtain ⟨hheap, hchanges, -, -⟩ := target_allocate hallocate
    have hmiddle : l'.Witnessed S g := h.transport
      (h.drafted.stepOther hstep (not_default_of_found hconsistent hknows hfound))
      (grows_stepObject hstep).1 rfl
    exact hmiddle.append (hconsistent.stepObject hstep rfl) hheap hchanges
      (default_allocate hallocate) rfl rfl
  | destroyed handle place hard x e l' _ _ hstep =>
    obtain ⟨-, c, hfound, -⟩ := hallowed
    have hmiddle := h.drafted.stepOther hstep (not_default_of_found hconsistent hknows hfound)
    exact h.transport (hmiddle.release handle)
      ((grows_stepObject hstep).1.trans (l'.grows_release handle)) rfl
  | released handle =>
    exact h.transport (h.drafted.release handle) (l.grows_release handle) rfl
  | defaultThere place hplace => exact ⟨h.drafted, h.seen⟩
  | defaultBound o hnone => exact h.transport (h.drafted.bind o hnone) ⟨_, rfl⟩ rfl
  | order littleEndian =>
    exact h.transport (h.drafted.transport (.refl l) rfl fun _ _ => rfl) (.refl l) rfl
  | size => exact h

end Library

/-! ### Runs -/

namespace LibrarySession

variable {S : System} {s t : LibrarySession}

/-- Between the calls the default socket has no draft. -/
structure Drafting (S : System) (s : LibrarySession) : Prop where
  consistent : s.library.Consistent S
  idle : s.running = none → s.library.Drafted S none
  obeys : ∀ c p, s.running = some (c, p) →
    ∃ g, Api.Obeys c.handles p g ∧ s.library.Knows c.handles g ∧ s.library.Witnessed S g

theorem drafting_startup (S : System) : startup.Drafting S where
  consistent := Library.consistent_startup S
  idle := fun _ => Library.drafted_startup S
  obeys := nofun

theorem seen_of_autonomous {e : UdpObjectEvent}
    (h : (ObjectEvent.udpSocket e).Autonomous = true) (c : UdpSession.Script) :
    e.seen.foldl .note c = c := by
  cases e with
  | session e =>
    cases e with
    | call => contradiction
    | completion => rfl
  | destroySocket => contradiction

/-- A handler sends nothing new. -/
theorem drafted_handler {l l' : Library} {place : ℕ} {e : ObjectEvent}
    {draft : Option (List UInt8)} (h : l.Drafted S draft) (hconsistent : l.Consistent S)
    (he : e.Autonomous = true) (hstep : l.stepObject S place e = some l') :
    l'.Drafted S draft := by
  by_cases hplace : l.defaultUdpSocket = some place
  · obtain ⟨x, y, hx, hy, -⟩ := Library.stepObject_eq_some_iff.mp hstep
    obtain ⟨x', hx', hclass⟩ := hconsistent.default place hplace
    obtain rfl := Option.some.inj (hx.symm.trans hx')
    cases LibraryObject.stepCase hy with
    | udp members r e t ht =>
      refine h.stepDefault hplace hstep (fun c hc => ?_) h.held
      rw [seen_of_autonomous he]
      exact ⟨hc, fun d hd => Or.inl hd⟩
    | udpOrder | bufferOrder | tcpOrder | buffer | tcp | acceptor | lookup => contradiction
  · exact h.stepOther hstep hplace

theorem Drafting.step {e : LibraryEvent} (h : s.Drafting S)
    (hstep : LibrarySession.step S s e = some t) : t.Drafting S := by
  cases stepCase hstep with
  | called c hidle =>
    refine ⟨h.consistent, nofun, fun c' p hrunning => ?_⟩
    obtain ⟨rfl, rfl⟩ := Prod.mk.inj (Option.some.inj hrunning)
    exact ⟨.nothing, c.obeys, ⟨fun _ _ _ hfound => absurd hfound List.not_mem_nil, nofun⟩,
      h.idle hidle, fun _ hdata => absurd hdata List.not_mem_nil⟩
  | returned c reply o hrunning =>
    obtain ⟨g, hdraft, -, hwitnessed⟩ := h.obeys c _ hrunning
    have hdraft : g.draft = none := hdraft
    refine ⟨h.consistent, fun _ => ?_, nofun⟩
    rw [← hdraft]
    exact hwitnessed.drafted
  | performed c q next result l o hrunning hcase =>
    obtain ⟨g, ⟨hallowed, hnext⟩, hknows, hwitnessed⟩ := h.obeys c _ hrunning
    obtain ⟨hconsistent, hknows'⟩ := h.consistent.perform hknows hallowed hcase
    refine ⟨hconsistent, nofun, fun c' p hrunning' => ?_⟩
    obtain ⟨rfl, rfl⟩ := Prod.mk.inj (Option.some.inj hrunning')
    exact ⟨_, hnext result, hknows', hwitnessed.primitive h.consistent hknows hallowed hcase⟩
  | handled place e l hautonomous hl =>
    refine ⟨h.consistent.stepObject hl (LibraryObject.destroys_of_autonomous hautonomous),
      fun hidle => drafted_handler (h.idle hidle) h.consistent hautonomous hl, ?_⟩
    intro c p hrunning
    obtain ⟨g, hobeys, hknows, hwitnessed⟩ := h.obeys c p hrunning
    exact ⟨g, hobeys, hknows.mono (Library.keepsPointers_stepObject hl),
      hwitnessed.transport (drafted_handler hwitnessed.drafted h.consistent hautonomous hl)
        (Library.grows_stepObject hl).1 rfl⟩

/-- In every state, the default socket has only ever sent whole contents of buffers. -/
theorem defaultSocket_of_run {es : List LibraryEvent} {place : ℕ} {members : UdpMembers}
    {r : ByteOrdered UdpObject} (hrun : run S startup es = some s)
    (hplace : s.library.defaultUdpSocket = some place)
    (hr : s.library.heap[place]? = some (.udpSocket members r)) :
    ∀ u ∈ r.object.session.transmissions, ∀ attempt ∈ u.attempts,
      s.library.BufferHeld S attempt.2 := by
  have h := run_preserves (Drafting S) (fun _ _ _ => Drafting.step) (drafting_startup S) hrun
  intro u hu attempt hattempt
  have hdrafted : ∃ draft, s.library.Drafted S draft := by
    cases hrunning : s.running with
    | none => exact ⟨none, h.idle hrunning⟩
    | some current =>
      obtain ⟨g, -, -, hwitnessed⟩ := h.obeys current.1 current.2 hrunning
      exact ⟨g.draft, hwitnessed.drafted⟩
  obtain ⟨draft, hdrafted⟩ := hdrafted
  obtain ⟨c, hsending, -, hrequests⟩ := hdrafted.socket place members r hplace hr
  rw [hsending.flow.payloads hu attempt hattempt]
  exact hrequests _ (hsending.requested_of_mem hu)

/-- A script fills its buffer, and sends it without a socket of its own. -/
def sendBuffer : List LibraryEvent :=
  oneBuffer ++ .call (.writeString Handles.firstHandle [104, 105]) ::
    List.replicate 3 (.proceed quiet)
    ++ .call (.udpSend Handles.firstHandle "127.0.0.1" (Datum.ofInt binary64 80 (by decide))) ::
      List.replicate 6 (.proceed quiet)

/-- What has been sent from the object at a place. -/
def sentAt (s : LibrarySession) (place : ℕ) : Option (List (List (List UInt8))) :=
  match s.library.heap[place]? with
  | some (.udpSocket _ r) =>
    some (r.object.session.transmissions.map fun u => u.attempts.map Prod.snd)
  | _ => none

theorem defaultSocket_of_run_sendBuffer : ∃ s members r,
    run loopbackSystem startup sendBuffer = some s ∧
    s.library.heap[1]? = some (.udpSocket members r) ∧ s.sentAt 1 = some [[[104, 105]]] ∧
    ∀ u ∈ r.object.session.transmissions, ∀ attempt ∈ u.attempts,
      s.library.BufferHeld loopbackSystem attempt.2 := by
  have hs : (run loopbackSystem startup sendBuffer).map (fun s =>
      (s.library.defaultUdpSocket, s.sentAt 1)) = some (some 1, some [[[104, 105]]]) := by
    decide +kernel
  obtain ⟨s, hrun, hs⟩ := Option.map_eq_some_iff.mp hs
  obtain ⟨hplace, hsent⟩ := Prod.mk.inj hs
  cases hx : s.library.heap[1]? with
  | none =>
    unfold sentAt at hsent
    rw [hx] at hsent
    contradiction
  | some x =>
    cases x with
    | udpSocket members r =>
      exact ⟨s, members, r, hrun, hx, hsent, defaultSocket_of_run hrun hplace hx⟩
    | buffer | tcpSocket | combinedTcpAcceptor | ipLookup =>
      unfold sentAt at hsent
      rw [hx] at hsent
      contradiction

end LibrarySession

end FaucetNetworking
