import FaucetNetworking.IpLookup
import FaucetNetworking.Lib.Lookahead
import Mathlib.Tactic.ByContra

/-!
A lookup hands out the answers of its resolver one after the other. The text that it holds
ready is one element ahead of the iterator, and an empty text stands for none.
-/
namespace FaucetNetworking

namespace AddressText

variable {P : AddressText}

def text (P : AddressText) (endpoint : Endpoint) : Option String :=
  P.toString endpoint.protocol endpoint.address

/-- The texts of the addresses, up to the first that cannot be converted. -/
def texts (P : AddressText) : List Endpoint → List String
  | [] => []
  | endpoint :: rest =>
    match P.text endpoint with
    | none => []
    | some ip => ip :: P.texts rest

/-- The text of an address is not empty. -/
def Visible (P : AddressText) : Prop :=
  ∀ protocol address ip, P.toString protocol address = some ip → ip ≠ ""

theorem texts_append {front : List Endpoint} {ips : List String}
    (h : front.map P.text = ips.map some) (back : List Endpoint) :
    P.texts (front ++ back) = ips ++ P.texts back := by
  induction front generalizing ips with
  | nil =>
    cases ips with
    | nil => rfl
    | cons ip ips => contradiction
  | cons endpoint rest ih =>
    cases ips with
    | nil => contradiction
    | cons ip ips =>
      obtain ⟨hip, hrest⟩ := List.cons.inj h
      rw [List.cons_append, texts, hip, List.cons_append, ih hrest]

theorem texts_of_converted {endpoints : List Endpoint} {ips : List String}
    (h : endpoints.map P.text = ips.map some) : P.texts endpoints = ips := by
  have happend := texts_append h []
  rwa [List.append_nil, texts, List.append_nil] at happend

theorem texts_of_failed {front : List Endpoint} {ips : List String}
    (h : front.map P.text = ips.map some) {failed : Endpoint} (hfailed : P.text failed = none)
    (back : List Endpoint) : P.texts (front ++ failed :: back) = ips := by
  rw [texts_append h, texts, hfailed, List.append_nil]

end AddressText

namespace IpLookup

/-- The lookup holds the reader's next element, and its iterator stands for the rest. -/
structure Shows (P : AddressText) (l : IpLookup) (r : Lookahead String) : Prop where
  next : l.next = r.ahead.getD ""
  visible : ∀ ip, r.ahead = some ip → ip ≠ ""
  result : P.texts l.result = r.source
  settled : r.ahead = none → l.result = []

section

variable {P : AddressText} (hP : P.Visible) {l : IpLookup} {r : Lookahead String}

theorem loadNext_of_nil (h : l.result = []) : l.loadNext P = { l with next := "" } := by
  unfold loadNext
  rw [h]

theorem loadNext_of_failed {failed : Endpoint} {rest : List Endpoint}
    (h : l.result = failed :: rest) (hfailed : P.text failed = none) :
    l.loadNext P = { l with result := [], next := "" } := by
  unfold AddressText.text at hfailed
  unfold loadNext
  simp only [h, hfailed]

theorem loadNext_of_converted {endpoint : Endpoint} {rest : List Endpoint} {ip : String}
    (h : l.result = endpoint :: rest) (hip : P.text endpoint = some ip) :
    l.loadNext P = { l with result := rest, next := ip } := by
  unfold AddressText.text at hip
  unfold loadNext
  simp only [h, hip]

@[simp] theorem resolver_loadNext (P : AddressText) (l : IpLookup) :
    (l.loadNext P).resolver = l.resolver := by
  unfold loadNext
  split
  · split <;> rfl
  · rfl

@[simp] theorem lookupComplete_loadNext (P : AddressText) (l : IpLookup) :
    (l.loadNext P).lookupComplete = l.lookupComplete := by
  unfold loadNext
  split
  · split <;> rfl
  · rfl

theorem shows_new (P : AddressText) : new.Shows P (.load []) :=
  ⟨rfl, nofun, rfl, fun _ => rfl⟩

include hP in
/-- Whatever was held ready before, the first text of the iterator takes its place. -/
theorem shows_loadNext (l : IpLookup) : (l.loadNext P).Shows P (.load (P.texts l.result)) := by
  cases hresult : l.result with
  | nil =>
    rw [loadNext_of_nil hresult]
    exact ⟨rfl, nofun, congrArg P.texts hresult, fun _ => hresult⟩
  | cons endpoint rest =>
    rw [AddressText.texts]
    cases hip : P.text endpoint with
    | none =>
      rw [loadNext_of_failed hresult hip]
      exact ⟨rfl, nofun, rfl, fun _ => rfl⟩
    | some ip =>
      rw [loadNext_of_converted hresult hip]
      refine ⟨rfl, ?_, rfl, nofun⟩
      intro other hother
      rw [← Option.some.inj hother]
      exact hP _ _ ip hip

theorem Shows.hasNext_iff (h : l.Shows P r) : l.hasNext = true ↔ r.remaining ≠ [] := by
  rw [Ne, r.remaining_eq_nil_iff]
  unfold hasNext
  rw [h.next]
  cases hahead : r.ahead with
  | none => simp
  | some ip => simpa using h.visible ip hahead

theorem Shows.remaining_of_hasNext (h : l.Shows P r) (hnone : l.hasNext = false) :
    r.remaining = [] := by
  by_contra hsome
  rw [h.hasNext_iff.mpr hsome] at hnone
  contradiction

theorem Shows.hasNext_of_nil (h : l.Shows P r) (hnil : r.remaining = []) :
    l.hasNext = false := by
  rw [← Bool.not_eq_true, h.hasNext_iff]
  exact not_not_intro hnil

theorem Shows.value (h : l.Shows P r) : (l.nextResult P).1 = r.remaining.headD "" := by
  rw [List.headD_eq_head?_getD, ← r.ahead_eq_head?]
  exact h.next

include hP in
theorem Shows.nextResult (h : l.Shows P r) : (l.nextResult P).2.Shows P r.next.2 := by
  have hload := shows_loadNext hP l
  rw [h.result] at hload
  exact hload

/-- At the end nothing changes any more. -/
theorem Shows.nextResult_of_nil (h : l.Shows P r) (hnil : r.remaining = []) :
    l.nextResult P = ("", l) := by
  have hahead := r.remaining_eq_nil_iff.mp hnil
  have hnext : l.next = "" := by rw [h.next, hahead, Option.getD_none]
  have hsame : { l with next := "" } = l := by rw [← hnext]
  unfold IpLookup.nextResult
  rw [loadNext_of_nil (h.settled hahead), hsame, hnext]

/-- The answers of a query: none if it fails, and otherwise those in the iterator. -/
def answered (P : AddressText) : Option String → List Endpoint → List String
  | none, endpointIterator => P.texts endpointIterator
  | some _, _ => []

include hP in
theorem Shows.handleResolve (h : l.Shows P r) (hnil : r.remaining = []) (error : Option String)
    (endpointIterator : List Endpoint) : ∃ r', r'.remaining = answered P error endpointIterator ∧
      (l.handleResolve P error endpointIterator).Shows P r' := by
  cases error with
  | none => exact ⟨_, Lookahead.remaining_load _, shows_loadNext hP _⟩
  | some message => exact ⟨r, hnil, h.next, h.visible, h.result, h.settled⟩

theorem resolver_handleResolve (P : AddressText) (l : IpLookup) (error : Option String)
    (endpointIterator : List Endpoint) :
    (l.handleResolve P error endpointIterator).resolver = l.resolver := by
  cases error with
  | none => exact resolver_loadNext P _
  | some message => rfl

theorem ready_handleResolve (P : AddressText) (l : IpLookup) (error : Option String)
    (endpointIterator : List Endpoint) :
    (l.handleResolve P error endpointIterator).ready = true := by
  cases error with
  | none => exact lookupComplete_loadNext P _
  | some message => rfl

end

end IpLookup

namespace LookupSession

/-- The values that nextResult has returned while hasNext held. -/
def enumerated (s : LookupSession) : List String :=
  (s.history.results.filter LookupResult.hasNext).map LookupResult.value

/-- What there is to enumerate. -/
def answers (P : AddressText) (s : LookupSession) : List String :=
  match s.history.outcome with
  | none => []
  | some (error, endpointIterator) => IpLookup.answered P error endpointIterator

/-- What has been enumerated, and behind it what the reader still yields, are the answers. -/
structure Tracks (P : AddressText) (s : LookupSession) (r : Lookahead String) : Prop where
  lookup : s.lookup.Shows P r
  answers : s.enumerated ++ r.remaining = s.answers P
  ready : s.lookup.ready = s.history.outcome.isSome
  pending : s.lookup.resolver.isSome = true → s.history.outcome = none
  results : ∀ result ∈ s.history.results, result.hasNext = false → result.value = ""

section

variable {P : AddressText} (hP : P.Visible) {s t : LookupSession} {r : Lookahead String}

theorem enumerated_nextResult (P : AddressText) (s : LookupSession) :
    (s.nextResult P).enumerated =
      s.enumerated ++ if s.lookup.hasNext then [(s.lookup.nextResult P).1] else [] := by
  unfold enumerated nextResult
  simp only [List.filter_append, List.map_append]
  cases hnext : s.lookup.hasNext with
  | true => rfl
  | false => rfl

include hP in
theorem Tracks.nextResult (h : s.Tracks P r) : (s.nextResult P).Tracks P r.next.2 where
  lookup := h.lookup.nextResult hP
  answers := by
    change _ = s.answers P
    rw [enumerated_nextResult, ← h.answers, r.remaining_next, h.lookup.value, List.append_assoc]
    cases hremaining : r.remaining with
    | nil =>
      rw [h.lookup.hasNext_of_nil hremaining]
      rfl
    | cons ip ips =>
      have hnext : s.lookup.hasNext = true := by
        rw [h.lookup.hasNext_iff, hremaining]
        exact List.cons_ne_nil ip ips
      rw [if_pos hnext]
      rfl
  ready := (IpLookup.lookupComplete_loadNext P s.lookup).trans h.ready
  pending := by
    intro hpending
    apply h.pending
    rw [← IpLookup.resolver_loadNext P]
    exact hpending
  results := by
    intro result hmem hnone
    rcases List.mem_append.mp hmem with hold | hnew
    · exact h.results result hold hnone
    · obtain rfl := List.mem_singleton.mp hnew
      change (s.lookup.nextResult P).1 = ""
      rw [h.lookup.value, h.lookup.remaining_of_hasNext hnone]
      rfl

/-- Before the handler has run there is nothing to enumerate. -/
theorem Tracks.nothing (h : s.Tracks P r) (hnone : s.history.outcome = none) :
    s.enumerated = [] ∧ r.remaining = [] := by
  have hanswers := h.answers
  unfold LookupSession.answers at hanswers
  rw [hnone] at hanswers
  exact List.append_eq_nil_iff.mp hanswers

include hP in
theorem Tracks.handleResolve (h : s.Tracks P r) (hpending : s.lookup.resolver.isSome = true)
    (error : Option String) (endpointIterator : List Endpoint) :
    ∃ r', (s.handleResolve P error endpointIterator).Tracks P r' := by
  obtain ⟨hnothing, hnil⟩ := h.nothing (h.pending hpending)
  have hshows : IpLookup.Shows P { s.lookup with resolver := none } r :=
    ⟨h.lookup.next, h.lookup.visible, h.lookup.result, h.lookup.settled⟩
  obtain ⟨r', hanswers, hlookup⟩ := hshows.handleResolve hP hnil error endpointIterator
  refine ⟨r', hlookup, ?_, IpLookup.ready_handleResolve P _ error endpointIterator, ?_,
    h.results⟩
  · change s.enumerated ++ r'.remaining = _
    rw [hnothing, hanswers]
    rfl
  · intro hstill
    change (IpLookup.handleResolve P _ error endpointIterator).resolver.isSome = true at hstill
    rw [IpLookup.resolver_handleResolve] at hstill
    contradiction

include hP in
theorem tracks_create (host : String) (protocol : LookupProtocol) :
    ∃ r, (create P host protocol).Tracks P r := by
  unfold create IpLookup.lookup
  cases fctAsyncResolve P host 0 protocol with
  | handled endpointIterator =>
    obtain ⟨r, hanswers, hlookup⟩ :=
      (IpLookup.shows_new P).handleResolve hP rfl none endpointIterator
    refine ⟨r, hlookup, hanswers, IpLookup.ready_handleResolve P _ none _, ?_, nofun⟩
    intro hpending
    simp only [IpLookup.resolver_handleResolve] at hpending
    contradiction
  | started query =>
    have hshows : IpLookup.Shows P { IpLookup.new with resolver := some query } (.load []) :=
      ⟨rfl, nofun, rfl, fun _ => rfl⟩
    exact ⟨.load [], hshows, rfl, rfl, fun _ => rfl, nofun⟩

theorem fctAsyncResolve_of_literal {host : String} {address : Protocol × ℕ}
    (h : P.fromString host = some address) (port : UInt16) (protocol : LookupProtocol) :
    ∃ endpointIterator, fctAsyncResolve P host port protocol = .handled endpointIterator := by
  unfold fctAsyncResolve
  simp only [h]
  split
  · exact ⟨_, rfl⟩
  · exact ⟨[], rfl⟩

/-- A literal address needs no query, whichever protocol is asked for. -/
theorem ready_create (P : AddressText) (host : String) (protocol : LookupProtocol) :
    (create P host protocol).lookup.ready = (P.fromString host).isSome := by
  unfold create IpLookup.lookup
  cases h : P.fromString host with
  | none =>
    unfold fctAsyncResolve
    rw [h]
    rfl
  | some address =>
    obtain ⟨endpointIterator, hhandled⟩ := fctAsyncResolve_of_literal h 0 protocol
    rw [hhandled]
    exact IpLookup.ready_handleResolve P _ none endpointIterator

/-- The client only changes something by a call of nextResult, and the handler runs only
while its query is pending. -/
theorem step_cases {e : LookupEvent} (hstep : LookupSession.step P s e = some t) :
    (t = s ∧ e.outcome = none) ∨ (t = s.nextResult P ∧ e.outcome = none) ∨
      ∃ error endpointIterator, s.lookup.resolver.isSome = true ∧
        t = s.handleResolve P error endpointIterator ∧
        e.outcome = some (error, endpointIterator) := by
  cases e with
  | ready => exact Or.inl ⟨(Option.some.inj hstep).symm, rfl⟩
  | hasNext => exact Or.inl ⟨(Option.some.inj hstep).symm, rfl⟩
  | nextResult => exact Or.inr (Or.inl ⟨(Option.some.inj hstep).symm, rfl⟩)
  | handleResolve error endpointIterator =>
    unfold LookupSession.step at hstep
    simp only at hstep
    split at hstep
    · rename_i hpending
      exact Or.inr (Or.inr ⟨error, endpointIterator, hpending, (Option.some.inj hstep).symm, rfl⟩)
    · contradiction

include hP in
theorem Tracks.step (h : s.Tracks P r) {e : LookupEvent}
    (hstep : LookupSession.step P s e = some t) : ∃ r', t.Tracks P r' := by
  rcases step_cases hstep with ⟨rfl, -⟩ | ⟨rfl, -⟩ | ⟨error, endpointIterator, hpending, rfl, -⟩
  · exact ⟨r, h⟩
  · exact ⟨r.next.2, h.nextResult hP⟩
  · exact h.handleResolve hP hpending error endpointIterator

include hP in
theorem tracks_of_run {host : String} {protocol : LookupProtocol} {es : List LookupEvent}
    (hrun : StateMachine.run (LookupSession.step P) (create P host protocol) es = some s) :
    ∃ r, s.Tracks P r := by
  apply StateMachine.run_preserves (fun s : LookupSession => ∃ r, s.Tracks P r) _
    (tracks_create hP host protocol) hrun
  rintro u e v ⟨r, htracks⟩ hstep
  exact htracks.step hP hstep

/-! ### To the end -/

include hP in
theorem Tracks.drain (h : s.Tracks P r) : ∃ t r',
    StateMachine.run (LookupSession.step P) s (List.replicate r.remaining.length .nextResult) =
      some t ∧ t.Tracks P r' ∧ r'.remaining = [] ∧ t.answers P = s.answers P := by
  induction hremaining : r.remaining generalizing s r with
  | nil => exact ⟨s, r, rfl, h, hremaining, rfl⟩
  | cons ip ips ih =>
    have hrest : r.next.2.remaining = ips := by
      rw [r.remaining_next, hremaining, List.tail_cons]
    obtain ⟨t, r', hrun, htracks, hnil, hanswers⟩ := ih (h.nextResult hP) hrest
    refine ⟨t, r', ?_, htracks, hnil, hanswers⟩
    rw [List.length_cons, List.replicate_succ]
    exact (StateMachine.run_cons_eq_some_iff _ s t _ _).mpr ⟨s.nextResult P, rfl, hrun⟩

include hP in
/-- After the handler has run, an enumeration that is at its end stays there. -/
theorem Tracks.step_of_nil (h : s.Tracks P r) (hready : s.lookup.ready = true)
    (hnil : r.remaining = []) {e : LookupEvent} (hstep : LookupSession.step P s e = some t) :
    t.lookup = s.lookup ∧ ∃ r', t.Tracks P r' ∧ r'.remaining = [] := by
  rcases step_cases hstep with ⟨rfl, -⟩ | ⟨rfl, -⟩ | ⟨error, endpointIterator, hpending, -, -⟩
  · exact ⟨rfl, r, h, hnil⟩
  · refine ⟨congrArg Prod.snd (h.lookup.nextResult_of_nil hnil), r.next.2, h.nextResult hP, ?_⟩
    rw [r.remaining_next, hnil, List.tail_nil]
  · rw [h.ready, h.pending hpending] at hready
    contradiction

include hP in
theorem Tracks.run_of_nil (h : s.Tracks P r) (hready : s.lookup.ready = true)
    (hnil : r.remaining = []) {es : List LookupEvent}
    (hrun : StateMachine.run (LookupSession.step P) s es = some t) :
    t.lookup.hasNext = false ∧ t.lookup.nextResult P = ("", t.lookup) := by
  have hend : t.lookup.ready = true ∧ ∃ r', t.Tracks P r' ∧ r'.remaining = [] := by
    apply StateMachine.run_preserves (fun u : LookupSession =>
      u.lookup.ready = true ∧ ∃ r', u.Tracks P r' ∧ r'.remaining = []) _ ⟨hready, r, h, hnil⟩ hrun
    rintro u e v ⟨hready, r', htracks, hnil⟩ hstep
    obtain ⟨hsame, hrest⟩ := htracks.step_of_nil hP hready hnil hstep
    rw [hsame]
    exact ⟨hready, hrest⟩
  obtain ⟨-, r', htracks, hnil⟩ := hend
  exact ⟨htracks.lookup.hasNext_of_nil hnil, htracks.lookup.nextResult_of_nil hnil⟩

end

/-! ### Runs -/

/-- What the client of a lookup sees, at whatever moment and in all that follows. -/
structure Enumerates (P : AddressText) (s : LookupSession) : Prop where
  ready_iff : s.lookup.ready = true ↔ s.history.outcome ≠ none
  waits : s.lookup.ready = false →
    s.lookup.hasNext = false ∧ s.lookup.nextResult P = ("", s.lookup)
  in_order : s.enumerated <+: s.answers P
  hasNext_iff : s.lookup.hasNext = true ↔ s.enumerated.length < (s.answers P).length
  value : (s.lookup.nextResult P).1 = ((s.answers P).drop s.enumerated.length).headD ""
  results : ∀ result ∈ s.history.results, result.hasNext = false → result.value = ""
  /-- As many calls as answers are left show all of them. -/
  drains : ∃ t, StateMachine.run (step P) s
      (List.replicate ((s.answers P).length - s.enumerated.length) .nextResult) = some t ∧
    t.enumerated = s.answers P ∧ t.lookup.hasNext = false
  stays_empty : s.lookup.ready = true → s.lookup.hasNext = false →
    ∀ es t, StateMachine.run (step P) s es = some t →
      t.lookup.hasNext = false ∧ t.lookup.nextResult P = ("", t.lookup)

/-- The answers are those of the one completion, which the start has already seen or which
is among the events. -/
structure Answered (P : AddressText) (start : LookupSession) (es : List LookupEvent)
    (s : LookupSession) : Prop where
  outcome : s.history.outcome.toList =
    start.history.outcome.toList ++ es.filterMap LookupEvent.outcome
  failed : ∀ message endpointIterator,
    s.history.outcome = some (some message, endpointIterator) → s.answers P = []
  converted : ∀ endpoints ips, s.history.outcome = some (none, endpoints) →
    endpoints.map P.text = ips.map some → s.answers P = ips
  /-- The first address that cannot be converted ends the enumeration. -/
  stopped : ∀ front ips failed back, s.history.outcome = some (none, front ++ failed :: back) →
    front.map P.text = ips.map some → P.text failed = none → s.answers P = ips

section

variable {P : AddressText} (hP : P.Visible) {s : LookupSession} {r : Lookahead String}

include hP in
theorem Tracks.enumerates (h : s.Tracks P r) : s.Enumerates P := by
  have hlength : s.enumerated.length + r.remaining.length = (s.answers P).length := by
    rw [← h.answers, List.length_append]
  have hready : s.lookup.ready = true ↔ s.history.outcome ≠ none := by
    rw [h.ready, Option.isSome_iff_ne_none]
  constructor
  · exact hready
  · intro hwaiting
    have hnone : s.history.outcome = none := by
      by_contra hsome
      rw [hready.mpr hsome] at hwaiting
      contradiction
    obtain ⟨-, hnil⟩ := h.nothing hnone
    exact ⟨h.lookup.hasNext_of_nil hnil, h.lookup.nextResult_of_nil hnil⟩
  · exact ⟨r.remaining, h.answers⟩
  · rw [h.lookup.hasNext_iff, ← List.length_pos_iff]
    omega
  · rw [h.lookup.value, ← h.answers, List.drop_left]
  · exact h.results
  · obtain ⟨t, r', hrun, htracks, hnil, hanswers⟩ := h.drain hP
    have hcount : (s.answers P).length - s.enumerated.length = r.remaining.length := by omega
    refine ⟨t, ?_, ?_, htracks.lookup.hasNext_of_nil hnil⟩
    · rw [hcount]
      exact hrun
    · have hall := htracks.answers
      rwa [hnil, List.append_nil, hanswers] at hall
  · intro hready hnone es t hrun
    exact h.run_of_nil hP hready (h.lookup.remaining_of_hasNext hnone) hrun

include hP in
/-- The handler runs at most once. -/
theorem outcome_of_run {host : String} {protocol : LookupProtocol} {es : List LookupEvent}
    (hrun : StateMachine.run (step P) (create P host protocol) es = some s) :
    s.history.outcome.toList =
      (create P host protocol).history.outcome.toList ++ es.filterMap LookupEvent.outcome := by
  have htrace := StateMachine.run_traces
    (fun past (s : LookupSession) => (∃ r, s.Tracks P r) ∧ s.history.outcome.toList =
      (create P host protocol).history.outcome.toList ++ past.filterMap LookupEvent.outcome)
    ?_ ⟨tracks_create hP host protocol, (List.append_nil _).symm⟩ hrun
  · exact htrace.2
  · rintro past u e v ⟨⟨r, htracks⟩, hpast⟩ hstep
    refine ⟨htracks.step hP hstep, ?_⟩
    rw [List.filterMap_append, ← List.append_assoc, ← hpast]
    rcases step_cases hstep with ⟨rfl, hnone⟩ | ⟨rfl, hnone⟩ | ⟨error, iter, hpending, rfl, hsome⟩
    · rw [List.filterMap_cons_none hnone]
      exact (List.append_nil _).symm
    · rw [List.filterMap_cons_none hnone]
      exact (List.append_nil _).symm
    · rw [htracks.pending hpending, List.filterMap_cons_some hsome]
      rfl

theorem answered_of_outcome {start : LookupSession} {es : List LookupEvent}
    (houtcome : s.history.outcome.toList =
      start.history.outcome.toList ++ es.filterMap LookupEvent.outcome) :
    Answered P start es s := by
  refine ⟨houtcome, ?_, ?_, ?_⟩
  · intro message endpointIterator h
    rw [answers, h]
    rfl
  · intro endpoints ips h hconverted
    rw [answers, h]
    exact AddressText.texts_of_converted hconverted
  · intro front ips failed back h hconverted hfailed
    rw [answers, h]
    exact AddressText.texts_of_failed hconverted hfailed back

end

/-- A lookup enumerates the answers of its resolver, in their order and each once. -/
theorem enumerates_of_run {P : AddressText} (hP : P.Visible) {host : String}
    {protocol : LookupProtocol} {es : List LookupEvent} {s : LookupSession}
    (hrun : StateMachine.run (step P) (create P host protocol) es = some s) :
    s.Enumerates P ∧ Answered P (create P host protocol) es s := by
  obtain ⟨r, htracks⟩ := tracks_of_run hP hrun
  exact ⟨htracks.enumerates hP, answered_of_outcome (outcome_of_run hP hrun)⟩

/-- Boost on the two loopback addresses. -/
def loopbackText : AddressText where
  fromString
    | "127.0.0.1" => some (.v4, 0x7f000001)
    | "::1" => some (.v6, 1)
    | _ => none
  toString
    | .v4, 0x7f000001 => some "127.0.0.1"
    | .v6, 1 => some "::1"
    | _, _ => none

theorem visible_loopbackText : loopbackText.Visible := by
  intro protocol address ip h
  unfold loopbackText at h
  simp only at h
  split at h
  · obtain rfl := Option.some.inj h
    decide
  · obtain rfl := Option.some.inj h
    decide
  · contradiction

/-- A name with two addresses, and a client that asks once too early and once too often. -/
theorem enumerates_of_run_loopback : ∃ es s,
    StateMachine.run (step loopbackText) (create loopbackText "localhost" .any) es = some s ∧
    s.enumerated = ["127.0.0.1", "::1"] ∧ s.Enumerates loopbackText ∧
    Answered loopbackText (create loopbackText "localhost" .any) es s := by
  have hrun : StateMachine.run (step loopbackText) (create loopbackText "localhost" .any)
      [.nextResult, .handleResolve none [⟨.v4, 0x7f000001, 0⟩, ⟨.v6, 1, 0⟩], .nextResult,
        .nextResult, .nextResult] = some _ := rfl
  exact ⟨_, _, hrun, by decide, enumerates_of_run visible_loopbackText hrun⟩

end LookupSession

end FaucetNetworking
