import FaucetNetworking.Lib.StateMachine
import FaucetNetworking.V4FirstIterator

/-!
The member functions of IpLookup, and runs of a lookup. Every function holds the mutex of
the lookup, so it is one transition. The handler runs once, either before the lookup is
returned to the client or at any later time.
-/
namespace FaucetNetworking

/-- What Boost computes: address::from_string, and address::to_string, which can fail. -/
structure AddressText where
  fromString : String → Option (Protocol × ℕ)
  toString : Protocol → ℕ → Option String

/-- The enumeration fct_lookup_protocol. -/
inductive LookupProtocol where
  | v4
  | v6
  | any
  deriving DecidableEq, Repr

/-- A query to the resolver. Without a protocol it asks for the addresses of both. -/
structure ResolverQuery where
  protocol : Option Protocol
  host : String
  service : String
  numericService : Bool
  addressConfigured : Bool
  deriving DecidableEq, Repr

/-- The handler is called without an error before fct_async_resolve returns, or an
operation is started that will call it. -/
inductive ResolveStart where
  | handled (endpointIterator : List Endpoint)
  | started (query : ResolverQuery)
  deriving DecidableEq, Repr

/-- The overload without a protocol passes that for any. -/
def fctAsyncResolve (P : AddressText) (host : String) (port : UInt16)
    (protocol : LookupProtocol) : ResolveStart :=
  match P.fromString host with
  | some (family, address) =>
    if (protocol = .v4 ∧ family = .v4) ∨ (protocol = .v6 ∧ family = .v6) ∨ protocol = .any then
      .handled [⟨family, address, port.toNat⟩]
    else .handled []
  | none =>
    .started
      { protocol := match protocol with
          | .any => none
          | .v4 => some .v4
          | .v6 => some .v6
        host := host
        service := toString port
        numericService := true
        addressConfigured := true }

/-- The resolver is represented by its pending query. -/
structure IpLookup where
  resolver : Option ResolverQuery
  result : List Endpoint
  next : String
  lookupComplete : Bool
  deriving DecidableEq, Repr

namespace IpLookup

def new : IpLookup := ⟨none, [], "", false⟩

def loadNext (P : AddressText) (l : IpLookup) : IpLookup :=
  match l.result with
  | endpoint :: rest =>
    match P.toString endpoint.protocol endpoint.address with
    | none => { l with result := [], next := "" }
    | some ip => { l with result := rest, next := ip }
  | [] => { l with next := "" }

def handleResolve (P : AddressText) (l : IpLookup) (error : Option String)
    (endpointIterator : List Endpoint) : IpLookup :=
  let l := { l with lookupComplete := true }
  match error with
  | none => loadNext P { l with result := endpointIterator }
  | some _ => l

def ready (l : IpLookup) : Bool := l.lookupComplete

def hasNext (l : IpLookup) : Bool := !l.next.isEmpty

def nextResult (P : AddressText) (l : IpLookup) : String × IpLookup := (l.next, loadNext P l)

def lookup (P : AddressText) (host : String) (protocol : LookupProtocol) : IpLookup :=
  match fctAsyncResolve P host 0 protocol with
  | .handled endpointIterator => handleResolve P new none endpointIterator
  | .started query => { new with resolver := some query }

end IpLookup

/-! ### Runs -/

/-- The value of a call of nextResult, with what ready and hasNext would have returned
just before it. -/
structure LookupResult where
  ready : Bool
  hasNext : Bool
  value : String
  deriving DecidableEq, Repr

structure LookupHistory where
  /-- What the handler was called with. -/
  outcome : Option (Option String × List Endpoint)
  results : List LookupResult
  deriving DecidableEq, Repr

structure LookupSession where
  lookup : IpLookup
  history : LookupHistory
  deriving DecidableEq, Repr

/-- The calls of the client, and the completion of the pending query. -/
inductive LookupEvent where
  | ready
  | hasNext
  | nextResult
  | handleResolve (error : Option String) (endpointIterator : List Endpoint)

/-- What the handler is called with. -/
def LookupEvent.outcome : LookupEvent → Option (Option String × List Endpoint)
  | .handleResolve error endpointIterator => some (error, endpointIterator)
  | _ => none

namespace LookupSession

/-- The lookup that IpLookup::lookup returns. -/
def create (P : AddressText) (host : String) (protocol : LookupProtocol) : LookupSession where
  lookup := .lookup P host protocol
  history :=
    { outcome := match fctAsyncResolve P host 0 protocol with
        | .handled endpointIterator => some (none, endpointIterator)
        | .started _ => none
      results := [] }

def nextResult (P : AddressText) (s : LookupSession) : LookupSession :=
  let (value, lookup) := s.lookup.nextResult P
  { s with
    lookup := lookup
    history.results := s.history.results ++ [⟨s.lookup.ready, s.lookup.hasNext, value⟩] }

/-- The query stops pending and the handler is called. -/
def handleResolve (P : AddressText) (s : LookupSession) (error : Option String)
    (endpointIterator : List Endpoint) : LookupSession :=
  { s with
    lookup := IpLookup.handleResolve P { s.lookup with resolver := none } error endpointIterator
    history.outcome := some (error, endpointIterator) }

def step (P : AddressText) (s : LookupSession) : LookupEvent → Option LookupSession
  | .ready => some s
  | .hasNext => some s
  | .nextResult => some (s.nextResult P)
  | .handleResolve error endpointIterator =>
    if s.lookup.resolver.isSome then some (s.handleResolve P error endpointIterator) else none

end LookupSession

end FaucetNetworking
