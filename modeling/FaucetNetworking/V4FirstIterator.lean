import Mathlib.Data.Nat.Notation

/-!
Endpoints as a resolver returns them, and the iterator that goes through the
IPv4 ones first. A resolver iterator is the list of the entries that it has not
passed yet, so the end iterator is the empty list.
-/
namespace FaucetNetworking

inductive Protocol where
  | v4
  | v6
  deriving DecidableEq, Repr

structure Endpoint where
  protocol : Protocol
  address : ℕ
  port : ℕ
  deriving DecidableEq, Repr

/-- A default constructed endpoint, the IPv4 any address with port 0. -/
def Endpoint.any : Endpoint := ⟨.v4, 0, 0⟩

structure V4FirstIterator where
  v4Iterator : List Endpoint
  v6Iterator : List Endpoint
  deriving DecidableEq, Repr

namespace V4FirstIterator

/-- Advance until the entry is of the given protocol, or to the end. -/
def skipTo (protocol : Protocol) (iter : List Endpoint) : List Endpoint :=
  iter.dropWhile fun endpoint => endpoint.protocol != protocol

def new (iter : List Endpoint) : V4FirstIterator := ⟨skipTo .v4 iter, skipTo .v6 iter⟩

def next (it : V4FirstIterator) : Endpoint × V4FirstIterator :=
  match it.v4Iterator, it.v6Iterator with
  | endpoint :: rest, _ => (endpoint, { it with v4Iterator := skipTo .v4 rest })
  | [], endpoint :: rest => (endpoint, { it with v6Iterator := skipTo .v6 rest })
  | [], [] => (.any, it)

def hasNext (it : V4FirstIterator) : Bool := it.v4Iterator != [] || it.v6Iterator != []

/-! ### The order of the entries -/

def ofProtocol (protocol : Protocol) (entries : List Endpoint) : List Endpoint :=
  entries.filter fun endpoint => endpoint.protocol == protocol

/-- All IPv4 entries in their order, then all IPv6 entries in their order. -/
def v4First (entries : List Endpoint) : List Endpoint :=
  ofProtocol .v4 entries ++ ofProtocol .v6 entries

/-- What a cursor will still yield: its entry, whatever it is, and the later ones of
the protocol. -/
def yields (protocol : Protocol) : List Endpoint → List Endpoint
  | [] => []
  | endpoint :: rest => endpoint :: ofProtocol protocol rest

/-- The endpoints that next will return. -/
def remaining (it : V4FirstIterator) : List Endpoint :=
  yields .v4 it.v4Iterator ++ yields .v6 it.v6Iterator

theorem yields_cons (protocol : Protocol) (endpoint : Endpoint) (rest : List Endpoint) :
    yields protocol (endpoint :: rest) = endpoint :: ofProtocol protocol rest := rfl

theorem yields_skipTo (protocol : Protocol) (entries : List Endpoint) :
    yields protocol (skipTo protocol entries) = ofProtocol protocol entries := by
  induction entries with
  | nil => rfl
  | cons endpoint rest ih =>
    unfold skipTo ofProtocol
    by_cases h : endpoint.protocol = protocol
    · rw [List.dropWhile_cons_of_neg (by simp [h]), List.filter_cons_of_pos (by simp [h])]
      rfl
    · rw [List.dropWhile_cons_of_pos (by simp [h]), List.filter_cons_of_neg (by simp [h])]
      exact ih

theorem remaining_new (entries : List Endpoint) : (new entries).remaining = v4First entries := by
  unfold remaining new v4First
  rw [yields_skipTo, yields_skipTo]

theorem hasNext_iff (it : V4FirstIterator) : it.hasNext = true ↔ it.remaining ≠ [] := by
  obtain ⟨v4, v6⟩ := it
  cases v4 <;> cases v6 <;> simp [hasNext, remaining, yields]

theorem remaining_of_not_hasNext (it : V4FirstIterator) (h : it.hasNext = false) :
    it.remaining = [] := by
  cases hremaining : it.remaining with
  | nil => rfl
  | cons endpoint rest =>
    have hnext := it.hasNext_iff.mpr (hremaining ▸ List.cons_ne_nil endpoint rest)
    rw [h] at hnext
    contradiction

/-- While entries remain, next returns the first of them and leaves the rest. -/
theorem remaining_eq_next (it : V4FirstIterator) (h : it.hasNext = true) :
    it.remaining = it.next.1 :: it.next.2.remaining := by
  obtain ⟨v4, v6⟩ := it
  cases v4 with
  | cons endpoint rest =>
    simp only [next, remaining, yields_skipTo, yields_cons, List.cons_append]
  | nil =>
    cases v6 with
    | cons endpoint rest =>
      simp only [next, remaining, yields_skipTo, yields_cons]
      rfl
    | nil => contradiction

theorem next_of_not_hasNext (it : V4FirstIterator) (h : it.hasNext = false) :
    it.next.2.hasNext = false := by
  obtain ⟨v4, v6⟩ := it
  cases v4 with
  | cons endpoint rest => contradiction
  | nil =>
    cases v6 with
    | cons endpoint rest => contradiction
    | nil => rfl

end V4FirstIterator

end FaucetNetworking
