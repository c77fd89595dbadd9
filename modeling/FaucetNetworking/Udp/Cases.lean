import FaucetNetworking.Udp.Run

/-!
What the mutually recursive functions of the send pipeline can do. A call of
asyncSend goes through the queue until an operation has been started or the queue
is empty; the recursion is described once, as a relation, for all invariants.
-/
namespace FaucetNetworking

namespace UdpSession

/-- The endpoints of a list that can be tried, in the order in which they are. -/
def usable (s : UdpSession) (results : List Endpoint) : List Endpoint :=
  (V4FirstIterator.v4First results).filter s.isOpen

/-- The endpoints that an iterator will still yield and that can be tried. -/
def usableRest (s : UdpSession) (endpoints : V4FirstIterator) : List Endpoint :=
  endpoints.remaining.filter s.isOpen

theorem usableRest_new (s : UdpSession) (results : List Endpoint) :
    s.usableRest (.new results) = s.usable results := by
  unfold usableRest usable
  rw [V4FirstIterator.remaining_new]

/-- Which endpoint comes next depends on nothing but the sockets that are open. -/
theorem selectEndpoint_congr {s t : UdpSession} (h : t.isOpen = s.isOpen)
    (endpoints : V4FirstIterator) : t.selectEndpoint endpoints = s.selectEndpoint endpoints := by
  have hunfold : ∀ (t : UdpSession) (endpoints : V4FirstIterator),
      t.selectEndpoint endpoints =
        if !t.isOpen endpoints.next.1 && endpoints.next.2.hasNext then
          t.selectEndpoint endpoints.next.2 else endpoints.next := by
    intro t endpoints
    rw [selectEndpoint]
  induction endpoints using selectEndpoint.induct s with
  | case1 endpoints next hskip ih =>
    rw [hunfold, hunfold s, if_pos hskip, ← ih, h]
    exact if_pos hskip
  | case2 endpoints next hstop =>
    rw [hunfold, hunfold s, if_neg hstop, h]
    exact if_neg hstop

theorem nextAttempt_congr {s t : UdpSession} (h : t.isOpen = s.isOpen) (err : Option String)
    (endpoints : V4FirstIterator) : t.nextAttempt err endpoints = s.nextAttempt err endpoints := by
  unfold nextAttempt
  rw [selectEndpoint_congr h, h]

/-- The loop stops at the first endpoint that can be tried, or at the last endpoint. -/
theorem usableRest_selectEndpoint (s : UdpSession) (endpoints : V4FirstIterator)
    (hnext : endpoints.hasNext = true) :
    s.usableRest endpoints = if s.isOpen (s.selectEndpoint endpoints).1 then
      (s.selectEndpoint endpoints).1 :: s.usableRest (s.selectEndpoint endpoints).2 else [] := by
  induction endpoints using selectEndpoint.induct s with
  | case1 endpoints next hskip ih =>
    obtain ⟨hclosed, hmore⟩ := Bool.and_eq_true_iff.mp hskip
    have hskipped : s.usableRest endpoints = s.usableRest next.2 := by
      unfold usableRest
      rw [endpoints.remaining_eq_next hnext, List.filter_cons_of_neg (by simpa using hclosed)]
    rw [selectEndpoint, if_pos hskip, hskipped]
    exact ih hmore
  | case2 endpoints next hstop =>
    rw [selectEndpoint, if_neg hstop]
    change s.usableRest endpoints = if s.isOpen next.1 then next.1 :: s.usableRest next.2 else []
    unfold usableRest
    rw [endpoints.remaining_eq_next hnext]
    by_cases hopen : s.isOpen next.1 = true
    · rw [if_pos hopen, List.filter_cons_of_pos hopen]
    · have hlast : next.2.remaining = [] := by
        have hmore : ¬ next.2.hasNext = true := by
          intro hmore
          exact hstop (Bool.and_eq_true_iff.mpr ⟨by simpa using hopen, hmore⟩)
        exact next.2.remaining_of_not_hasNext (Bool.eq_false_iff.mpr hmore)
      change List.filter s.isOpen (next.1 :: next.2.remaining) = _
      rw [if_neg hopen, List.filter_cons_of_neg hopen, hlast]
      rfl

theorem nextAttempt_eq_some {s : UdpSession} {err : Option String}
    {endpoints rest : V4FirstIterator} {endpoint : Endpoint}
    (h : s.nextAttempt err endpoints = some (endpoint, rest)) :
    err ≠ none ∧ s.usableRest endpoints = endpoint :: s.usableRest rest := by
  unfold nextAttempt at h
  split at h
  · rename_i hcond
    obtain ⟨herr, hnext⟩ := Bool.and_eq_true_iff.mp hcond
    refine ⟨Option.isSome_iff_ne_none.mp herr, ?_⟩
    simp only at h
    split at h
    · rename_i hopen
      rw [s.usableRest_selectEndpoint endpoints hnext, if_pos hopen, Option.some.inj h]
    · contradiction
  · contradiction

/-- After an error the datagram is given up only when no endpoint can be tried. -/
theorem nextAttempt_eq_none {s : UdpSession} {message : String} {endpoints : V4FirstIterator}
    (h : s.nextAttempt (some message) endpoints = none) : s.usableRest endpoints = [] := by
  unfold nextAttempt at h
  by_cases hnext : endpoints.hasNext = true
  · rw [hnext, Option.isSome_some, if_pos (by rfl)] at h
    simp only at h
    split at h
    · contradiction
    · rename_i hclosed
      rw [s.usableRest_selectEndpoint endpoints hnext, if_neg hclosed]
  · unfold usableRest
    rw [endpoints.remaining_of_not_hasNext (Bool.eq_false_iff.mpr hnext)]
    rfl

/-- What asyncSend can do. A literal address without an open socket is skipped. -/
inductive Pumped (P : Platform) : UdpSession → UdpSession → Prop where
  | empty (s : UdpSession) : s.socket.sendqueue.queue.queue = [] → Pumped P s s
  | resolving (s : UdpSession) (item : QueueItem) (rest : List QueueItem) :
      s.socket.sendqueue.queue.queue = item :: rest → P.fromString item.remoteHost = none →
      Pumped P s (asyncResolve (beginSend s) item.buffer)
  | sending (s : UdpSession) (item : QueueItem) (rest : List QueueItem)
      (address : Protocol × ℕ) (endpoint : Endpoint) (endpoints : V4FirstIterator)
      (results : List Endpoint) :
      s.socket.sendqueue.queue.queue = item :: rest →
      P.fromString item.remoteHost = some address →
      results = [⟨address.1, address.2, item.remotePort⟩] →
      (noteResults (beginSend s) results).nextAttempt (some hostNotFound) (.new results) =
        some (endpoint, endpoints) →
      Pumped P s (asyncSendTo (noteResults (beginSend s) results) endpoint item.buffer endpoints)
  | skipped (s t : UdpSession) (item : QueueItem) (rest : List QueueItem)
      (address : Protocol × ℕ) (results : List Endpoint) :
      s.socket.sendqueue.queue.queue = item :: rest →
      P.fromString item.remoteHost = some address →
      results = [⟨address.1, address.2, item.remotePort⟩] →
      (noteResults (beginSend s) results).nextAttempt (some hostNotFound) (.new results) = none →
      Pumped P (endSend (noteResults (beginSend s) results)) t → Pumped P s t

/-- What handleSend can do. -/
inductive SendCase (P : Platform) (s : UdpSession) (err : Option String) (place : ℕ)
    (endpoints : V4FirstIterator) : UdpSession → Prop where
  | attempted (endpoint : Endpoint) (rest : V4FirstIterator) :
      s.nextAttempt err endpoints = some (endpoint, rest) →
      SendCase P s err place endpoints (asyncSendTo s endpoint place rest)
  | ended (t : UdpSession) : s.nextAttempt err endpoints = none → Pumped P (endSend s) t →
      SendCase P s err place endpoints t

theorem handleSend_case_of (P : Platform) (s : UdpSession) (err : Option String) (place : ℕ)
    (endpoints : V4FirstIterator)
    (hpump : Pumped P (endSend s) (asyncSend P (endSend s))) :
    SendCase P s err place endpoints (handleSend P s err place endpoints) := by
  rw [handleSend]
  cases hattempt : s.nextAttempt err endpoints with
  | some found => exact .attempted found.1 found.2 hattempt
  | none =>
    by_cases hempty : s.socket.sendqueue.isEmpty = true
    · have hqueue : (endSend s).socket.sendqueue.queue.queue = [] :=
        List.isEmpty_iff.mp hempty
      simp only [if_pos hempty]
      exact .ended _ hattempt (.empty _ hqueue)
    · simp only [if_neg hempty]
      exact .ended _ hattempt hpump

theorem asyncSend_pumped (P : Platform) (s : UdpSession) : Pumped P s (asyncSend P s) := by
  -- induction on the length of the queue, which every skipped datagram shortens
  induction hn : s.socket.sendqueue.queue.queue.length using Nat.strong_induction_on
    generalizing s with
  | _ n ih =>
    cases hqueue : s.socket.sendqueue.queue.queue with
    | nil =>
      rw [asyncSend]
      split
      · exact .empty s hqueue
      · rename_i item rest hcons
        rw [hqueue] at hcons
        contradiction
    | cons item rest =>
      have hbegun : (beginSend s).socket.sendqueue.queue.queue = rest := by
        have hpop := s.socket.sendqueue.queue_queue_pop
        rw [hqueue] at hpop
        exact hpop
      have hlt : rest.length < n := by
        rw [← hn, hqueue]
        exact Nat.lt_succ_self _
      rw [asyncSend]
      split
      · rename_i hnil
        rw [hqueue] at hnil
        contradiction
      · rename_i item' rest' hcons
        rw [hqueue] at hcons
        obtain ⟨rfl, rfl⟩ := List.cons.inj hcons
        cases haddress : P.fromString item.remoteHost with
        | none => exact .resolving s item rest hqueue haddress
        | some address =>
          simp only
          rw [handleResolve, Option.getD_none]
          have hcase := handleSend_case_of P
            (noteResults (beginSend s) [⟨address.1, address.2, item.remotePort⟩])
            (some hostNotFound) item.buffer (.new [⟨address.1, address.2, item.remotePort⟩])
            (ih rest.length hlt _ (congrArg List.length hbegun))
          revert hcase
          generalize handleSend P _ _ _ _ = t
          intro hcase
          cases hcase with
          | attempted endpoint endpoints hattempt =>
            exact .sending s item rest address endpoint endpoints _ hqueue haddress rfl hattempt
          | ended _ hnone hpump =>
            exact .skipped s t item rest address _ hqueue haddress rfl hnone hpump

theorem handleSend_case (P : Platform) (s : UdpSession) (err : Option String) (place : ℕ)
    (endpoints : V4FirstIterator) :
    SendCase P s err place endpoints (handleSend P s err place endpoints) :=
  handleSend_case_of P s err place endpoints (asyncSend_pumped P _)

end UdpSession

end FaucetNetworking
