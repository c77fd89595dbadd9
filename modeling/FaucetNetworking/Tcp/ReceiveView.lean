import FaucetNetworking.Tcp.Run
import Mathlib.Tactic.ByContra

/-!
The receiving direction of a TCP session, seen without the rest. The bytes that
have arrived are those delivered to the client, those in the filled part of the
partial receive buffer and those not read yet, in this order. A pending
async_read owns the end of the partial receive buffer, and no other read is
active meanwhile.
-/
namespace FaucetNetworking

structure ReceiveView where
  state : StateId
  asyncReceiveInProgress : Bool
  partialReceiveBuffer : List ReceiveCell
  inbox : List UInt8
  receives : List AsyncRead
  arrived : List UInt8
  delivered : List ReceiveCell
  readOverlap : Bool

namespace ReceiveView

def close (v : ReceiveView) : ReceiveView := { v with state := .closed }

def KeptOrClosed (v w : ReceiveView) : Prop := w = v ∨ w = v.close

theorem KeptOrClosed.receives {v w : ReceiveView} (h : v.KeptOrClosed w) :
    w.receives = v.receives := by
  rcases h with rfl | rfl <;> rfl

theorem KeptOrClosed.delivered {v w : ReceiveView} (h : v.KeptOrClosed w) :
    w.delivered = v.delivered := by
  rcases h with rfl | rfl <;> rfl

/-- How many cells at the front of the partial receive buffer have been filled. -/
def filled (v : ReceiveView) : ℕ :=
  match v.receives with
  | [] => v.partialReceiveBuffer.length
  | r :: _ => r.start + r.filled

/-- Delivered bytes, filled cells and unread bytes make up the stream. -/
def InOrder (v : ReceiveView) : Prop :=
  ∃ consumed : List UInt8, v.arrived = consumed ++ v.inbox ∧
    v.delivered ++ v.partialReceiveBuffer.take v.filled = consumed.map .received

structure Flow (v : ReceiveView) : Prop where
  flag : v.asyncReceiveInProgress = true ↔ v.receives ≠ []
  single : v.receives.length ≤ 1
  connecting : v.state = .connecting → v.receives = []
  placed : ∀ r ∈ v.receives, r.filled ≤ r.ammount ∧
    (v.state ≠ .closed → r.start + r.ammount = v.partialReceiveBuffer.length)
  in_order : v.state ≠ .closed → v.InOrder
  stream : v.delivered = (v.arrived.take v.delivered.length).map .received
  no_overlap : v.readOverlap = false

/-- What has been delivered is then the front of the stream. -/
theorem InOrder.delivered_eq {v : ReceiveView} (h : v.InOrder) :
    v.delivered = (v.arrived.take v.delivered.length).map .received := by
  obtain ⟨consumed, harrived, hcells⟩ := h
  have hlen := congrArg List.length hcells
  rw [List.length_append, List.length_map] at hlen
  have htake := congrArg (List.take v.delivered.length) hcells
  rw [List.take_left' rfl, ← List.map_take] at htake
  rw [harrived, List.take_append_of_le_length (by omega)]
  exact htake

variable {v : ReceiveView}

theorem filled_of_nil (h : v.receives = []) : v.filled = v.partialReceiveBuffer.length := by
  unfold filled
  rw [h]

theorem filled_of_singleton {r : AsyncRead} (h : v.receives = [r]) :
    v.filled = r.start + r.filled := by
  unfold filled
  rw [h]

namespace Flow

theorem close (h : v.Flow) : v.close.Flow where
  flag := h.flag
  single := h.single
  connecting := fun hstate => by contradiction
  placed := fun r hr => ⟨(h.placed r hr).1, fun hopen => absurd rfl hopen⟩
  in_order := fun hopen => absurd rfl hopen
  stream := h.stream
  no_overlap := h.no_overlap

/-- Becoming connected leaves the receiving direction alone. -/
theorem connect (h : v.Flow) (hstate : v.state = .connecting) :
    Flow { v with state := .connected } := by
  have hopen : v.state ≠ .closed := StateId.ne_closed_of_connecting hstate
  exact { h with
    connecting := fun hconnecting => by contradiction
    placed := fun r hr => ⟨(h.placed r hr).1, fun _ => (h.placed r hr).2 hopen⟩
    in_order := fun _ => h.in_order hopen }

theorem idle (h : v.Flow) (hflag : v.asyncReceiveInProgress = false) : v.receives = [] := by
  by_contra hne
  rw [h.flag.mpr hne] at hflag
  contradiction

theorem length_delivered_le (h : v.Flow) : v.delivered.length ≤ v.arrived.length := by
  have hlen := congrArg List.length h.stream
  rw [List.length_map, List.length_take] at hlen
  omega

/-- Without a pending read the invariant is about four lists. -/
theorem of_idle (hflag : v.asyncReceiveInProgress = false) (hreceives : v.receives = [])
    (consumed : List UInt8) (harrived : v.arrived = consumed ++ v.inbox)
    (hcells : v.delivered ++ v.partialReceiveBuffer = consumed.map .received)
    (hoverlap : v.readOverlap = false) : v.Flow := by
  have horder : v.InOrder := by
    refine ⟨consumed, harrived, ?_⟩
    rw [filled_of_nil hreceives, List.take_length, hcells]
  exact {
    flag := by
      rw [hflag, hreceives]
      exact ⟨fun h => by contradiction, fun hne => absurd rfl hne⟩
    single := by
      rw [hreceives]
      exact Nat.zero_le 1
    connecting := fun _ => hreceives
    placed := by
      intro r hr
      rw [hreceives] at hr
      exact absurd hr List.not_mem_nil
    in_order := fun _ => horder
    stream := horder.delivered_eq
    no_overlap := hoverlap }

theorem cells_of_idle (h : v.Flow) (hopen : v.state ≠ .closed)
    (hflag : v.asyncReceiveInProgress = false) :
    ∃ consumed : List UInt8, v.arrived = consumed ++ v.inbox ∧
      v.delivered ++ v.partialReceiveBuffer = consumed.map .received := by
  obtain ⟨consumed, harrived, hcells⟩ := h.in_order hopen
  rw [filled_of_nil (h.idle hflag), List.take_length] at hcells
  exact ⟨consumed, harrived, hcells⟩

theorem keptOrClosed {w : ReceiveView} (h : v.Flow) (hstep : v.KeptOrClosed w) : w.Flow := by
  rcases hstep with rfl | rfl
  · exact h
  · exact h.close

end Flow

/-! ### Reading -/

/-- Bytes that have arrived are read to the end of the partial receive buffer. -/
def fetch (v : ReceiveView) (count : ℕ) : ReceiveView :=
  { v with
    partialReceiveBuffer := v.partialReceiveBuffer ++ (v.inbox.take count).map .received
    inbox := v.inbox.drop count }

def deliver (v : ReceiveView) (ammount : ℕ) : ReceiveView :=
  { v with
    partialReceiveBuffer := v.partialReceiveBuffer.drop ammount
    delivered := v.delivered ++ v.partialReceiveBuffer.take ammount }

def startRead (v : ReceiveView) (ammount : ℕ) : ReceiveView :=
  { v with
    asyncReceiveInProgress := true
    partialReceiveBuffer := v.partialReceiveBuffer ++ List.replicate ammount .placeholder
    receives := v.receives ++ [⟨v.partialReceiveBuffer.length, ammount, 0⟩]
    readOverlap := v.readOverlap || !v.receives.isEmpty }

def finishRead (v : ReceiveView) (index : ℕ) : ReceiveView :=
  { v with asyncReceiveInProgress := false, receives := v.receives.eraseIdx index }

/-- Bytes that have arrived take the places of the next placeholders. -/
def progress (v : ReceiveView) (index count : ℕ) (r : AsyncRead) : ReceiveView :=
  { v with
    partialReceiveBuffer := v.partialReceiveBuffer.take (r.start + r.filled) ++
      (v.inbox.take count).map .received ++
      v.partialReceiveBuffer.drop (r.start + r.filled + count)
    inbox := v.inbox.drop count
    receives := v.receives.set index { r with filled := r.filled + count } }

def arrive (v : ReceiveView) (bytes : List UInt8) : ReceiveView :=
  { v with inbox := v.inbox ++ bytes, arrived := v.arrived ++ bytes }

namespace Flow

theorem fetch (h : v.Flow) (hopen : v.state ≠ .closed) (hflag : v.asyncReceiveInProgress = false)
    (count : ℕ) : (v.fetch count).Flow := by
  obtain ⟨consumed, harrived, hcells⟩ := h.cells_of_idle hopen hflag
  refine of_idle (v := v.fetch count) hflag (h.idle hflag) (consumed ++ v.inbox.take count)
    ?_ ?_ h.no_overlap
  · change v.arrived = consumed ++ v.inbox.take count ++ v.inbox.drop count
    rw [List.append_assoc, List.take_append_drop]
    exact harrived
  · change v.delivered ++ (v.partialReceiveBuffer ++ (v.inbox.take count).map .received) = _
    rw [← List.append_assoc, hcells, List.map_append]

theorem deliver (h : v.Flow) (hopen : v.state ≠ .closed)
    (hflag : v.asyncReceiveInProgress = false) (ammount : ℕ) : (v.deliver ammount).Flow := by
  obtain ⟨consumed, harrived, hcells⟩ := h.cells_of_idle hopen hflag
  refine of_idle (v := v.deliver ammount) hflag (h.idle hflag) consumed harrived ?_ h.no_overlap
  change v.delivered ++ v.partialReceiveBuffer.take ammount ++
    v.partialReceiveBuffer.drop ammount = _
  rw [List.append_assoc, List.take_append_drop]
  exact hcells

theorem startRead (h : v.Flow) (hstate : v.state = .connected)
    (hflag : v.asyncReceiveInProgress = false) (ammount : ℕ) : (v.startRead ammount).Flow := by
  have hopen : v.state ≠ .closed := StateId.ne_closed_of_connected hstate
  have hidle := h.idle hflag
  have hreceives : (v.startRead ammount).receives =
      [⟨v.partialReceiveBuffer.length, ammount, 0⟩] := by
    change v.receives ++ _ = _
    rw [hidle, List.nil_append]
  obtain ⟨consumed, harrived, hcells⟩ := h.cells_of_idle hopen hflag
  have horder : (v.startRead ammount).InOrder := by
    refine ⟨consumed, harrived, ?_⟩
    rw [filled_of_singleton hreceives]
    change v.delivered ++ (v.partialReceiveBuffer ++ _).take v.partialReceiveBuffer.length = _
    rw [List.take_left' rfl, hcells]
  exact {
    flag := by
      rw [hreceives]
      exact ⟨fun _ => List.cons_ne_nil _ _, fun _ => rfl⟩
    single := by
      rw [hreceives]
      exact Nat.le_refl 1
    connecting := fun hconnecting => by
      change v.state = .connecting at hconnecting
      rw [hstate] at hconnecting
      contradiction
    placed := by
      intro r hr
      rw [hreceives, List.mem_singleton] at hr
      subst hr
      refine ⟨Nat.zero_le _, fun _ => ?_⟩
      change _ = (v.partialReceiveBuffer ++ List.replicate ammount _).length
      rw [List.length_append, List.length_replicate]
    in_order := fun _ => horder
    stream := h.stream
    no_overlap := by
      change (v.readOverlap || !v.receives.isEmpty) = false
      rw [hidle, h.no_overlap]
      rfl }

/-- The only pending read is the one that completes. -/
theorem eraseIdx_receives (h : v.Flow) {index : ℕ} {r : AsyncRead}
    (hindex : v.receives[index]? = some r) :
    index = 0 ∧ v.receives = [r] ∧ v.receives.eraseIdx index = [] := by
  obtain ⟨hlt, -⟩ := List.getElem?_eq_some_iff.mp hindex
  have hsingle := h.single
  have hzero : index = 0 := by omega
  obtain ⟨only, honly⟩ := List.length_eq_one_iff.mp (show v.receives.length = 1 by omega)
  subst hzero
  rw [honly] at hindex ⊢
  simp only [List.getElem?_cons_zero, Option.some.injEq] at hindex
  rw [hindex]
  exact ⟨rfl, rfl, rfl⟩

/-- A read that has filled its part, or that finds the socket closed. -/
theorem finishRead (h : v.Flow) {index : ℕ} {r : AsyncRead}
    (hindex : v.receives[index]? = some r)
    (hdone : v.state ≠ .closed → r.filled = r.ammount) : (v.finishRead index).Flow := by
  obtain ⟨-, honly, herase⟩ := h.eraseIdx_receives hindex
  have hreceives : (v.finishRead index).receives = [] := herase
  exact {
    flag := by
      rw [hreceives]
      exact ⟨fun hflag => by contradiction, fun hne => absurd rfl hne⟩
    single := by
      rw [hreceives]
      exact Nat.zero_le 1
    connecting := fun _ => hreceives
    placed := by
      intro q hq
      rw [hreceives] at hq
      exact absurd hq List.not_mem_nil
    in_order := by
      intro hopen
      obtain ⟨consumed, harrived, hcells⟩ := h.in_order hopen
      refine ⟨consumed, harrived, ?_⟩
      have hplaced := (h.placed r (by rw [honly]; exact List.mem_singleton_self r)).2 hopen
      rw [filled_of_nil hreceives]
      rw [filled_of_singleton honly, hdone hopen, hplaced] at hcells
      exact hcells
    stream := h.stream
    no_overlap := h.no_overlap }

/-- The bytes that arrive take the place of as many cells. -/
theorem length_progress {index count : ℕ} {r : AsyncRead} (hinbox : count ≤ v.inbox.length)
    (hplaced : r.start + r.filled + count ≤ v.partialReceiveBuffer.length) :
    (v.progress index count r).partialReceiveBuffer.length = v.partialReceiveBuffer.length := by
  simp only [ReceiveView.progress, List.length_append, List.length_take, List.length_map,
    List.length_drop]
  omega

theorem take_progress {index count : ℕ} {r : AsyncRead} (hinbox : count ≤ v.inbox.length)
    (hplaced : r.start + r.filled + count ≤ v.partialReceiveBuffer.length) :
    (v.progress index count r).partialReceiveBuffer.take (r.start + (r.filled + count)) =
      v.partialReceiveBuffer.take (r.start + r.filled) ++
        (v.inbox.take count).map .received := by
  apply List.take_left'
  simp only [List.length_append, List.length_take, List.length_map]
  omega

theorem progress (h : v.Flow) {index count : ℕ} {r : AsyncRead}
    (hindex : v.receives[index]? = some r) (hroom : r.filled + count ≤ r.ammount)
    (hinbox : count ≤ v.inbox.length) : (v.progress index count r).Flow := by
  obtain ⟨hzero, honly, -⟩ := h.eraseIdx_receives hindex
  have hreceives : (v.progress index count r).receives =
      [{ r with filled := r.filled + count }] := by
    change v.receives.set index _ = _
    rw [honly, hzero]
    rfl
  have hmem : r ∈ v.receives := by
    rw [honly]
    exact List.mem_singleton_self r
  have hplaced : v.state ≠ .closed →
      r.start + r.filled + count ≤ v.partialReceiveBuffer.length := by
    intro hopen
    have hend := (h.placed r hmem).2 hopen
    omega
  exact {
    flag := by
      rw [hreceives]
      refine ⟨fun _ => List.cons_ne_nil _ _, fun _ => h.flag.mpr ?_⟩
      exact List.ne_nil_of_mem hmem
    single := by
      rw [hreceives]
      exact Nat.le_refl 1
    connecting := fun hconnecting => by
      have hnil := h.connecting hconnecting
      rw [honly] at hnil
      contradiction
    placed := by
      intro q hq
      rw [hreceives, List.mem_singleton] at hq
      subst hq
      refine ⟨hroom, fun hopen => ?_⟩
      rw [length_progress hinbox (hplaced hopen)]
      exact (h.placed r hmem).2 hopen
    in_order := by
      intro hopen
      obtain ⟨consumed, harrived, hcells⟩ := h.in_order hopen
      rw [filled_of_singleton honly] at hcells
      refine ⟨consumed ++ v.inbox.take count, ?_, ?_⟩
      · change v.arrived = consumed ++ v.inbox.take count ++ v.inbox.drop count
        rw [List.append_assoc, List.take_append_drop]
        exact harrived
      · rw [filled_of_singleton hreceives]
        simp only [take_progress hinbox (hplaced hopen)]
        change v.delivered ++ _ = _
        rw [← List.append_assoc, hcells, List.map_append]
    stream := h.stream
    no_overlap := h.no_overlap }

theorem arrive (h : v.Flow) (bytes : List UInt8) : (v.arrive bytes).Flow := by
  have hle := h.length_delivered_le
  exact { h with
    in_order := by
      intro hopen
      obtain ⟨consumed, harrived, hcells⟩ := h.in_order hopen
      refine ⟨consumed, ?_, hcells⟩
      change v.arrived ++ bytes = consumed ++ (v.inbox ++ bytes)
      rw [harrived, List.append_assoc]
    stream := by
      change v.delivered = ((v.arrived ++ bytes).take v.delivered.length).map .received
      rw [List.take_append_of_le_length hle]
      exact h.stream }

end Flow

end ReceiveView

end FaucetNetworking
