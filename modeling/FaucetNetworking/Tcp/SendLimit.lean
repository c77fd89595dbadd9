import FaucetNetworking.SendBufferRefinement
import FaucetNetworking.Tcp.Abort
import FaucetNetworking.Tcp.ReceiveStream

/-!
The size limit of the send buffer. Every write checks it against what is buffered so far,
and the first that fails ends in the error state, where the writes after it are dropped. So
the pieces of a text are stopped by the limit exactly if the whole text would be.
-/
namespace FaucetNetworking.TcpSession

open TcpSocket

/-- The socket takes writes, and its send buffer holds the queue. -/
structure Accepting (limit : ℕ) (q : CommitQueue UInt8) (s : TcpSession) : Prop where
  limit_eq : s.socket.sendbufferSizeLimit = limit
  allowed : allowWrite s = true
  represents : s.socket.sendbuffer.Represents q

/-- The socket after data has been written to it, in one piece or in several, when its send
buffer held the queue. -/
structure Wrote (limit : ℕ) (q : CommitQueue UInt8) (data : List UInt8) (t : TcpSession) :
    Prop where
  limit_eq : t.socket.sendbufferSizeLimit = limit
  allows : allowWrite t = !hasError t
  error_iff : hasError t = true ↔ limit < q.content.length + data.length
  content : hasError t = false → t.socket.sendbuffer.Represents (q.push data)
  totalSize_le : t.socket.sendbuffer.totalSize ≤ limit ∨
    t.socket.sendbuffer.totalSize = q.content.length

/-- The state between two pieces of a text; in front of the first one, the limit may be
exceeded already without an error. -/
inductive Progress (limit : ℕ) (q : CommitQueue UInt8) : List UInt8 → TcpSession → Prop
  | start {s : TcpSession} (h : Accepting limit q s) : Progress limit q [] s
  | wrote {data : List UInt8} {s : TcpSession} (h : Wrote limit q data s) :
      Progress limit q data s

variable {limit : ℕ} {q : CommitQueue UInt8} {s : TcpSession}

theorem hasError_of_allowed (h : allowWrite s = true) : hasError s = false := by
  unfold allowWrite at h
  unfold hasError
  cases hstate : s.socket.state with
  | closed =>
    rw [hstate] at h
    contradiction
  | connecting => rfl
  | connected => rfl

theorem sendbufferSizeLimit_enterClosed (s : TcpSession) :
    (TcpClosed.enterClosed s).socket.sendbufferSizeLimit = s.socket.sendbufferSizeLimit := by
  unfold TcpClosed.enterClosed
  split <;> rfl

theorem sendbufferSizeLimit_enterErrorState (s : TcpSession) (message : String) :
    (enterErrorState s message).socket.sendbufferSizeLimit = s.socket.sendbufferSizeLimit := by
  unfold enterErrorState TcpClosed.enterError abort
  rw [sendbufferSizeLimit_enterClosed]
  cases s.socket.state <;> cases s.socket.tcpClosed.hasError <;> rfl

/-- A write that would exceed the limit buffers nothing. -/
theorem Accepting.wrote_enterErrorState (h : Accepting limit q s) {data : List UInt8}
    (hdata : limit < q.content.length + data.length) (message : String) :
    Wrote limit q data (enterErrorState s message) := by
  have hcore := core_enterErrorState s message
  have hstate : (enterErrorState s message).socket.state = .closed :=
    congrArg Core.state hcore
  have hbuffer : (enterErrorState s message).socket.sendbuffer = s.socket.sendbuffer :=
    congrArg Core.sendbuffer hcore
  have herror : hasError (enterErrorState s message) = true := by
    unfold hasError
    rw [hstate]
    exact hasError_enterErrorState s message
  refine ⟨?_, ?_, ?_, ?_, ?_⟩
  · rw [sendbufferSizeLimit_enterErrorState, h.limit_eq]
  · rw [herror]
    unfold allowWrite
    rw [hstate]
    rfl
  · exact ⟨fun _ => hdata, fun _ => herror⟩
  · intro hfalse
    rw [herror] at hfalse
    contradiction
  · right
    rw [hbuffer, h.represents.totalSize_eq]

/-- One write. -/
theorem Accepting.write (h : Accepting limit q s) (data : List UInt8) :
    ∃ t, TcpSocket.write s data = .ok t ∧ Wrote limit q data t ∧
      t.socket.receiveBuffer = s.socket.receiveBuffer := by
  unfold TcpSocket.write
  rw [if_pos h.allowed, h.limit_eq, h.represents.totalSize_eq]
  by_cases hdata : limit < q.content.length + data.length
  · rw [if_pos hdata]
    exact ⟨_, rfl, h.wrote_enterErrorState hdata _, receiveBuffer_enterErrorState s _⟩
  · rw [if_neg hdata]
    obtain ⟨sendbuffer, hpush, hrepresents, -⟩ := SendBuffer.push_represents data h.represents
    rw [hpush]
    refine ⟨_, rfl, ⟨h.limit_eq, ?_, ?_, fun _ => hrepresents, ?_⟩, rfl⟩
    · have herror := hasError_of_allowed h.allowed
      change allowWrite s = !hasError s
      rw [h.allowed, herror]
      rfl
    · have herror := hasError_of_allowed h.allowed
      change hasError s = true ↔ _
      rw [herror]
      exact ⟨fun h => by contradiction, fun h => absurd h hdata⟩
    · left
      change sendbuffer.totalSize ≤ limit
      rw [hrepresents.totalSize_eq, CommitQueue.content_push, List.length_append]
      omega

/-- As long as there is no error, the next piece is written to the queue with the pieces
in front of it. -/
theorem Wrote.accepting {data : List UInt8} (h : Wrote limit q data s)
    (herror : hasError s = false) : Accepting limit (q.push data) s := by
  refine ⟨h.limit_eq, ?_, h.content herror⟩
  rw [h.allows, herror]
  rfl

theorem Wrote.write {front : List UInt8} (h : Wrote limit q front s) (data : List UInt8) :
    ∃ t, TcpSocket.write s data = .ok t ∧ Wrote limit q (front ++ data) t ∧
      t.socket.receiveBuffer = s.socket.receiveBuffer := by
  cases herror : hasError s with
  | true =>
    have hlimit := h.error_iff.mp herror
    refine ⟨s, ?_, ⟨h.limit_eq, h.allows, ⟨fun _ => ?_, fun _ => herror⟩, ?_, h.totalSize_le⟩,
      rfl⟩
    · unfold TcpSocket.write
      rw [if_neg (by rw [h.allows, herror]; decide)]
    · rw [List.length_append]
      omega
    · intro hfalse
      rw [herror] at hfalse
      contradiction
  | false =>
    have hfits : ¬ limit < q.content.length + front.length := by
      intro hlimit
      rw [h.error_iff.mpr hlimit] at herror
      contradiction
    obtain ⟨t, hwrite, hwrote, hbuffer⟩ := (h.accepting herror).write data
    obtain ⟨hlimit_eq, hallows, herror_iff, hcontent, htotal⟩ := hwrote
    rw [CommitQueue.content_push, List.length_append] at herror_iff htotal
    refine ⟨t, hwrite, ⟨hlimit_eq, hallows, ?_, ?_, ?_⟩, hbuffer⟩
    · rw [herror_iff, List.length_append, Nat.add_assoc]
    · intro hfalse
      have hpush : q.push (front ++ data) = (q.push front).push data := by
        ext1
        · simp only [CommitQueue.content_push, List.append_assoc]
        · rfl
      rw [hpush]
      exact hcontent hfalse
    · omega

theorem Progress.write {front : List UInt8} (h : Progress limit q front s)
    (data : List UInt8) :
    ∃ t, TcpSocket.write s data = .ok t ∧ Wrote limit q (front ++ data) t ∧
      t.socket.receiveBuffer = s.socket.receiveBuffer := by
  cases h with
  | start h => exact h.write data
  | wrote h => exact h.write data

/-- What is received has no part in it. -/
theorem Progress.setReceiveBuffer {data : List UInt8} (h : Progress limit q data s) (b : Buffer) :
    Progress limit q data { s with socket.receiveBuffer := b } := by
  cases h with
  | start h => exact .start ⟨h.limit_eq, h.allowed, h.represents⟩
  | wrote h =>
    exact .wrote ⟨h.limit_eq, h.allows, h.error_iff, h.content, h.totalSize_le⟩

end FaucetNetworking.TcpSession
