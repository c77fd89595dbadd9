import FaucetNetworking.ClippedCast
import FaucetNetworking.Lib.Program
import FaucetNetworking.NearestValue
import FaucetNetworking.Tcp.Exchange

/-!
Scripts that use a TCP socket. A script is a program that calls functions of the library
with the handle of its socket; between two of its calls anything can happen to the socket.
For what a script writes and reads, a call has an effect that does not depend on that.
-/
namespace FaucetNetworking

open Ieee754 ByteDigits

/-- The functions that scripts call with the handle of a socket, which they have not
destroyed. The functions that write or read an integer have one for each type. A string, a
float and each piece of a buffer or of a decoded text are written as their bytes, and what
is not read as an integer is read as bytes. -/
inductive SocketCall where
  | socketHasError
  | socketSend
  | socketDestroy
  | socketDestroyAbortive
  | socketSendbufferLimit (sizeLimit : Value)
  | tcpReceive (size : Value)
  | tcpReceiveAvailable
  | tcpEof
  | write (t : IntType) (value : Value)
  | writeBytes (bytes : List UInt8)
  | read (t : IntType)
  | readBytes (size : ℕ)

namespace SocketCall

abbrev Result : SocketCall → Type
  | .socketHasError | .tcpReceive _ | .tcpEof => Bool
  | .socketSend | .socketDestroy | .socketDestroyAbortive | .socketSendbufferLimit _ => Unit
  | .write _ _ | .writeBytes _ => Unit
  | .tcpReceiveAvailable => ℕ
  | .read _ => Value
  | .readBytes _ => List UInt8

end SocketCall

/-- What the calls into Asio return, and what is in a local variable before a value is
read into it. -/
structure Surroundings where
  receive : ReceiveCalls
  peek : PeekResult
  uninitialised : (n : ℕ) → Image n

/-- New objects have the byte order that is set for all of them, which no script changes. -/
def defaultLittleEndian : Bool := false

namespace IntType

/-- The bytes that writeIntValue writes for an integer. -/
def message (t : IntType) (n : t.Element) : List UInt8 :=
  (inByteOrder defaultLittleEndian (t.store n)).bytes

theorem length_message (t : IntType) (n : t.Element) : (t.message n).length = t.size :=
  (inByteOrder defaultLittleEndian (t.store n)).length_eq

theorem load_message (t : IntType) (n : t.Element) {image : Image t.size}
    (h : image.bytes = t.message n) : t.load (inByteOrder defaultLittleEndian image) = n := by
  rw [Image.ext h, inByteOrder_inByteOrder, t.load_store]

/-- As many bytes as an integer has are those of an integer. -/
theorem exists_message (t : IntType) {bytes : List UInt8} (h : bytes.length = t.size) :
    ∃ n, t.message n = bytes := by
  refine ⟨t.load (inByteOrder defaultLittleEndian ⟨bytes, h⟩), ?_⟩
  unfold message
  rw [t.store_load, inByteOrder_inByteOrder]

theorem message_injective (t : IntType) : Function.Injective t.message := by
  intro m n h
  rw [← t.load_message m rfl, ← t.load_message n rfl]
  exact congrArg _ (congrArg _ (Image.ext h))

end IntType

namespace SocketCall

def performReceive (s : TcpSession) (o : Surroundings) : NumericCast → Option (Option Call × Bool)
  | .value n => some (some (.receive n.toNat o.receive), (TcpSocket.receive s n.toNat o.receive).1)
  | .badNumericCast => some (none, false)
  | .undefined => none

/-- The member function of the socket that a function calls, if any, and what it returns
to the script. A NaN cannot be converted. -/
def perform (s : TcpSession) (o : Surroundings) : (q : SocketCall) → Option (Option Call × q.Result)
  | .socketHasError => if s.handle = .held then some (none, TcpSocket.hasError s) else none
  | .socketSend => some (some .send, ())
  | .socketDestroy => some (some (.destroySocket false), ())
  | .socketDestroyAbortive => some (some (.destroySocket true), ())
  | .socketSendbufferLimit sizeLimit => (clippedSize sizeLimit).map fun intSize =>
      (some (.setSendbufferLimit (if intSize = 0 then TcpConnected.sizeMax else intSize)), ())
  | .tcpReceive size => performReceive s o (numericCast size)
  | .tcpReceiveAvailable =>
    some (some (.receiveAvailable o.receive), (TcpSocket.receiveAvailable s o.receive).1)
  | .tcpEof => some (some (.isEof o.peek), (TcpSocket.isEof s o.peek).1)
  | .write t value => (t.converted value).map fun n => (some (.write (t.message n)), ())
  | .writeBytes bytes => some (some (.write bytes), ())
  | .read t => some (some (.read t.size), (ReadWritable.readValue TcpSocket.read (.int t)
      ⟨defaultLittleEndian, s⟩ (o.uninitialised t.size)).1.value)
  | .readBytes size => some (some (.read size), (TcpSocket.read s size).1)

def ReceiveEffect : NumericCast → Exchange → Bool → Exchange → Prop
  | .value n, g, received, g' => ∃ bytes, bytes.length = (if received then n.toNat else 0) ∧
      g' = { g with received := g.received ++ bytes, unread := bytes }
  | .badNumericCast, g, received, g' => received = false ∧ g' = g
  | .undefined, _, _, _ => False

/-- What a call does to the exchange of the script with its socket. -/
def Effect : Program.Effect SocketCall Result Exchange
  | .socketHasError, g, failed, g' => g' = g ∧ (failed = false → g.ending ≠ .closed)
  | .socketSend, g, _, g' => g' = g
  | .socketDestroy, g, _, g' => g' = g
  | .socketDestroyAbortive, g, _, g' => g' = g
  | .socketSendbufferLimit _, g, _, g' => g' = g
  | .tcpReceive size, g, received, g' => ReceiveEffect (numericCast size) g received g'
  | .tcpReceiveAvailable, g, size, g' => ∃ bytes, bytes.length = size ∧
      g' = { g with received := g.received ++ bytes, unread := bytes }
  | .tcpEof, g, eof, g' => ∃ ending, g' = { g with ending := ending } ∧
      if eof then ending ≠ .ahead else ending = g.ending
  | .write t value, g, _, g' => ∃ n, t.converted value = some n ∧
      g' = { g with written := g.written ++ t.message n }
  | .writeBytes bytes, g, _, g' => g' = { g with written := g.written ++ bytes }
  | .read t, g, value, g' => g' = { g with unread := g.unread.drop t.size } ∧
      ∀ n, t.message n = g.unread.take t.size → value = .finite n.val
  | .readBytes size, g, bytes, g' => g' = { g with unread := g.unread.drop size } ∧
      bytes = g.unread.take size

variable {s t : TcpSession} {g : Exchange} {o : Surroundings}

/-- A value that was written is read as it was stored. -/
theorem read_value (h : s.Exchanges g) {it : IntType} {n : it.Element}
    (hunread : it.message n = g.unread.take it.size) (local' : Image it.size) :
    (ReadWritable.readValue TcpSocket.read (.int it) ⟨defaultLittleEndian, s⟩ local').1.value =
      .finite n.val := by
  have hbytes : (TcpSocket.read s it.size).1 = it.message n := by
    change (s.socket.receiveBuffer.read it.size).1 = _
    rw [h.positioned.read_eq, h.unread, hunread]
  have hread : TcpSocket.read s it.size =
      ((inByteOrder defaultLittleEndian (it.store n)).bytes, (TcpSocket.read s it.size).2) :=
    Prod.ext hbytes rfl
  rw [ReadWritable.readValue_of_read TcpSocket.read (.int it) ⟨defaultLittleEndian, s⟩ local'
    hread]
  change (it.toDouble (it.load (inByteOrder defaultLittleEndian
    (inByteOrder defaultLittleEndian (it.store n))))).value = _
  rw [inByteOrder_inByteOrder, it.load_store, it.value_toDouble]

/-- A call that does not reach the socket. -/
theorem effect_of_quiet {q : SocketCall} {r : q.Result} (h : s.Exchanges g)
    (hblamed : s.handle = .held → s.socket.state = .closed → TcpSocket.hasError s = true)
    (hperform : q.perform s o = some (none, r)) : q.Effect g r g := by
  cases q with
  | socketHasError =>
    change (if s.handle = .held then some (none, TcpSocket.hasError s) else none) = _ at hperform
    split at hperform
    · rename_i hheld
      obtain ⟨-, rfl⟩ := Prod.mk.inj (Option.some.inj hperform)
      refine ⟨rfl, fun hfailed hclosed => ?_⟩
      rw [hblamed hheld (h.closed hclosed)] at hfailed
      contradiction
    · contradiction
  | tcpReceive size =>
    change performReceive s o (numericCast size) = _ at hperform
    change ReceiveEffect (numericCast size) g r g
    cases hcast : numericCast size with
    | value n =>
      rw [hcast] at hperform
      have hnone := congrArg Prod.fst (Option.some.inj hperform)
      contradiction
    | badNumericCast =>
      rw [hcast] at hperform
      obtain ⟨-, rfl⟩ := Prod.mk.inj (Option.some.inj hperform)
      exact ⟨rfl, rfl⟩
    | undefined =>
      rw [hcast] at hperform
      contradiction
  | write it value | socketSendbufferLimit sizeLimit =>
    unfold perform at hperform
    obtain ⟨n, -, hn⟩ := Option.map_eq_some_iff.mp hperform
    have hnone := congrArg Prod.fst hn
    contradiction
  | socketSend | socketDestroy | socketDestroyAbortive | tcpReceiveAvailable | tcpEof
  | writeBytes bytes | read it | readBytes size =>
    have hnone := congrArg Prod.fst (Option.some.inj hperform)
    contradiction

/-! ### Calls that reach the socket -/

theorem after_of_writes {c : Call} (h : s.Exchanges g) (hc : ¬c.Reads)
    (hending : g.endingAfter s (.call c) t = g.ending)
    (hstep : TcpSession.step s (.call c) = some t) :
    g.after s (.call c) t = { g with written := g.written ++ TcpSession.written (.call c) } := by
  have hdelivered : (Event.call c).deliveredBytes t = [] := by
    cases c with
    | receive ammount calls | receiveAvailable calls => exact absurd trivial hc
    | _ => rfl
  have hbuffer := TcpSession.receiveBuffer_step (e := .call c) hc hstep
  unfold Exchange.after
  rw [hbuffer, h.unread, hdelivered, hending, List.append_nil]

/-- The state after a call that returns, before the destructor may run. -/
theorem exists_perform {c : Call} (hstep : TcpSession.step s (.call c) = some t) :
    c.Enabled s ∧ ∃ u, c.perform s = .ok u ∧ t = u.reap :=
  (TcpSession.step_eq_some_iff s t _).mp hstep

theorem after_of_receives {e : Event} {u : TcpSession} {bytes : List UInt8}
    (hbuffer : u.socket.receiveBuffer = ⟨bytes, 0⟩) (hwritten : TcpSession.written e = [])
    (hdelivered : e.deliveredBytes u.reap = u.reap.socket.receiveBuffer.data)
    (hending : g.endingAfter s e u.reap = g.ending) :
    g.after s e u.reap = { g with received := g.received ++ bytes, unread := bytes } := by
  unfold Exchange.after
  rw [hwritten, hdelivered, hending, TcpSession.receiveBuffer_reap, hbuffer, List.append_nil]
  rfl

theorem effect_receive {n : ℕ} {calls : ReceiveCalls} (h : s.Exchanges g)
    (hstep : TcpSession.step s (.call (.receive n calls)) = some t) :
    ∃ bytes, bytes.length = (if (TcpSocket.receive s n calls).1 then n else 0) ∧
      g.after s (.call (.receive n calls)) t =
        { g with received := g.received ++ bytes, unread := bytes } := by
  obtain ⟨-, u, hperform, rfl⟩ := exists_perform hstep
  obtain rfl := Outcome.ok.inj hperform
  obtain ⟨bytes, hreceives, hlength⟩ := TcpSession.receives_receive h.flow n calls
  exact ⟨bytes, hlength, after_of_receives hreceives.buffer rfl rfl rfl⟩

theorem effect_receiveAvailable {calls : ReceiveCalls} (h : s.Exchanges g)
    (hstep : TcpSession.step s (.call (.receiveAvailable calls)) = some t) :
    ∃ bytes, bytes.length = (TcpSocket.receiveAvailable s calls).1 ∧
      g.after s (.call (.receiveAvailable calls)) t =
        { g with received := g.received ++ bytes, unread := bytes } := by
  obtain ⟨-, u, hperform, rfl⟩ := exists_perform hstep
  obtain rfl := Outcome.ok.inj hperform
  obtain ⟨bytes, hreceives⟩ := TcpSession.receives_receiveAvailable h.flow calls
  refine ⟨bytes, ?_, after_of_receives hreceives.buffer rfl rfl rfl⟩
  exact (congrArg Buffer.size hreceives.buffer).symm

theorem effect_isEof {peek : PeekResult} (h : s.Exchanges g)
    (hstep : TcpSession.step s (.call (.isEof peek)) = some t) :
    ∃ ending, g.after s (.call (.isEof peek)) t = { g with ending := ending } ∧
      if (TcpSocket.isEof s peek).1 then ending ≠ .ahead else ending = g.ending := by
  refine ⟨g.endingAfter s (.call (.isEof peek)) t, ?_, ?_⟩
  · unfold Exchange.after
    rw [TcpSession.receiveBuffer_step id hstep, h.unread]
    change Exchange.mk (g.written ++ []) (g.received ++ []) g.unread _ = _
    rw [List.append_nil, List.append_nil]
  · change if _ then (if _ then _ else g.ending) ≠ _ else (if _ then _ else g.ending) = _
    split
    · cases t.socket.state <;> exact fun hahead => Ending.noConfusion hahead
    · rfl

theorem effect_read {size : ℕ} (h : s.Exchanges g)
    (hstep : TcpSession.step s (.call (.read size)) = some t) :
    g.after s (.call (.read size)) t = { g with unread := g.unread.drop size } := by
  obtain ⟨-, u, hperform, rfl⟩ := exists_perform hstep
  obtain rfl := Outcome.ok.inj hperform
  have hunread : (TcpSocket.read s size).2.socket.receiveBuffer.unread =
      g.unread.drop size := by
    change (s.socket.receiveBuffer.read size).2.unread = _
    rw [h.positioned.read_eq, Buffer.unread_skip, h.unread]
    rcases Nat.le_total size g.unread.length with hle | hle
    · rw [Nat.min_eq_left hle]
    · rw [Nat.min_eq_right hle, List.drop_length, List.drop_eq_nil_of_le hle]
  unfold Exchange.after
  rw [TcpSession.receiveBuffer_reap, hunread]
  change Exchange.mk (g.written ++ []) (g.received ++ []) _ _ = _
  rw [List.append_nil, List.append_nil]
  rfl

theorem call_inj {α : Type} {c d : Call} {r r' : α} (h : some (some d, r') = some (some c, r)) :
    d = c ∧ r' = r := by
  obtain ⟨hcall, hresult⟩ := Prod.mk.inj (Option.some.inj h)
  exact ⟨Option.some.inj hcall, hresult⟩

/-- What a call of the socket does to the exchange. -/
theorem effect_of_call {q : SocketCall} {r : q.Result} {c : Call} (h : s.Exchanges g)
    (hperform : q.perform s o = some (some c, r))
    (hstep : TcpSession.step s (.call c) = some t) : q.Effect g r (g.after s (.call c) t) := by
  cases q with
  | socketHasError =>
    change (if s.handle = .held then some (none, TcpSocket.hasError s) else none) = _ at hperform
    split at hperform
    · have hsome := congrArg Prod.fst (Option.some.inj hperform)
      contradiction
    · contradiction
  | socketSend | socketDestroy | socketDestroyAbortive =>
    obtain ⟨rfl, rfl⟩ := call_inj hperform
    have hafter := after_of_writes h id rfl hstep
    exact hafter.trans (congrArg (Exchange.mk · g.received g.unread g.ending)
      (List.append_nil g.written))
  | socketSendbufferLimit sizeLimit =>
    obtain ⟨n, -, heq⟩ := Option.map_eq_some_iff.mp hperform
    obtain ⟨rfl, rfl⟩ := call_inj (congrArg some heq)
    have hafter := after_of_writes h id rfl hstep
    exact hafter.trans (congrArg (Exchange.mk · g.received g.unread g.ending)
      (List.append_nil g.written))
  | writeBytes bytes =>
    obtain ⟨rfl, rfl⟩ := call_inj hperform
    exact after_of_writes h id rfl hstep
  | write it value =>
    obtain ⟨n, hn, heq⟩ := Option.map_eq_some_iff.mp hperform
    obtain ⟨rfl, rfl⟩ := call_inj (congrArg some heq)
    exact ⟨n, hn, after_of_writes h id rfl hstep⟩
  | tcpReceive size =>
    change performReceive s o (numericCast size) = _ at hperform
    change ReceiveEffect (numericCast size) g r _
    cases hcast : numericCast size with
    | value n =>
      rw [hcast] at hperform
      obtain ⟨rfl, rfl⟩ := call_inj hperform
      exact effect_receive h hstep
    | badNumericCast =>
      rw [hcast] at hperform
      have hsome := congrArg Prod.fst (Option.some.inj hperform)
      contradiction
    | undefined =>
      rw [hcast] at hperform
      contradiction
  | tcpReceiveAvailable =>
    obtain ⟨rfl, rfl⟩ := call_inj hperform
    exact effect_receiveAvailable h hstep
  | tcpEof =>
    obtain ⟨rfl, rfl⟩ := call_inj hperform
    exact effect_isEof h hstep
  | read it =>
    obtain ⟨rfl, rfl⟩ := call_inj hperform
    exact ⟨effect_read h hstep, fun n hn => read_value h hn _⟩
  | readBytes size =>
    obtain ⟨rfl, rfl⟩ := call_inj hperform
    refine ⟨effect_read h hstep, ?_⟩
    change (s.socket.receiveBuffer.read size).1 = _
    rw [h.positioned.read_eq, h.unread]

end SocketCall

end FaucetNetworking
