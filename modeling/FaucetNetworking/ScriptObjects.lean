import FaucetNetworking.Cursor
import FaucetNetworking.HandleMap
import FaucetNetworking.Lib.Replacement

/-!
The objects that a script reaches by their handles. An object has one place in the handle
map, so two handles with the same key are pointers to the same object. Functions that read
work on a buffer, or on the receive buffer of a socket.
-/
namespace FaucetNetworking

open Ieee754

/-- The derived classes of Socket. -/
inductive Socket where
  | tcp (s : TcpSession)
  | udp (s : UdpSession)

namespace Socket

def getReceiveBuffer : Socket → Buffer
  | .tcp s => s.socket.receiveBuffer
  | .udp s => s.buffer s.socket.receiveBuffer

/-- A change made through the reference that getReceiveBuffer returns. -/
def setReceiveBuffer : Socket → Buffer → Socket
  | .tcp s, b => .tcp { s with socket.receiveBuffer := b }
  | .udp s, b => .udp (s.setBuffer s.socket.receiveBuffer b)

end Socket

/-- An object of a class that is derived from ReadWritable. -/
inductive ReadWritable.Object where
  | buffer (b : Buffer)
  | socket (s : Socket)

namespace ReadWritable.Object

/-- The buffer that the object is read from. -/
def source : Object → Buffer
  | .buffer b => b
  | .socket s => s.getReceiveBuffer

def setSource : Object → Buffer → Object
  | .buffer _, b => .buffer b
  | .socket s, b => .socket (s.setReceiveBuffer b)

/-- The virtual function write; there is no result when it does not return. -/
def write : Object → List UInt8 → Option Object
  | .buffer b, data => some (.buffer (b.write data))
  | .socket (.tcp s), data => (TcpSocket.write s data).toOption.map fun s => .socket (.tcp s)
  | .socket (.udp s), data => some (.socket (.udp (s.write data)))

def read : Object → ℕ → List UInt8 × Object
  | .buffer b, size =>
    let (bytes, b) := b.read size
    (bytes, .buffer b)
  | .socket (.tcp s), size =>
    let (bytes, s) := TcpSocket.read s size
    (bytes, .socket (.tcp s))
  | .socket (.udp s), size =>
    let (bytes, s) := s.read size
    (bytes, .socket (.udp s))

def bytesRemaining (o : Object) : ℕ := o.source.bytesRemaining

/-- The read position is in the buffer, which for a UDP socket is one of those it owns. -/
def Sound : Object → Prop
  | .buffer b => b.Positioned
  | .socket (.tcp s) => s.socket.receiveBuffer.Positioned
  | .socket (.udp s) => s.socket.receiveBuffer < s.buffers.length ∧
      (s.buffer s.socket.receiveBuffer).Positioned

theorem Sound.positioned {o : Object} (h : o.Sound) : o.source.Positioned := by
  cases o with
  | buffer b => exact h
  | socket s =>
    cases s with
    | tcp s => exact h
    | udp s => exact h.2

/-- What is stored is what is found afterwards. -/
theorem Sound.source_setSource {o : Object} (h : o.Sound) (b : Buffer) :
    (o.setSource b).source = b := by
  cases o with
  | buffer d => rfl
  | socket s =>
    cases s with
    | tcp s => rfl
    | udp s =>
      change (s.buffers.set s.socket.receiveBuffer b).getD s.socket.receiveBuffer .new = b
      rw [List.getD_eq_getElem?_getD, List.getElem?_set_self h.1, Option.getD_some]

theorem Sound.setSource {o : Object} (h : o.Sound) {b : Buffer} (hb : b.Positioned) :
    (o.setSource b).Sound := by
  cases o with
  | buffer d => exact hb
  | socket s =>
    cases s with
    | tcp s => exact hb
    | udp s =>
      have hsource := h.source_setSource b
      refine ⟨?_, ?_⟩
      · change s.socket.receiveBuffer < (s.buffers.set s.socket.receiveBuffer b).length
        rw [List.length_set]
        exact h.1
      · change ((s.setBuffer s.socket.receiveBuffer b).buffer s.socket.receiveBuffer) = b
          at hsource
        change ((s.setBuffer s.socket.receiveBuffer b).buffer s.socket.receiveBuffer).Positioned
        rw [hsource]
        exact hb

theorem setSource_setSource (o : Object) (b c : Buffer) :
    (o.setSource b).setSource c = o.setSource c := by
  cases o with
  | buffer d => rfl
  | socket s =>
    cases s with
    | tcp s => rfl
    | udp s =>
      change Object.socket (.udp ((s.setBuffer _ b).setBuffer _ c)) = _
      unfold UdpSession.setBuffer
      simp only [List.set_set]
      rfl

theorem setSource_source (o : Object) : o.setSource o.source = o := by
  cases o with
  | buffer b => rfl
  | socket s =>
    cases s with
    | tcp s => rfl
    | udp s =>
      have hset : s.buffers.set s.socket.receiveBuffer (s.buffer s.socket.receiveBuffer) =
          s.buffers := by
        by_cases hplace : s.socket.receiveBuffer < s.buffers.length
        · rw [UdpSession.buffer, List.getD_eq_getElem?_getD, List.getElem?_eq_getElem hplace,
            Option.getD_some, List.set_getElem_self]
        · exact List.set_eq_of_length_le (Nat.not_lt.mp hplace)
      change Object.socket (.udp (s.setBuffer _ (s.buffer _))) = _
      rw [UdpSession.setBuffer, hset]

/-- All three classes read from the one buffer. -/
theorem read_eq (o : Object) (size : ℕ) :
    o.read size = ((o.source.read size).1, o.setSource (o.source.read size).2) := by
  cases o with
  | buffer b => rfl
  | socket s => cases s <;> rfl

end ReadWritable.Object

/-- An object that a handle is given to. Acceptors and lookups are neither read from nor
written to. -/
inductive Handled where
  | readWritable (o : ReadWritable.Object)
  | other

namespace Handled

def asReadWritable : Handled → Option ReadWritable.Object
  | .readWritable o => some o
  | .other => none

def asBuffer : Handled → Option Buffer
  | .readWritable (.buffer b) => some b
  | _ => none

def asSocket : Handled → Option Socket
  | .readWritable (.socket s) => some s
  | _ => none

end Handled

/-- The uint32 value that a double is a handle by. -/
def handleKey (handle : Datum binary64) : Option UInt32 :=
  match withHandle handle none some with
  | .ok key => key
  | _ => none

/-- What a handle leads to is determined by its key. -/
theorem withHandle_eq {σ : Type*} (handle : Datum binary64) (otherwise : σ) (f : UInt32 → σ) :
    withHandle handle otherwise f = .ok ((handleKey handle).elim otherwise f) := by
  by_cases hvalue : ∃ n : UInt32, handle.value = .finite n.toNat
  · obtain ⟨n, hn⟩ := hvalue
    have hkey : handleKey handle = some n := by
      unfold handleKey
      rw [withHandle_of_value hn]
    rw [withHandle_of_value hn, hkey]
    rfl
  · push Not at hvalue
    have hkey : handleKey handle = none := by
      unfold handleKey
      rw [withHandle_otherwise hvalue]
    rw [withHandle_otherwise hvalue, hkey]
    rfl

abbrev Handles := HandleMap Handled

namespace Handles

variable (handles : Handles) (handle : Datum binary64)

def object : Option Handled := (handleKey handle).bind fun key => handles.content.lookup key

/-- The function of the handle map that takes a double always returns. -/
theorem findDouble_eq {ρ : Type*} (cast : Handled → Option ρ) :
    handles.findDouble cast handle = .ok ((handles.object handle).bind cast) := by
  unfold HandleMap.findDouble object
  rw [withHandle_eq]
  cases handleKey handle <;> rfl

/-- A change made to an object through a pointer to it. -/
def setObject (o : Handled) : Handles :=
  match handleKey handle with
  | none => handles
  | some key => { handles with content := handles.content.replace key o }

/-- The object as one that is read from and written to. -/
def readWritable : Option ReadWritable.Object :=
  (handles.object handle).bind Handled.asReadWritable

def getBufferOrReceiveBuffer : Option Buffer :=
  match (handles.object handle).bind Handled.asBuffer with
  | some b => some b
  | none => ((handles.object handle).bind Handled.asSocket).map Socket.getReceiveBuffer

/-- A change made through the pointer that getBufferOrReceiveBuffer returns. -/
def setBuffer (b : Buffer) : Handles :=
  match handles.readWritable handle with
  | none => handles
  | some o => handles.setObject handle (.readWritable (o.setSource b))

/-- What the functions that write do with the object, after they have found the length of
the data. -/
def write (data : List UInt8) : Option Handles :=
  match handles.readWritable handle with
  | none => some handles
  | some o => (o.write data).map fun o => handles.setObject handle (.readWritable o)

/-- A read through a pointer to the object. -/
def read (size : ℕ) : List UInt8 × Handles :=
  match handles.readWritable handle with
  | none => ([], handles)
  | some o =>
    let (bytes, o) := o.read size
    (bytes, handles.setObject handle (.readWritable o))

def setReadpos (pos : ℕ) : Handles :=
  match handles.getBufferOrReceiveBuffer handle with
  | none => handles
  | some b => handles.setBuffer handle (b.setReadpos pos)

def Sound : Prop := ∀ handle o, handles.readWritable handle = some o → o.Sound

variable {handles handle}

theorem readWritable_eq_some_iff {o : ReadWritable.Object} :
    handles.readWritable handle = some o ↔ handles.object handle = some (.readWritable o) := by
  unfold readWritable
  cases handles.object handle with
  | none => simp
  | some found => cases found <;> simp [Handled.asReadWritable]

theorem getBufferOrReceiveBuffer_eq : handles.getBufferOrReceiveBuffer handle =
    (handles.readWritable handle).map ReadWritable.Object.source := by
  unfold getBufferOrReceiveBuffer readWritable
  cases handles.object handle with
  | none => rfl
  | some found =>
    cases found with
    | readWritable o => cases o <;> rfl
    | other => rfl

theorem getBufferOrReceiveBuffer_eq_some_iff {b : Buffer} :
    handles.getBufferOrReceiveBuffer handle = some b ↔
      ∃ o, handles.readWritable handle = some o ∧ o.source = b := by
  rw [getBufferOrReceiveBuffer_eq, Option.map_eq_some_iff]

theorem Sound.positioned (h : handles.Sound) {b : Buffer}
    (hb : handles.getBufferOrReceiveBuffer handle = some b) : b.Positioned := by
  obtain ⟨o, ho, rfl⟩ := getBufferOrReceiveBuffer_eq_some_iff.mp hb
  exact (h handle o ho).positioned

/-! ### Changing one object -/

theorem object_setObject {o : Handled} (ho : handles.object handle = some o) (o' : Handled)
    (other : Datum binary64) : (handles.setObject handle o').object other =
      if handleKey other = handleKey handle then some o' else handles.object other := by
  obtain ⟨key, hkey, hlookup⟩ := Option.bind_eq_some_iff.mp ho
  unfold object setObject
  rw [hkey]
  cases hother : handleKey other with
  | none =>
    rw [if_neg (Option.some_ne_none key).symm]
    rfl
  | some key' =>
    by_cases hsame : key' = key
    · have hmem : key ∈ handles.content :=
        AList.lookup_isSome.mp (Option.isSome_of_eq_some hlookup)
      rw [hsame, if_pos rfl]
      exact Replacement.lookup_replace_self o' hmem
    · rw [if_neg fun h => hsame (Option.some.inj h)]
      exact Replacement.lookup_replace_of_ne o' hsame

theorem setObject_setObject (handles : Handles) (handle : Datum binary64) (o o' : Handled) :
    (handles.setObject handle o).setObject handle o' = handles.setObject handle o' := by
  unfold setObject
  cases handleKey handle with
  | none => rfl
  | some key =>
    simp only
    rw [Replacement.replace_replace]

theorem setObject_self {o : Handled} (ho : handles.object handle = some o) :
    handles.setObject handle o = handles := by
  obtain ⟨key, hkey, hlookup⟩ := Option.bind_eq_some_iff.mp ho
  unfold setObject
  rw [hkey]
  simp only
  rw [Replacement.replace_eq_self hlookup]

theorem object_congr {other : Datum binary64} (h : handleKey other = handleKey handle) :
    handles.object other = handles.object handle := by
  unfold object
  rw [h]

theorem readWritable_setObject {o : Handled} (ho : handles.object handle = some o)
    (o' : ReadWritable.Object) (other : Datum binary64) :
    (handles.setObject handle (.readWritable o')).readWritable other =
      if handleKey other = handleKey handle then some o' else handles.readWritable other := by
  unfold readWritable
  rw [object_setObject ho]
  split <;> rfl

theorem setBuffer_eq {o : ReadWritable.Object} (ho : handles.readWritable handle = some o)
    (b : Buffer) :
    handles.setBuffer handle b = handles.setObject handle (.readWritable (o.setSource b)) := by
  unfold setBuffer
  rw [ho]

/-- Only the object of the handle is changed. -/
theorem object_setBuffer {o : ReadWritable.Object} (ho : handles.readWritable handle = some o)
    (b : Buffer) (other : Datum binary64) : (handles.setBuffer handle b).object other =
      if handleKey other = handleKey handle then some (.readWritable (o.setSource b))
      else handles.object other := by
  rw [setBuffer_eq ho, object_setObject (readWritable_eq_some_iff.mp ho)]

theorem readWritable_setBuffer {o : ReadWritable.Object}
    (ho : handles.readWritable handle = some o) (b : Buffer) :
    (handles.setBuffer handle b).readWritable handle = some (o.setSource b) := by
  rw [readWritable_eq_some_iff, object_setBuffer ho, if_pos rfl]

theorem readWritable_setBuffer_of_ne {o : ReadWritable.Object}
    (ho : handles.readWritable handle = some o) (b : Buffer) {other : Datum binary64}
    (hother : handleKey other ≠ handleKey handle) :
    (handles.setBuffer handle b).readWritable other = handles.readWritable other := by
  rw [setBuffer_eq ho, readWritable_setObject (readWritable_eq_some_iff.mp ho),
    if_neg hother]

theorem object_setBuffer_of_ne {o : ReadWritable.Object}
    (ho : handles.readWritable handle = some o) (b : Buffer) {other : Datum binary64}
    (hother : handleKey other ≠ handleKey handle) :
    (handles.setBuffer handle b).object other = handles.object other := by
  rw [object_setBuffer ho, if_neg hother]

theorem readWritable_congr {other : Datum binary64} (h : handleKey other = handleKey handle) :
    handles.readWritable other = handles.readWritable handle := by
  unfold readWritable
  rw [object_congr h]

@[simp] theorem nextHandle_setObject (handles : Handles) (handle : Datum binary64)
    (o : Handled) : (handles.setObject handle o).nextHandle = handles.nextHandle := by
  unfold setObject
  cases handleKey handle <;> rfl

@[simp] theorem nextHandle_setBuffer (handles : Handles) (handle : Datum binary64)
    (b : Buffer) : (handles.setBuffer handle b).nextHandle = handles.nextHandle := by
  unfold setBuffer
  cases handles.readWritable handle with
  | none => rfl
  | some o => exact nextHandle_setObject handles handle _

theorem setBuffer_setBuffer (handles : Handles) (handle : Datum binary64) (b c : Buffer) :
    (handles.setBuffer handle b).setBuffer handle c = handles.setBuffer handle c := by
  cases ho : handles.readWritable handle with
  | none =>
    have hsame : ∀ b, handles.setBuffer handle b = handles := by
      intro b
      unfold setBuffer
      rw [ho]
    rw [hsame, hsame]
  | some o =>
    rw [setBuffer_eq (readWritable_setBuffer ho b), setBuffer_eq ho, setBuffer_eq ho,
      setObject_setObject, ReadWritable.Object.setSource_setSource]

/-- A buffer that is put back unchanged leaves everything as it is. -/
theorem setBuffer_self {b : Buffer} (hb : handles.getBufferOrReceiveBuffer handle = some b) :
    handles.setBuffer handle b = handles := by
  obtain ⟨o, ho, rfl⟩ := getBufferOrReceiveBuffer_eq_some_iff.mp hb
  rw [setBuffer_eq ho, ReadWritable.Object.setSource_source,
    setObject_self (readWritable_eq_some_iff.mp ho)]

theorem Sound.getBuffer_setBuffer (h : handles.Sound) {b : Buffer}
    (hb : handles.getBufferOrReceiveBuffer handle = some b) (c : Buffer) :
    (handles.setBuffer handle c).getBufferOrReceiveBuffer handle = some c := by
  obtain ⟨o, ho, rfl⟩ := getBufferOrReceiveBuffer_eq_some_iff.mp hb
  rw [getBufferOrReceiveBuffer_eq, readWritable_setBuffer ho, Option.map_some,
    (h handle o ho).source_setSource]

theorem Sound.setBuffer (h : handles.Sound) {c : Buffer} (hc : c.Positioned) :
    (handles.setBuffer handle c).Sound := by
  intro other o ho
  cases hfound : handles.readWritable handle with
  | none =>
    unfold Handles.setBuffer at ho
    rw [hfound] at ho
    exact h other o ho
  | some found =>
    rw [readWritable_eq_some_iff, object_setBuffer hfound] at ho
    split at ho
    · obtain rfl := Handled.readWritable.inj (Option.some.inj ho)
      exact (h handle found hfound).setSource hc
    · exact h other o (readWritable_eq_some_iff.mpr ho)

theorem getBuffer_of_buffer {b : Buffer} (hb : handles.readWritable handle = some (.buffer b)) :
    handles.getBufferOrReceiveBuffer handle = some b :=
  getBufferOrReceiveBuffer_eq_some_iff.mpr ⟨_, hb, rfl⟩

theorem Sound.setObject (h : handles.Sound) {o o' : ReadWritable.Object}
    (ho : handles.readWritable handle = some o) (ho' : o'.Sound) :
    (handles.setObject handle (.readWritable o')).Sound := by
  intro other found hfound
  rw [readWritable_setObject (readWritable_eq_some_iff.mp ho)] at hfound
  split at hfound
  · obtain rfl := Option.some.inj hfound
    exact ho'
  · exact h other found hfound

/-- A change that is not made to what an object is read from is not seen by readers. -/
theorem getBuffer_setObject {o o' : ReadWritable.Object}
    (ho : handles.readWritable handle = some o) (hsource : o'.source = o.source)
    (other : Datum binary64) :
    (handles.setObject handle (.readWritable o')).getBufferOrReceiveBuffer other =
      handles.getBufferOrReceiveBuffer other := by
  rw [getBufferOrReceiveBuffer_eq, getBufferOrReceiveBuffer_eq,
    readWritable_setObject (readWritable_eq_some_iff.mp ho)]
  split
  · rename_i hkey
    rw [readWritable_congr hkey, ho, Option.map_some, Option.map_some, hsource]
  · rfl

/-- A read takes bytes from the front of the buffer that the object is read from. -/
theorem read_eq_of_getBuffer {b : Buffer}
    (hb : handles.getBufferOrReceiveBuffer handle = some b) (hpos : b.Positioned) {size : ℕ}
    (hsize : size ≤ b.unread.length) :
    handles.read handle size = (b.unread.take size, handles.setBuffer handle (b.skip size)) := by
  obtain ⟨o, ho, rfl⟩ := getBufferOrReceiveBuffer_eq_some_iff.mp hb
  unfold Handles.read
  rw [ho, setBuffer_eq ho]
  simp only
  rw [ReadWritable.Object.read_eq, hpos.read_eq, Nat.min_eq_left hsize]

theorem write_buffer {b : Buffer} (hb : handles.readWritable handle = some (.buffer b))
    (data : List UInt8) :
    handles.write handle data = some (handles.setBuffer handle (b.write data)) := by
  unfold Handles.write
  rw [hb, setBuffer_eq hb]
  rfl

/-- The handle map after one object has been created in it. -/
def ofObject (o : ReadWritable.Object) : Handles := ⟨2, AList.singleton 1 (.readWritable o)⟩

def ofBuffer (b : Buffer) : Handles := ofObject (.buffer b)

def firstHandle : Datum binary64 := Datum.ofInt binary64 1 (by decide)

theorem handleKey_firstHandle : handleKey firstHandle = some 1 := by
  have hvalue : firstHandle.value = .finite (1 : UInt32).toNat := Datum.value_ofInt binary64 _
  unfold handleKey
  rw [withHandle_of_value hvalue]

theorem object_ofObject (o : ReadWritable.Object) (other : Datum binary64) :
    (ofObject o).object other =
      if handleKey other = some 1 then some (.readWritable o) else none := by
  unfold object ofObject
  cases handleKey other with
  | none => rfl
  | some key =>
    by_cases hkey : key = 1
    · rw [hkey]
      rfl
    · rw [if_neg fun h => hkey (Option.some.inj h)]
      exact AList.lookup_eq_none.mpr fun hmem =>
        hkey (List.mem_singleton.mp (AList.mem_keys.mp hmem))

theorem readWritable_ofObject (o : ReadWritable.Object) :
    (ofObject o).readWritable firstHandle = some o := by
  rw [readWritable_eq_some_iff, object_ofObject, if_pos handleKey_firstHandle]

theorem getBuffer_ofBuffer (b : Buffer) :
    (ofBuffer b).getBufferOrReceiveBuffer firstHandle = some b :=
  getBuffer_of_buffer (readWritable_ofObject (.buffer b))

theorem sound_ofObject {o : ReadWritable.Object} (h : o.Sound) : (ofObject o).Sound := by
  intro other found hfound
  rw [readWritable_eq_some_iff, object_ofObject] at hfound
  split at hfound
  · obtain rfl := Handled.readWritable.inj (Option.some.inj hfound)
    exact h
  · cases hfound

theorem sound_ofBuffer {b : Buffer} (h : b.Positioned) : (ofBuffer b).Sound := sound_ofObject h

end Handles

end FaucetNetworking
