import FaucetNetworking.Lib.Occurrence
import FaucetNetworking.ScriptObjects

/-!
Reading up to a delimiter. The delimiter is searched for from the read position on; the
bytes in front of it are read as a string, and then the cursor is moved over the delimiter.
Lengths of strings and buffers are exact as doubles. What a function returns as a const
char pointer is here the whole string that the return buffer holds.
-/
namespace FaucetNetworking

open Ieee754 Occurrence

/-- The distance from the read position to the delimiter, or -1 if there is none. -/
def bytesBeforeDelimiter (buffer : Option Buffer) (delim : List UInt8) : ℤ :=
  match buffer with
  | none => -1
  | some b =>
    let toEnd := b.data.drop b.getReadpos
    let delimInBuf := search delim toEnd
    if delimInBuf ≠ toEnd.length then delimInBuf else -1

/-- What readDelimitedString does with the buffer that it has found. -/
def Buffer.readDelimitedString (b : Buffer) (delim : List UInt8) : List UInt8 × Buffer :=
  let length := bytesBeforeDelimiter (some b) delim
  if length ≥ 0 then
    let (result, b) := b.readString length.toNat
    (result, b.setReadpos (b.getReadpos + delim.length))
  else ([], b)

namespace Handles

def readDelimitedString (handles : Handles) (handle : Datum binary64) (delim : List UInt8) :
    List UInt8 × Handles :=
  match handles.getBufferOrReceiveBuffer handle with
  | none => ([], handles)
  | some b =>
    let (result, b) := b.readDelimitedString delim
    (result, handles.setBuffer handle b)

/-- Each field is followed by the delimiter. -/
def writeFields (handle : Datum binary64) (delim : List UInt8) :
    List (List UInt8) → Handles → Option Handles
  | [], handles => some handles
  | field :: fields, handles =>
    ((handles.write handle field).bind fun handles => handles.write handle delim).bind
      (writeFields handle delim fields)

def readFields (handle : Datum binary64) (delim : List UInt8) :
    ℕ → Handles → List (List UInt8) × Handles
  | 0, handles => ([], handles)
  | n + 1, handles =>
    let (field, handles) := handles.readDelimitedString handle delim
    let (fields, handles) := readFields handle delim n handles
    (field :: fields, handles)

end Handles

/-! ### One read -/

namespace Buffer

theorem bytesBeforeDelimiter_of_first {b : Buffer} {delim : List UInt8} (hdelim : delim ≠ [])
    {k : ℕ} (h : First delim b.unread k) : bytesBeforeDelimiter (some b) delim = k := by
  have hle := h.add_le hdelim
  have hpos := List.length_pos_iff.mpr hdelim
  have hsearch : search delim (b.data.drop b.readIndex) = k :=
    search_eq_of_first h (show k ≤ b.unread.length by omega)
  unfold bytesBeforeDelimiter Buffer.getReadpos
  simp only
  rw [hsearch, if_pos]
  change k ≠ b.unread.length
  omega

theorem bytesBeforeDelimiter_of_absent {b : Buffer} {delim : List UInt8}
    (h : ¬ delim <:+: b.unread) : bytesBeforeDelimiter (some b) delim = -1 := by
  have hsearch : search delim (b.data.drop b.readIndex) = (b.data.drop b.readIndex).length :=
    search_eq_length h
  unfold bytesBeforeDelimiter Buffer.getReadpos
  simp only
  rw [hsearch, if_neg (not_not.mpr rfl)]

/-- The bytes in front of the first delimiter are read, and the delimiter is skipped. -/
theorem Positioned.readDelimitedString_of_first {b : Buffer} (hpos : b.Positioned)
    {delim : List UInt8} (hdelim : delim ≠ []) {k : ℕ} (h : First delim b.unread k) :
    b.readDelimitedString delim = (b.unread.take k, b.skip (k + delim.length)) := by
  have hle := h.add_le hdelim
  have hskip : (b.skip k).Positioned := hpos.positioned_skip (by omega)
  unfold Buffer.readDelimitedString
  rw [bytesBeforeDelimiter_of_first hdelim h]
  simp only
  rw [if_pos (Int.natCast_nonneg k), Int.toNat_natCast, hpos.readString_eq,
    Nat.min_eq_left (by omega)]
  change (_, (b.skip k).setReadpos ((b.skip k).readIndex + delim.length)) = _
  rw [hskip.setReadpos_skip (by rw [unread_skip, List.length_drop]; omega), skip_skip]

theorem readDelimitedString_of_absent {b : Buffer} {delim : List UInt8}
    (h : ¬ delim <:+: b.unread) : b.readDelimitedString delim = ([], b) := by
  unfold Buffer.readDelimitedString
  rw [bytesBeforeDelimiter_of_absent h]
  rfl

end Buffer

namespace Handles

variable {handles : Handles} {handle : Datum binary64} {b : Buffer} {delim : List UInt8}

theorem readDelimitedString_of_first (hpos : b.Positioned)
    (hb : handles.getBufferOrReceiveBuffer handle = some b) (hdelim : delim ≠ []) {k : ℕ}
    (h : First delim b.unread k) : handles.readDelimitedString handle delim =
      (b.unread.take k, handles.setBuffer handle (b.skip (k + delim.length))) := by
  unfold Handles.readDelimitedString
  rw [hb]
  simp only
  rw [hpos.readDelimitedString_of_first hdelim h]

theorem readDelimitedString_of_absent
    (hb : handles.getBufferOrReceiveBuffer handle = some b) (h : ¬ delim <:+: b.unread) :
    handles.readDelimitedString handle delim = ([], handles) := by
  unfold Handles.readDelimitedString
  rw [hb]
  simp only
  rw [Buffer.readDelimitedString_of_absent h, setBuffer_self hb]

/-! ### Fields -/

/-- The text of some fields. -/
def framed (delim : List UInt8) (fields : List (List UInt8)) : List UInt8 :=
  fields.flatMap fun field => field ++ delim

/-- Writing the fields appends their text. -/
theorem writeFields_eq (hb : handles.readWritable handle = some (.buffer b))
    (fields : List (List UInt8)) : writeFields handle delim fields handles =
      some (handles.setBuffer handle (b.write (framed delim fields))) := by
  induction fields generalizing handles b with
  | nil =>
    have hsame : b.write (framed delim []) = b := by
      change (⟨b.data ++ [], b.readIndex⟩ : Buffer) = b
      rw [List.append_nil]
    rw [hsame, setBuffer_self (getBuffer_of_buffer hb)]
    rfl
  | cons field fields ih =>
    have hfield := readWritable_setBuffer hb (b.write field)
    have hdelim := readWritable_setBuffer hfield ((b.write field).write delim)
    have htext : ((b.write field).write delim).write (framed delim fields) =
        b.write (framed delim (field :: fields)) := by
      unfold Buffer.write framed
      simp only [List.flatMap_cons, List.append_assoc]
    rw [writeFields, write_buffer hb, Option.bind_some, write_buffer hfield, Option.bind_some,
      ih hdelim, setBuffer_setBuffer, setBuffer_setBuffer, htext]

/-- Each read takes one field from the front of the unread text. -/
theorem readFields_eq (hsound : handles.Sound)
    (hb : handles.getBufferOrReceiveBuffer handle = some b) (hdelim : delim ≠ [])
    (fields : List (List UInt8)) (rest : List UInt8)
    (hfields : ∀ field ∈ fields, First delim (field ++ delim) field.length)
    (hunread : b.unread = framed delim fields ++ rest) :
    readFields handle delim fields.length handles =
      (fields, handles.setBuffer handle (b.skip (framed delim fields).length)) := by
  induction fields generalizing handles b with
  | nil =>
    change ([], handles) = ([], handles.setBuffer handle (b.skip 0))
    rw [Buffer.skip_zero, setBuffer_self hb]
  | cons field fields ih =>
    have htext : b.unread = field ++ (delim ++ (framed delim fields ++ rest)) := by
      rw [hunread]
      unfold framed
      simp only [List.flatMap_cons, List.append_assoc]
    have hfirst : First delim b.unread field.length := by
      rw [htext]
      exact (hfields field (List.mem_cons_self ..)).append _
    have hpos := hsound.positioned hb
    have hread := readDelimitedString_of_first hpos hb hdelim hfirst
    have hskip : (b.skip (field.length + delim.length)).Positioned :=
      hpos.positioned_skip (hfirst.add_le hdelim)
    have hrest : (b.skip (field.length + delim.length)).unread =
        framed delim fields ++ rest := by
      rw [Buffer.unread_skip, htext, ← List.drop_drop, List.drop_left, List.drop_left]
    have hnext := ih (hsound.setBuffer hskip) (hsound.getBuffer_setBuffer hb _)
      (fun f hf => hfields f (List.mem_cons_of_mem field hf)) hrest
    have hlength : field.length + delim.length + (framed delim fields).length =
        (framed delim (field :: fields)).length := by
      unfold framed
      simp only [List.flatMap_cons, List.length_append]
    rw [List.length_cons, readFields, hread]
    simp only
    rw [hnext, setBuffer_setBuffer, Buffer.skip_skip, hlength, htext, List.take_left]

/-- What one delimited read does with a buffer or with the receive buffer of a socket. -/
structure ReadsDelimited (handles : Handles) (handle : Datum binary64) (b : Buffer)
    (delim : List UInt8) : Prop where
  found : ∀ k, First delim b.unread k → handles.readDelimitedString handle delim =
    (b.unread.take k, handles.setBuffer handle ⟨b.data, b.readIndex + k + delim.length⟩)
  missing : ¬ delim <:+: b.unread → handles.readDelimitedString handle delim = ([], handles)

/-- Fields that do not contain their delimiter, nor begin one that ends in it, are read as
they were written. -/
def FramesFields (handles : Handles) (handle : Datum binary64) (delim : List UInt8) : Prop :=
  ∀ fields : List (List UInt8),
    (∀ field ∈ fields, First delim (field ++ delim) field.length) →
      ∃ written read b, writeFields handle delim fields handles = some written ∧
        readFields handle delim fields.length written = (fields, read) ∧
        read.getBufferOrReceiveBuffer handle = some b ∧ b.unread = []

theorem framesFields_of_new (hsound : handles.Sound) (hdelim : delim ≠ [])
    (hb : handles.readWritable handle = some (.buffer .new)) :
    FramesFields handles handle delim := by
  intro fields hfields
  have hbuffer := getBuffer_of_buffer hb
  have hpos : (Buffer.new.write (framed delim fields)).Positioned := Nat.zero_le _
  have hunread : (Buffer.new.write (framed delim fields)).unread = framed delim fields ++ [] :=
    (List.append_nil _).symm
  have hwritten := hsound.getBuffer_setBuffer hbuffer (Buffer.new.write (framed delim fields))
  have hread := readFields_eq (hsound.setBuffer hpos) hwritten hdelim fields [] hfields hunread
  have hskip := (hsound.setBuffer hpos).getBuffer_setBuffer hwritten
    ((Buffer.new.write (framed delim fields)).skip (framed delim fields).length)
  refine ⟨_, _, _, writeFields_eq hb fields, hread, hskip, ?_⟩
  rw [Buffer.unread_skip, hunread, List.append_nil, List.drop_length]

/-- A delimited read takes exactly what is in front of the first delimiter, and so fields
that are written one after the other are read back. -/
theorem readsDelimited_and_framesFields (handles : Handles) (hsound : handles.Sound)
    (handle : Datum binary64) (delim : List UInt8) (hdelim : delim ≠ []) :
    (∀ b, handles.getBufferOrReceiveBuffer handle = some b →
        ReadsDelimited handles handle b delim) ∧
      (handles.readWritable handle = some (.buffer .new) →
        FramesFields handles handle delim) := by
  constructor
  · intro b hb
    constructor
    · intro k hfirst
      rw [readDelimitedString_of_first (hsound.positioned hb) hb hdelim hfirst, Nat.add_assoc]
      rfl
    · exact readDelimitedString_of_absent hb
  · exact framesFields_of_new hsound hdelim

/-- A comma ends the field "a". -/
theorem readsDelimited_and_framesFields_comma :
    (ofBuffer ⟨[97, 44, 98], 0⟩).readDelimitedString firstHandle [44] =
        ([97], (ofBuffer ⟨[97, 44, 98], 0⟩).setBuffer firstHandle ⟨[97, 44, 98], 2⟩) ∧
      FramesFields (ofBuffer .new) firstHandle [44] := by
  have hfirst : First [44] (Buffer.unread ⟨[97, 44, 98], 0⟩) 1 := by
    constructor
    · decide
    · decide
  have htext := readsDelimited_and_framesFields (ofBuffer ⟨[97, 44, 98], 0⟩)
    (sound_ofBuffer (Nat.zero_le _)) firstHandle [44] (List.cons_ne_nil _ _)
  have hempty := readsDelimited_and_framesFields (ofBuffer .new) (sound_ofBuffer (Nat.zero_le _))
    firstHandle [44] (List.cons_ne_nil _ _)
  exact ⟨(htext.1 _ (getBuffer_ofBuffer _)).found 1 hfirst,
    hempty.2 (readWritable_ofObject (.buffer .new))⟩

end Handles

end FaucetNetworking
