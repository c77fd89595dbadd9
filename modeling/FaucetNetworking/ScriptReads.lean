import FaucetNetworking.DelimitedRead
import Mathlib.Data.List.TakeWhile

/-!
The scripts that read up to a delimiter. One of them has the whole read done by the
library and finds out from the number of bytes left whether there was a delimiter. The
other asks for the distance first, and lets the library fill a string of that length. Both
are compared with a description of what such a read is for.
-/
namespace FaucetNetworking

open Ieee754 Occurrence

/-- A value of the script language. The reals that occur here are integers. -/
inductive GmValue where
  | real (n : ℤ)
  | string (bytes : List UInt8)
  deriving DecidableEq, Repr

/-- What is left of a string that is passed as a const char pointer. -/
def cString (bytes : List UInt8) : List UInt8 := bytes.takeWhile (· ≠ 0)

theorem cString_eq_self {bytes : List UInt8} (h : 0 ∉ bytes) : cString bytes = bytes := by
  apply List.takeWhile_eq_self_iff.mpr
  intro c hc
  have hne : c ≠ 0 := fun hzero => h (hzero ▸ hc)
  exact decide_eq_true hne

namespace Handles

variable (handles : Handles) (handle : Datum binary64)

def bufferBytesLeft : ℕ :=
  match handles.readWritable handle with
  | none => 0
  | some o => o.bytesRemaining

def fnetHiddenReadDelimitedString (delimiter : List UInt8) : List UInt8 × Handles :=
  let (result, handles) := handles.readDelimitedString handle (cString delimiter)
  (cString result, handles)

def fnetHiddenBytesBeforeDelimiter (needle : List UInt8) : ℤ :=
  bytesBeforeDelimiter (handles.getBufferOrReceiveBuffer handle) needle

/-- The string outstr is overwritten from its start on. -/
def fnetHiddenReadBinaryString (outstr : List UInt8) : List UInt8 × Handles :=
  match handles.getBufferOrReceiveBuffer handle with
  | none => (outstr, handles)
  | some b =>
    let (bytes, b) := b.read outstr.length
    (bytes ++ outstr.drop bytes.length, handles.setBuffer handle b)

def fnetHiddenSkipLengthOfString (skip : List UInt8) : Handles :=
  match handles.getBufferOrReceiveBuffer handle with
  | none => handles
  | some b => handles.setBuffer handle (b.setReadpos (b.getReadpos + skip.length))

end Handles

namespace Scripts

variable (handles : Handles) (handle : Datum binary64) (delim : List UInt8)

def readDelimitedBinaryString : GmValue × Handles :=
  if delim = [] then (.string [], handles)
  else
    let length := handles.fnetHiddenBytesBeforeDelimiter handle delim
    if length < 0 then (.real (-1), handles)
    else
      let result := List.replicate length.toNat 32
      let (result, handles) :=
        if result ≠ [] then handles.fnetHiddenReadBinaryString handle result
        else (result, handles)
      (.string result, handles.fnetHiddenSkipLengthOfString handle delim)

def readDelimitedString : GmValue × Handles :=
  let bytesleft := handles.bufferBytesLeft handle
  let (result, handles) := handles.fnetHiddenReadDelimitedString handle delim
  if bytesleft = handles.bufferBytesLeft handle then
    if delim ≠ [] then (.real (-1), handles) else (.string result, handles)
  else (.string result, handles)

/-- A read up to a delimiter: the value and the objects after it. -/
inductive DelimitedRead : GmValue × Handles → Prop
  | noDelimiter (h : delim = []) : DelimitedRead (.string [], handles)
  | missing (hdelim : delim ≠ [])
      (h : ∀ b, handles.getBufferOrReceiveBuffer handle = some b → ¬ delim <:+: b.unread) :
      DelimitedRead (.real (-1), handles)
  | found {b : Buffer} {k : ℕ} (hdelim : delim ≠ [])
      (hb : handles.getBufferOrReceiveBuffer handle = some b) (h : First delim b.unread k) :
      DelimitedRead (.string (b.unread.take k),
        handles.setBuffer handle (b.skip (k + delim.length)))

variable {handles handle delim}

theorem DelimitedRead.unique {r t : GmValue × Handles} (hr : DelimitedRead handles handle delim r)
    (ht : DelimitedRead handles handle delim t) : r = t := by
  cases hr with
  | noDelimiter h =>
    cases ht with
    | noDelimiter => rfl
    | missing hdelim => exact absurd h hdelim
    | found hdelim => exact absurd h hdelim
  | missing hdelim hmissing =>
    cases ht with
    | noDelimiter h => exact absurd h hdelim
    | missing => rfl
    | found _ hb h => exact absurd h.isInfix (hmissing _ hb)
  | found hdelim hb h =>
    cases ht with
    | noDelimiter hempty => exact absurd hempty hdelim
    | missing _ hmissing => exact absurd h.isInfix (hmissing _ hb)
    | found _ hb' h' =>
      obtain rfl := Option.some.inj (hb.symm.trans hb')
      rw [h.unique h']

/-- A delimiter of some bytes is nowhere in the unread part of a buffer, or stands somewhere
first. -/
theorem missing_or_found (hsound : handles.Sound) (handle : Datum binary64)
    (delim : List UInt8) :
    (∀ b, handles.getBufferOrReceiveBuffer handle = some b → ¬ delim <:+: b.unread) ∨
      ∃ b k, handles.getBufferOrReceiveBuffer handle = some b ∧ b.Positioned ∧
        First delim b.unread k := by
  by_cases hmissing : ∀ b, handles.getBufferOrReceiveBuffer handle = some b →
      ¬ delim <:+: b.unread
  · exact .inl hmissing
  · push Not at hmissing
    obtain ⟨b, hb, hinfix⟩ := hmissing
    obtain ⟨k, hfirst⟩ := exists_first hinfix
    exact .inr ⟨b, k, hb, hsound.positioned hb, hfirst⟩

/-! ### The script that has the library read -/

/-- An empty delimiter stands where the read position is, unless all has been read. -/
theorem readDelimitedString_nil {b : Buffer} (hpos : b.Positioned) :
    b.readDelimitedString [] = ([], b) := by
  have hfirst : First [] (b.data.drop b.readIndex) 0 :=
    ⟨List.nil_prefix, fun k hk => absurd hk (Nat.not_lt_zero k)⟩
  have hsearch := search_eq_of_first hfirst (Nat.zero_le _)
  unfold Buffer.readDelimitedString bytesBeforeDelimiter Buffer.getReadpos
  simp only
  rw [hsearch]
  by_cases hempty : 0 ≠ (b.data.drop b.readIndex).length
  · rw [if_pos hempty, if_pos (Int.natCast_nonneg 0), Int.toNat_natCast, hpos.readString_eq]
    simp only [Nat.zero_min, List.take_zero, Buffer.skip_zero, List.length_nil]
    have hread := hpos.setReadpos_skip (Nat.zero_le _)
    rw [Buffer.skip_zero] at hread
    rw [hread]
  · rw [if_neg hempty, if_neg (by decide)]

theorem bufferBytesLeft_eq (hsound : handles.Sound) {b : Buffer}
    (hb : handles.getBufferOrReceiveBuffer handle = some b) :
    handles.bufferBytesLeft handle = b.unread.length := by
  obtain ⟨o, ho, rfl⟩ := Handles.getBufferOrReceiveBuffer_eq_some_iff.mp hb
  unfold Handles.bufferBytesLeft
  rw [ho]
  exact (hsound handle o ho).positioned.bytesRemaining_eq_length

/-- The script tells from the bytes that are left that something has been read. -/
theorem bufferBytesLeft_ne (hsound : handles.Sound) {b : Buffer}
    (hb : handles.getBufferOrReceiveBuffer handle = some b) {n : ℕ} (hn : 0 < n)
    (hle : n ≤ b.unread.length) : handles.bufferBytesLeft handle ≠
      (handles.setBuffer handle (b.skip n)).bufferBytesLeft handle := by
  have hskip : (b.skip n).Positioned := (hsound.positioned hb).positioned_skip hle
  have hafter := bufferBytesLeft_eq (hsound.setBuffer hskip) (hsound.getBuffer_setBuffer hb _)
  rw [Buffer.unread_skip, List.length_drop] at hafter
  rw [bufferBytesLeft_eq hsound hb, hafter]
  omega

/-- What the library reads, with an empty string where there is no delimiter. -/
theorem fnetHiddenReadDelimitedString_eq (hdelim : 0 ∉ delim)
    {result : List UInt8} {next : Handles}
    (hread : handles.readDelimitedString handle delim = (result, next)) (hresult : 0 ∉ result) :
    handles.fnetHiddenReadDelimitedString handle delim = (result, next) := by
  unfold Handles.fnetHiddenReadDelimitedString
  rw [cString_eq_self hdelim, hread]
  simp only
  rw [cString_eq_self hresult]

theorem delimitedRead_readDelimitedString (hsound : handles.Sound) (hdelim : 0 ∉ delim)
    (hunread : ∀ b, handles.getBufferOrReceiveBuffer handle = some b → 0 ∉ b.unread) :
    DelimitedRead handles handle delim (readDelimitedString handles handle delim) := by
  unfold readDelimitedString
  have hnone : (0 : UInt8) ∉ ([] : List UInt8) := List.not_mem_nil
  by_cases hempty : delim = []
  · have hread : handles.readDelimitedString handle delim = ([], handles) := by
      rw [hempty]
      unfold Handles.readDelimitedString
      cases hb : handles.getBufferOrReceiveBuffer handle with
      | none => rfl
      | some b =>
        simp only
        rw [readDelimitedString_nil (hsound.positioned hb), Handles.setBuffer_self hb]
    rw [fnetHiddenReadDelimitedString_eq hdelim hread hnone]
    simp only
    rw [if_pos trivial, if_neg (not_not.mpr hempty)]
    exact .noDelimiter hempty
  · rcases missing_or_found hsound handle delim with hmissing | ⟨b, k, hb, hpos, hfirst⟩
    · have hread : handles.readDelimitedString handle delim = ([], handles) := by
        cases hb : handles.getBufferOrReceiveBuffer handle with
        | none =>
          unfold Handles.readDelimitedString
          rw [hb]
        | some b => exact Handles.readDelimitedString_of_absent hb (hmissing b hb)
      rw [fnetHiddenReadDelimitedString_eq hdelim hread hnone]
      simp only
      rw [if_pos trivial, if_pos hempty]
      exact .missing hempty hmissing
    · have hlength := List.length_pos_iff.mpr hempty
      have hread := Handles.readDelimitedString_of_first hpos hb hempty hfirst
      have hresult : 0 ∉ b.unread.take k := fun h => hunread b hb (List.mem_of_mem_take h)
      have hchanged := bufferBytesLeft_ne hsound hb (by omega) (hfirst.add_le hempty)
      rw [fnetHiddenReadDelimitedString_eq hdelim hread hresult]
      simp only
      rw [if_neg hchanged]
      exact .found hempty hb hfirst

/-! ### The script that asks for the distance -/

/-- A string of the right length is overwritten by the bytes in front of the delimiter. -/
theorem fnetHiddenReadBinaryString_eq (hsound : handles.Sound) {b : Buffer}
    (hb : handles.getBufferOrReceiveBuffer handle = some b) {outstr : List UInt8}
    (hlength : outstr.length ≤ b.unread.length) :
    handles.fnetHiddenReadBinaryString handle outstr =
      (b.unread.take outstr.length, handles.setBuffer handle (b.skip outstr.length)) := by
  unfold Handles.fnetHiddenReadBinaryString
  rw [hb]
  simp only
  rw [(hsound.positioned hb).read_eq, Nat.min_eq_left hlength]
  simp only
  rw [List.length_take, Nat.min_eq_left hlength, List.drop_length, List.append_nil]

/-- The script has spaces overwritten, and reads nothing where there would be none. -/
theorem readBinaryString_spaces (hsound : handles.Sound) {b : Buffer}
    (hb : handles.getBufferOrReceiveBuffer handle = some b) {k : ℕ}
    (hk : k ≤ b.unread.length) :
    (if List.replicate k (32 : UInt8) ≠ [] then
        handles.fnetHiddenReadBinaryString handle (List.replicate k 32)
      else (List.replicate k 32, handles)) =
      (b.unread.take k, handles.setBuffer handle (b.skip k)) := by
  by_cases hzero : k = 0
  · have hnil : List.replicate 0 (32 : UInt8) = [] := rfl
    rw [hzero, hnil, if_neg (not_not.mpr rfl), Buffer.skip_zero, Handles.setBuffer_self hb]
    rfl
  · have hne : List.replicate k (32 : UInt8) ≠ [] := by
      intro h
      rw [List.replicate_eq_nil_iff] at h
      exact hzero h
    have hlength : (List.replicate k (32 : UInt8)).length = k := List.length_replicate
    rw [if_pos hne, fnetHiddenReadBinaryString_eq hsound hb (by rwa [hlength]), hlength]

theorem fnetHiddenSkipLengthOfString_eq (hsound : handles.Sound) {b : Buffer}
    (hb : handles.getBufferOrReceiveBuffer handle = some b) {skip : List UInt8}
    (hlength : skip.length ≤ b.unread.length) :
    handles.fnetHiddenSkipLengthOfString handle skip =
      handles.setBuffer handle (b.skip skip.length) := by
  unfold Handles.fnetHiddenSkipLengthOfString
  rw [hb]
  simp only
  rw [Buffer.getReadpos, (hsound.positioned hb).setReadpos_skip hlength]

theorem delimitedRead_readDelimitedBinaryString (hsound : handles.Sound)
    (handle : Datum binary64) (delim : List UInt8) :
    DelimitedRead handles handle delim (readDelimitedBinaryString handles handle delim) := by
  unfold readDelimitedBinaryString
  by_cases hempty : delim = []
  · rw [if_pos hempty]
    exact .noDelimiter hempty
  · rw [if_neg hempty]
    unfold Handles.fnetHiddenBytesBeforeDelimiter
    rcases missing_or_found hsound handle delim with hmissing | ⟨b, k, hb, hpos, hfirst⟩
    · have hlength :
          bytesBeforeDelimiter (handles.getBufferOrReceiveBuffer handle) delim = -1 := by
        cases hb : handles.getBufferOrReceiveBuffer handle with
        | none => rfl
        | some b => exact Buffer.bytesBeforeDelimiter_of_absent (hmissing b hb)
      simp only
      rw [hlength, if_pos (by decide)]
      exact .missing hempty hmissing
    · have hle := hfirst.add_le hempty
      have hskip : (b.skip k).Positioned := hpos.positioned_skip (by omega)
      have hrest : delim.length ≤ (b.skip k).unread.length := by
        rw [Buffer.unread_skip, List.length_drop]
        omega
      have hnext := fnetHiddenSkipLengthOfString_eq (hsound.setBuffer hskip)
        (hsound.getBuffer_setBuffer hb (b.skip k)) hrest
      simp only
      rw [hb, Buffer.bytesBeforeDelimiter_of_first hempty hfirst,
        if_neg (not_lt.mpr (Int.natCast_nonneg k)), Int.toNat_natCast,
        readBinaryString_spaces hsound hb (by omega)]
      simp only
      rw [hnext, Handles.setBuffer_setBuffer, Buffer.skip_skip]
      exact .found hempty hb hfirst

/-- Without NUL bytes, which end the strings that one of them works with, the two scripts
do the same. -/
theorem readDelimitedString_eq_readDelimitedBinaryString (handles : Handles)
    (hsound : handles.Sound) (handle : Datum binary64) (delim : List UInt8) (hdelim : 0 ∉ delim)
    (hunread : ∀ b, handles.getBufferOrReceiveBuffer handle = some b → 0 ∉ b.unread) :
    readDelimitedString handles handle delim =
      readDelimitedBinaryString handles handle delim :=
  (delimitedRead_readDelimitedString hsound hdelim hunread).unique
    (delimitedRead_readDelimitedBinaryString hsound handle delim)

/-- One space in front of a comma. -/
theorem readDelimitedString_eq_readDelimitedBinaryString_comma :
    readDelimitedString (Handles.ofBuffer ⟨[32, 44], 0⟩) Handles.firstHandle [44] =
      readDelimitedBinaryString (Handles.ofBuffer ⟨[32, 44], 0⟩) Handles.firstHandle [44] := by
  apply readDelimitedString_eq_readDelimitedBinaryString _
    (Handles.sound_ofBuffer (Nat.zero_le _))
  · decide
  · intro b hb
    obtain rfl := Option.some.inj ((Handles.getBuffer_ofBuffer _).symm.trans hb)
    decide

end Scripts

end FaucetNetworking
