import FaucetNetworking.Base64RoundTrip
import FaucetNetworking.BufferCopy
import FaucetNetworking.HexRoundTrip
import FaucetNetworking.Tcp.SendLimit

/-!
The functions that write to a socket in several pieces. A copy writes the blocks of its
temporary buffer, and the decoders write what they have staged. All of them are stopped by
the size limit of the send buffer exactly if one write of all their bytes would be.
-/
namespace FaucetNetworking

open Ieee754 Staging TcpSession

namespace ReadWritable

/-- The virtual functions of an object that a codec writes to. There is no object any more
when one of them has not returned. -/
def Object.readWritable : ReadWritable (Option Object) where
  write := fun o data => o.bind fun o => o.write data
  read := fun o size =>
    match o with
    | none => ([], none)
    | some o =>
      let (bytes, o) := o.read size
      (bytes, some o)
  readString := fun o size =>
    match o with
    | none => ([], none)
    | some o =>
      let (bytes, b) := o.source.readString size
      (bytes, some (o.setSource b))
  bytesRemaining := fun o => o.elim 0 Object.bytesRemaining
  setReadpos := fun o pos => o.map fun o => o.setSource (o.source.setReadpos pos)
  prepareWrite := fun o _ => o

end ReadWritable

namespace Handles

open ReadWritable

def writeHex (handles : Handles) (dest : Datum binary64) (hexStr : List UInt8) :
    Option (ℤ × Handles) :=
  match handles.readWritable dest with
  | none => some (-1, handles)
  | some o =>
    (HexCodec.writeHex Object.readWritable hexStr (some o)).bind fun (result, o) =>
      o.map fun o => (result, handles.setObject dest (.readWritable o))

def writeBase64 (handles : Handles) (dest : Datum binary64) (baseStr : List UInt8) :
    Option (ℤ × Handles) :=
  match handles.readWritable dest with
  | none => some (-1, handles)
  | some o =>
    match Base64Codec.writeBase64 Object.readWritable baseStr (some o) with
    | .error _ => none
    | .ok (result, o) => o.map fun o => (result, handles.setObject dest (.readWritable o))

variable {handles next : Handles} {dest source : Datum binary64} {b : Buffer} {limit : ℕ}
  {q : CommitQueue UInt8} {data : List UInt8}

/-! ### Pieces -/

theorem write_tcp {s t : TcpSession} (hs : handles.readWritable dest = some (.socket (.tcp s)))
    (hwrite : TcpSocket.write s data = .ok t) :
    handles.write dest data =
      some (handles.setObject dest (.readWritable (.socket (.tcp t)))) := by
  unfold Handles.write
  rw [hs]
  simp only [Object.write, hwrite, Outcome.toOption, Option.map_some]

/-- The pieces of a text that a decoder writes, one after the other. -/
theorem foldl_write_wrote {pieces : List (List UInt8)} (hpieces : pieces ≠ []) {s : TcpSession}
    (h : Progress limit q data s) :
    ∃ t, pieces.foldl Object.readWritable.write (some (.socket (.tcp s))) =
        some (.socket (.tcp t)) ∧ Wrote limit q (data ++ pieces.flatten) t := by
  induction pieces generalizing data s with
  | nil => exact absurd rfl hpieces
  | cons piece pieces ih =>
    obtain ⟨t, hwrite, hwrote, -⟩ := h.write piece
    have hstep : Object.readWritable.write (some (.socket (.tcp s))) piece =
        some (.socket (.tcp t)) := by
      change (Object.socket (.tcp s)).write piece = _
      simp only [Object.write, hwrite, Outcome.toOption, Option.map_some]
    rw [List.foldl_cons, hstep, List.flatten_cons, ← List.append_assoc]
    by_cases hlast : pieces = []
    · rw [hlast, List.flatten_nil, List.append_nil]
      exact ⟨t, rfl, hwrote⟩
    · exact ih hlast (.wrote hwrote)

/-! ### Blocks -/

/-- A copy from a buffer, or from the receive buffer of a socket, to a TCP socket; they may
be the same socket. -/
structure Feeding (handles : Handles) (dest source : Datum binary64) (b : Buffer)
    (P : TcpSession → Prop) : Prop where
  sound : handles.Sound
  source_eq : handles.getBufferOrReceiveBuffer source = some b
  dest_eq : ∃ s, handles.readWritable dest = some (.socket (.tcp s)) ∧ P s

theorem Feeding.mono {P Q : TcpSession → Prop} (h : Feeding handles dest source b P)
    (hPQ : ∀ s, P s → Q s) : Feeding handles dest source b Q := by
  obtain ⟨s, hs, hP⟩ := h.dest_eq
  exact ⟨h.sound, h.source_eq, s, hs, hPQ s hP⟩

/-- Reading from the source leaves the sending side of the destination as it is. -/
theorem Feeding.skip (h : Feeding handles dest source b (Progress limit q data)) {size : ℕ}
    (hsize : size ≤ b.unread.length) :
    Feeding (handles.setBuffer source (b.skip size)) dest source (b.skip size)
      (Progress limit q data) := by
  have hpos := h.sound.positioned h.source_eq
  obtain ⟨s, hs, hprogress⟩ := h.dest_eq
  obtain ⟨o, ho, -⟩ := getBufferOrReceiveBuffer_eq_some_iff.mp h.source_eq
  refine ⟨h.sound.setBuffer (hpos.positioned_skip hsize),
    h.sound.getBuffer_setBuffer h.source_eq _, ?_⟩
  by_cases hkey : handleKey dest = handleKey source
  · rw [readWritable_congr hkey] at hs ⊢
    exact ⟨_, readWritable_setBuffer hs _, hprogress.setReceiveBuffer _⟩
  · rw [readWritable_setBuffer_of_ne ho _ hkey]
    exact ⟨s, hs, hprogress⟩

theorem Feeding.copyBlock (h : Feeding handles dest source b (Progress limit q data)) {size : ℕ}
    (hsize : size ≤ b.unread.length) (tempBuffer : List UInt8) :
    ∃ tempBuffer' next, copyBlock dest source size tempBuffer handles = some (tempBuffer', next) ∧
      Feeding next dest source (b.skip size) (Wrote limit q (data ++ b.unread.take size)) := by
  have hpos := h.sound.positioned h.source_eq
  obtain ⟨tempBuffer', hblock⟩ := copyBlock_eq dest h.source_eq hpos hsize tempBuffer
  obtain ⟨hsound, hsource, s, hs, hprogress⟩ := h.skip hsize
  obtain ⟨t, hwrite, hwrote, hbuffer⟩ := hprogress.write (b.unread.take size)
  have ht : (Object.socket (.tcp t)).Sound := by
    have hposition := hsound dest _ hs
    change t.socket.receiveBuffer.Positioned
    rw [hbuffer]
    exact hposition
  rw [write_tcp hs hwrite, Option.map_some] at hblock
  refine ⟨tempBuffer', _, hblock, hsound.setObject hs ht, ?_, t, ?_, hwrote⟩
  · have hkept : (Object.socket (.tcp t)).source = (Object.socket (.tcp s)).source := hbuffer
    rw [getBuffer_setObject hs hkept]
    exact hsource
  · rw [readWritable_setObject (readWritable_eq_some_iff.mp hs), if_pos rfl]

theorem Feeding.copyFullBuffers (k : ℕ)
    (h : Feeding handles dest source b (Progress limit q data))
    (hle : 4096 * k ≤ b.unread.length) (tempBuffer : List UInt8) :
    ∃ tempBuffer' next, copyFullBuffers dest source k tempBuffer handles =
        some (tempBuffer', next) ∧
      Feeding next dest source (b.skip (4096 * k))
        (Progress limit q (data ++ b.unread.take (4096 * k))) := by
  induction k generalizing handles b data tempBuffer with
  | zero =>
    refine ⟨tempBuffer, handles, rfl, ?_⟩
    rw [Nat.mul_zero, Buffer.skip_zero, List.take_zero, List.append_nil]
    exact h
  | succ k ih =>
    obtain ⟨first, middle, hblock, hfed⟩ :=
      h.copyBlock (show 4096 ≤ b.unread.length by omega) tempBuffer
    have hrest : 4096 * k ≤ (b.skip 4096).unread.length := by
      rw [Buffer.unread_skip, List.length_drop]
      omega
    obtain ⟨last, next, hblocks, hmore⟩ := ih (hfed.mono fun _ => .wrote) hrest first
    refine ⟨last, next, ?_, ?_⟩
    · rw [Handles.copyFullBuffers, hblock, Option.bind_some]
      exact hblocks
    · have htotal : 4096 * (k + 1) = 4096 + 4096 * k := by omega
      rw [Buffer.skip_skip, Buffer.unread_skip, List.append_assoc, ← List.take_add] at hmore
      rw [htotal]
      exact hmore

theorem writeBufferPart_wrote (hsound : handles.Sound)
    (hb : handles.getBufferOrReceiveBuffer source = some b) {s : TcpSession}
    (hs : handles.readWritable dest = some (.socket (.tcp s))) (h : Accepting limit q s)
    {ammount : Value} {a : ℕ} (ha : clippedSize ammount = some a) (tempBuffer : List UInt8) :
    ∃ next t, writeBufferPart tempBuffer handles dest source ammount =
        some (min a b.unread.length, next) ∧
      next.readWritable dest = some (.socket (.tcp t)) ∧
      Wrote limit q (b.unread.take (min a b.unread.length)) t := by
  set n := min a b.unread.length with hn
  have hn_le : n ≤ b.unread.length := by omega
  have hsplit : 4096 * (n / 4096) + n % 4096 = n := Nat.div_add_mod n 4096
  have hstart : Feeding handles dest source b (Progress limit q []) :=
    ⟨hsound, hb, s, hs, .start h⟩
  obtain ⟨full, middle, hblocks, hfed⟩ :=
    hstart.copyFullBuffers (n / 4096) (by omega) tempBuffer
  have hrest : n % 4096 ≤ (b.skip (4096 * (n / 4096))).unread.length := by
    rw [Buffer.unread_skip, List.length_drop]
    omega
  obtain ⟨last, next, hblock, hmore⟩ := hfed.copyBlock hrest full
  rw [Buffer.unread_skip, List.append_assoc, ← List.take_add, hsplit, List.nil_append] at hmore
  obtain ⟨t, ht, hwrote⟩ := hmore.dest_eq
  refine ⟨next, t, ?_, ht, hwrote⟩
  obtain ⟨o, ho, rfl⟩ := getBufferOrReceiveBuffer_eq_some_iff.mp hb
  have hremaining : o.bytesRemaining = o.source.unread.length :=
    (hsound source o ho).positioned.bytesRemaining_eq_length
  unfold writeBufferPart
  rw [ha, Option.bind_some, hs, ho]
  simp only
  rw [hremaining, ← hn, hblocks, Option.bind_some]
  simp only
  rw [hblock, Option.map_some]

/-! ### Decoded texts -/

theorem writeHex_wrote {s : TcpSession}
    (hs : handles.readWritable dest = some (.socket (.tcp s))) (h : Accepting limit q s)
    {text : List UInt8} (hnul : 0 ∉ text) (htext : HexCodec.IsHexText text) :
    ∃ t, handles.writeHex dest text =
        some (1, handles.setObject dest (.readWritable (.socket (.tcp t)))) ∧
      Wrote limit q (HexCodec.decodedBytes text) t := by
  obtain ⟨t, hpieces, hwrote⟩ := foldl_write_wrote
    (pieces_ne_nil [] (HexCodec.decodedBytes text)) (.start h)
  rw [flatten_pieces, List.nil_append, List.nil_append] at hwrote
  refine ⟨t, ?_, hwrote⟩
  unfold Handles.writeHex
  rw [hs]
  simp only
  rw [HexCodec.writeHex_pieces Object.readWritable hnul htext, Option.bind_some]
  change Option.map _ (List.foldl _ (some (Object.socket (.tcp s))) _) = _
  rw [hpieces, Option.map_some]

theorem writeBase64_wrote {s : TcpSession}
    (hs : handles.readWritable dest = some (.socket (.tcp s))) (h : Accepting limit q s)
    {text : List UInt8} (hascii : Base64Codec.IsAscii text)
    (hverdict : Base64Codec.verdict 0 text = .accepted) :
    ∃ t, handles.writeBase64 dest text =
        some (1, handles.setObject dest (.readWritable (.socket (.tcp t)))) ∧
      Wrote limit q (Base64Codec.decodedBytes [] text) t := by
  obtain ⟨index, bytes, hvalid⟩ := Base64Codec.validate_of_accepted hascii hverdict
  obtain ⟨t, hpieces, hwrote⟩ := foldl_write_wrote
    (pieces_ne_nil [] (Base64Codec.decodedBytes [] text)) (.start h)
  rw [flatten_pieces, List.nil_append, List.nil_append] at hwrote
  refine ⟨t, ?_, hwrote⟩
  unfold Handles.writeBase64
  rw [hs]
  simp only
  rw [Base64Codec.writeBase64_pieces Object.readWritable hascii hvalid]
  change Option.map _ (List.foldl _ (some (Object.socket (.tcp s))) _) = _
  rw [hpieces, Option.map_some]

/-- How the bytes reach the socket makes no difference to the limit. -/
structure EnforcesLimit (handles : Handles) (dest : Datum binary64) (limit : ℕ)
    (q : CommitQueue UInt8) : Prop where
  single : ∀ data, ∃ t, handles.write dest data =
    some (handles.setObject dest (.readWritable (.socket (.tcp t)))) ∧ Wrote limit q data t
  bufferPart : ∀ source b, handles.getBufferOrReceiveBuffer source = some b →
    ∀ ammount a, clippedSize ammount = some a → ∀ tempBuffer, ∃ next t,
      writeBufferPart tempBuffer handles dest source ammount =
          some (min a b.unread.length, next) ∧
        next.readWritable dest = some (.socket (.tcp t)) ∧
        Wrote limit q (b.unread.take (min a b.unread.length)) t
  hex : ∀ text, 0 ∉ text → HexCodec.IsHexText text → ∃ t, handles.writeHex dest text =
      some (1, handles.setObject dest (.readWritable (.socket (.tcp t)))) ∧
    Wrote limit q (HexCodec.decodedBytes text) t
  base64 : ∀ text, Base64Codec.IsAscii text → Base64Codec.verdict 0 text = .accepted →
    ∃ t, handles.writeBase64 dest text =
        some (1, handles.setObject dest (.readWritable (.socket (.tcp t)))) ∧
      Wrote limit q (Base64Codec.decodedBytes [] text) t

theorem enforcesLimit (handles : Handles) (hsound : handles.Sound) (dest : Datum binary64)
    (s : TcpSession) (hs : handles.readWritable dest = some (.socket (.tcp s))) (limit : ℕ)
    (q : CommitQueue UInt8) (h : Accepting limit q s) : EnforcesLimit handles dest limit q := by
  constructor
  · intro data
    obtain ⟨t, hwrite, hwrote, -⟩ := h.write data
    exact ⟨t, write_tcp hs hwrite, hwrote⟩
  · intro source b hb ammount a ha tempBuffer
    exact writeBufferPart_wrote hsound hb hs h ha tempBuffer
  · intro text hnul htext
    exact writeHex_wrote hs h hnul htext
  · intro text hascii hverdict
    exact writeBase64_wrote hs h hascii hverdict

/-- A connected socket that holds two bytes and has room for one more. -/
theorem enforcesLimit_two : ∃ s,
    TcpSocket.write (TcpSocket.setSendbufferLimit .accepted 3) [7, 8] = .ok s ∧
    EnforcesLimit (ofObject (.socket (.tcp s))) firstHandle 3
      (CommitQueue.empty.push [7, 8]) := by
  have hroom : Accepting 3 .empty (TcpSocket.setSendbufferLimit .accepted 3) :=
    ⟨rfl, rfl, SendBuffer.new_represents⟩
  obtain ⟨s, hwrite, hwrote, hbuffer⟩ := hroom.write [7, 8]
  have hfits : TcpSocket.hasError s = false := by
    rw [Bool.eq_false_iff, ne_eq, hwrote.error_iff]
    decide
  have hsound : (Object.socket (.tcp s)).Sound := by
    change s.socket.receiveBuffer.readIndex ≤ s.socket.receiveBuffer.data.length
    rw [hbuffer]
    exact Nat.le_refl 0
  exact ⟨s, hwrite, enforcesLimit _ (sound_ofObject hsound) firstHandle _
    (readWritable_ofObject _) 3 _ (hwrote.accepting hfits)⟩

end Handles

end FaucetNetworking
