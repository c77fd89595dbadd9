import FaucetNetworking.ClippedCast
import FaucetNetworking.ScriptObjects

/-!
Copying from one object to another in blocks. Both may be the same buffer, and then what is
read grows while it is copied, but the bytes that were unread before are still in front of
those that have been appended.
-/
namespace FaucetNetworking

open Ieee754

namespace Handles

/-- Read into the temporary buffer, and write as many bytes of it. -/
def copyBlock (dest source : Datum binary64) (size : ℕ) (tempBuffer : List UInt8)
    (handles : Handles) : Option (List UInt8 × Handles) :=
  let (bytes, handles) := handles.read source size
  let tempBuffer := bytes ++ tempBuffer.drop bytes.length
  (handles.write dest (tempBuffer.take size)).map fun handles => (tempBuffer, handles)

def copyFullBuffers (dest source : Datum binary64) :
    ℕ → List UInt8 → Handles → Option (List UInt8 × Handles)
  | 0, tempBuffer, handles => some (tempBuffer, handles)
  | n + 1, tempBuffer, handles =>
    (copyBlock dest source 4096 tempBuffer handles).bind fun (tempBuffer, handles) =>
      copyFullBuffers dest source n tempBuffer handles

/-- The amount that has been copied and the objects after it, with no result where the
amount is a NaN. The temporary buffer is not initialized. -/
def writeBufferPart (tempBuffer : List UInt8) (handles : Handles)
    (dest source : Datum binary64) (ammount : Value) : Option (ℕ × Handles) :=
  (clippedSize ammount).bind fun intAmmount =>
    match handles.readWritable dest, handles.readWritable source with
    | some _, some o =>
      let intAmmount := min intAmmount o.bytesRemaining
      let fullBuffers := intAmmount / 4096
      let lastBuffer := intAmmount % 4096
      (copyFullBuffers dest source fullBuffers tempBuffer handles).bind
        fun (tempBuffer, handles) =>
          (copyBlock dest source lastBuffer tempBuffer handles).map
            fun (_, handles) => (intAmmount, handles)
    | _, _ => some (0, handles)

def writeBuffer (tempBuffer : List UInt8) (handles : Handles) (dest source : Datum binary64) :
    Option (ℕ × Handles) :=
  match handles.readWritable dest, (handles.object source).bind Handled.asBuffer,
    (handles.object source).bind Handled.asSocket with
  | some _, some srcBuffer, _ =>
    let oldReadPos := sizeSub srcBuffer.size srcBuffer.bytesRemaining
    (writeBufferPart tempBuffer (handles.setReadpos source 0) dest source
      (.finite srcBuffer.size)).map fun (_, handles) => (0, handles.setReadpos source oldReadPos)
  | some _, none, some srcSocket =>
    (handles.write dest srcSocket.getReceiveBuffer.data).map fun handles => (0, handles)
  | _, _, _ => some (0, handles)

/-! ### What a copy does to the two buffers -/

/-- The first n unread bytes of the source are appended to the destination. -/
structure CopiedPart (handles next : Handles) (dest source : Datum binary64) (bd bs : Buffer)
    (n : ℕ) : Prop where
  dest_eq : next.readWritable dest = some (.buffer ⟨bd.data ++ bs.unread.take n,
    if handleKey dest = handleKey source then bd.readIndex + n else bd.readIndex⟩)
  source_eq : next.readWritable source = some (.buffer
    ⟨if handleKey dest = handleKey source then bs.data ++ bs.unread.take n else bs.data,
      bs.readIndex + n⟩)
  others : ∀ other, handleKey other ≠ handleKey dest → handleKey other ≠ handleKey source →
    next.object other = handles.object other
  nextHandle : next.nextHandle = handles.nextHandle

/-- The whole content of the source is appended to the destination. -/
structure CopiedWhole (handles next : Handles) (dest source : Datum binary64) (bd bs : Buffer) :
    Prop where
  dest_eq : next.readWritable dest = some (.buffer ⟨bd.data ++ bs.data, bd.readIndex⟩)
  source_eq : next.readWritable source = some (.buffer
    ⟨if handleKey dest = handleKey source then bs.data ++ bs.data else bs.data, bs.readIndex⟩)
  others : ∀ other, handleKey other ≠ handleKey dest → handleKey other ≠ handleKey source →
    next.object other = handles.object other
  nextHandle : next.nextHandle = handles.nextHandle

section

variable {handles next : Handles} {dest source : Datum binary64} {bd bs : Buffer}

theorem copiedPart_zero (hdest : handles.readWritable dest = some (.buffer bd))
    (hsource : handles.readWritable source = some (.buffer bs)) :
    CopiedPart handles handles dest source bd bs 0 := by
  refine ⟨?_, ?_, fun _ _ _ => rfl, rfl⟩
  · rw [List.take_zero, List.append_nil, Nat.add_zero, ite_self]
    exact hdest
  · rw [List.take_zero, List.append_nil, Nat.add_zero, ite_self]
    exact hsource

/-- A buffer that is its own source has one read position. -/
theorem eq_of_handleKey_eq (hdest : handles.readWritable dest = some (.buffer bd))
    (hsource : handles.readWritable source = some (.buffer bs))
    (hsame : handleKey dest = handleKey source) : bd = bs := by
  have hobject : handles.readWritable dest = handles.readWritable source :=
    readWritable_congr hsame
  rw [hdest, hsource] at hobject
  injection hobject with hobject
  injection hobject

/-- What is in the temporary buffer behind the bytes that have been read is not written. -/
theorem copyBlock_eq (dest : Datum binary64)
    (hsource : handles.getBufferOrReceiveBuffer source = some bs) (hpos : bs.Positioned)
    {size : ℕ} (hsize : size ≤ bs.unread.length) (tempBuffer : List UInt8) :
    ∃ tempBuffer', copyBlock dest source size tempBuffer handles =
      ((handles.setBuffer source (bs.skip size)).write dest (bs.unread.take size)).map
        fun handles => (tempBuffer', handles) := by
  have hlength : (bs.unread.take size).length = size := List.length_take_of_le hsize
  refine ⟨bs.unread.take size ++ tempBuffer.drop size, ?_⟩
  unfold copyBlock
  rw [read_eq_of_getBuffer hsource hpos hsize]
  simp only
  rw [hlength, List.take_append_of_le_length (le_of_eq hlength.symm),
    List.take_of_length_le (le_of_eq hlength)]

/-- One block. -/
theorem copyBlock_copiedPart (hdest : handles.readWritable dest = some (.buffer bd))
    (hsource : handles.readWritable source = some (.buffer bs)) (hpos : bs.Positioned)
    {size : ℕ} (hsize : size ≤ bs.unread.length) (tempBuffer : List UInt8) :
    ∃ tempBuffer' next, copyBlock dest source size tempBuffer handles = some (tempBuffer', next) ∧
      CopiedPart handles next dest source bd bs size := by
  obtain ⟨tempBuffer', hblock⟩ := copyBlock_eq dest (getBuffer_of_buffer hsource) hpos hsize
    tempBuffer
  have hskipped := readWritable_setBuffer hsource (bs.skip size)
  by_cases hkey : handleKey dest = handleKey source
  · obtain rfl := eq_of_handleKey_eq hdest hsource hkey
    rw [← readWritable_congr hkey] at hskipped
    rw [write_buffer hskipped, Option.map_some] at hblock
    refine ⟨tempBuffer', _, hblock, ?_, ?_, ?_, ?_⟩
    · rw [if_pos hkey]
      exact readWritable_setBuffer hskipped _
    · rw [if_pos hkey, ← readWritable_congr hkey]
      exact readWritable_setBuffer hskipped _
    · intro other hother _
      rw [object_setBuffer_of_ne hskipped _ hother,
        object_setBuffer_of_ne hsource _ (by rwa [← hkey])]
    · rw [nextHandle_setBuffer, nextHandle_setBuffer]
  · have hkept : (handles.setBuffer source (bs.skip size)).readWritable dest =
        some (.buffer bd) := by
      rw [readWritable_setBuffer_of_ne hsource _ hkey, hdest]
    rw [write_buffer hkept, Option.map_some] at hblock
    refine ⟨tempBuffer', _, hblock, ?_, ?_, ?_, ?_⟩
    · rw [if_neg hkey]
      exact readWritable_setBuffer hkept _
    · rw [if_neg hkey, readWritable_setBuffer_of_ne hkept _ (Ne.symm hkey)]
      exact hskipped
    · intro other hother hother'
      rw [object_setBuffer_of_ne hkept _ hother, object_setBuffer_of_ne hsource _ hother']
    · rw [nextHandle_setBuffer, nextHandle_setBuffer]

/-- The source after a part of it has been copied. In front of the bytes that a copy of a
buffer to itself has appended, those that were unread before are still to be read. -/
theorem unread_source {n : ℕ} (hpos : bs.Positioned) (hle : n ≤ bs.unread.length)
    (appended : List UInt8) : (Buffer.mk (bs.data ++ appended) (bs.readIndex + n)).unread =
      bs.unread.drop n ++ appended := by
  have hskip := hpos.positioned_skip hle
  have hunread := Buffer.unread_write hskip appended
  rw [Buffer.unread_skip] at hunread
  exact hunread

theorem positioned_source {n : ℕ} (hpos : bs.Positioned) (hle : n ≤ bs.unread.length)
    (appended : List UInt8) :
    (Buffer.mk (bs.data ++ appended) (bs.readIndex + n)).Positioned := by
  have hskip := hpos.positioned_skip hle
  change bs.readIndex + n ≤ bs.data.length at hskip
  change bs.readIndex + n ≤ (bs.data ++ appended).length
  rw [List.length_append]
  omega

/-- The source after a copy, written as one that may have grown. -/
theorem CopiedPart.exists_source {n : ℕ} (h : CopiedPart handles next dest source bd bs n) :
    ∃ appended, next.readWritable source =
        some (.buffer ⟨bs.data ++ appended, bs.readIndex + n⟩) ∧
      appended = if handleKey dest = handleKey source then bs.unread.take n else [] := by
  refine ⟨_, ?_, rfl⟩
  rw [h.source_eq]
  split
  · rfl
  · rw [List.append_nil]

theorem CopiedPart.trans {last : Handles} {n m : ℕ} {appended : List UInt8}
    (h : CopiedPart handles next dest source bd bs n) (hpos : bs.Positioned)
    (hle : n + m ≤ bs.unread.length)
    (happended : appended = if handleKey dest = handleKey source then bs.unread.take n else [])
    (hnext : CopiedPart next last dest source
      ⟨bd.data ++ bs.unread.take n,
        if handleKey dest = handleKey source then bd.readIndex + n else bd.readIndex⟩
      ⟨bs.data ++ appended, bs.readIndex + n⟩ m) :
    CopiedPart handles last dest source bd bs (n + m) := by
  have htaken : bs.unread.take n ++
      (Buffer.mk (bs.data ++ appended) (bs.readIndex + n)).unread.take m =
        bs.unread.take (n + m) := by
    rw [unread_source hpos (by omega), List.take_append_of_le_length (by
      rw [List.length_drop]
      omega), ← List.take_add]
  refine ⟨?_, ?_, ?_, ?_⟩
  · rw [hnext.dest_eq]
    simp only [List.append_assoc]
    rw [htaken]
    split
    · rw [Nat.add_assoc]
    · rfl
  · rw [hnext.source_eq]
    split
    · rename_i hkey
      rw [happended, if_pos hkey] at htaken ⊢
      rw [List.append_assoc, htaken, Nat.add_assoc]
    · rename_i hkey
      rw [happended, if_neg hkey, List.append_nil, Nat.add_assoc]
  · intro other hother hother'
    rw [hnext.others other hother hother', h.others other hother hother']
  · rw [hnext.nextHandle, h.nextHandle]

/-- The rounds with a full temporary buffer. -/
theorem copyFullBuffers_copiedPart (k : ℕ)
    (hdest : handles.readWritable dest = some (.buffer bd))
    (hsource : handles.readWritable source = some (.buffer bs)) (hpos : bs.Positioned)
    (hle : 4096 * k ≤ bs.unread.length) (tempBuffer : List UInt8) :
    ∃ tempBuffer' next, copyFullBuffers dest source k tempBuffer handles =
        some (tempBuffer', next) ∧ CopiedPart handles next dest source bd bs (4096 * k) := by
  induction k generalizing handles bd bs tempBuffer with
  | zero => exact ⟨tempBuffer, handles, rfl, copiedPart_zero hdest hsource⟩
  | succ k ih =>
    obtain ⟨first, middle, hblock, hcopied⟩ :=
      copyBlock_copiedPart hdest hsource hpos (show 4096 ≤ bs.unread.length by omega) tempBuffer
    obtain ⟨appended, hsource', happended⟩ := hcopied.exists_source
    have hrest : 4096 * k ≤
        (Buffer.mk (bs.data ++ appended) (bs.readIndex + 4096)).unread.length := by
      rw [unread_source hpos (by omega), List.length_append, List.length_drop]
      omega
    obtain ⟨last, next, hblocks, hmore⟩ := ih hcopied.dest_eq hsource'
      (positioned_source hpos (by omega) appended) hrest first
    refine ⟨last, next, ?_, ?_⟩
    · rw [copyFullBuffers, hblock, Option.bind_some]
      exact hblocks
    · have htotal : 4096 * (k + 1) = 4096 + 4096 * k := by omega
      rw [htotal]
      exact hcopied.trans hpos (by omega) happended hmore

/-- The amount is cut down to what is unread, and the rounds and the rest make it up. -/
theorem writeBufferPart_copiedPart (hdest : handles.readWritable dest = some (.buffer bd))
    (hsource : handles.readWritable source = some (.buffer bs)) (hpos : bs.Positioned)
    {ammount : Value} {a : ℕ} (ha : clippedSize ammount = some a) (tempBuffer : List UInt8) :
    ∃ next, writeBufferPart tempBuffer handles dest source ammount =
        some (min a bs.unread.length, next) ∧
      CopiedPart handles next dest source bd bs (min a bs.unread.length) := by
  set n := min a bs.unread.length with hn
  have hn_le : n ≤ bs.unread.length := by omega
  have hsplit : 4096 * (n / 4096) + n % 4096 = n := Nat.div_add_mod n 4096
  obtain ⟨full, middle, hblocks, hcopied⟩ := copyFullBuffers_copiedPart (n / 4096) hdest hsource
    hpos (by omega) tempBuffer
  obtain ⟨appended, hsource', happended⟩ := hcopied.exists_source
  have hrest : n % 4096 ≤
      (Buffer.mk (bs.data ++ appended) (bs.readIndex + 4096 * (n / 4096))).unread.length := by
    rw [unread_source hpos (by omega), List.length_append, List.length_drop]
    omega
  obtain ⟨last, next, hblock, hmore⟩ := copyBlock_copiedPart hcopied.dest_eq hsource'
    (positioned_source hpos (by omega) appended) hrest full
  refine ⟨next, ?_, ?_⟩
  · have hremaining : (ReadWritable.Object.buffer bs).bytesRemaining = bs.unread.length :=
      hpos.bytesRemaining_eq_length
    unfold writeBufferPart
    rw [ha, Option.bind_some, hdest, hsource]
    simp only
    rw [hremaining, ← hn, hblocks, Option.bind_some]
    simp only
    rw [hblock, Option.map_some]
  · have htotal := hcopied.trans hpos (by omega) happended hmore
    rwa [hsplit] at htotal

/-- The read position that write_buffer computes is put back. -/
theorem setReadpos_copied {n : ℕ} {appended : List UInt8} {pos : ℕ}
    (hsource : handles.readWritable source = some (.buffer ⟨bs.data ++ appended, n⟩))
    (hle : pos ≤ bs.data.length) :
    handles.setReadpos source pos = handles.setBuffer source ⟨bs.data ++ appended, pos⟩ := by
  unfold Handles.setReadpos
  rw [getBuffer_of_buffer hsource]
  simp only
  unfold Buffer.setReadpos
  rw [if_pos (by rw [List.length_append]; omega)]

/-- The source is read from its begin. -/
theorem setReadpos_zero (hsource : handles.readWritable source = some (.buffer bs)) :
    handles.setReadpos source 0 = handles.setBuffer source ⟨bs.data, 0⟩ := by
  have hsource' : handles.readWritable source = some (.buffer ⟨bs.data ++ [], bs.readIndex⟩) := by
    rw [List.append_nil]
    exact hsource
  have hset := setReadpos_copied hsource' (Nat.zero_le _)
  rwa [List.append_nil] at hset

/-- The destination is rewound with its source if it is the same buffer. -/
theorem readWritable_rewound (hdest : handles.readWritable dest = some (.buffer bd))
    (hsource : handles.readWritable source = some (.buffer bs)) :
    (handles.setBuffer source ⟨bs.data, 0⟩).readWritable dest = some (.buffer
      ⟨bd.data, if handleKey dest = handleKey source then 0 else bd.readIndex⟩) := by
  by_cases hkey : handleKey dest = handleKey source
  · obtain rfl := eq_of_handleKey_eq hdest hsource hkey
    rw [if_pos hkey, readWritable_congr hkey]
    exact readWritable_setBuffer hsource ⟨bd.data, 0⟩
  · rw [if_neg hkey, readWritable_setBuffer_of_ne hsource _ hkey]
    exact hdest

theorem writeBuffer_copiedWhole (hdest : handles.readWritable dest = some (.buffer bd))
    (hsource : handles.readWritable source = some (.buffer bs)) (hpos : bs.Positioned)
    (hsize : bs.size ≤ TcpConnected.sizeMax) (tempBuffer : List UInt8) :
    ∃ next, writeBuffer tempBuffer handles dest source = some (0, next) ∧
      CopiedWhole handles next dest source bd bs := by
  have hunread : (Buffer.mk bs.data 0).unread.take bs.size = bs.data := List.take_length
  obtain ⟨next, hwrite, hpart⟩ := writeBufferPart_copiedPart
    (readWritable_rewound hdest hsource) (readWritable_setBuffer hsource ⟨bs.data, 0⟩)
    (Nat.zero_le _) (clippedSize_natCast hsize) tempBuffer
  have hamount : min bs.size (Buffer.mk bs.data 0).unread.length = bs.size := Nat.min_self _
  rw [hamount] at hpart
  obtain ⟨appended, hcopied, happended⟩ := hpart.exists_source
  have hset : next.setReadpos source bs.readIndex =
      next.setBuffer source ⟨bs.data ++ appended, bs.readIndex⟩ := setReadpos_copied hcopied hpos
  refine ⟨next.setBuffer source ⟨bs.data ++ appended, bs.readIndex⟩, ?_, ?_, ?_, ?_, ?_⟩
  · have hobject := readWritable_eq_some_iff.mp hsource
    unfold writeBuffer
    rw [hdest, hobject]
    change (writeBufferPart tempBuffer (handles.setReadpos source 0) dest source
      (.finite bs.size)).map _ = _
    rw [setReadpos_zero hsource, hwrite, Option.map_some, hpos.sizeSub_bytesRemaining]
    simp only
    rw [hset]
  · by_cases hkey : handleKey dest = handleKey source
    · obtain rfl := eq_of_handleKey_eq hdest hsource hkey
      rw [if_pos hkey, hunread] at happended
      rw [readWritable_congr hkey, happended]
      rw [happended] at hcopied
      exact readWritable_setBuffer hcopied _
    · rw [readWritable_setBuffer_of_ne hcopied _ hkey, hpart.dest_eq, hunread, if_neg hkey,
        if_neg hkey]
  · have hdata : bs.data ++ appended =
        if handleKey dest = handleKey source then bs.data ++ bs.data else bs.data := by
      rw [hunread] at happended
      rw [happended]
      split
      · rfl
      · exact List.append_nil _
    rw [← hdata]
    exact readWritable_setBuffer hcopied _
  · intro other hother hother'
    rw [object_setBuffer_of_ne hcopied _ hother', hpart.others other hother hother',
      object_setBuffer_of_ne hsource _ hother']
  · rw [nextHandle_setBuffer, hpart.nextHandle, nextHandle_setBuffer]

/-- A copy appends exactly the bytes that were there before, also one of a buffer to
itself. -/
theorem writeBufferPart_and_writeBuffer (tempBuffer : List UInt8) (handles : Handles)
    (dest source : Datum binary64) (bd bs : Buffer)
    (hdest : handles.readWritable dest = some (.buffer bd))
    (hsource : handles.readWritable source = some (.buffer bs)) (hpos : bs.Positioned)
    (hsize : bs.size ≤ TcpConnected.sizeMax) :
    (∀ ammount, ammount ≠ .nan → ∃ a next, clippedSize ammount = some a ∧
        writeBufferPart tempBuffer handles dest source ammount =
          some (min a bs.unread.length, next) ∧
        CopiedPart handles next dest source bd bs (min a bs.unread.length)) ∧
      ∃ next, writeBuffer tempBuffer handles dest source = some (0, next) ∧
        CopiedWhole handles next dest source bd bs := by
  constructor
  · intro ammount hnan
    obtain ⟨a, ha⟩ := exists_clippedSize hnan
    obtain ⟨next, hwrite, hcopied⟩ :=
      writeBufferPart_copiedPart hdest hsource hpos ha tempBuffer
    exact ⟨a, next, ha, hwrite, hcopied⟩
  · exact writeBuffer_copiedWhole hdest hsource hpos hsize tempBuffer

/-- A buffer of three bytes, one of which has been read, is copied to itself. -/
theorem writeBufferPart_and_writeBuffer_self :
    (∃ a next, clippedSize (.infinite false) = some a ∧
      writeBufferPart (List.replicate 4096 0) (ofBuffer ⟨[1, 2, 3], 1⟩) firstHandle firstHandle
        (.infinite false) = some (min a 2, next) ∧
      CopiedPart (ofBuffer ⟨[1, 2, 3], 1⟩) next firstHandle firstHandle ⟨[1, 2, 3], 1⟩
        ⟨[1, 2, 3], 1⟩ (min a 2)) ∧
    ∃ next, writeBuffer (List.replicate 4096 0) (ofBuffer ⟨[1, 2, 3], 1⟩) firstHandle
        firstHandle = some (0, next) ∧
      CopiedWhole (ofBuffer ⟨[1, 2, 3], 1⟩) next firstHandle firstHandle ⟨[1, 2, 3], 1⟩
        ⟨[1, 2, 3], 1⟩ := by
  have hbuffer := readWritable_ofObject (.buffer ⟨[1, 2, 3], 1⟩)
  have hpos : (1 : ℕ) ≤ [1, 2, 3].length := by decide
  have hcopies := writeBufferPart_and_writeBuffer (List.replicate 4096 0)
    (ofBuffer ⟨[1, 2, 3], 1⟩) firstHandle firstHandle _ _ hbuffer hbuffer hpos (by decide)
  exact ⟨hcopies.1 (.infinite false) (by simp), hcopies.2⟩

end

end Handles

end FaucetNetworking
