import FaucetNetworking.SendBuffer
import FaucetNetworking.Lib.StateMachine

/-!
The chunked send buffer refines a queue with a commit mark. The invariant is a
single equation on the concatenated chunks: popped cells in front, then the
queue, then the cells never written to. Writes only ever fill cells of the last
kind, so the bytes behind a captured buffer sequence stay in place.
-/
namespace FaucetNetworking

theorem toInt_BUFFER_SIZE : toInt BUFFER_SIZE = 65536 := by decide

/-- Every chunk found by its name is still found, with all its written cells. -/
def MemoryExtends (buffers buffers' : List Chunk) : Prop :=
  ∀ block c, findChunk buffers block = some c →
    ∃ c', findChunk buffers' block = some c' ∧ Cells.Extends c.cells c'.cells

theorem MemoryExtends.refl (buffers : List Chunk) : MemoryExtends buffers buffers :=
  fun _ c h => ⟨c, h, Cells.Extends.refl _⟩

theorem MemoryExtends.trans {buffers buffers' buffers'' : List Chunk}
    (h : MemoryExtends buffers buffers') (h' : MemoryExtends buffers' buffers'') :
    MemoryExtends buffers buffers'' := by
  intro block c hc
  obtain ⟨c', hc', hext⟩ := h block c hc
  obtain ⟨c'', hc'', hext'⟩ := h' block c' hc'
  exact ⟨c'', hc'', hext.trans hext'⟩

theorem memoryExtends_append (buffers extra : List Chunk) :
    MemoryExtends buffers (buffers ++ extra) := by
  intro block c hc
  refine ⟨c, ?_, Cells.Extends.refl _⟩
  unfold findChunk at *
  rw [List.find?_append, hc]
  rfl

theorem memoryExtends_replace_last (front : List Chunk) {c c' : Chunk}
    (hblock : c'.block = c.block) (hext : Cells.Extends c.cells c'.cells) :
    MemoryExtends (front ++ [c]) (front ++ [c']) := by
  intro block d hd
  unfold findChunk at *
  rw [List.find?_append] at hd ⊢
  cases hfront : front.find? (fun c => c.block = block) with
  | some e =>
    rw [hfront, Option.some_or] at hd
    rw [Option.some_or]
    exact ⟨d, hd, Cells.Extends.refl _⟩
  | none =>
    rw [hfront, Option.none_or] at hd
    rw [Option.none_or]
    by_cases hb : c.block = block
    · rw [List.find?_cons_of_pos (by simpa using hb), Option.some.injEq] at hd
      rw [List.find?_cons_of_pos (by simpa [hblock] using hb)]
      subst hd
      exact ⟨c', rfl, hext⟩
    · rw [List.find?_cons_of_neg (by simpa using hb)] at hd
      simp at hd

theorem readBuffer_extends {buffers buffers' : List Chunk} (h : MemoryExtends buffers buffers')
    {b : ConstBuffer} {bytes : List UInt8} (hread : readBuffer buffers b = some bytes) :
    readBuffer buffers' b = some bytes := by
  unfold readBuffer at *
  obtain ⟨c, hc, hbytes⟩ := Option.bind_eq_some_iff.mp hread
  obtain ⟨c', hc', hext⟩ := h b.block c hc
  rw [hc', Option.bind_some]
  split at hbytes
  · rename_i hbound
    rw [if_pos hbound]
    exact Cells.readAll_slice_extends hext hbytes
  · contradiction

/-- The bytes behind a captured sequence do not change while memory only grows. -/
theorem gather_extends {buffers buffers' : List Chunk} (h : MemoryExtends buffers buffers')
    {sequence : List ConstBuffer} {bytes : List UInt8}
    (hgather : gather buffers sequence = some bytes) : gather buffers' sequence = some bytes := by
  induction sequence generalizing bytes with
  | nil => exact hgather
  | cons b rest ih =>
    simp only [gather, Option.bind_eq_some_iff, Option.map_eq_some_iff] at hgather ⊢
    obtain ⟨head, hhead, tail, htail, rfl⟩ := hgather
    exact ⟨head, readBuffer_extends h hhead, tail, ih htail, rfl⟩

theorem store_last (front : List Chunk) (c : Chunk) (p : Pointer) (data : List UInt8)
    (hfront : ∀ d ∈ front, d.block ≠ p.block) (hc : c.block = p.block)
    (h : p.offset + data.length ≤ BUFFER_SIZE) :
    memmove.store data p (front ++ [c]) = some (front ++ [c.overwrite p.offset data h]) := by
  induction front with
  | nil => simp only [List.nil_append, memmove.store, hc, if_true, dif_pos h]
  | cons d rest ih =>
    have hd : d.block ≠ p.block := hfront d (List.mem_cons_self ..)
    simp only [List.cons_append, memmove.store, if_neg hd,
      ih fun e he => hfront e (List.mem_cons_of_mem d he), Option.map_some]

theorem length_flatMap_cells (buffers : List Chunk) :
    (buffers.flatMap Chunk.cells).length = buffers.length * BUFFER_SIZE := by
  induction buffers with
  | nil => rw [List.flatMap_nil, List.length_nil, List.length_nil, Nat.zero_mul]
  | cons c rest ih =>
    rw [List.flatMap_cons, List.length_append, ih, c.length_cells, List.length_cons]
    rw [Nat.add_mul, Nat.one_mul, Nat.add_comm]

theorem flatMap_cells_drop (buffers : List Chunk) (n : ℕ) :
    (buffers.drop n).flatMap Chunk.cells =
      (buffers.flatMap Chunk.cells).drop (n * BUFFER_SIZE) := by
  induction buffers generalizing n with
  | nil => rw [List.drop_nil, List.flatMap_nil, List.drop_nil]
  | cons c rest ih =>
    cases n with
    | zero => rw [List.drop_zero, Nat.zero_mul, List.drop_zero]
    | succ n =>
      rw [List.drop_succ_cons, ih, List.flatMap_cons]
      rw [show (n + 1) * BUFFER_SIZE = c.cells.length + n * BUFFER_SIZE by
        rw [c.length_cells, Nat.add_mul, Nat.one_mul, Nat.add_comm]]
      rw [List.drop_length_add_append]

theorem findChunk_of_mem {buffers : List Chunk} (hdistinct : (buffers.map Chunk.block).Nodup)
    {c : Chunk} (hc : c ∈ buffers) : findChunk buffers c.block = some c := by
  unfold findChunk
  induction buffers with
  | nil => simp at hc
  | cons d rest ih =>
    rw [List.map_cons, List.nodup_cons] at hdistinct
    rcases List.mem_cons.mp hc with rfl | hrest
    · rw [List.find?_cons_of_pos (by simp)]
    · have hne : d.block ≠ c.block := by
        intro heq
        exact hdistinct.1 (heq ▸ List.mem_map_of_mem hrest)
      rw [List.find?_cons_of_neg (by simpa using hne)]
      exact ih hdistinct.2 hrest

theorem readBuffer_eq_some_iff (buffers : List Chunk) (b : ConstBuffer) (data : List UInt8) :
    readBuffer buffers b = some data ↔ ∃ c, findChunk buffers b.block = some c ∧
      b.offset + b.size ≤ BUFFER_SIZE ∧ Cells.slice c.cells b.offset b.size = data.map some := by
  unfold readBuffer
  rw [Option.bind_eq_some_iff]
  refine exists_congr fun c => and_congr_right fun _ => ?_
  split
  · rename_i hbound
    rw [Cells.readAll_eq_some_iff]
    simp only [hbound, true_and]
  · rename_i hbound
    simp only [reduceCtorEq, hbound, false_and]

/-- Reading a sequence yields as many bytes as its buffers announce. -/
theorem length_of_gather {buffers : List Chunk} {sequence : List ConstBuffer}
    {data : List UInt8} (h : gather buffers sequence = some data) :
    data.length = sequenceSize sequence := by
  induction sequence generalizing data with
  | nil =>
    rw [← Option.some.inj h]
    rfl
  | cons b rest ih =>
    simp only [gather, Option.bind_eq_some_iff, Option.map_eq_some_iff] at h
    obtain ⟨head, hhead, tail, htail, rfl⟩ := h
    obtain ⟨c, -, hbound, hslice⟩ := (readBuffer_eq_some_iff _ _ _).mp hhead
    have hlen := congrArg List.length hslice
    rw [Cells.slice, List.length_take, List.length_drop, c.length_cells, List.length_map] at hlen
    rw [List.length_append, ih htail]
    simp only [sequenceSize, List.map_cons, List.sum_cons]
    omega

namespace SendBuffer

/-- All cells of the live chunks, in order. -/
def cells (sb : SendBuffer) : List (Option UInt8) := sb.buffers.flatMap Chunk.cells

/-- The chunks from firstElementIndex to the free space of the last one. -/
def storedContent (sb : SendBuffer) : List (Option UInt8) :=
  (sb.cells.take (sb.cells.length - sb.freeSpaceInLastBuffer)).drop sb.firstElementIndex

/-- endPtr is freeSpaceInLastBuffer bytes before the end of the last chunk. -/
def EndPtrAtFreeSpace (sb : SendBuffer) : Prop :=
  0 < sb.freeSpaceInLastBuffer → ∃ c, sb.buffers.getLast? = some c ∧
    sb.endPtr = some ⟨c.block, BUFFER_SIZE - sb.freeSpaceInLastBuffer⟩

structure Represents (sb : SendBuffer) (q : CommitQueue UInt8) : Prop where
  layout : ∃ front, front.length = sb.firstElementIndex ∧
    sb.cells = front ++ q.content.map some ++ List.replicate sb.freeSpaceInLastBuffer none
  first_lt : sb.firstElementIndex < BUFFER_SIZE
  free_le : sb.freeSpaceInLastBuffer ≤ BUFFER_SIZE
  committed : sb.committedBytes = q.committed
  endPtr : sb.EndPtrAtFreeSpace
  fresh : ∀ c ∈ sb.buffers, c.block < sb.nextBlock
  distinct : (sb.buffers.map Chunk.block).Nodup

theorem length_cells (sb : SendBuffer) :
    sb.cells.length = sb.buffers.length * BUFFER_SIZE := length_flatMap_cells sb.buffers

theorem Represents.length_eq {sb : SendBuffer} {q : CommitQueue UInt8} (h : sb.Represents q) :
    sb.buffers.length * BUFFER_SIZE =
      sb.firstElementIndex + q.content.length + sb.freeSpaceInLastBuffer := by
  obtain ⟨front, hfront, hcells⟩ := h.layout
  rw [← sb.length_cells, hcells]
  simp only [List.length_append, List.length_map, List.length_replicate, hfront]

theorem Represents.totalSize_eq {sb : SendBuffer} {q : CommitQueue UInt8}
    (h : sb.Represents q) : sb.totalSize = q.content.length := by
  have hlen := h.length_eq
  unfold totalSize
  rw [sizeSub_of_le (a := sb.buffers.length * BUFFER_SIZE) (by omega), sizeSub_of_le (by omega)]
  omega

theorem Represents.storedContent_eq {sb : SendBuffer} {q : CommitQueue UInt8}
    (h : sb.Represents q) : sb.storedContent = q.content.map some := by
  obtain ⟨front, hfront, hcells⟩ := h.layout
  unfold storedContent
  rw [hcells, List.length_append, List.length_replicate, Nat.add_sub_cancel,
    List.take_left' rfl, ← hfront, List.drop_left' rfl]

theorem new_represents : SendBuffer.new.Represents CommitQueue.empty where
  layout := ⟨[], rfl, rfl⟩
  first_lt := by decide
  free_le := Nat.zero_le _
  committed := rfl
  endPtr := fun h => absurd h (Nat.lt_irrefl 0)
  fresh := fun c hc => absurd hc List.not_mem_nil
  distinct := List.nodup_nil

theorem clear_represents {sb : SendBuffer} : sb.clear.Represents CommitQueue.empty where
  layout := ⟨[], rfl, rfl⟩
  first_lt := by
    change 0 < BUFFER_SIZE
    decide
  free_le := Nat.zero_le _
  committed := rfl
  endPtr := fun h => absurd h (Nat.lt_irrefl 0)
  fresh := fun c hc => absurd hc List.not_mem_nil
  distinct := List.nodup_nil

theorem commit_represents {sb : SendBuffer} {q : CommitQueue UInt8} (h : sb.Represents q) :
    sb.commit.Represents q.commit where
  layout := h.layout
  first_lt := h.first_lt
  free_le := h.free_le
  committed := h.totalSize_eq
  endPtr := h.endPtr
  fresh := h.fresh
  distinct := h.distinct

/-- With free space left, the last chunk ends in exactly that many fresh cells. -/
theorem Represents.last_chunk {sb : SendBuffer} {q : CommitQueue UInt8} (h : sb.Represents q)
    (hfree : 0 < sb.freeSpaceInLastBuffer) :
    ∃ front c cells, sb.buffers = front ++ [c] ∧
      sb.endPtr = some ⟨c.block, BUFFER_SIZE - sb.freeSpaceInLastBuffer⟩ ∧
      cells.length = BUFFER_SIZE - sb.freeSpaceInLastBuffer ∧
      c.cells = cells ++ List.replicate sb.freeSpaceInLastBuffer none := by
  obtain ⟨c, hlast, hend⟩ := h.endPtr hfree
  obtain ⟨front, hbuffers⟩ := List.getLast?_eq_some_iff.mp hlast
  obtain ⟨used, -, hcells⟩ := h.layout
  have hsuffix : c.cells <:+ sb.cells := by
    unfold cells
    rw [hbuffers, List.flatMap_append, List.flatMap_singleton]
    exact List.suffix_append _ _
  have hfreeSuffix : List.replicate sb.freeSpaceInLastBuffer none <:+ sb.cells := by
    rw [hcells]
    exact List.suffix_append _ _
  obtain ⟨cells, hc⟩ := List.suffix_of_suffix_length_le hfreeSuffix hsuffix (by
    rw [List.length_replicate, c.length_cells]
    exact h.free_le)
  refine ⟨front, c, cells, hbuffers, hend, ?_, hc.symm⟩
  have hlen := congrArg List.length hc
  rw [List.length_append, List.length_replicate, c.length_cells] at hlen
  omega

/-- A copy through endPtr that fits fills the first free cells and nothing else. -/
theorem Represents.memmove_eq {sb : SendBuffer} {q : CommitQueue UInt8} (h : sb.Represents q)
    (data : List UInt8) (hfit : data.length ≤ sb.freeSpaceInLastBuffer) :
    ∃ buffers front, memmove sb.buffers sb.endPtr data = some buffers ∧
      front.length = sb.firstElementIndex ∧
      buffers.flatMap Chunk.cells = front ++ (q.content ++ data).map some ++
        List.replicate (sb.freeSpaceInLastBuffer - data.length) none ∧
      buffers.map Chunk.block = sb.buffers.map Chunk.block ∧
      MemoryExtends sb.buffers buffers := by
  obtain ⟨used, hused, hcells⟩ := h.layout
  cases data with
  | nil =>
    refine ⟨sb.buffers, used, by simp only [memmove], hused, ?_, rfl, MemoryExtends.refl _⟩
    rw [List.append_nil, List.length_nil, Nat.sub_zero]
    exact hcells
  | cons x xs =>
    have hfree : 0 < sb.freeSpaceInLastBuffer := Nat.lt_of_lt_of_le (Nat.succ_pos _) hfit
    obtain ⟨front, c, cells, hbuffers, hend, hlen, hc⟩ := h.last_chunk hfree
    have hdistinct := h.distinct
    rw [hbuffers, List.map_append, List.map_singleton, List.nodup_append] at hdistinct
    have hblocks : ∀ d ∈ front, d.block ≠ c.block := fun d hd =>
      hdistinct.2.2 d.block (List.mem_map_of_mem hd) c.block (List.mem_singleton_self _)
    have hroom : BUFFER_SIZE - sb.freeSpaceInLastBuffer + (x :: xs).length ≤ BUFFER_SIZE := by
      have := h.free_le
      omega
    have hstore := store_last front c ⟨c.block, BUFFER_SIZE - sb.freeSpaceInLastBuffer⟩
      (x :: xs) hblocks rfl hroom
    have hfilled : (c.overwrite _ (x :: xs) hroom).cells = cells ++ (x :: xs).map some ++
        List.replicate (sb.freeSpaceInLastBuffer - (x :: xs).length) none := by
      change Cells.overwrite c.cells _ (x :: xs) = _
      rw [hc, ← hlen, Cells.overwrite_append_replicate]
    have hold : front.flatMap Chunk.cells ++ cells = used ++ q.content.map some := by
      unfold SendBuffer.cells at hcells
      rw [hbuffers, List.flatMap_append, List.flatMap_singleton, hc, ← List.append_assoc] at hcells
      exact List.append_cancel_right hcells
    refine ⟨front ++ [c.overwrite _ (x :: xs) hroom], used, ?_, hused, ?_, ?_, ?_⟩
    · rw [hend, hbuffers]
      exact hstore
    · rw [List.flatMap_append, List.flatMap_singleton, hfilled, List.map_append]
      simp only [← List.append_assoc, hold]
    · rw [hbuffers, List.map_append, List.map_append]
      rfl
    · rw [hbuffers]
      have hblock : (c.overwrite _ (x :: xs) hroom).block = c.block := rfl
      apply memoryExtends_replace_last front hblock
      change Cells.Extends c.cells (Cells.overwrite c.cells _ (x :: xs))
      rw [hc, ← hlen]
      exact Cells.extends_overwrite cells _ _ hfit

/-- One turn of the loop in push: the last chunk is filled up and a new one added. -/
theorem Represents.grow {sb : SendBuffer} {q : CommitQueue UInt8} (h : sb.Represents q)
    (data : List UInt8) (hlen : data.length = sb.freeSpaceInLastBuffer) :
    ∃ buffers, memmove sb.buffers sb.endPtr data = some buffers ∧
      MemoryExtends sb.buffers (buffers ++ [Chunk.new sb.nextBlock]) ∧
      { sb with
        buffers := buffers ++ [Chunk.new sb.nextBlock]
        endPtr := some ⟨sb.nextBlock, 0⟩
        freeSpaceInLastBuffer := BUFFER_SIZE
        nextBlock := sb.nextBlock + 1 : SendBuffer }.Represents (q.push data) := by
  obtain ⟨buffers, front, hmove, hfront, hcells, hblocks, hext⟩ :=
    h.memmove_eq data (Nat.le_of_eq hlen)
  rw [hlen, Nat.sub_self, List.replicate_zero, List.append_nil] at hcells
  have hold : ∀ c ∈ buffers, c.block < sb.nextBlock := by
    intro c hc
    have hmem : c.block ∈ sb.buffers.map Chunk.block := hblocks ▸ List.mem_map_of_mem hc
    obtain ⟨d, hd, hblock⟩ := List.mem_map.mp hmem
    exact hblock ▸ h.fresh d hd
  refine ⟨buffers, hmove, hext.trans (memoryExtends_append _ _), ?_⟩
  exact {
    layout := by
      refine ⟨front, hfront, ?_⟩
      change (buffers ++ [Chunk.new sb.nextBlock]).flatMap Chunk.cells = _
      rw [List.flatMap_append, List.flatMap_singleton, hcells]
      rfl
    first_lt := h.first_lt
    free_le := Nat.le_refl _
    committed := h.committed
    endPtr := by
      intro _
      refine ⟨Chunk.new sb.nextBlock, ?_, ?_⟩
      · rw [List.getLast?_append, List.getLast?_singleton, Option.some_or]
      · rw [Nat.sub_self]
        rfl
    fresh := by
      intro c hc
      rcases List.mem_append.mp hc with hc | hc
      · exact Nat.lt_succ_of_lt (hold c hc)
      · rw [List.mem_singleton.mp hc]
        exact Nat.lt_succ_self _
    distinct := by
      rw [List.map_append, List.map_singleton, List.nodup_append]
      refine ⟨hblocks ▸ h.distinct, List.pairwise_singleton _ _, ?_⟩
      intro a ha b hb
      obtain ⟨c, hc, rfl⟩ := List.mem_map.mp ha
      rw [List.mem_singleton.mp hb]
      exact Nat.ne_of_lt (hold c hc)
  }

/-- The last turn of push: the rest of the data fits into the last chunk. -/
theorem Represents.fill {sb : SendBuffer} {q : CommitQueue UInt8} (h : sb.Represents q)
    (data : List UInt8) (hfit : data.length ≤ sb.freeSpaceInLastBuffer) :
    ∃ buffers, memmove sb.buffers sb.endPtr data = some buffers ∧
      MemoryExtends sb.buffers buffers ∧
      { sb with
        buffers := buffers
        endPtr := sb.endPtr.map fun p => ⟨p.block, p.offset + data.length⟩
        freeSpaceInLastBuffer := sb.freeSpaceInLastBuffer - data.length :
          SendBuffer }.Represents (q.push data) := by
  obtain ⟨buffers, front, hmove, hfront, hcells, hblocks, hext⟩ := h.memmove_eq data hfit
  refine ⟨buffers, hmove, hext, ?_⟩
  exact {
    layout := ⟨front, hfront, hcells⟩
    first_lt := h.first_lt
    free_le := Nat.le_trans (Nat.sub_le _ _) h.free_le
    committed := h.committed
    endPtr := by
      intro hfree
      have hpos : 0 < sb.freeSpaceInLastBuffer := Nat.lt_of_lt_of_le hfree (Nat.sub_le _ _)
      obtain ⟨c, hlast, hend⟩ := h.endPtr hpos
      have hlastBlock : buffers.getLast?.map Chunk.block = some c.block := by
        rw [← List.getLast?_map, hblocks, List.getLast?_map, hlast]
        rfl
      obtain ⟨d, hd, hblock⟩ := Option.map_eq_some_iff.mp hlastBlock
      refine ⟨d, hd, ?_⟩
      have hle := h.free_le
      rw [hend, Option.map_some, hblock, Option.some.injEq, Pointer.mk.injEq]
      refine ⟨rfl, ?_⟩
      change BUFFER_SIZE - sb.freeSpaceInLastBuffer + data.length =
        BUFFER_SIZE - (sb.freeSpaceInLastBuffer - data.length)
      omega
    fresh := by
      intro c hc
      have hmem : c.block ∈ sb.buffers.map Chunk.block := hblocks ▸ List.mem_map_of_mem hc
      obtain ⟨d, hd, hblock⟩ := List.mem_map.mp hmem
      exact hblock ▸ h.fresh d hd
    distinct := by
      change (buffers.map Chunk.block).Nodup
      rw [hblocks]
      exact h.distinct
  }

/-- Pushing never touches freed or written memory and appends the data. -/
theorem push_represents {sb : SendBuffer} {q : CommitQueue UInt8} (data : List UInt8)
    (h : sb.Represents q) :
    ∃ sb', sb.push data = .ok sb' ∧ sb'.Represents (q.push data) ∧
      MemoryExtends sb.buffers sb'.buffers := by
  induction sb, data using SendBuffer.push.induct generalizing q with
  | case1 sb data hlong hmove =>
    obtain ⟨buffers, hsome, -⟩ := h.grow (data.take sb.freeSpaceInLastBuffer)
      (List.length_take_of_le (Nat.le_of_lt hlong))
    rw [hsome] at hmove
    contradiction
  | case2 sb data hlong buffers hmove ih =>
    obtain ⟨buffers', hsome, hext, hrep⟩ := h.grow (data.take sb.freeSpaceInLastBuffer)
      (List.length_take_of_le (Nat.le_of_lt hlong))
    obtain rfl : buffers = buffers' := Option.some.inj (hmove.symm.trans hsome)
    obtain ⟨sb', hpush, hrep', hext'⟩ := ih hrep
    refine ⟨sb', ?_, ?_, hext.trans hext'⟩
    · rw [push, if_pos hlong, hmove]
      exact hpush
    · have hsplit : (q.push (data.take sb.freeSpaceInLastBuffer)).push
          (data.drop sb.freeSpaceInLastBuffer) = q.push data := by
        apply CommitQueue.ext
        · simp only [CommitQueue.content_push, List.append_assoc, List.take_append_drop]
        · rfl
      rw [← hsplit]
      exact hrep'
  | case3 sb data hshort hmove =>
    obtain ⟨buffers, hsome, -⟩ := h.fill data (Nat.le_of_not_lt hshort)
    rw [hsome] at hmove
    contradiction
  | case4 sb data hshort buffers hmove =>
    obtain ⟨buffers', hsome, hext, hrep⟩ := h.fill data (Nat.le_of_not_lt hshort)
    obtain rfl : buffers = buffers' := Option.some.inj (hmove.symm.trans hsome)
    refine ⟨_, ?_, hrep, hext⟩
    rw [push, if_neg hshort, hmove]

/-- Within the range of int, div yields the natural quotient and remainder. -/
theorem pop_eq (sb : SendBuffer) (n : ℕ) (hn : n ≤ sb.committedBytes)
    (hrange : sb.firstElementIndex + n < 2 ^ 31)
    (hchunks : (sb.firstElementIndex + n) / BUFFER_SIZE ≤ sb.buffers.length) :
    sb.pop n = .ok { sb with
      committedBytes := sb.committedBytes - n
      firstElementIndex := (sb.firstElementIndex + n) % BUFFER_SIZE
      buffers := sb.buffers.drop ((sb.firstElementIndex + n) / BUFFER_SIZE) } := by
  have hcast : toInt BUFFER_SIZE = (BUFFER_SIZE : ℤ) := toInt_BUFFER_SIZE
  have hrem : (sb.firstElementIndex + n) % BUFFER_SIZE < 2 ^ 32 :=
    Nat.lt_of_lt_of_le (Nat.mod_lt _ (by decide)) (by decide)
  unfold pop
  rw [if_neg (Nat.not_lt.mpr hn)]
  simp only [toInt_of_lt hrange, hcast, ← Int.ofNat_tdiv, ← Int.ofNat_tmod,
    toSize_natCast hrem, Int.toNat_natCast, if_pos hchunks]
  by_cases hzero : (sb.firstElementIndex + n) / BUFFER_SIZE = 0
  · simp only [hzero, Int.natCast_zero, gt_iff_lt, Int.lt_irrefl, if_false, List.drop_zero]
  · rw [if_pos (Int.natCast_pos.mpr (Nat.pos_of_ne_zero hzero))]

theorem pop_of_lt {sb : SendBuffer} {n : ℕ} (hn : sb.committedSize < n) :
    sb.pop n = .throws popMessage sb := by
  unfold pop
  exact if_pos hn

/-- Popping committed bytes frees exactly the chunks that became empty. -/
theorem pop_represents {sb : SendBuffer} {q : CommitQueue UInt8} {n : ℕ}
    (h : sb.Represents q) (hn : n ≤ q.committed) (hrange : sb.firstElementIndex + n < 2 ^ 31) :
    ∃ sb', sb.pop n = .ok sb' ∧ sb'.Represents (q.pop n) := by
  obtain ⟨front, hfront, hcells⟩ := h.layout
  have hlen := h.length_eq
  have hcontent : n ≤ q.content.length := Nat.le_trans hn q.committed_le
  have hmul : (sb.firstElementIndex + n) / BUFFER_SIZE * BUFFER_SIZE ≤
      sb.firstElementIndex + n := Nat.div_mul_le_self _ _
  have hmod := Nat.div_add_mod (sb.firstElementIndex + n) BUFFER_SIZE
  rw [Nat.mul_comm] at hmod
  have hchunks : (sb.firstElementIndex + n) / BUFFER_SIZE ≤ sb.buffers.length :=
    Nat.le_of_mul_le_mul_right (c := BUFFER_SIZE) (by omega) (by decide)
  refine ⟨_, pop_eq sb n (h.committed ▸ hn) hrange hchunks, ?_⟩
  exact {
    layout := by
      refine ⟨(front ++ (q.content.take n).map some).drop
        ((sb.firstElementIndex + n) / BUFFER_SIZE * BUFFER_SIZE), ?_, ?_⟩
      · simp only [List.length_drop, List.length_append, List.length_map, List.length_take]
        omega
      · have hsplit : sb.buffers.flatMap Chunk.cells = (front ++ (q.content.take n).map some) ++
            ((q.content.drop n).map some ++ List.replicate sb.freeSpaceInLastBuffer none) := by
          rw [show sb.buffers.flatMap Chunk.cells = sb.cells from rfl, hcells]
          simp only [List.append_assoc]
          rw [← List.append_assoc (List.map some (List.take n q.content)), ← List.map_append,
            List.take_append_drop]
        change (sb.buffers.drop _).flatMap Chunk.cells = _
        rw [flatMap_cells_drop, hsplit, List.drop_append_of_le_length, List.append_assoc]
        · rfl
        · simp only [List.length_append, List.length_map, List.length_take]
          omega
    first_lt := Nat.mod_lt _ (by decide)
    free_le := h.free_le
    committed := by
      change sb.committedBytes - n = q.committed - n
      rw [h.committed]
    endPtr := by
      intro hfree
      obtain ⟨c, hlast, hend⟩ := h.endPtr hfree
      have hkept : (sb.firstElementIndex + n) / BUFFER_SIZE < sb.buffers.length := by
        apply Nat.lt_of_mul_lt_mul_right (a := BUFFER_SIZE)
        simp only at hfree
        omega
      refine ⟨c, ?_, hend⟩
      change (sb.buffers.drop _).getLast? = some c
      rw [List.getLast?_drop, if_neg (by omega)]
      exact hlast
    fresh := fun c hc => h.fresh c (List.mem_of_mem_drop hc)
    distinct := by
      change ((sb.buffers.drop _).map Chunk.block).Nodup
      rw [List.map_drop]
      exact h.distinct.sublist (List.drop_sublist _ _)
  }

/-- The first pop out of the range of int: nothing is erased, so the bytes stay
in the buffer, only uncommitted. -/
theorem pop_outOfRange {sb : SendBuffer} {q : CommitQueue UInt8} (h : sb.Represents q)
    (hfirst : sb.firstElementIndex = 0) (hn : 2 ^ 31 ≤ q.committed) :
    ∃ sb', sb.pop (2 ^ 31) = .ok sb' ∧ sb'.Represents ⟨q.content, q.committed - 2 ^ 31,
      Nat.le_trans (Nat.sub_le _ _) q.committed_le⟩ := by
  refine ⟨{ sb with committedBytes := sb.committedBytes - 2 ^ 31, firstElementIndex := 0 },
    ?_, ?_⟩
  · have hcommitted := h.committed
    have hnumerator : toInt (0 + 2 ^ 31) = -2 ^ 31 := by decide
    have hquotient : (-2 ^ 31 : ℤ).tdiv (toInt BUFFER_SIZE) = -32768 := by decide
    have hremainder : (-2 ^ 31 : ℤ).tmod (toInt BUFFER_SIZE) = 0 := by decide
    unfold pop
    rw [if_neg (by omega), hfirst]
    simp only [hnumerator, hquotient, hremainder]
    rw [if_neg (by decide)]
    rfl
  · exact {
      layout := by
        obtain ⟨front, hfront, hcells⟩ := h.layout
        exact ⟨front, hfront.trans hfirst, hcells⟩
      first_lt := by
        change 0 < BUFFER_SIZE
        decide
      free_le := h.free_le
      committed := by rw [h.committed]
      endPtr := h.endPtr
      fresh := h.fresh
      distinct := h.distinct }

/-- A read from a chunk whose cells go on with the given bytes. -/
theorem readBuffer_front {buffers : List Chunk} {c : Chunk}
    (hchunk : findChunk buffers c.block = some c) {offset n : ℕ} {data : List UInt8}
    {tail : List (Option UInt8)} (hcells : c.cells.drop offset = data.map some ++ tail)
    (hn : n ≤ data.length) (hfit : offset + n ≤ BUFFER_SIZE) :
    readBuffer buffers ⟨c.block, offset, n⟩ = some (data.take n) := by
  refine (readBuffer_eq_some_iff _ _ _).mpr ⟨c, hchunk, hfit, ?_⟩
  simp only [Cells.slice, hcells]
  rw [List.take_append_of_le_length (by rw [List.length_map]; exact hn), List.map_take]

/-- A chunk with others behind it is full up to its end. -/
theorem full_chunk (c : Chunk) {offset free : ℕ} {cells : List (Option UInt8)}
    {data : List UInt8}
    (hcells : c.cells.drop offset ++ cells = data.map some ++ List.replicate free none)
    (hroom : BUFFER_SIZE - offset ≤ data.length) :
    c.cells.drop offset = (data.take (BUFFER_SIZE - offset)).map some ∧
      cells = (data.drop (BUFFER_SIZE - offset)).map some ++ List.replicate free none := by
  have hlen : (c.cells.drop offset).length = BUFFER_SIZE - offset := by
    rw [List.length_drop, c.length_cells]
  have hmap : BUFFER_SIZE - offset ≤ (data.map some).length := by
    rw [List.length_map]
    exact hroom
  constructor
  · have htake := congrArg (List.take (BUFFER_SIZE - offset)) hcells
    rw [List.take_left' hlen, List.take_append_of_le_length hmap] at htake
    rw [htake, List.map_take]
  · have hdrop := congrArg (List.drop (BUFFER_SIZE - offset)) hcells
    rw [List.drop_left' hlen, List.drop_append_of_le_length hmap] at hdrop
    rw [hdrop, List.map_drop]

theorem readBuffer_full {buffers : List Chunk} {c : Chunk}
    (hchunk : findChunk buffers c.block = some c) {offset free k : ℕ}
    {cells : List (Option UInt8)} {data : List UInt8}
    (hcells : c.cells.drop offset ++ cells = data.map some ++ List.replicate free none)
    (hoffset : offset ≤ BUFFER_SIZE) (hroom : BUFFER_SIZE - offset ≤ data.length)
    (hk : k ≤ BUFFER_SIZE - offset) :
    readBuffer buffers ⟨c.block, offset, k⟩ = some (data.take k) := by
  obtain ⟨hhead, -⟩ := full_chunk c hcells hroom
  have hlength : k ≤ (data.take (BUFFER_SIZE - offset)).length := by
    rw [List.length_take]
    omega
  have hfront := readBuffer_front hchunk (hhead.trans (List.append_nil _).symm) hlength (by omega)
  rwa [List.take_take, Nat.min_eq_left hk] at hfront

/-- The popped cells are in front of the first chunk only. -/
def startOffset (sb : SendBuffer) (i : ℕ) : ℕ := if i = 0 then sb.firstElementIndex else 0

theorem startOffset_lt {sb : SendBuffer} (hfirst : sb.firstElementIndex < BUFFER_SIZE) (i : ℕ) :
    sb.startOffset i < BUFFER_SIZE := by
  unfold startOffset
  split
  · exact hfirst
  · decide

theorem startOffset_succ (sb : SendBuffer) (i : ℕ) : sb.startOffset (i + 1) = 0 :=
  if_neg (Nat.succ_ne_zero i)

theorem chunkSize_eq {sb : SendBuffer} (hfirst : sb.firstElementIndex < BUFFER_SIZE) (i : ℕ) :
    (if i = 0 then sizeSub BUFFER_SIZE sb.firstElementIndex else BUFFER_SIZE) =
      BUFFER_SIZE - sb.startOffset i := by
  unfold startOffset
  split
  · exact sizeSub_of_le (Nat.le_of_lt hfirst)
  · rfl

/-- One round of the loop, for a chunk that is not the last one. -/
theorem sequenceFrom_front {sb : SendBuffer} (hfirst : sb.firstElementIndex < BUFFER_SIZE)
    {i n : ℕ} (hn : 0 < n) (hlast : ¬ i + 1 = sb.buffers.length) (c : Chunk)
    (rest : List Chunk) :
    committedAsConstBufferSequence.sequenceFrom sb i (c :: rest) n =
      ⟨c.block, sb.startOffset i, min n (BUFFER_SIZE - sb.startOffset i)⟩ ::
        committedAsConstBufferSequence.sequenceFrom sb (i + 1) rest
          (n - min n (BUFFER_SIZE - sb.startOffset i)) := by
  have hmin : (if BUFFER_SIZE - sb.startOffset i ≥ n then n
      else BUFFER_SIZE - sb.startOffset i) = min n (BUFFER_SIZE - sb.startOffset i) := by
    split <;> omega
  rw [committedAsConstBufferSequence.sequenceFrom, if_pos hn]
  simp only [chunkSize_eq hfirst, if_neg hlast, hmin]
  rfl

/-- The last round, for a chunk that holds all that is left. -/
theorem sequenceFrom_last {sb : SendBuffer} (hfirst : sb.firstElementIndex < BUFFER_SIZE)
    {i n : ℕ} (hn : 0 < n) (hlast : i + 1 = sb.buffers.length)
    (hfits : sb.startOffset i + n + sb.freeSpaceInLastBuffer ≤ BUFFER_SIZE) (c : Chunk) :
    committedAsConstBufferSequence.sequenceFrom sb i [c] n =
      [⟨c.block, sb.startOffset i, n⟩] := by
  have hall : sizeSub (BUFFER_SIZE - sb.startOffset i) sb.freeSpaceInLastBuffer ≥ n := by
    rw [sizeSub_of_le (by omega)]
    omega
  rw [committedAsConstBufferSequence.sequenceFrom, if_pos hn]
  simp only [chunkSize_eq hfirst, if_pos hlast, if_pos hall]
  rfl

/-- The loop of committedAsConstBufferSequence from index i on, at the chunks
that are left. The induction is over these chunks; the first of them still has
the popped cells in front when i is zero. -/
theorem gather_sequenceFrom (sb : SendBuffer) (hdistinct : (sb.buffers.map Chunk.block).Nodup)
    (hfirst : sb.firstElementIndex < BUFFER_SIZE) (hfree : sb.freeSpaceInLastBuffer ≤ BUFFER_SIZE)
    (i : ℕ) (rest : List Chunk) (data : List UInt8) (n : ℕ)
    (hi : i + rest.length = sb.buffers.length) (hmem : ∀ c ∈ rest, c ∈ sb.buffers)
    (hcells : (rest.flatMap Chunk.cells).drop (sb.startOffset i) =
      data.map some ++ List.replicate sb.freeSpaceInLastBuffer none)
    (hn : n ≤ data.length) :
    gather sb.buffers (committedAsConstBufferSequence.sequenceFrom sb i rest n) =
      some (data.take n) := by
  induction rest generalizing i data n with
  | nil =>
    rw [List.flatMap_nil, List.drop_nil] at hcells
    have hdata : data = [] := List.map_eq_nil_iff.mp (List.append_eq_nil_iff.mp hcells.symm).1
    rw [hdata, List.take_nil]
    rfl
  | cons c rest ih =>
    by_cases hpos : 0 < n
    · have hoffset := startOffset_lt hfirst i
      have hchunk : findChunk sb.buffers c.block = some c :=
        findChunk_of_mem hdistinct (hmem c (List.mem_cons_self ..))
      have hfits : sb.startOffset i ≤ c.cells.length := by
        rw [c.length_cells]
        exact Nat.le_of_lt hoffset
      rw [List.flatMap_cons, List.drop_append_of_le_length hfits] at hcells
      have hlen := congrArg List.length hcells
      simp only [List.length_append, List.length_drop, c.length_cells, length_flatMap_cells,
        List.length_map, List.length_replicate] at hlen
      cases rest with
      | nil =>
        -- the last chunk: all that is left to send lies in front of its free space
        simp only [List.flatMap_nil, List.append_nil, List.length_nil, Nat.zero_mul,
          Nat.add_zero] at hcells hlen
        rw [sequenceFrom_last hfirst hpos hi (by omega), gather,
          readBuffer_front hchunk hcells hn (by omega), Option.bind_some, gather,
          Option.map_some, List.append_nil]
      | cons d rest =>
        rw [List.length_cons, List.length_cons] at hi
        rw [List.length_cons, Nat.add_mul, Nat.one_mul] at hlen
        have hroom : BUFFER_SIZE - sb.startOffset i ≤ data.length := by omega
        obtain ⟨-, htail⟩ := full_chunk c hcells hroom
        rw [sequenceFrom_front hfirst hpos (by omega)]
        generalize hk : min n (BUFFER_SIZE - sb.startOffset i) = k
        have hread : readBuffer sb.buffers ⟨c.block, sb.startOffset i, k⟩ = some (data.take k) :=
          readBuffer_full hchunk hcells hoffset.le hroom (by omega)
        have hrest := ih (i + 1) (data.drop (BUFFER_SIZE - sb.startOffset i)) (n - k)
          (by rw [List.length_cons]; omega) (fun e he => hmem e (List.mem_cons_of_mem c he))
          (by rw [startOffset_succ, List.drop_zero]; exact htail)
          (by rw [List.length_drop]; omega)
        rw [gather, hread, Option.bind_some, hrest, Option.map_some, Option.some.injEq]
        rcases Nat.le_total n (BUFFER_SIZE - sb.startOffset i) with hshort | hlong
        · rw [← hk, Nat.min_eq_left hshort, Nat.sub_self, List.take_zero, List.append_nil]
        · rw [← hk, Nat.min_eq_right hlong, ← List.take_add, Nat.add_sub_cancel' hlong]
    · rw [committedAsConstBufferSequence.sequenceFrom, if_neg hpos, Nat.eq_zero_of_not_pos hpos,
        List.take_zero]
      rfl

/-- The buffer sequence handed to the transport stands for the committed bytes. -/
theorem Represents.gather_committed {sb : SendBuffer} {q : CommitQueue UInt8}
    (h : sb.Represents q) :
    gather sb.buffers sb.committedAsConstBufferSequence = some q.window := by
  obtain ⟨front, hfront, hcells⟩ := h.layout
  unfold committedAsConstBufferSequence CommitQueue.window
  rw [h.committed]
  apply gather_sequenceFrom sb h.distinct h.first_lt h.free_le 0 sb.buffers q.content
  · rw [Nat.zero_add]
  · exact fun c hc => hc
  · change sb.cells.drop sb.firstElementIndex = _
    rw [hcells, ← hfront, List.append_assoc, List.drop_left' rfl]
  · exact q.committed_le

theorem apply_represents {sb : SendBuffer} {q r : CommitQueue UInt8}
    {op : CommitQueue.Op UInt8} (h : sb.Represents q) (hq : q.apply op = some r)
    (hrange : ∀ n, op = .pop n → sb.firstElementIndex + n < 2 ^ 31) :
    ∃ sb', sb.apply op = .ok sb' ∧ sb'.Represents r := by
  cases op with
  | push data =>
    obtain rfl : q.push data = r := Option.some.inj hq
    obtain ⟨sb', hpush, hrep, -⟩ := push_represents data h
    exact ⟨sb', hpush, hrep⟩
  | commit =>
    obtain rfl : q.commit = r := Option.some.inj hq
    exact ⟨sb.commit, rfl, commit_represents h⟩
  | pop n =>
    obtain ⟨hn, rfl⟩ := (CommitQueue.apply_pop_eq_some_iff q r n).mp hq
    exact pop_represents h hn (hrange n rfl)
  | clear =>
    obtain rfl : CommitQueue.empty = r := Option.some.inj hq
    exact ⟨sb.clear, rfl, clear_represents⟩

def step (sb : SendBuffer) (op : CommitQueue.Op UInt8) : Option SendBuffer :=
  (sb.apply op).toOption

/-- Every pop of the sequence stays in the range of the int that div takes. -/
def PopsInRange (sb : SendBuffer) : List (CommitQueue.Op UInt8) → Prop
  | [] => True
  | op :: ops => (∀ n, op = .pop n → sb.firstElementIndex + n < 2 ^ 31) ∧
      ∀ sb', sb.step op = some sb' → PopsInRange sb' ops

/-- What a reader of the buffer can see of the queue it stands for. -/
structure Refines (sb : SendBuffer) (q : CommitQueue UInt8) : Prop where
  content : sb.storedContent = q.content.map some
  total : sb.totalSize = q.content.length
  no_underflow : sb.freeSpaceInLastBuffer + sb.firstElementIndex ≤
    sb.buffers.length * BUFFER_SIZE
  committed : sb.committedSize = q.committed
  committed_le : sb.committedSize ≤ sb.totalSize
  sequence : gather sb.buffers sb.committedAsConstBufferSequence =
    some (q.content.take sb.committedSize)
  first_lt : sb.firstElementIndex < 65536
  endPtr : sb.EndPtrAtFreeSpace
  pop_guard : ∀ n, sb.committedSize < n → sb.pop n = .throws popMessage sb

theorem Represents.refines {sb : SendBuffer} {q : CommitQueue UInt8} (h : sb.Represents q) :
    sb.Refines q where
  content := h.storedContent_eq
  total := h.totalSize_eq
  no_underflow := by
    have := h.length_eq
    omega
  committed := h.committed
  committed_le := by
    rw [h.totalSize_eq, committedSize, h.committed]
    exact q.committed_le
  sequence := by
    rw [h.gather_committed, committedSize, h.committed]
    rfl
  first_lt := h.first_lt
  endPtr := h.endPtr
  pop_guard := fun _ => pop_of_lt

theorem run_represents {ops : List (CommitQueue.Op UInt8)} {sb : SendBuffer}
    {q r : CommitQueue UInt8} (h : sb.Represents q)
    (hq : StateMachine.run CommitQueue.apply q ops = some r) (hrange : sb.PopsInRange ops) :
    ∃ sb', StateMachine.run step sb ops = some sb' ∧ sb'.Represents r := by
  induction ops generalizing sb q with
  | nil =>
    obtain rfl : q = r := Option.some.inj hq
    exact ⟨sb, rfl, h⟩
  | cons op ops ih =>
    obtain ⟨q', hop, hrest⟩ := (StateMachine.run_cons_eq_some_iff _ _ _ _ _).mp hq
    obtain ⟨sb', happly, hrep⟩ := apply_represents h hop hrange.1
    have hstep : sb.step op = some sb' := (Outcome.toOption_eq_some_iff _ _).mpr happly
    obtain ⟨sb'', hrun, hrep'⟩ := ih hrep hrest (hrange.2 sb' hstep)
    exact ⟨sb'', (StateMachine.run_cons_eq_some_iff _ _ _ _ _).mpr ⟨sb', hstep, hrun⟩, hrep'⟩

/-- Every sequence of operations that the queue admits runs on the chunks
without touching dead memory, and the result stands for the same queue. -/
theorem refines_commitQueue (ops : List (CommitQueue.Op UInt8)) (q : CommitQueue UInt8)
    (hq : StateMachine.run CommitQueue.apply CommitQueue.empty ops = some q)
    (hrange : SendBuffer.new.PopsInRange ops) :
    ∃ sb, StateMachine.run step SendBuffer.new ops = some sb ∧ sb.Refines q := by
  obtain ⟨sb, hrun, hrep⟩ := run_represents new_represents hq hrange
  exact ⟨sb, hrun, hrep.refines⟩

/-- Two of three committed bytes popped: the third one is left to send. -/
theorem refines_commitQueue_three : ∃ sb,
    StateMachine.run step SendBuffer.new [.push [1, 2, 3], .commit, .pop 2] = some sb ∧
      sb.Refines ⟨[3], 1, by decide⟩ := by
  apply refines_commitQueue [.push [1, 2, 3], .commit, .pop 2] ⟨[3], 1, by decide⟩ rfl
  obtain ⟨sb, hpush, hrep, -⟩ := push_represents [1, 2, 3] new_represents
  refine ⟨fun n h => by simp at h, fun sb' hstep => ?_⟩
  have hsb : sb' = sb := by
    have hok := (Outcome.toOption_eq_some_iff _ _).mp hstep
    exact Outcome.ok.inj (hok.symm.trans hpush)
  refine ⟨fun n h => by simp at h, fun sb'' hcommit => ⟨fun n h => ?_, fun _ _ => trivial⟩⟩
  obtain rfl : sb'.commit = sb'' := Option.some.inj hcommit
  obtain rfl : 2 = n := by simpa using h
  have hlt : sb.firstElementIndex < 65536 := hrep.first_lt
  change sb'.firstElementIndex + 2 < 2 ^ 31
  rw [hsb]
  omega

end SendBuffer

end FaucetNetworking
