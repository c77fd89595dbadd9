import FaucetNetworking.Base64RoundTrip

/-!
What write_base64 announces before it writes. The validator counts the bytes of whole
quads and of the blocks that a padding character closes, and the decoder writes all that
its digits make up. The validator does not count what is left in a block at the end of the
text, and after the padding error that it reports as a success it has counted nothing.
-/
namespace FaucetNetworking.Base64Codec

open BitGroups Staging

/-- A destination that keeps what it is told: the announcements, and the bytes. -/
structure Recorder where
  announced : List ℕ
  appended : List UInt8

def recorder : AppendDestination Recorder where
  write := fun r bytes => { r with appended := r.appended ++ bytes }
  read := fun r _ => ([], r)
  readString := fun r _ => ([], r)
  bytesRemaining := fun r => r.appended.length
  setReadpos := fun r _ => r
  prepareWrite := fun r n => { r with announced := r.announced ++ [n] }
  content := Recorder.appended
  content_write := fun _ _ => rfl
  content_prepareWrite := fun _ _ => rfl

/-- What is announced is what is written. -/
def Predicts (text : List UInt8) : Prop :=
  ∃ r, writeBase64 recorder.toReadWritable text ⟨[], []⟩ = .ok (1, r) ∧
    r.announced = [r.appended.length]

/-- The digits since the last padding character. -/
def openDigits (text : List UInt8) : ℕ := text.foldl digitsAfter 0
where
  digitsAfter (digits : ℕ) (c : UInt8) : ℕ :=
    match symbol c with
    | .digit _ => digits + 1
    | .padding => 0
    | _ => digits

/-- No two digits stand in one block. -/
def SingleDigits (text : List UInt8) : Prop := ∀ front, front <+: text → openDigits front ≤ 1

/-- The number of bits that the digits of an unfinished quad leave over. -/
def pendingBits (block : ℕ) : ℕ := 6 * block % 8

/-! ### Counting -/

/-- The fourth digit completes a quad. -/
theorem quad_mask : ∀ block < 4, block + 1 &&& 4 = if block = 3 then 4 else 0 := by decide

/-- A block that is closed counts for one byte less than it has digits. -/
theorem paddingBytes_eq : ∀ block < 4, paddingBytes block = block - 1 := by decide

/-- Each digit but the first of a quad completes a byte. -/
theorem decodedBytes_digit {c : UInt8} {value : ℕ} (hc : symbol c = .digit value) {block : ℕ}
    (hblock : block < 4) {pending : List Bool} (hpending : pending.length = pendingBits block)
    (text : List UInt8) :
    ∃ left, left.length = pendingBits ((block + 1) % 4) ∧
      (decodedBytes pending (c :: text)).length =
        (if block = 0 then 0 else 1) + (decodedBytes left text).length := by
  have hbits : (pending ++ toBits 6 value).length = 6 * block % 8 + 6 := by
    rw [List.length_append, hpending, length_toBits]
    rfl
  rw [decodedBytes, hc]
  simp only [hbits]
  by_cases hzero : block = 0
  · refine ⟨pending ++ toBits 6 value, ?_, ?_⟩
    · rw [hbits, hzero]
      rfl
    · rw [if_neg (by omega), if_pos hzero, Nat.zero_add]
  · refine ⟨(pending ++ toBits 6 value).drop 8, ?_, ?_⟩
    · rw [List.length_drop, hbits]
      unfold pendingBits
      omega
    · rw [if_pos (by omega), if_neg hzero, List.length_cons, Nat.add_comm]

/-- The count of the validator, with what the block at the end makes up, is the number of
bytes that are decoded. -/
theorem validateFrom_count {text : List UInt8} (hascii : IsAscii text) {block : ℕ}
    (hblock : block < 4) (hverdict : verdict block text = .accepted) (index : ℕ)
    {quadChars : ℕ} (hquad : quadChars % 4 = 0) (extraBytes : ℕ) {pending : List Bool}
    (hpending : pending.length = pendingBits block) :
    ∃ index' count, validateFrom 0 (text ++ [0]) index quadChars extraBytes block =
        .ok ⟨true, index', count⟩ ∧
      count + (text.foldl blockAfter block - 1) =
        quadChars / 4 * 3 + extraBytes + (block - 1) + (decodedBytes pending text).length := by
  induction text generalizing block index quadChars extraBytes pending with
  | nil =>
    refine ⟨index, quadChars / 4 * 3 + extraBytes, ?_, ?_⟩
    · rw [List.nil_append, validateFrom_end]
    · rw [decodedBytes, List.length_nil, List.foldl_nil]
      omega
  | cons c text ih =>
    rw [List.cons_append, validateFrom_cons hascii.head.1 hascii.head.2, List.foldl_cons]
    rw [verdict] at hverdict
    cases hc : symbol c with
    | digit value =>
      obtain ⟨left, hleft, hdecoded⟩ := decodedBytes_digit hc hblock hpending text
      have hmask := quad_mask block hblock
      have hquad' : (quadChars + (block + 1 &&& 4)) % 4 = 0 := by
        rw [hmask]
        split <;> omega
      rw [hc] at hverdict
      obtain ⟨index', count, hvalid, hcount⟩ := ih hascii.tail (Nat.mod_lt _ (by decide))
        hverdict (index + 1) hquad' extraBytes hleft
      refine ⟨index', count, hvalid, ?_⟩
      simp only [blockAfter, hc]
      rw [hcount, hdecoded, hmask]
      split <;> split <;> omega
    | whitespace =>
      rw [hc] at hverdict
      simp only [blockAfter, decodedBytes, hc]
      exact ih hascii.tail hblock hverdict (index + 1) hquad extraBytes hpending
    | padding =>
      simp only [hc] at hverdict
      simp only [blockAfter, decodedBytes, hc]
      split at hverdict
      · contradiction
      · rename_i hne
        rw [if_neg hne]
        obtain ⟨index', count, hvalid, hcount⟩ := @ih hascii.tail 0 (by decide) hverdict
          (index + 1) quadChars hquad (extraBytes + paddingBytes block) [] rfl
        refine ⟨index', count, hvalid, ?_⟩
        rw [hcount, paddingBytes_eq block hblock]
        omega
    | foreign =>
      rw [hc] at hverdict
      contradiction

theorem forall_prefix_cons {c : UInt8} {text : List UInt8} {p : List UInt8 → Prop} :
    (∀ front, front <+: c :: text → p front) ↔ p [] ∧ ∀ front, front <+: text → p (c :: front) := by
  simp only [List.prefix_cons_iff]
  constructor
  · intro h
    exact ⟨h [] (Or.inl rfl), fun front hfront => h _ (Or.inr ⟨front, rfl, hfront⟩)⟩
  · rintro ⟨hnil, hcons⟩ front (rfl | ⟨front, rfl, hfront⟩)
    · exact hnil
    · exact hcons front hfront

/-- Six bits that are left over are never a byte, so without two digits in a block nothing
is decoded. -/
theorem decodedBytes_eq_nil_iff (text : List UInt8) {digits : ℕ} (hdigits : digits ≤ 1)
    {pending : List Bool} (hpending : pending.length = 6 * digits) :
    decodedBytes pending text = [] ↔
      ∀ front, front <+: text → front.foldl openDigits.digitsAfter digits ≤ 1 := by
  induction text generalizing digits pending with
  | nil =>
    rw [decodedBytes]
    simp only [true_iff]
    intro front hfront
    rw [List.prefix_nil.mp hfront]
    exact hdigits
  | cons c text ih =>
    rw [forall_prefix_cons, decodedBytes]
    simp only [List.foldl_nil, List.foldl_cons, hdigits, true_and]
    cases hc : symbol c with
    | digit value =>
      have hbits : (pending ++ toBits 6 value).length = 6 * (digits + 1) := by
        rw [List.length_append, hpending, length_toBits]
        omega
      simp only [openDigits.digitsAfter, hc, hbits]
      by_cases hzero : digits = 0
      · rw [if_neg (by omega)]
        exact ih (by omega) hbits
      · rw [if_pos (by omega)]
        constructor
        · intro hnil
          contradiction
        · intro hall
          have hfirst := hall [] List.nil_prefix
          rw [List.foldl_nil] at hfirst
          omega
    | whitespace =>
      simp only [openDigits.digitsAfter, hc]
      exact ih hdigits hpending
    | padding =>
      simp only [openDigits.digitsAfter, hc]
      exact ih (by decide) rfl
    | foreign =>
      simp only [openDigits.digitsAfter, hc]
      exact ih hdigits hpending

/-! ### Announcements -/

theorem announced_foldl_write (chunks : List (List UInt8)) (r : Recorder) :
    (chunks.foldl recorder.write r).announced = r.announced := by
  induction chunks generalizing r with
  | nil => rfl
  | cons chunk chunks ih =>
    rw [List.foldl_cons, ih]
    rfl

/-- For a text that is let pass, the count and the decoded bytes are what the destination
is told. -/
theorem predicts_iff_count {text : List UInt8} (hascii : IsAscii text) {index count : ℕ}
    (hvalid : validate text 0 = .ok ⟨true, index, count⟩) :
    Predicts text ↔ count = (decodedBytes [] text).length := by
  have hwrite := writeBase64_pieces recorder.toReadWritable hascii hvalid ⟨[], []⟩
  set last := (pieces outBufferSize [] (decodedBytes [] text)).foldl recorder.write
    (recorder.prepareWrite ⟨[], []⟩ count)
  have hannounced : last.announced = [count] := announced_foldl_write _ _
  have happended : last.appended = decodedBytes [] text := by
    have hcontent := recorder.content_foldl_write
      (pieces outBufferSize [] (decodedBytes [] text)) (recorder.prepareWrite ⟨[], []⟩ count)
    rw [flatten_pieces] at hcontent
    exact hcontent
  constructor
  · rintro ⟨r, hr, hpredicts⟩
    rw [hwrite] at hr
    obtain ⟨-, rfl⟩ := Prod.mk.inj (Except.ok.inj hr)
    rw [hannounced, happended] at hpredicts
    exact List.singleton_inj.mp hpredicts
  · intro hcount
    refine ⟨last, hwrite, ?_⟩
    rw [hannounced, happended, hcount]

theorem predicts_of_accepted {text : List UInt8} (hascii : IsAscii text)
    (hverdict : verdict 0 text = .accepted) : Predicts text ↔ currentBlock text ≤ 1 := by
  obtain ⟨index, count, hvalid, hcount⟩ := validateFrom_count hascii (show 0 < 4 by decide)
    hverdict 0 (show 0 % 4 = 0 from rfl) 0 (show ([] : List Bool).length = pendingBits 0 from rfl)
  rw [predicts_iff_count hascii hvalid]
  unfold currentBlock
  omega

theorem predicts_of_slipped {text : List UInt8} (hascii : IsAscii text)
    (hverdict : verdict 0 text = .slipped) : Predicts text ↔ SingleDigits text := by
  obtain ⟨index, hvalid⟩ := validateFrom_offence 0 hascii [0] 0 0 0 0 (by rw [hverdict]; decide)
  rw [hverdict] at hvalid
  have hslipped : validate text 0 = .ok ⟨true, index, 0⟩ := hvalid
  rw [predicts_iff_count hascii hslipped, eq_comm, List.length_eq_zero_iff,
    decodedBytes_eq_nil_iff text (show 0 ≤ 1 by decide) rfl]
  rfl

/-- The announcement is right exactly if the text ends with a whole quad, with a padding
character or with a single digit behind one of these, or if it goes on behind a padding
error but has no two digits in a block. -/
theorem predicts_iff (text : List UInt8) (hascii : IsAscii text)
    (haccepts : ∃ r, writeBase64 recorder.toReadWritable text ⟨[], []⟩ = .ok (1, r)) :
    Predicts text ↔ (¬ ClosesSingleton text ∧ currentBlock text ≤ 1) ∨
      (ClosesSingleton text ∧ SingleDigits text) := by
  rw [← verdict_eq_slipped_iff_closesSingleton]
  cases hverdict : verdict 0 text with
  | accepted =>
    rw [predicts_of_accepted hascii hverdict]
    simp
  | slipped =>
    rw [predicts_of_slipped hascii hverdict]
    simp
  | rejected =>
    obtain ⟨r, hone⟩ := haccepts
    have hrefused := writeBase64_of_rejected recorder.toReadWritable hascii [] ⟨[], []⟩ hverdict
    rw [List.append_nil, hone] at hrefused
    simp at hrefused

/-- A text with padding in the middle and a line break. -/
theorem predicts_iff_padded :
    Predicts (['Q', 'Q', '=', '\n', 'Q', 'U', 'I', '='].map byte) ↔
      (¬ ClosesSingleton (['Q', 'Q', '=', '\n', 'Q', 'U', 'I', '='].map byte) ∧
          currentBlock (['Q', 'Q', '=', '\n', 'Q', 'U', 'I', '='].map byte) ≤ 1) ∨
        (ClosesSingleton (['Q', 'Q', '=', '\n', 'Q', 'U', 'I', '='].map byte) ∧
          SingleDigits (['Q', 'Q', '=', '\n', 'Q', 'U', 'I', '='].map byte)) := by
  have hascii : IsAscii (['Q', 'Q', '=', '\n', 'Q', 'U', 'I', '='].map byte) := by decide
  have hverdict : verdict 0 (['Q', 'Q', '=', '\n', 'Q', 'U', 'I', '='].map byte) ≠
    .rejected := by decide
  exact predicts_iff _ hascii (writeBase64_of_not_rejected recorder.toReadWritable hascii
    ⟨[], []⟩ hverdict)

/-- Two digits that nothing closes are decoded to a byte that is not announced. -/
theorem not_predicts_unpadded : IsAscii (['Q', 'Q'].map byte) ∧
    (∃ r, writeBase64 recorder.toReadWritable (['Q', 'Q'].map byte) ⟨[], []⟩ = .ok (1, r)) ∧
    ¬ Predicts (['Q', 'Q'].map byte) := by
  have hascii : IsAscii (['Q', 'Q'].map byte) := by decide
  have hverdict : verdict 0 (['Q', 'Q'].map byte) = .accepted := by decide
  refine ⟨hascii, ?_, ?_⟩
  · exact writeBase64_of_not_rejected recorder.toReadWritable hascii ⟨[], []⟩
      (by rw [hverdict]; decide)
  · rw [predicts_of_accepted hascii hverdict]
    decide

end FaucetNetworking.Base64Codec
