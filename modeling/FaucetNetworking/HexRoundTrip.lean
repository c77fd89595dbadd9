import FaucetNetworking.HexCodec
import FaucetNetworking.Lib.Staging
import Mathlib.Algebra.Group.Nat.Even
import Mathlib.Tactic.ByContra

/-!
The accepted language of the hex codec, and that its two directions undo each other up
to the case of the letters. The encoder, the table of pairs and the table of valid
characters are each compared with the digits of one byte; the staging buffer only
splits what is appended.
-/
namespace FaucetNetworking.HexCodec

open Base64Codec (byte Validation)
open Staging

def IsHexDigit (c : UInt8) : Prop :=
  (byte '0' ≤ c ∧ c ≤ byte '9') ∨ (byte 'a' ≤ c ∧ c ≤ byte 'f') ∨ (byte 'A' ≤ c ∧ c ≤ byte 'F')

instance : DecidablePred IsHexDigit := fun _ => inferInstanceAs (Decidable (_ ∨ _))

structure IsHexText (text : List UInt8) : Prop where
  even : Even text.length
  digits : ∀ c ∈ text, IsHexDigit c

def lowercaseChar (c : UInt8) : UInt8 :=
  if byte 'A' ≤ c ∧ c ≤ byte 'Z' then c - byte 'A' + byte 'a' else c

def lowercase (text : List UInt8) : List UInt8 := text.map lowercaseChar

/-- The bytes that the pairs of characters stand for. -/
def decodedBytes : List UInt8 → List UInt8
  | [] => []
  | [_] => []
  | first :: second :: rest => pairValue (charPair first second) :: decodedBytes rest

/-! ### Digits -/

theorem forall_byte {P : UInt8 → Prop} (h : ∀ n < 256, P (UInt8.ofNat n)) (c : UInt8) : P c := by
  simpa only [UInt8.ofNat_toNat] using h c.toNat c.toNat_lt

theorem isValidHex_iff (c : UInt8) : isValidHex c = true ↔ IsHexDigit c := by
  revert c
  apply forall_byte
  decide +kernel

theorem getHexValueSlow_lt (c : UInt8) : (getHexValueSlow c).toNat < 16 := by
  revert c
  apply forall_byte
  decide +kernel

theorem hexNibble_getHexValueSlow (c : UInt8) :
    IsHexDigit c → hexNibble (getHexValueSlow c).toNat = lowercaseChar c := by
  revert c
  apply forall_byte
  decide +kernel

theorem getHexValueSlow_hexNibble : ∀ n < 16, (getHexValueSlow (hexNibble n)).toNat = n := by
  decide

theorem isHexDigit_hexNibble : ∀ n < 16, IsHexDigit (hexNibble n) := by decide

theorem highNibble (c : UInt8) : (c.toNat &&& 0xf0) >>> 4 = c.toNat / 16 := by
  revert c
  apply forall_byte
  decide +kernel

theorem lowNibble (c : UInt8) : c.toNat &&& 0x0f = c.toNat % 16 :=
  Nat.and_two_pow_sub_one_eq_mod c.toNat 4

/-! ### The table of pairs -/

theorem toNat_charPair (first second : UInt8) :
    (charPair first second).toNat = first.toNat + 2 ^ 8 * second.toNat := by
  have hfirst := first.toNat_lt
  have hsecond := second.toNat_lt
  unfold charPair
  rw [UInt16.toNat_ofNat']
  omega

theorem firstDigit_charPair (first second : UInt8) :
    firstDigit (charPair first second) = first := by
  apply UInt8.toNat_inj.mp
  have hfirst := first.toNat_lt
  unfold firstDigit
  rw [toNat_charPair, UInt8.toNat_ofNat']
  omega

theorem secondDigit_charPair (first second : UInt8) :
    secondDigit (charPair first second) = second := by
  apply UInt8.toNat_inj.mp
  have hfirst := first.toNat_lt
  have hsecond := second.toNat_lt
  unfold secondDigit
  rw [toNat_charPair, UInt8.toNat_ofNat']
  omega

theorem toNat_pairValue (first second : UInt8) :
    (pairValue (charPair first second)).toNat =
      (getHexValueSlow first).toNat * 16 + (getHexValueSlow second).toNat := by
  have hfirst := getHexValueSlow_lt first
  have hsecond := getHexValueSlow_lt second
  unfold pairValue
  rw [firstDigit_charPair, secondDigit_charPair, UInt8.toNat_ofNat']
  omega

/-- The loop writes the entries from i to the last one, and leaves those below. -/
theorem getD_fillFrom (table : Table) (i j : UInt16) (hlength : table.length = 65536) :
    (fillFrom table i).getD j.toNat none =
      if i.toNat ≤ j.toNat then some (pairValue j) else table.getD j.toNat none := by
  have hj := j.toNat_lt
  have hset : ∀ (table : Table) (i : UInt16), table.length = 65536 →
      (table.set i.toNat (some (pairValue i))).getD j.toNat none =
        if i.toNat = j.toNat then some (pairValue j) else table.getD j.toNat none := by
    intro table i hlength
    rw [List.getD_eq_getElem?_getD, List.getElem?_set]
    by_cases hij : i.toNat = j.toNat
    · rw [if_pos hij, if_pos hij, if_pos (by omega), UInt16.toNat_inj.mp hij]
      rfl
    · rw [if_neg hij, if_neg hij, List.getD_eq_getElem?_getD]
  induction table, i using fillFrom.induct with
  | case1 table i hlast =>
    have hi : i.toNat = 65535 := by
      have hlt := i.toNat_lt
      rw [← UInt16.toNat_inj, UInt16.toNat_add, UInt16.toNat_one, UInt16.toNat_zero] at hlast
      omega
    rw [fillFrom, if_pos hlast, hset table i hlength]
    exact if_congr (by omega) rfl rfl
  | case2 table i hnext ih =>
    have hi : (i + 1).toNat = i.toNat + 1 := by
      have hlt := i.toNat_lt
      rw [← UInt16.toNat_inj, UInt16.toNat_add, UInt16.toNat_one, UInt16.toNat_zero] at hnext
      rw [UInt16.toNat_add, UInt16.toNat_one]
      omega
    rw [fillFrom, if_neg hnext, ih (by rw [List.length_set, hlength]), hi, hset table i hlength]
    rcases Nat.lt_trichotomy i.toNat j.toNat with hlt | heq | hgt
    · rw [if_pos (Nat.succ_le_of_lt hlt), if_pos hlt.le]
    · rw [if_neg (by omega), if_pos heq, if_pos heq.le]
    · rw [if_neg (by omega), if_neg hgt.ne', if_neg (by omega)]

theorem hexValue_getD (i : UInt16) : hexValue.getD i.toNat none = some (pairValue i) := by
  unfold hexValue
  rw [getD_fillFrom _ _ _ List.length_replicate, if_pos]
  exact UInt16.le_iff_toNat_le.mpr (Nat.zero_le _)

/-! ### The encoder -/

theorem encode_cons (c : UInt8) (src : List UInt8) :
    encode (c :: src) = hexNibble (c.toNat / 16) :: hexNibble (c.toNat % 16) :: encode src := by
  rw [encode, highNibble, lowNibble]

theorem length_encode (src : List UInt8) : (encode src).length = 2 * src.length := by
  induction src with
  | nil => rfl
  | cons c src ih =>
    rw [encode, List.length_cons, List.length_cons, List.length_cons, ih]
    omega

theorem isHexText_encode (src : List UInt8) : IsHexText (encode src) := by
  constructor
  · rw [length_encode]
    exact even_two_mul src.length
  · induction src with
    | nil => intro c hc; contradiction
    | cons b src ih =>
      have hb := b.toNat_lt
      intro c hc
      rw [encode_cons, List.mem_cons, List.mem_cons] at hc
      rcases hc with rfl | rfl | hc
      · exact isHexDigit_hexNibble _ (by omega)
      · exact isHexDigit_hexNibble _ (Nat.mod_lt _ (by decide))
      · exact ih c hc

/-- Encoding writes the decoded digits back in lower case. -/
theorem encode_decodedBytes (text : List UInt8) (htext : IsHexText text) :
    encode (decodedBytes text) = lowercase text := by
  induction text using decodedBytes.induct with
  | case1 => rfl
  | case2 c => exact absurd htext.even (by simp)
  | case3 first second rest ih =>
    obtain ⟨heven, hdigits⟩ := htext
    have hfirst := hexNibble_getHexValueSlow first (hdigits first (by simp))
    have hsecond := hexNibble_getHexValueSlow second (hdigits second (by simp))
    have hlow := getHexValueSlow_lt second
    have hrest : IsHexText rest := by
      constructor
      · rw [List.length_cons, List.length_cons, Nat.even_iff] at heven
        rw [Nat.even_iff]
        omega
      · intro c hc
        exact hdigits c (List.mem_cons_of_mem _ (List.mem_cons_of_mem _ hc))
    have hquotient : (pairValue (charPair first second)).toNat / 16 =
        (getHexValueSlow first).toNat := by
      rw [toNat_pairValue]
      omega
    have hremainder : (pairValue (charPair first second)).toNat % 16 =
        (getHexValueSlow second).toNat := by
      rw [toNat_pairValue]
      omega
    rw [decodedBytes, encode_cons, hquotient, hremainder, hfirst, hsecond, ih hrest]
    rfl

theorem decodedBytes_encode (src : List UInt8) : decodedBytes (encode src) = src := by
  induction src with
  | nil => rfl
  | cons c src ih =>
    have hc := c.toNat_lt
    rw [encode_cons, decodedBytes, ih]
    congr 1
    apply UInt8.toNat_inj.mp
    rw [toNat_pairValue, getHexValueSlow_hexNibble _ (by omega),
      getHexValueSlow_hexNibble _ (Nat.mod_lt _ (by decide))]
    omega

theorem length_decodedBytes (text : List UInt8) :
    (decodedBytes text).length = text.length / 2 := by
  induction text using decodedBytes.induct with
  | case1 => rfl
  | case2 c => rw [decodedBytes, List.length_nil, List.length_singleton]
  | case3 first second rest ih =>
    rw [decodedBytes, List.length_cons, List.length_cons, List.length_cons, ih]
    omega

/-- The length computed for the result does not wrap if it is addressable. -/
theorem resultLen_eq {width len : ℕ} (h : 2 * len < 2 ^ width) :
    len * 2 % 2 ^ width = 2 * len := by
  rw [Nat.mul_comm]
  exact Nat.mod_eq_of_lt h

/-- The length that wraps is less than the one of the input. -/
theorem resultLen_lt {width len : ℕ} (hlen : len < 2 ^ width) (h : 2 ^ width ≤ 2 * len) :
    len * 2 % 2 ^ width < len := by
  rw [Nat.mul_comm, Nat.mod_eq_sub_mod h, Nat.mod_eq_of_lt (by omega)]
  omega

section Read

variable {limits : StringLimits} {src : List UInt8}

theorem readHex_eq (hsize : 2 * src.length ≤ limits.maxSize) :
    readHex limits src = .ok (encode src) := by
  have hmax := limits.maxSize_lt
  unfold readHex
  simp only
  rw [resultLen_eq (by omega), if_neg (by omega), if_neg (by omega), length_encode,
    if_pos (Nat.le_refl _), Nat.sub_self, List.replicate_zero, List.append_nil]

/-- The overflow test finds every length that size_t cannot hold. -/
theorem readHex_overflow (hlength : src.length < 2 ^ limits.width)
    (hsize : 2 ^ limits.width ≤ 2 * src.length) :
    readHex limits src = .throws lengthError [] := by
  unfold readHex
  simp only
  rw [if_pos (resultLen_lt hlength hsize)]

/-- A length that size_t holds and the string does not is left to resize. -/
theorem readHex_tooLong (hmax : limits.maxSize < 2 * src.length)
    (hsize : 2 * src.length < 2 ^ limits.width) :
    readHex limits src = .throws limits.tooLong [] := by
  unfold readHex
  simp only
  rw [resultLen_eq hsize, if_neg (by omega), if_pos hmax]

theorem readHex_throws (hlength : src.length < 2 ^ limits.width)
    (hmax : limits.maxSize < 2 * src.length) : ∃ what, readHex limits src = .throws what [] := by
  rcases Nat.lt_or_ge (2 * src.length) (2 ^ limits.width) with hfits | hwraps
  · exact ⟨_, readHex_tooLong hmax hfits⟩
  · exact ⟨_, readHex_overflow hlength hwraps⟩

/-- Reading from a buffer encodes the bytes that read would copy, and moves the
read position behind them. -/
theorem readHexBuffer_eq {buf : Buffer} (hpos : buf.readIndex ≤ buf.data.length)
    (hsize : 2 * buf.data.length ≤ limits.maxSize) (len : ℕ) :
    readHexBuffer limits buf len = .ok (encode (buf.read len).1, (buf.read len).2) := by
  have hremaining : buf.bytesRemaining = buf.data.length - buf.readIndex := sizeSub_of_le hpos
  have hlength : ((buf.data.drop buf.readIndex).take (min len buf.bytesRemaining)).length ≤
      buf.data.length := by
    rw [List.length_take, List.length_drop]
    omega
  have hread := readHex_eq (Nat.le_trans (Nat.mul_le_mul_left 2 hlength) hsize)
  have hend : buf.readIndex + min len buf.bytesRemaining ≤ buf.data.length := by omega
  unfold readHexBuffer Buffer.read Buffer.setReadpos Buffer.getReadpos
  simp only
  rw [hread, if_pos hend]

end Read

/-! ### The validator -/

theorem validateFrom_hex {text : List UInt8} (hnul : 0 ∉ text)
    (hdigits : ∀ c ∈ text, IsHexDigit c) (bytes index : ℕ) :
    validateFrom bytes (text ++ [0]) index = validateFrom bytes [0] (index + text.length) := by
  induction text generalizing index with
  | nil => rfl
  | cons c text ih =>
    rw [List.mem_cons, not_or] at hnul
    obtain ⟨hc, hnul⟩ := hnul
    have hvalid := (isValidHex_iff c).mpr (hdigits c (List.mem_cons_self ..))
    rw [List.cons_append, validateFrom, if_neg (Ne.symm hc), hvalid, if_neg (by decide),
      ih hnul (fun d hd => hdigits d (List.mem_cons_of_mem _ hd)), List.length_cons]
    congr 1
    omega

theorem validateFrom_foreign {text : List UInt8} (hnul : 0 ∉ text)
    (hforeign : ∃ c ∈ text, ¬ IsHexDigit c) (bytes index : ℕ) :
    ∃ endIndex, validateFrom bytes (text ++ [0]) index = some ⟨false, endIndex, bytes⟩ := by
  induction text generalizing index with
  | nil =>
    obtain ⟨c, hc, -⟩ := hforeign
    contradiction
  | cons c text ih =>
    rw [List.mem_cons, not_or] at hnul
    obtain ⟨hc, hnul⟩ := hnul
    rw [List.cons_append, validateFrom, if_neg (Ne.symm hc)]
    by_cases hdigit : IsHexDigit c
    · rw [(isValidHex_iff c).mpr hdigit, if_neg (by decide)]
      apply ih hnul
      obtain ⟨d, hd, hnot⟩ := hforeign
      rcases List.mem_cons.mp hd with rfl | hd
      · exact absurd hdigit hnot
      · exact ⟨d, hd, hnot⟩
    · have hinvalid : isValidHex c = false := by
        rw [← Bool.not_eq_true, isValidHex_iff]
        exact hdigit
      rw [hinvalid]
      exact ⟨index, rfl⟩

theorem validate_of_isHexText {text : List UInt8} (hnul : 0 ∉ text) (htext : IsHexText text)
    (bytes : ℕ) : validate text bytes = some ⟨true, text.length, text.length / 2⟩ := by
  unfold validate
  rw [validateFrom_hex hnul htext.digits, Nat.zero_add, validateFrom, if_pos rfl,
    if_neg (by rw [not_not]; exact Nat.even_iff.mp htext.even)]

theorem validate_of_not_isHexText {text : List UInt8} (hnul : 0 ∉ text)
    (htext : ¬ IsHexText text) (bytes : ℕ) :
    ∃ endIndex, validate text bytes = some ⟨false, endIndex, bytes⟩ := by
  unfold validate
  by_cases hdigits : ∀ c ∈ text, IsHexDigit c
  · have hodd : ¬ Even text.length := fun heven => htext ⟨heven, hdigits⟩
    rw [validateFrom_hex hnul hdigits, Nat.zero_add, validateFrom, if_pos rfl,
      if_pos (fun hzero => hodd (Nat.even_iff.mpr hzero))]
    exact ⟨text.length, rfl⟩
  · push Not at hdigits
    exact validateFrom_foreign hnul hdigits bytes 0

/-! ### The decoder -/

section Write

variable {δ : Type*} (rw : ReadWritable δ)

/-- The destination is handed the bytes, in as many pieces as it may be. -/
def Appends (dest : δ) (bytes : List UInt8) (dest' : δ) : Prop :=
  ∃ (extraData : ℕ) (chunks : List (List UInt8)), chunks.flatten = bytes ∧
    dest' = chunks.foldl rw.write (rw.prepareWrite dest extraData)

/-- The content of a buffer grows by the bytes. -/
theorem Appends.content_eq {ad : AppendDestination δ} {dest dest' : δ} {bytes : List UInt8}
    (h : Appends ad.toReadWritable dest bytes dest') :
    ad.content dest' = ad.content dest ++ bytes := by
  obtain ⟨extraData, chunks, rfl, rfl⟩ := h
  rw [ad.content_foldl_write, ad.content_prepareWrite]

/-- The decoded bytes are written in the pieces that fill the staging buffer. -/
theorem decodeFrom_pieces {text : List UInt8} (heven : Even text.length) (memory : List UInt8)
    {out : List UInt8} (hout : out.length < outBufferSize) (dest : δ) :
    decodeFrom rw hexValue (text ++ memory) text.length out dest =
      some ((pieces outBufferSize out (decodedBytes text)).foldl rw.write dest) := by
  induction text using decodedBytes.induct generalizing out dest with
  | case1 =>
    rw [List.length_nil, decodeFrom, decodedBytes, pieces_nil]
    rfl
  | case2 c => exact absurd heven (by simp)
  | case3 first second rest ih =>
    have hrest : Even rest.length := by
      rw [List.length_cons, List.length_cons, Nat.even_iff] at heven
      rw [Nat.even_iff]
      omega
    rw [List.cons_append, List.cons_append, List.length_cons, List.length_cons, decodeFrom,
      hexValue_getD, decodedBytes]
    simp only [Nat.add_sub_cancel]
    rw [List.length_append, List.length_singleton]
    by_cases hfull : out.length + 1 = outBufferSize
    · rw [if_pos (ge_of_eq hfull), ih hrest (by decide), pieces_full out hfull]
      rfl
    · have hout' : (out ++ [pairValue (charPair first second)]).length < outBufferSize := by
        rw [List.length_append, List.length_singleton]
        omega
      rw [if_neg (by omega), ih hrest hout', pieces_step out hfull]

theorem writeHex_pieces {text : List UInt8} (hnul : 0 ∉ text) (htext : IsHexText text)
    (dest : δ) : writeHex rw text dest = some (1,
      (pieces outBufferSize [] (decodedBytes text)).foldl rw.write
        (rw.prepareWrite dest (text.length / 2))) := by
  unfold writeHex
  rw [validate_of_isHexText hnul htext]
  simp only [Bool.not_true, Bool.false_eq_true, if_false]
  rw [decodeFrom_pieces rw htext.even [0] (by decide)]

/-- A hex text hands its decoded bytes to the destination. -/
theorem writeHex_of_isHexText {text : List UInt8} (hnul : 0 ∉ text) (htext : IsHexText text)
    (dest : δ) :
    ∃ dest', writeHex rw text dest = some (1, dest') ∧
      Appends rw dest (decodedBytes text) dest' :=
  ⟨_, writeHex_pieces rw hnul htext dest, text.length / 2, _,
    flatten_pieces [] (decodedBytes text), rfl⟩

theorem writeHex_of_not_isHexText {text : List UInt8} (hnul : 0 ∉ text)
    (htext : ¬ IsHexText text) (dest : δ) : writeHex rw text dest = some (-2, dest) := by
  obtain ⟨endIndex, hvalidate⟩ := validate_of_not_isHexText hnul htext 0
  unfold writeHex
  rw [hvalidate]
  rfl

/-- Exactly the hex texts are accepted, and what they add is read back as the same text in
lower case; every other text leaves the destination as it was. -/
structure AcceptsHexText (limits : StringLimits) : Prop where
  accepted : ∀ text, 0 ∉ text → IsHexText text → ∀ dest,
    ∃ dest' bytes, writeHex rw text dest = some (1, dest') ∧ Appends rw dest bytes dest' ∧
      (text.length ≤ limits.maxSize → readHex limits bytes = .ok (lowercase text))
  rejected : ∀ text, 0 ∉ text → ¬ IsHexText text → ∀ dest,
    writeHex rw text dest = some (-2, dest)

/-- The bytes have a hex text, and writing it appends them. -/
def RoundTrips (limits : StringLimits) (bytes : List UInt8) : Prop :=
  ∃ text, readHex limits bytes = .ok text ∧
    ∀ dest, ∃ dest', writeHex rw text dest = some (1, dest') ∧ Appends rw dest bytes dest'

theorem acceptsHexText (limits : StringLimits) : AcceptsHexText rw limits := by
  constructor
  · intro text hnul htext dest
    obtain ⟨dest', hwrite, happends⟩ := writeHex_of_isHexText rw hnul htext dest
    refine ⟨dest', decodedBytes text, hwrite, happends, ?_⟩
    intro hlength
    rw [readHex_eq (by rw [length_decodedBytes]; omega), encode_decodedBytes text htext]
  · intro text hnul htext dest
    exact writeHex_of_not_isHexText rw hnul htext dest

theorem not_mem_encode (src : List UInt8) : 0 ∉ encode src := by
  intro hzero
  exact absurd ((isHexText_encode src).digits 0 hzero) (by decide)

theorem roundTrips {limits : StringLimits} {bytes : List UInt8}
    (hsize : 2 * bytes.length ≤ limits.maxSize) : RoundTrips rw limits bytes := by
  refine ⟨encode bytes, readHex_eq hsize, ?_⟩
  intro dest
  obtain ⟨dest', hwrite, happends⟩ :=
    writeHex_of_isHexText rw (not_mem_encode bytes) (isHexText_encode bytes) dest
  refine ⟨dest', hwrite, ?_⟩
  rwa [decodedBytes_encode] at happends

/-- The language of the codec, and the round trip of all bytes whose text a string can hold:
readHex throws for all others. For a buffer, to append is to add to its content. -/
theorem accepts_and_roundTrips (limits : StringLimits) :
    AcceptsHexText rw limits ∧
      (∀ bytes : List UInt8, 2 * bytes.length ≤ limits.maxSize → RoundTrips rw limits bytes) ∧
      (∀ bytes : List UInt8, bytes.length < 2 ^ limits.width →
        limits.maxSize < 2 * bytes.length → ∃ what, readHex limits bytes = .throws what []) ∧
      ∀ (b b' : Buffer) (added : List UInt8), Appends Buffer.readWritable b added b' →
        b'.data = b.data ++ added := by
  refine ⟨acceptsHexText rw limits, fun bytes hsize => roundTrips rw hsize,
    fun bytes hlength hmax => readHex_throws hlength hmax, ?_⟩
  intro b b' added happends
  exact @Appends.content_eq _ Buffer.appendDestination _ _ _ happends

theorem accepts_and_roundTrips_net :
    RoundTrips Buffer.readWritable .mingw [0x4e, 0x65, 0x74] :=
  (accepts_and_roundTrips Buffer.readWritable .mingw).2.1 [0x4e, 0x65, 0x74] (by decide)

/-- The text of half a gigabyte is longer than a string of MinGW may be, and readHex throws. -/
theorem not_roundTrips_halfGiB :
    ¬ RoundTrips Buffer.readWritable .mingw (List.replicate (2 ^ 29) 0) := by
  rintro ⟨text, hread, -⟩
  obtain ⟨what, hthrows⟩ := @readHex_throws .mingw (List.replicate (2 ^ 29) 0)
    (by rw [List.length_replicate]; decide) (by rw [List.length_replicate]; decide)
  rw [hthrows] at hread
  contradiction

end Write

end FaucetNetworking.HexCodec
