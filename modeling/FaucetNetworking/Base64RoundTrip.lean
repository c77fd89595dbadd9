import FaucetNetworking.Base64Validation
import FaucetNetworking.Lib.BitGroups
import FaucetNetworking.Lib.Staging

/-!
Decoding undoes encoding. The encoder is compared with the padded encoding by
bits, and the decoder with a bit string that digits are appended to and whole
bytes are taken from. Both are the regrouping of one bit string, so the zeros
that fill up the last digit are what the decoder drops at the padding.
-/
namespace FaucetNetworking.Base64Codec

open BitGroups Staging

def bitsOf (bytes : List UInt8) : List Bool := bytes.flatMap fun b => toBits 8 b.toNat

/-- The character for six bits in RFC 4648. -/
def alphabet (value : ℕ) : UInt8 :=
  if value < 26 then byte 'A' + UInt8.ofNat value
  else if value < 52 then byte 'a' + UInt8.ofNat (value - 26)
  else if value < 62 then byte '0' + UInt8.ofNat (value - 52)
  else if value = 62 then byte '+'
  else byte '/'

/-- The padded encoding: six bits a character, zeros behind the last bit, and
padding characters up to a multiple of four. -/
def rfc4648 (bytes : List UInt8) : List UInt8 :=
  (groups 6 (bitsOf bytes)).map alphabet ++
    List.replicate ((3 - bytes.length % 3) % 3) (byte '=')

/-! ### The encoder -/

theorem baseChar_eq_alphabet : ∀ value < 64, baseChar value = alphabet value := by
  decide +kernel

theorem symbol_alphabet : ∀ value < 64, symbol (alphabet value) = .digit value := by
  decide +kernel

theorem baseChar_mask (n : ℕ) : baseChar (n &&& 0x3f) = alphabet (n % 2 ^ 6) := by
  rw [← Nat.and_two_pow_sub_one_eq_mod]
  apply baseChar_eq_alphabet
  rw [Nat.and_two_pow_sub_one_eq_mod n 6]
  exact Nat.mod_lt n (by decide)

theorem length_bitsOf (bytes : List UInt8) : (bitsOf bytes).length = 8 * bytes.length := by
  simp [bitsOf, List.length_flatMap, Nat.mul_comm]

theorem bitsOf_cons (b : UInt8) (bytes : List UInt8) :
    bitsOf (b :: bytes) = toBits 8 b.toNat ++ bitsOf bytes := by
  rw [bitsOf, List.flatMap_cons]
  rfl

theorem toBits_two_bytes (x y : UInt8) :
    toBits 8 x.toNat ++ toBits 8 y.toNat = toBits 16 (x.toNat <<< 8 ||| y.toNat) :=
  (toBits_lor 8 x.toNat y.toNat_lt).symm

theorem toBits_three_bytes (x y z : UInt8) :
    toBits 8 x.toNat ++ (toBits 8 y.toNat ++ toBits 8 z.toNat) =
      toBits 24 (x.toNat <<< 16 ||| y.toNat <<< 8 ||| z.toNat) := by
  have hnest : x.toNat <<< 16 ||| y.toNat <<< 8 =
      (x.toNat <<< 8 ||| y.toNat) <<< 8 := by
    rw [Nat.shiftLeft_or_distrib, ← Nat.shiftLeft_add]
  rw [hnest, ← List.append_assoc, toBits_two_bytes]
  exact (toBits_lor 16 _ z.toNat_lt).symm

/-- The bits of a number in quarters, as the encoder takes them out. -/
theorem toBits_quarters (b : ℕ) : toBits 24 b = toBits 6 (b >>> 18) ++ (toBits 6 (b >>> 12) ++
    (toBits 6 (b >>> 6) ++ toBits 6 b)) := by
  rw [show 24 = 6 + (6 + (6 + 6)) from rfl, toBits_add, toBits_add, toBits_add]

theorem groups_bitsOf_three (x y z : UInt8) (rest : List UInt8) {b : ℕ}
    (hb : b = x.toNat <<< 16 ||| y.toNat <<< 8 ||| z.toNat) :
    groups 6 (bitsOf (x :: y :: z :: rest)) = (b >>> 18) % 2 ^ 6 :: (b >>> 12) % 2 ^ 6 ::
      (b >>> 6) % 2 ^ 6 :: b % 2 ^ 6 :: groups 6 (bitsOf rest) := by
  have hbits : bitsOf (x :: y :: z :: rest) = toBits 24 b ++ bitsOf rest := by
    rw [hb, ← toBits_three_bytes]
    simp only [bitsOf_cons, List.append_assoc]
  rw [hbits, toBits_quarters]
  simp only [List.append_assoc, groups_toBits_append (show 0 < 6 by decide)]

theorem groups_bitsOf_two (x y : UInt8) {b : ℕ} (hb : b = x.toNat <<< 8 ||| y.toNat) :
    groups 6 (bitsOf [x, y]) =
      [(b >>> 10) % 2 ^ 6, (b >>> 4) % 2 ^ 6, (b <<< 2) % 2 ^ 6] := by
  have hbits : bitsOf [x, y] = toBits 6 (b >>> 10) ++ (toBits 6 (b >>> 4) ++ toBits 4 b) := by
    rw [← toBits_add 6 4, ← toBits_add 6 10, hb, bitsOf_cons, bitsOf_cons]
    rw [show bitsOf [] = [] from rfl, List.append_nil]
    exact toBits_two_bytes x y
  rw [hbits, groups_toBits_append (by decide), groups_toBits_append (by decide),
    groups_toBits_last (by decide) 2]

theorem groups_bitsOf_one (x : UInt8) :
    groups 6 (bitsOf [x]) = [(x.toNat >>> 2) % 2 ^ 6, (x.toNat <<< 4) % 2 ^ 6] := by
  have hbits : bitsOf [x] = toBits 6 (x.toNat >>> 2) ++ toBits 2 x.toNat := by
    rw [← toBits_add 6 2, bitsOf_cons]
    exact List.append_nil _
  rw [hbits, groups_toBits_append (by decide), groups_toBits_last (by decide) 4]

/-- The encoder computes the padded encoding. -/
theorem encode_eq_rfc4648 (bytes : List UInt8) : encode bytes = rfc4648 bytes := by
  induction bytes using encode.induct with
  | case1 x y z rest ih =>
    have hlen : (x :: y :: z :: rest).length % 3 = rest.length % 3 := by
      simp only [List.length_cons]
      omega
    rw [encode, rfc4648, groups_bitsOf_three x y z rest rfl, hlen, ih, rfc4648]
    simp only [List.map_cons, baseChar_mask, List.cons_append]
  | case2 x =>
    rw [encode, rfc4648, groups_bitsOf_one]
    simp only [List.map_cons, baseChar_mask]
    rfl
  | case3 x y =>
    rw [encode, rfc4648, groups_bitsOf_two x y rfl]
    simp only [List.map_cons, baseChar_mask]
    rfl
  | case4 =>
    rw [encode, rfc4648, show bitsOf [] = [] from rfl, groups_nil]
    rfl

theorem length_encode (src : List UInt8) : (encode src).length = 4 * ((src.length + 2) / 3) := by
  induction src using encode.induct with
  | case1 x y z rest ih =>
    rw [encode]
    simp only [List.length_cons, ih]
    omega
  | case2 x => simp [encode]
  | case3 x y => simp [encode]
  | case4 => simp [encode]

/-- The length computed for the result does not wrap if it is addressable. -/
theorem resultLen_eq {width len : ℕ} (h : 4 * ((len + 2) / 3) < 2 ^ width) :
    (len + 2) % 2 ^ width / 3 * 4 % 2 ^ width = 4 * ((len + 2) / 3) := by
  by_cases hnil : len = 0
  · have hsmall := Nat.mod_le 2 (2 ^ width)
    rw [hnil, Nat.zero_add, show 2 % 2 ^ width / 3 = 0 by omega]
    simp
  · have hfits : len + 2 < 2 ^ width := by
      by_contra hge
      have hwidth : ¬ 3 ≤ width := by
        intro hle
        have hpow : 2 ^ 3 ≤ 2 ^ width := Nat.pow_le_pow_right (by decide) hle
        omega
      have hpow : 2 ^ width ≤ 2 ^ 2 := Nat.pow_le_pow_right (by decide) (by omega)
      omega
    rw [Nat.mod_eq_of_lt hfits, Nat.mul_comm, Nat.mod_eq_of_lt h]

/-- The length that wraps is less than the one of the input. -/
theorem resultLen_lt {width len : ℕ} (hlen : len < 2 ^ width)
    (h : 2 ^ width ≤ 4 * ((len + 2) / 3)) :
    (len + 2) % 2 ^ width / 3 * 4 % 2 ^ width < len := by
  by_cases hfits : len + 2 < 2 ^ width
  · rw [Nat.mod_eq_of_lt hfits, Nat.mul_comm, Nat.mod_eq_sub_mod h,
      Nat.mod_eq_of_lt (by omega)]
    omega
  · have hsmall : (len + 2) % 2 ^ width / 3 = 0 := by
      rw [Nat.mod_eq_sub_mod (by omega)]
      have hle := Nat.mod_le (len + 2 - 2 ^ width) (2 ^ width)
      omega
    rw [hsmall, Nat.zero_mul, Nat.zero_mod]
    omega

section Read

variable {limits : StringLimits} {src : List UInt8}

theorem readBase64_eq (h : 4 * ((src.length + 2) / 3) ≤ limits.maxSize) :
    readBase64 limits src = .ok (rfc4648 src) := by
  have hmax := limits.maxSize_lt
  unfold readBase64
  simp only
  rw [resultLen_eq (by omega), length_encode, if_neg (by omega), if_neg (by omega),
    if_pos (Nat.le_refl _), Nat.sub_self, List.replicate_zero, List.append_nil,
    encode_eq_rfc4648]

/-- The overflow test finds every length that size_t cannot hold. -/
theorem readBase64_overflow (hlen : src.length < 2 ^ limits.width)
    (h : 2 ^ limits.width ≤ 4 * ((src.length + 2) / 3)) :
    readBase64 limits src = .throws lengthError [] := by
  unfold readBase64
  simp only
  rw [if_pos (resultLen_lt hlen h)]

/-- A length that size_t holds and the string does not is left to resize. -/
theorem readBase64_tooLong (hmax : limits.maxSize < 4 * ((src.length + 2) / 3))
    (h : 4 * ((src.length + 2) / 3) < 2 ^ limits.width) :
    readBase64 limits src = .throws limits.tooLong [] := by
  unfold readBase64
  simp only
  rw [resultLen_eq h, if_neg (by omega), if_pos hmax]

theorem readBase64_throws (hlen : src.length < 2 ^ limits.width)
    (hmax : limits.maxSize < 4 * ((src.length + 2) / 3)) :
    ∃ what, readBase64 limits src = .throws what [] := by
  rcases Nat.lt_or_ge (4 * ((src.length + 2) / 3)) (2 ^ limits.width) with hfits | hwraps
  · exact ⟨_, readBase64_tooLong hmax hfits⟩
  · exact ⟨_, readBase64_overflow hlen hwraps⟩

end Read

/-! ### The decoder -/

/-- What the decoder writes for a text, from the bits that earlier digits left. -/
def decodedBytes (pending : List Bool) : List UInt8 → List UInt8
  | [] => []
  | c :: rest =>
    match symbol c with
    | .digit value =>
      let bits := pending ++ toBits 6 value
      if 8 ≤ bits.length then
        UInt8.ofNat (ofBits (bits.take 8)) :: decodedBytes (bits.drop 8) rest
      else decodedBytes bits rest
    | .padding => decodedBytes [] rest
    | _ => decodedBytes pending rest

/-- The bit buffer keeps stale bits above the ones that count. -/
theorem toBits_bitBuffer {bitsInBuffer value : ℕ} (hbits : bitsInBuffer < 8) (hvalue : value < 64)
    (bitBuffer : ℕ) : toBits (bitsInBuffer + 6) ((bitBuffer <<< 6 ||| value) % 2 ^ 16) =
      toBits bitsInBuffer bitBuffer ++ toBits 6 value := by
  rw [← toBits_lor bitsInBuffer bitBuffer (show value < 2 ^ 6 from hvalue)]
  apply toBits_congr
  intro i hi
  rw [Nat.testBit_mod_two_pow]
  simp [show i < 16 by omega]

/-- The decoded bytes are written in the pieces that fill the staging buffer. -/
theorem decodeFrom_pieces {δ : Type*} (rw : ReadWritable δ) {text : List UInt8}
    (hascii : IsAscii text) {out : List UInt8} (hout : out.length < outBufferSize)
    (bitBuffer : ℕ) {bitsInBuffer : ℕ} (hbits : bitsInBuffer < 8) (dest : δ) :
    decodeFrom rw (text ++ [0]) out bitBuffer bitsInBuffer dest =
      .ok ((pieces outBufferSize out (decodedBytes (toBits bitsInBuffer bitBuffer) text)).foldl
        rw.write dest) := by
  induction text generalizing out bitBuffer bitsInBuffer dest with
  | nil =>
    rw [List.nil_append, decodeFrom_end, decodedBytes, pieces_nil]
    rfl
  | cons c text ih =>
    rw [List.cons_append, decodeFrom_cons _ hascii.head.1 hascii.head.2, decodedBytes]
    cases hc : symbol c with
    | digit value =>
      have hbuffer := toBits_bitBuffer hbits (digit_lt hc) bitBuffer
      simp only [← hbuffer, length_toBits]
      generalize (bitBuffer <<< 6 ||| value) % 2 ^ 16 = shifted
      by_cases hbyteReady : 8 ≤ bitsInBuffer + 6
      · have hsplit : toBits (bitsInBuffer + 6) shifted =
            toBits 8 (shifted >>> (bitsInBuffer + 6 - 8)) ++
              toBits (bitsInBuffer + 6 - 8) shifted := by
          rw [← toBits_add 8, Nat.add_sub_cancel' hbyteReady]
        have hbyte : UInt8.ofNat (ofBits ((toBits (bitsInBuffer + 6) shifted).take 8)) =
            UInt8.ofNat (shifted >>> (bitsInBuffer + 6 - 8)) := by
          rw [hsplit, List.take_left' (length_toBits 8 _), ofBits_toBits]
          exact UInt8.ofNat_mod_size
        have hrest : (toBits (bitsInBuffer + 6) shifted).drop 8 =
            toBits (bitsInBuffer + 6 - 8) shifted := by
          rw [hsplit, List.drop_left' (length_toBits 8 _)]
        have hbits' : bitsInBuffer + 6 - 8 < 8 := by omega
        rw [if_pos hbyteReady, if_pos hbyteReady, hbyte, hrest, List.length_append,
          List.length_singleton]
        by_cases hfull : out.length + 1 = outBufferSize
        · rw [if_pos hfull, ih hascii.tail (by decide) shifted hbits', pieces_full out hfull]
          rfl
        · have hout' : (out ++ [UInt8.ofNat (shifted >>> (bitsInBuffer + 6 - 8))]).length <
              outBufferSize := by
            rw [List.length_append, List.length_singleton]
            omega
          rw [if_neg hfull, ih hascii.tail hout' shifted hbits', pieces_step out hfull]
      · rw [if_neg hbyteReady, if_neg hbyteReady]
        exact ih hascii.tail hout shifted (by omega) dest
    | whitespace => exact ih hascii.tail hout bitBuffer hbits dest
    | padding => exact ih hascii.tail hout bitBuffer (by decide) dest
    | foreign => exact ih hascii.tail hout bitBuffer hbits dest

theorem validate_of_accepted {text : List UInt8} (hascii : IsAscii text)
    (hverdict : verdict 0 text = .accepted) :
    ∃ index bytes, validate text 0 = .ok ⟨true, index, bytes⟩ := by
  obtain ⟨index, quadChars, extraBytes, hvalid⟩ :=
    validateFrom_accepted 0 hascii [0] 0 0 0 0 hverdict
  refine ⟨index, quadChars / 4 * 3 + extraBytes, ?_⟩
  unfold validate
  rw [hvalid, validateFrom_end]

/-- A text that is accepted is announced with the count of the validator, and then its bytes
are written. -/
theorem writeBase64_pieces {δ : Type*} (rw : ReadWritable δ) {text : List UInt8}
    (hascii : IsAscii text) {index bytes : ℕ} (hvalid : validate text 0 = .ok ⟨true, index, bytes⟩)
    (dest : δ) : writeBase64 rw text dest = .ok (1,
      (pieces outBufferSize [] (decodedBytes [] text)).foldl rw.write
        (rw.prepareWrite dest bytes)) := by
  have hdecode := @decodeFrom_pieces _ rw _ hascii [] (by decide) 0 0 (by decide)
    (rw.prepareWrite dest bytes)
  unfold writeBase64
  rw [hvalid]
  simp only [Bool.not_true, Bool.false_eq_true, if_false]
  rw [hdecode]
  rfl

/-- Digits in a row are regrouped into whole bytes. -/
theorem decodedBytes_digits (values : List ℕ) (hvalues : ∀ v ∈ values, v < 64)
    {pending : List Bool} (hpending : pending.length < 8) (rest : List UInt8) :
    decodedBytes pending (values.map alphabet ++ rest) =
      (wholeGroups 8 (pending ++ values.flatMap (toBits 6))).map UInt8.ofNat ++
        decodedBytes (leftover 8 (pending ++ values.flatMap (toBits 6))) rest := by
  induction values generalizing pending with
  | nil =>
    rw [List.flatMap_nil, List.append_nil, wholeGroups_of_lt hpending, leftover_of_lt hpending]
    rfl
  | cons value values ih =>
    have htail : ∀ v ∈ values, v < 64 := fun v hv => hvalues v (List.mem_cons_of_mem value hv)
    have hsymbol := symbol_alphabet value (hvalues value (List.mem_cons_self ..))
    rw [List.map_cons, List.cons_append, decodedBytes, hsymbol, List.flatMap_cons,
      ← List.append_assoc]
    have hlen : (pending ++ toBits 6 value).length = pending.length + 6 := by
      rw [List.length_append, length_toBits]
    simp only
    split
    · rename_i hfull
      rw [wholeGroups_append (by decide) hfull, leftover_append (by decide) hfull,
        ih htail (by rw [List.length_drop]; omega)]
      rfl
    · rename_i hshort
      exact ih htail (by omega)

theorem decodedBytes_padding (pending : List Bool) (n : ℕ) (rest : List UInt8) :
    decodedBytes pending (List.replicate (n + 1) (byte '=') ++ rest) = decodedBytes [] rest := by
  induction n generalizing pending with
  | zero =>
    change decodedBytes pending (byte '=' :: rest) = _
    rw [decodedBytes, symbol_padding]
  | succ n ih =>
    rw [List.replicate_succ, List.cons_append, decodedBytes, symbol_padding]
    exact ih []

/-- The zeros behind the last byte are exactly what the padding discards. -/
theorem decodedBytes_rfc4648 (bytes rest : List UInt8) :
    decodedBytes [] (rfc4648 bytes ++ rest) = bytes ++ decodedBytes [] rest := by
  obtain ⟨fill, hfill, hlen, hspell⟩ := flatMap_groups (show 0 < 6 by decide) (bitsOf bytes)
  rw [length_bitsOf] at hlen
  have hbits : bitsOf bytes = (bytes.map UInt8.toNat).flatMap (toBits 8) := by
    rw [bitsOf, List.flatMap_map]
  have hvalues : ∀ n ∈ bytes.map UInt8.toNat, n < 2 ^ 8 := by
    intro n hn
    obtain ⟨b, -, rfl⟩ := List.mem_map.mp hn
    exact b.toNat_lt
  have htail : (List.replicate fill false).length < 8 := by
    rw [List.length_replicate]
    omega
  obtain ⟨hwhole, hleft⟩ := wholeGroups_flatMap hvalues htail
  have hback : (bytes.map UInt8.toNat).map UInt8.ofNat = bytes := by
    rw [List.map_map]
    exact List.map_id'' (fun b => UInt8.ofNat_toNat) bytes
  rw [rfc4648, List.append_assoc, decodedBytes_digits _ (fun v hv => lt_of_mem_groups hv)
    (show ([] : List Bool).length < 8 by decide), List.nil_append, hspell, hbits, hwhole, hleft,
    hback]
  congr 1
  cases hpad : (3 - bytes.length % 3) % 3 with
  | zero =>
    have hzero : fill = 0 := by omega
    rw [hzero]
    rfl
  | succ n => exact decodedBytes_padding _ n rest

/-! ### The validator -/

theorem verdict_digits (values : List ℕ) (hvalues : ∀ v ∈ values, v < 64) {block : ℕ}
    (hblock : block < 4) (rest : List UInt8) :
    verdict block (values.map alphabet ++ rest) =
      verdict ((block + values.length) % 4) rest := by
  induction values generalizing block with
  | nil =>
    rw [List.length_nil, Nat.add_zero, Nat.mod_eq_of_lt hblock]
    rfl
  | cons value values ih =>
    have htail : ∀ v ∈ values, v < 64 := fun v hv => hvalues v (List.mem_cons_of_mem value hv)
    have hsymbol := symbol_alphabet value (hvalues value (List.mem_cons_self ..))
    rw [List.map_cons, List.cons_append, verdict, hsymbol]
    change verdict ((block + 1) % 4) (values.map alphabet ++ rest) = _
    rw [ih htail (Nat.mod_lt _ (by decide)), List.length_cons]
    congr 1
    omega

theorem verdict_padding {block : ℕ} (hblock : block ≠ 1) (n : ℕ) (rest : List UInt8) :
    verdict block (List.replicate (n + 1) (byte '=') ++ rest) = verdict 0 rest := by
  induction n generalizing block with
  | zero =>
    change verdict block (byte '=' :: rest) = _
    rw [verdict, symbol_padding]
    simp only [if_neg hblock]
  | succ n ih =>
    rw [List.replicate_succ, List.cons_append, verdict, symbol_padding]
    simp only [if_neg hblock]
    exact ih (by decide)

/-- The padding never closes a block of one digit, and a quad always ends. -/
theorem verdict_rfc4648 (bytes rest : List UInt8) :
    verdict 0 (rfc4648 bytes ++ rest) = verdict 0 rest := by
  obtain ⟨fill, hfill, hlen, -⟩ := flatMap_groups (show 0 < 6 by decide) (bitsOf bytes)
  rw [length_bitsOf] at hlen
  rw [rfc4648, List.append_assoc, verdict_digits _ (fun v hv => lt_of_mem_groups hv) (by decide),
    Nat.zero_add]
  cases hpad : (3 - bytes.length % 3) % 3 with
  | zero =>
    have hquads : (groups 6 (bitsOf bytes)).length % 4 = 0 := by omega
    rw [hquads]
    rfl
  | succ n => exact verdict_padding (by omega) n rest

/-! ### Reflowed text -/

/-- Some characters are replaced by those of the other alphabet, and line breaks
are inserted. -/
inductive Reflow : List UInt8 → List UInt8 → Prop where
  | nil : Reflow [] []
  | keep {text text' : List UInt8} (c : UInt8) :
      Reflow text text' → Reflow (c :: text) (c :: text')
  | minus {text text' : List UInt8} :
      Reflow text text' → Reflow (byte '+' :: text) (byte '-' :: text')
  | underscore {text text' : List UInt8} :
      Reflow text text' → Reflow (byte '/' :: text) (byte '_' :: text')
  | newline {text text' : List UInt8} : Reflow text text' → Reflow text (byte '\n' :: text')
  | carriageReturn {text text' : List UInt8} :
      Reflow text text' → Reflow text (byte '\r' :: text')

theorem Reflow.isAscii {text text' : List UInt8} (h : Reflow text text')
    (hascii : IsAscii text) : IsAscii text' := by
  have hcons : ∀ {c : UInt8} {rest : List UInt8}, c ≠ 0 ∧ c < 128 → IsAscii rest →
      IsAscii (c :: rest) := by
    intro c rest hc hrest d hd
    rcases List.mem_cons.mp hd with rfl | hd
    · exact hc
    · exact hrest d hd
  induction h with
  | nil => exact hascii
  | keep c _ ih => exact hcons hascii.head (ih hascii.tail)
  | minus _ ih => exact hcons (by decide) (ih hascii.tail)
  | underscore _ ih => exact hcons (by decide) (ih hascii.tail)
  | newline _ ih => exact hcons (by decide) (ih hascii)
  | carriageReturn _ ih => exact hcons (by decide) (ih hascii)

theorem Reflow.verdict_eq {text text' : List UInt8} (h : Reflow text text') (block : ℕ) :
    verdict block text' = verdict block text := by
  induction h generalizing block with
  | nil => rfl
  | keep c _ ih =>
    rw [verdict, verdict]
    cases symbol c with
    | digit value => exact ih _
    | whitespace => exact ih _
    | padding => simp only [ih]
    | foreign => rfl
  | minus _ ih =>
    rw [verdict, verdict, show symbol (byte '-') = symbol (byte '+') by decide,
      show symbol (byte '+') = .digit 62 by decide]
    exact ih _
  | underscore _ ih =>
    rw [verdict, verdict, show symbol (byte '_') = symbol (byte '/') by decide,
      show symbol (byte '/') = .digit 63 by decide]
    exact ih _
  | newline _ ih =>
    rw [verdict, show symbol (byte '\n') = .whitespace by decide]
    exact ih _
  | carriageReturn _ ih =>
    rw [verdict, show symbol (byte '\r') = .whitespace by decide]
    exact ih _

theorem Reflow.decodedBytes_eq {text text' : List UInt8} (h : Reflow text text')
    (pending : List Bool) : decodedBytes pending text' = decodedBytes pending text := by
  induction h generalizing pending with
  | nil => rfl
  | keep c _ ih =>
    rw [decodedBytes, decodedBytes]
    cases symbol c with
    | digit value => simp only [ih]
    | whitespace => exact ih _
    | padding => exact ih _
    | foreign => exact ih _
  | minus _ ih =>
    rw [decodedBytes, decodedBytes, show symbol (byte '-') = symbol (byte '+') by decide,
      show symbol (byte '+') = .digit 62 by decide]
    simp only [ih]
  | underscore _ ih =>
    rw [decodedBytes, decodedBytes, show symbol (byte '_') = symbol (byte '/') by decide,
      show symbol (byte '/') = .digit 63 by decide]
    simp only [ih]
  | newline _ ih =>
    rw [decodedBytes, show symbol (byte '\n') = .whitespace by decide]
    exact ih _
  | carriageReturn _ ih =>
    rw [decodedBytes, show symbol (byte '\r') = .whitespace by decide]
    exact ih _

/-! ### The round trip -/

theorem isAscii_rfc4648 (bytes : List UInt8) : IsAscii (rfc4648 bytes) := by
  have halphabet : ∀ value < 64, alphabet value ≠ 0 ∧ alphabet value < 128 := by decide +kernel
  intro c hc
  rcases List.mem_append.mp hc with hc | hc
  · obtain ⟨value, hvalue, rfl⟩ := List.mem_map.mp hc
    exact halphabet value (lt_of_mem_groups hvalue)
  · rw [List.eq_of_mem_replicate hc]
    decide

theorem isAscii_flatMap_rfc4648 (bs : List (List UInt8)) : IsAscii (bs.flatMap rfc4648) := by
  intro c hc
  obtain ⟨b, -, hb⟩ := List.mem_flatMap.mp hc
  exact isAscii_rfc4648 b c hb

theorem verdict_flatMap_rfc4648 (bs : List (List UInt8)) :
    verdict 0 (bs.flatMap rfc4648) = .accepted := by
  induction bs with
  | nil => rfl
  | cons b bs ih => rw [List.flatMap_cons, verdict_rfc4648, ih]

theorem decodedBytes_flatMap_rfc4648 (bs : List (List UInt8)) :
    decodedBytes [] (bs.flatMap rfc4648) = bs.flatten := by
  induction bs with
  | nil => rfl
  | cons b bs ih => rw [List.flatMap_cons, decodedBytes_rfc4648, ih, List.flatten_cons]

section Write

variable {δ : Type*} (ad : AppendDestination δ)

/-- An accepted text adds its decoded bytes to the destination. -/
theorem writeBase64_of_accepted {text : List UInt8} (hascii : IsAscii text)
    (hverdict : verdict 0 text = .accepted) (dest : δ) :
    ∃ dest', writeBase64 ad.toReadWritable text dest = .ok (1, dest') ∧
      ad.content dest' = ad.content dest ++ decodedBytes [] text := by
  obtain ⟨index, bytes, hvalid⟩ := validate_of_accepted hascii hverdict
  refine ⟨_, writeBase64_pieces ad.toReadWritable hascii hvalid dest, ?_⟩
  rw [ad.content_foldl_write, flatten_pieces, ad.content_prepareWrite, List.nil_append]

/-- Every string has its padded encoding, and any reflowed concatenation of the
encodings decodes to the strings in order. -/
def RoundTrips (limits : StringLimits) (bs : List (List UInt8)) : Prop :=
  (∀ b ∈ bs, readBase64 limits b = .ok (rfc4648 b)) ∧
    ∀ text, Reflow (bs.flatMap rfc4648) text → ∀ dest,
      ∃ dest', writeBase64 ad.toReadWritable text dest = .ok (1, dest') ∧
        ad.content dest' = ad.content dest ++ bs.flatten

theorem roundTrips {limits : StringLimits} {bs : List (List UInt8)}
    (hsize : ∀ b ∈ bs, 4 * ((b.length + 2) / 3) ≤ limits.maxSize) : RoundTrips ad limits bs := by
  constructor
  · intro b hb
    exact readBase64_eq (hsize b hb)
  · intro text hreflow dest
    obtain ⟨dest', hok, hcontent⟩ := writeBase64_of_accepted ad
      (hreflow.isAscii (isAscii_flatMap_rfc4648 bs))
      (by rw [hreflow.verdict_eq, verdict_flatMap_rfc4648]) dest
    refine ⟨dest', hok, ?_⟩
    rw [hcontent, hreflow.decodedBytes_eq, decodedBytes_flatMap_rfc4648]

/-- The round trip holds for all strings whose encodings a string can hold, and readBase64
throws for every other. -/
theorem roundTrips_or_throws (limits : StringLimits) :
    (∀ bs : List (List UInt8), (∀ b ∈ bs, 4 * ((b.length + 2) / 3) ≤ limits.maxSize) →
      RoundTrips ad limits bs) ∧
    ∀ b : List UInt8, b.length < 2 ^ limits.width →
      limits.maxSize < 4 * ((b.length + 2) / 3) →
      ∃ what, readBase64 limits b = .throws what [] :=
  ⟨fun _ hsize => roundTrips ad hsize, fun _ hlen hmax => readBase64_throws hlen hmax⟩

theorem roundTrips_or_throws_ab :
    RoundTrips Buffer.appendDestination .mingw [[97], [98, 99]] :=
  (roundTrips_or_throws Buffer.appendDestination .mingw).1 [[97], [98, 99]] (by decide)

/-- The encoding of three quarters of a gigabyte is longer than a string of MinGW may be, and
readBase64 throws. -/
theorem not_roundTrips_threeQuartersGiB :
    ¬ RoundTrips Buffer.appendDestination .mingw [List.replicate (3 * 2 ^ 28) 0] := by
  rintro ⟨hread, -⟩
  have hok := hread _ (List.mem_singleton_self _)
  obtain ⟨what, hthrows⟩ := @readBase64_throws .mingw (List.replicate (3 * 2 ^ 28) 0)
    (by rw [List.length_replicate]; decide) (by rw [List.length_replicate]; decide)
  rw [hthrows] at hok
  contradiction

end Write

end FaucetNetworking.Base64Codec
