import FaucetNetworking.Base64RoundTrip
import FaucetNetworking.HexRoundTrip
import FaucetNetworking.Lib.OutputIterator
import Mathlib.Algebra.Order.Floor.Div

/-!
What the encoders store in the result string, character by character. The string is resized
first, to a length that is computed with size_t and may wrap; the iterator through which the
encoders write has no bounds. What readBase64 and readHex return is what these stores leave.
-/
namespace FaucetNetworking

/-- The result string: how many characters were allocated, and the iterator that encode has
returned. -/
structure EncodedString where
  size : ℕ
  written : OutputIterator UInt8

namespace EncodedString

/-- The characters of the string; resize sets them to 0. -/
def result (s : EncodedString) : List UInt8 := s.written.memory (List.replicate s.size 0)

/-- Every character allocated is written once, in order, and nothing else is written. -/
structure WrittenOnce (s : EncodedString) : Prop where
  positions : s.written.stores.map Prod.snd = List.range s.size
  returned : s.written.position = s.size

/-- The test for an overflow, the resize, which throws if the string cannot be that long, and
the call of encode, which may read behind its input. A store behind the string is undefined
behaviour. -/
def encodeInto (limits : StringLimits) (resultLen len : ℕ) (message : String)
    (encoded : Option (OutputIterator UInt8)) : Outcome EncodedString :=
  if resultLen < len then .throws message ⟨0, .start⟩
  else if limits.maxSize < resultLen then .throws limits.tooLong ⟨0, .start⟩
  else
    match encoded with
    | none => .undefined
    | some written =>
      if ∀ entry ∈ written.stores, entry.2 < resultLen then .ok ⟨resultLen, written⟩
      else .undefined

end EncodedString

namespace Base64Codec

/-- The loop of encode at the input that is left, with the number of steps after which src
is bigStepEnd. -/
def bigSteps : ℕ → List UInt8 → OutputIterator UInt8 →
    Option (List UInt8 × OutputIterator UInt8)
  | 0, src, dest => some (src, dest)
  | steps + 1, x :: y :: z :: src, dest =>
    let b := x.toNat <<< 16 ||| y.toNat <<< 8 ||| z.toNat
    let dest := dest.store (baseChar (b >>> 18 &&& 0x3f))
    let dest := dest.next.store (baseChar (b >>> 12 &&& 0x3f))
    let dest := dest.next.store (baseChar (b >>> 6 &&& 0x3f))
    let dest := dest.next.store (baseChar (b &&& 0x3f))
    bigSteps steps src dest.next
  | _ + 1, _, _ => none

def encodeTo (src : List UInt8) (dest : OutputIterator UInt8) :
    Option (OutputIterator UInt8) :=
  match bigSteps (src.length / 3) src dest with
  | none => none
  | some ([x], dest) =>
    let b := x.toNat
    let dest := dest.store (baseChar (b >>> 2 &&& 0x3f))
    let dest := dest.next.store (baseChar (b <<< 4 &&& 0x3f))
    let dest := dest.next.store (byte '=')
    let dest := dest.next.store (byte '=')
    some dest.next
  | some ([x, y], dest) =>
    let b := x.toNat <<< 8 ||| y.toNat
    let dest := dest.store (baseChar (b >>> 10 &&& 0x3f))
    let dest := dest.next.store (baseChar (b >>> 4 &&& 0x3f))
    let dest := dest.next.store (baseChar (b <<< 2 &&& 0x3f))
    let dest := dest.next.store (byte '=')
    some dest.next
  | some (_, dest) => some dest

def encodedString (limits : StringLimits) (src : List UInt8) : Outcome EncodedString :=
  let len := src.length
  let resultLen := (len + 2) % 2 ^ limits.width / 3 * 4 % 2 ^ limits.width
  EncodedString.encodeInto limits resultLen len lengthError (encodeTo src .start)

end Base64Codec

namespace HexCodec

def encodeTo : List UInt8 → OutputIterator UInt8 → OutputIterator UInt8
  | [], dest => dest
  | c :: src, dest =>
    let dest := dest.store (hexNibble ((c.toNat &&& 0xf0) >>> 4))
    let dest := dest.next.store (hexNibble (c.toNat &&& 0x0f))
    encodeTo src dest.next

def encodedString (limits : StringLimits) (src : List UInt8) : Outcome EncodedString :=
  let len := src.length
  let resultLen := len * 2 % 2 ^ limits.width
  EncodedString.encodeInto limits resultLen len lengthError (some (encodeTo src .start))

end HexCodec

/-! ### The characters written -/

/-- The loop writes four characters for three bytes, and what is left over is written behind
them. -/
theorem Base64Codec.encodeTo_eq (src : List UInt8) (dest : OutputIterator UInt8) :
    encodeTo src dest = some (dest.write (encode src)) := by
  induction src using encode.induct generalizing dest with
  | case1 x y z rest ih =>
    have hlen : (x :: y :: z :: rest).length / 3 = rest.length / 3 + 1 := by
      simp only [List.length_cons]
      omega
    unfold encodeTo
    rw [hlen, encode]
    exact ih _
  | case2 x =>
    have hlen : [x].length / 3 = 0 := by rw [List.length_singleton]
    unfold encodeTo
    rw [hlen, encode]
    rfl
  | case3 x y =>
    have hlen : [x, y].length / 3 = 0 := by rw [List.length_cons, List.length_singleton]
    unfold encodeTo
    rw [hlen, encode]
    rfl
  | case4 => rfl

theorem HexCodec.encodeTo_eq (src : List UInt8) (dest : OutputIterator UInt8) :
    encodeTo src dest = dest.write (encode src) := by
  induction src generalizing dest with
  | nil => rfl
  | cons c src ih => exact ih _

namespace EncodedString

variable {limits : StringLimits} {resultLen len : ℕ} {message : String} {chars : List UInt8}

theorem wrote_write (chars : List UInt8) : (OutputIterator.start.write chars).Wrote chars :=
  OutputIterator.wrote_start.write chars

theorem positions_write (chars : List UInt8) :
    (OutputIterator.start.write chars).stores.map Prod.snd = List.range chars.length := by
  rw [(wrote_write chars).positions, (wrote_write chars).position_eq]

/-- A store is behind the string if and only if there are more characters than were
allocated. -/
theorem inBounds_write (chars : List UInt8) (size : ℕ) :
    (∀ entry ∈ (OutputIterator.start.write chars).stores, entry.2 < size) ↔
      chars.length ≤ size := by
  have hmap : (∀ entry ∈ (OutputIterator.start.write chars).stores, entry.2 < size) ↔
      ∀ position ∈ List.range chars.length, position < size := by
    rw [← positions_write, List.forall_mem_map]
  rw [hmap]
  constructor
  · intro h
    by_contra hlt
    rw [not_le] at hlt
    exact absurd (h size (List.mem_range.mpr hlt)) (lt_irrefl size)
  · intro h position hposition
    exact lt_of_lt_of_le (List.mem_range.mp hposition) h

/-- What the stores leave of the string: the characters, and zeros behind them. -/
theorem result_write (h : chars.length ≤ resultLen) :
    result ⟨resultLen, OutputIterator.start.write chars⟩ =
      chars ++ List.replicate (resultLen - chars.length) 0 := by
  unfold result
  rw [(wrote_write chars).memory_eq (by rwa [List.length_replicate]), List.drop_replicate]

theorem map_encodeInto (limits : StringLimits) (resultLen len : ℕ) (message : String)
    (chars : List UInt8) :
    (encodeInto limits resultLen len message
        (some (OutputIterator.start.write chars))).map result =
      if resultLen < len then .throws message []
      else if limits.maxSize < resultLen then .throws limits.tooLong []
      else if chars.length ≤ resultLen then
        .ok (chars ++ List.replicate (resultLen - chars.length) 0)
      else .undefined := by
  unfold encodeInto
  by_cases hoverflow : resultLen < len
  · rw [if_pos hoverflow, if_pos hoverflow]
    rfl
  by_cases hmax : limits.maxSize < resultLen
  · rw [if_neg hoverflow, if_neg hoverflow, if_pos hmax, if_pos hmax]
    rfl
  · rw [if_neg hoverflow, if_neg hoverflow, if_neg hmax, if_neg hmax]
    simp only [inBounds_write]
    by_cases hfits : chars.length ≤ resultLen
    · rw [if_pos hfits, if_pos hfits, ← result_write hfits]
      rfl
    · rw [if_neg hfits, if_neg hfits]
      rfl

/-- What the encoder does that needs a number of characters: it throws if and only if a string
cannot have as many, by its own test when size_t cannot hold the number and in resize
otherwise; in all other cases it allocates exactly as many and fills them. -/
structure SizedExactly (limits : StringLimits) (needed : ℕ) (message : String)
    (encoded : Outcome EncodedString) : Prop where
  throws_iff : (∃ what s, encoded = .throws what s) ↔ limits.maxSize < needed
  overflow : 2 ^ limits.width ≤ needed → ∃ s, encoded = .throws message s
  tooLong : limits.maxSize < needed → needed < 2 ^ limits.width →
    ∃ s, encoded = .throws limits.tooLong s
  writes : needed ≤ limits.maxSize → ∃ s, encoded = .ok s ∧ s.size = needed ∧ s.WrittenOnce

/-- It is enough that a length which wraps is less than the one of the input. -/
theorem sizedExactly_encodeInto (hlen : len ≤ chars.length)
    (hfits : chars.length < 2 ^ limits.width → resultLen = chars.length)
    (hwraps : 2 ^ limits.width ≤ chars.length → resultLen < len) :
    SizedExactly limits chars.length message
      (encodeInto limits resultLen len message (some (OutputIterator.start.write chars))) := by
  have hmax := limits.maxSize_lt
  have hoverflow : 2 ^ limits.width ≤ chars.length → ∃ s,
      encodeInto limits resultLen len message (some (OutputIterator.start.write chars)) =
        .throws message s := fun h => ⟨_, if_pos (hwraps h)⟩
  have htooLong : limits.maxSize < chars.length → chars.length < 2 ^ limits.width → ∃ s,
      encodeInto limits resultLen len message (some (OutputIterator.start.write chars)) =
        .throws limits.tooLong s := by
    intro hlong h
    unfold encodeInto
    rw [hfits h, if_neg (by omega)]
    exact ⟨_, if_pos hlong⟩
  have hok : chars.length ≤ limits.maxSize →
      encodeInto limits resultLen len message (some (OutputIterator.start.write chars)) =
        .ok ⟨chars.length, OutputIterator.start.write chars⟩ := by
    intro h
    unfold encodeInto
    rw [hfits (by omega), if_neg (by omega), if_neg (by omega)]
    exact if_pos ((inBounds_write chars chars.length).mpr (le_refl _))
  refine ⟨?_, hoverflow, htooLong, ?_⟩
  · constructor
    · rintro ⟨what, s, hs⟩
      by_contra hle
      rw [hok (not_lt.mp hle)] at hs
      contradiction
    · intro hlong
      rcases Nat.lt_or_ge chars.length (2 ^ limits.width) with h | h
      · obtain ⟨s, hs⟩ := htooLong hlong h
        exact ⟨_, s, hs⟩
      · obtain ⟨s, hs⟩ := hoverflow h
        exact ⟨_, s, hs⟩
  · intro h
    exact ⟨_, hok h, rfl, positions_write chars, (wrote_write chars).position_eq⟩

end EncodedString

/-! ### The two codecs -/

open EncodedString

namespace Base64Codec

/-- The result of readBase64 is the string that the stores leave. -/
theorem readBase64_eq_map (limits : StringLimits) (src : List UInt8) :
    readBase64 limits src = (encodedString limits src).map EncodedString.result := by
  unfold encodedString
  rw [encodeTo_eq, map_encodeInto]
  rfl

theorem sizedExactly_encodedString {limits : StringLimits} {src : List UInt8}
    (h : src.length < 2 ^ limits.width) :
    SizedExactly limits (4 * (src.length ⌈/⌉ 3)) lengthError (encodedString limits src) := by
  have hchars : (encode src).length = 4 * (src.length ⌈/⌉ 3) := length_encode src
  unfold encodedString
  rw [encodeTo_eq, ← hchars]
  refine sizedExactly_encodeInto ?_ ?_ ?_
  · rw [length_encode]
    omega
  · intro hfits
    rw [length_encode] at hfits ⊢
    exact resultLen_eq hfits
  · intro hwraps
    rw [length_encode] at hwraps
    exact resultLen_lt h hwraps

end Base64Codec

namespace HexCodec

/-- The result of readHex is the string that the stores leave. -/
theorem readHex_eq_map (limits : StringLimits) (src : List UInt8) :
    readHex limits src = (encodedString limits src).map EncodedString.result := by
  unfold encodedString
  rw [encodeTo_eq, map_encodeInto]
  rfl

theorem sizedExactly_encodedString {limits : StringLimits} {src : List UInt8}
    (h : src.length < 2 ^ limits.width) :
    SizedExactly limits (2 * src.length) lengthError (encodedString limits src) := by
  have hchars : (encode src).length = 2 * src.length := length_encode src
  unfold encodedString
  rw [encodeTo_eq, ← hchars]
  refine sizedExactly_encodeInto ?_ ?_ ?_
  · rw [length_encode]
    omega
  · intro hfits
    rw [length_encode] at hfits ⊢
    exact resultLen_eq hfits
  · intro hwraps
    rw [length_encode] at hwraps
    exact resultLen_lt h hwraps

end HexCodec

/-- Both encoders fill the string that was allocated, and an exception is thrown if and only
if a string cannot be as long as the text. -/
theorem encoder_output_is_overflow_safe {limits : StringLimits} {src : List UInt8}
    (h : src.length < 2 ^ limits.width) :
    (SizedExactly limits (4 * (src.length ⌈/⌉ 3)) Base64Codec.lengthError
        (Base64Codec.encodedString limits src) ∧
      Base64Codec.readBase64 limits src =
        (Base64Codec.encodedString limits src).map EncodedString.result) ∧
    SizedExactly limits (2 * src.length) HexCodec.lengthError
      (HexCodec.encodedString limits src) ∧
    HexCodec.readHex limits src =
      (HexCodec.encodedString limits src).map EncodedString.result :=
  ⟨⟨Base64Codec.sizedExactly_encodedString h, Base64Codec.readBase64_eq_map limits src⟩,
    HexCodec.sizedExactly_encodedString h, HexCodec.readHex_eq_map limits src⟩

theorem encoder_output_is_overflow_safe_two :
    ∃ s, Base64Codec.encodedString .mingw [77, 97] = .ok s ∧ s.size = 4 ∧ s.WrittenOnce :=
  (@encoder_output_is_overflow_safe .mingw [77, 97] (by decide)).1.1.writes (by decide)

/-- The text of half a gigabyte has a 32-bit length, and readHex throws all the same: a string
of MinGW cannot be as long. -/
theorem not_throws_iff_overflow_halfGiB :
    ¬ ((∃ what s, HexCodec.encodedString .mingw (List.replicate (2 ^ 29) 0) = .throws what s) ↔
      2 ^ StringLimits.mingw.width ≤ 2 * (List.replicate (2 ^ 29) (0 : UInt8)).length) := by
  have hsized := @HexCodec.sizedExactly_encodedString .mingw (List.replicate (2 ^ 29) 0)
    (by rw [List.length_replicate]; decide)
  rw [hsized.throws_iff, List.length_replicate]
  decide

end FaucetNetworking
