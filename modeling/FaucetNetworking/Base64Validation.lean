import FaucetNetworking.Base64Codec
import Mathlib.Logic.Basic
import Mathlib.Tactic.ByContra
import Mathlib.Tactic.SplitIfs

/-!
Which texts write_base64 accepts. The grammar is read off the characters: sextet
digits of both alphabets, line breaks, padding, and everything else. The table
agrees with this reading on ASCII characters, and a lookup at any other one is
out of bounds. The validator is an automaton over the number of digits in the
current block, so its result is determined by the first offending character.
-/
namespace FaucetNetworking.Base64Codec

inductive Symbol where
  | digit (value : ℕ)
  | whitespace
  | padding
  | foreign
  deriving DecidableEq, Repr

/-- The value of a character of the standard or the filename safe alphabet. -/
def sextet? (c : UInt8) : Option ℕ :=
  if byte 'A' ≤ c ∧ c ≤ byte 'Z' then some (c.toNat - (byte 'A').toNat)
  else if byte 'a' ≤ c ∧ c ≤ byte 'z' then some (c.toNat - (byte 'a').toNat + 26)
  else if byte '0' ≤ c ∧ c ≤ byte '9' then some (c.toNat - (byte '0').toNat + 52)
  else if c = byte '+' ∨ c = byte '-' then some 62
  else if c = byte '/' ∨ c = byte '_' then some 63
  else none

def symbol (c : UInt8) : Symbol :=
  match sextet? c with
  | some value => .digit value
  | none =>
    if c = byte '\n' ∨ c = byte '\r' then .whitespace
    else if c = byte '=' then .padding
    else .foreign

/-- The table entry that stands for a kind of character. -/
def Symbol.tableValue : Symbol → UInt8
  | .digit value => UInt8.ofNat value
  | .whitespace => BV_WHITESPACE
  | .padding => BV_PADDING
  | .foreign => BV_INVALID

/-- How many digits the current block holds after one more character. -/
def blockAfter (block : ℕ) (c : UInt8) : ℕ :=
  match symbol c with
  | .digit _ => (block + 1) % 4
  | .padding => 0
  | _ => block

/-- The digits since the last complete quad or the last padding character. -/
def currentBlock (text : List UInt8) : ℕ := text.foldl blockAfter 0

def HasForeign (text : List UInt8) : Prop := ∃ c ∈ text, symbol c = .foreign

def HasBadPadding (text : List UInt8) : Prop :=
  ∃ front rest, text = front ++ byte '=' :: rest ∧ currentBlock front = 1

def Malformed (text : List UInt8) : Prop := HasForeign text ∨ HasBadPadding text

/-- A padding character closes a block of a single digit, and no foreign
character stands in front of it. -/
def ClosesSingleton (text : List UInt8) : Prop :=
  ∃ front rest, text = front ++ byte '=' :: rest ∧ currentBlock front = 1 ∧
    ¬ HasForeign front

def IsAscii (text : List UInt8) : Prop := ∀ c ∈ text, c ≠ 0 ∧ c < 128

instance (text : List UInt8) : Decidable (IsAscii text) := List.decidableBAll _ _

/-! ### The table -/

/-- The entry for a byte; the constructor's loop stops short of the last one. -/
def tableEntry (n : ℕ) : Option UInt8 :=
  if n = 0 then some BV_END
  else if n < 255 then some (symbol (UInt8.ofNat n)).tableValue
  else none

/-- The constructor agrees with the alphabets and the special characters. -/
theorem baseValues_eq : baseValues = (List.range 256).map tableEntry := by decide +kernel

private theorem charIndex_low : ∀ n < 128, charIndex (UInt8.ofNat n) = n := by decide +kernel

private theorem charIndex_high : ∀ n < 256, 128 ≤ n → 256 ≤ charIndex (UInt8.ofNat n) := by
  decide +kernel

theorem lookup_of_lt {c : UInt8} {value : UInt8} (h : c < 128)
    (hentry : tableEntry c.toNat = some value) : lookup c = .ok value := by
  have hlt : c.toNat < 128 := UInt8.lt_iff_toNat_lt.mp h
  have hindex := charIndex_low c.toNat hlt
  rw [UInt8.ofNat_toNat] at hindex
  have hvalue : baseValues[charIndex c]? = some (some value) := by
    rw [hindex, baseValues_eq, List.getElem?_map, List.getElem?_range (by omega)]
    rw [Option.map_some, hentry]
  unfold lookup
  rw [hvalue]

theorem lookup_ascii {c : UInt8} (h0 : c ≠ 0) (h : c < 128) :
    lookup c = .ok (symbol c).tableValue := by
  have hlt : c.toNat < 128 := UInt8.lt_iff_toNat_lt.mp h
  have hne : c.toNat ≠ 0 := fun hz => h0 (UInt8.toNat_inj.mp hz)
  apply lookup_of_lt h
  unfold tableEntry
  rw [if_neg hne, if_pos (by omega), UInt8.ofNat_toNat]

theorem lookup_zero : lookup 0 = .ok BV_END := lookup_of_lt (by decide) rfl

/-- A negative char becomes an index far behind the end of the table. -/
theorem lookup_high {c : UInt8} (h : 128 ≤ c) : lookup c = .error .indexOutOfBounds := by
  have hindex := charIndex_high c.toNat c.toNat_lt (UInt8.le_iff_toNat_le.mp h)
  rw [UInt8.ofNat_toNat] at hindex
  have hnone : baseValues[charIndex c]? = none := by
    rw [List.getElem?_eq_none_iff, baseValues_eq, List.length_map, List.length_range]
    exact hindex
  unfold lookup
  rw [hnone]

private theorem sextet_low : ∀ n < 256, ∀ v ∈ sextet? (UInt8.ofNat n), v < 64 := by
  decide +kernel

theorem sextet?_of_symbol {c : UInt8} {v : ℕ} (h : symbol c = .digit v) :
    sextet? c = some v := by
  unfold symbol at h
  split at h
  · rename_i hsome
    rw [hsome, Symbol.digit.inj h]
  · split at h
    · contradiction
    · split at h <;> contradiction

theorem digit_lt {c : UInt8} {v : ℕ} (h : symbol c = .digit v) : v < 64 := by
  apply sextet_low c.toNat c.toNat_lt
  rw [UInt8.ofNat_toNat]
  exact sextet?_of_symbol h

theorem tableValue_digit_lt {v : ℕ} (h : v < 64) : (Symbol.digit v).tableValue < 0x40 := by
  rw [UInt8.lt_iff_toNat_lt]
  change (UInt8.ofNat v).toNat < 64
  rw [UInt8.toNat_ofNat_of_lt' (Nat.lt_trans h (by decide))]
  exact h

theorem symbol_padding : symbol (byte '=') = .padding := by decide

theorem eq_padding_of_symbol {c : UInt8} (h : symbol c = .padding) : c = byte '=' := by
  unfold symbol at h
  split at h
  · contradiction
  · split at h
    · contradiction
    · split at h
      · assumption
      · contradiction

/-! ### The validator as an automaton -/

inductive Verdict where
  | accepted
  | slipped
  | rejected
  deriving DecidableEq, Repr

/-- The first offending character decides, from the given block length on. -/
def verdict (block : ℕ) : List UInt8 → Verdict
  | [] => .accepted
  | c :: rest =>
    match symbol c with
    | .digit _ => verdict ((block + 1) % 4) rest
    | .whitespace => verdict block rest
    | .padding => if block = 1 then .slipped else verdict 0 rest
    | .foreign => .rejected

theorem hasForeign_cons (c : UInt8) (rest : List UInt8) :
    HasForeign (c :: rest) ↔ symbol c = .foreign ∨ HasForeign rest := by
  unfold HasForeign
  simp only [List.mem_cons, exists_eq_or_imp]

theorem not_hasForeign_nil : ¬ HasForeign [] := by
  rintro ⟨c, hc, -⟩
  exact absurd hc List.not_mem_nil

/-- Splitting at a padding character, either at the head or behind it. -/
theorem exists_padding_cons (c : UInt8) (rest : List UInt8) (p : List UInt8 → Prop) :
    (∃ front tail, c :: rest = front ++ byte '=' :: tail ∧ p front) ↔
      (c = byte '=' ∧ p []) ∨ ∃ front tail, rest = front ++ byte '=' :: tail ∧ p (c :: front) := by
  constructor
  · rintro ⟨front, tail, heq, hp⟩
    cases front with
    | nil => exact Or.inl ⟨(List.cons.inj heq).1, hp⟩
    | cons d front =>
      obtain ⟨rfl, hrest⟩ := List.cons.inj heq
      exact Or.inr ⟨front, tail, hrest, hp⟩
  · rintro (⟨rfl, hp⟩ | ⟨front, tail, rfl, hp⟩)
    · exact ⟨[], rest, rfl, hp⟩
    · exact ⟨c :: front, tail, rfl, hp⟩

theorem verdict_eq_slipped_iff (block : ℕ) (text : List UInt8) :
    verdict block text = .slipped ↔ ∃ front rest, text = front ++ byte '=' :: rest ∧
      front.foldl blockAfter block = 1 ∧ ¬ HasForeign front := by
  induction text generalizing block with
  | nil =>
    simp only [verdict, reduceCtorEq, false_iff]
    rintro ⟨front, rest, heq, -⟩
    exact absurd heq (by simp)
  | cons c rest ih =>
    rw [exists_padding_cons c rest fun front => front.foldl blockAfter block = 1 ∧
      ¬ HasForeign front]
    simp only [List.foldl_cons, List.foldl_nil, hasForeign_cons, not_or]
    have hpad : c = byte '=' ↔ symbol c = .padding :=
      ⟨fun h => h ▸ symbol_padding, eq_padding_of_symbol⟩
    rw [hpad]
    cases hc : symbol c with
    | digit v => simp [verdict, blockAfter, hc, ih]
    | whitespace => simp [verdict, blockAfter, hc, ih]
    | padding =>
      simp only [verdict, blockAfter, hc, true_and, reduceCtorEq, not_false_iff]
      by_cases hblock : block = 1
      · simp [hblock, not_hasForeign_nil]
      · simp [hblock, ih]
    | foreign => simp [verdict, hc]

theorem verdict_eq_accepted_iff (block : ℕ) (text : List UInt8) :
    verdict block text = .accepted ↔ ¬ HasForeign text ∧
      ¬ ∃ front rest, text = front ++ byte '=' :: rest ∧ front.foldl blockAfter block = 1 := by
  induction text generalizing block with
  | nil =>
    simp only [verdict, true_iff]
    refine ⟨not_hasForeign_nil, ?_⟩
    rintro ⟨front, rest, heq, -⟩
    exact absurd heq (by simp)
  | cons c rest ih =>
    rw [exists_padding_cons c rest fun front => front.foldl blockAfter block = 1]
    simp only [List.foldl_cons, List.foldl_nil, hasForeign_cons, not_or]
    have hpad : c = byte '=' ↔ symbol c = .padding :=
      ⟨fun h => h ▸ symbol_padding, eq_padding_of_symbol⟩
    rw [hpad]
    cases hc : symbol c with
    | digit v => simp [verdict, blockAfter, hc, ih]
    | whitespace => simp [verdict, blockAfter, hc, ih]
    | padding =>
      simp only [verdict, blockAfter, hc, true_and, reduceCtorEq, not_false_iff]
      by_cases hblock : block = 1
      · simp [hblock]
      · simp [hblock, ih]
    | foreign => simp [verdict, hc]

theorem verdict_eq_slipped_iff_closesSingleton (text : List UInt8) :
    verdict 0 text = .slipped ↔ ClosesSingleton text := verdict_eq_slipped_iff 0 text

theorem verdict_eq_accepted_iff_not_malformed (text : List UInt8) :
    verdict 0 text = .accepted ↔ ¬ Malformed text := by
  rw [verdict_eq_accepted_iff]
  unfold Malformed HasBadPadding currentBlock
  rw [not_or]

/-- The bytes a padding character adds for the block it closes. -/
def paddingBytes (block : ℕ) : ℕ := if block = 2 then 1 else if block = 3 then 2 else 0

/-- One turn of the validator, by the kind of the character. -/
theorem validateFrom_cons {c : UInt8} (h0 : c ≠ 0) (h : c < 128) (bytes : ℕ)
    (rest : List UInt8) (index quadChars extraBytes quadPos : ℕ) :
    validateFrom bytes (c :: rest) index quadChars extraBytes quadPos =
      match symbol c with
      | .digit _ => validateFrom bytes rest (index + 1) (quadChars + (quadPos + 1 &&& 4))
          extraBytes ((quadPos + 1) % 4)
      | .whitespace => validateFrom bytes rest (index + 1) quadChars extraBytes quadPos
      | .padding => if quadPos = 1 then .ok ⟨true, index, bytes⟩
          else validateFrom bytes rest (index + 1) quadChars
            (extraBytes + paddingBytes quadPos) 0
      | .foreign => .ok ⟨false, index, bytes⟩ := by
  rw [validateFrom, lookup_ascii h0 h]
  have hmask : quadPos + 1 &&& 3 = (quadPos + 1) % 4 := Nat.and_two_pow_sub_one_eq_mod _ 2
  cases hc : symbol c with
  | digit v =>
    have hlt := tableValue_digit_lt (digit_lt hc)
    simp only [if_pos hlt, hmask]
  | whitespace =>
    have hcode : Symbol.whitespace.tableValue = BV_WHITESPACE := rfl
    simp only [hcode, if_neg (show ¬ BV_WHITESPACE < 0x40 by decide), if_true]
  | padding =>
    have hcode : Symbol.padding.tableValue = BV_PADDING := rfl
    have hextra : (if quadPos = 3 then (if quadPos = 2 then extraBytes + 1 else extraBytes) + 2
        else if quadPos = 2 then extraBytes + 1 else extraBytes) =
        extraBytes + paddingBytes quadPos := by
      unfold paddingBytes
      split_ifs <;> omega
    simp only [hcode, if_neg (show ¬ BV_PADDING < 0x40 by decide),
      if_neg (show ¬ BV_PADDING = BV_WHITESPACE by decide), if_true, hextra]
    rfl
  | foreign =>
    have hcode : Symbol.foreign.tableValue = BV_INVALID := rfl
    simp only [hcode, if_neg (show ¬ BV_INVALID < 0x40 by decide),
      if_neg (show ¬ BV_INVALID = BV_WHITESPACE by decide),
      if_neg (show ¬ BV_INVALID = BV_PADDING by decide),
      if_neg (show ¬ BV_INVALID = BV_END by decide)]

/-- One turn of the decoder, by the kind of the character. -/
theorem decodeFrom_cons {δ : Type*} (rw : ReadWritable δ) {c : UInt8} (h0 : c ≠ 0)
    (h : c < 128) (rest out : List UInt8) (bitBuffer bitsInBuffer : ℕ) (dest : δ) :
    decodeFrom rw (c :: rest) out bitBuffer bitsInBuffer dest =
      match symbol c with
      | .digit value =>
        let bitBuffer := (bitBuffer <<< 6 ||| value) % 2 ^ 16
        if bitsInBuffer + 6 ≥ 8 then
          let out := out ++ [UInt8.ofNat (bitBuffer >>> (bitsInBuffer + 6 - 8))]
          if out.length = outBufferSize then
            decodeFrom rw rest [] bitBuffer (bitsInBuffer + 6 - 8) (rw.write dest out)
          else decodeFrom rw rest out bitBuffer (bitsInBuffer + 6 - 8) dest
        else decodeFrom rw rest out bitBuffer (bitsInBuffer + 6) dest
      | .padding => decodeFrom rw rest out bitBuffer 0 dest
      | _ => decodeFrom rw rest out bitBuffer bitsInBuffer dest := by
  rw [decodeFrom, lookup_ascii h0 h]
  cases hc : symbol c with
  | digit v =>
    have hlt := tableValue_digit_lt (digit_lt hc)
    have hvalue : (Symbol.digit v).tableValue.toNat = v :=
      UInt8.toNat_ofNat_of_lt' (Nat.lt_trans (digit_lt hc) (by decide))
    simp only [if_pos hlt, hvalue]
  | whitespace =>
    have hcode : Symbol.whitespace.tableValue = BV_WHITESPACE := rfl
    simp only [hcode, if_neg (show ¬ BV_WHITESPACE < 0x40 by decide), if_true]
  | padding =>
    have hcode : Symbol.padding.tableValue = BV_PADDING := rfl
    simp only [hcode, if_neg (show ¬ BV_PADDING < 0x40 by decide),
      if_neg (show ¬ BV_PADDING = BV_WHITESPACE by decide), if_true]
  | foreign =>
    have hcode : Symbol.foreign.tableValue = BV_INVALID := rfl
    simp only [hcode, if_neg (show ¬ BV_INVALID < 0x40 by decide),
      if_neg (show ¬ BV_INVALID = BV_WHITESPACE by decide),
      if_neg (show ¬ BV_INVALID = BV_PADDING by decide),
      if_neg (show ¬ BV_INVALID = BV_END by decide)]

theorem decodeFrom_end {δ : Type*} (rw : ReadWritable δ) (rest out : List UInt8)
    (bitBuffer bitsInBuffer : ℕ) (dest : δ) :
    decodeFrom rw (0 :: rest) out bitBuffer bitsInBuffer dest = .ok (rw.write dest out) := by
  rw [decodeFrom, lookup_zero]
  simp only [if_neg (show ¬ BV_END < 0x40 by decide),
    if_neg (show ¬ BV_END = BV_WHITESPACE by decide),
    if_neg (show ¬ BV_END = BV_PADDING by decide), if_true]

theorem validateFrom_end (bytes : ℕ) (rest : List UInt8)
    (index quadChars extraBytes quadPos : ℕ) :
    validateFrom bytes (0 :: rest) index quadChars extraBytes quadPos =
      .ok ⟨true, index, quadChars / 4 * 3 + extraBytes⟩ := by
  rw [validateFrom, lookup_zero]
  simp only [if_neg (show ¬ BV_END < 0x40 by decide),
    if_neg (show ¬ BV_END = BV_WHITESPACE by decide),
    if_neg (show ¬ BV_END = BV_PADDING by decide), if_true]

theorem IsAscii.head {c : UInt8} {rest : List UInt8} (h : IsAscii (c :: rest)) :
    c ≠ 0 ∧ c < 128 := h c (List.mem_cons_self ..)

theorem IsAscii.tail {c : UInt8} {rest : List UInt8} (h : IsAscii (c :: rest)) :
    IsAscii rest := fun d hd => h d (List.mem_cons_of_mem c hd)

/-- The validator behind an accepted text goes on from the block it ends in. -/
theorem validateFrom_accepted (bytes : ℕ) {text : List UInt8} (hascii : IsAscii text)
    (rest : List UInt8) (index quadChars extraBytes block : ℕ)
    (hverdict : verdict block text = .accepted) :
    ∃ index' quadChars' extraBytes',
      validateFrom bytes (text ++ rest) index quadChars extraBytes block =
        validateFrom bytes rest index' quadChars' extraBytes' (text.foldl blockAfter block) := by
  induction text generalizing index quadChars extraBytes block with
  | nil => exact ⟨index, quadChars, extraBytes, rfl⟩
  | cons c text ih =>
    rw [List.cons_append, validateFrom_cons hascii.head.1 hascii.head.2, List.foldl_cons]
    rw [verdict] at hverdict
    unfold blockAfter
    cases hc : symbol c with
    | digit v =>
      rw [hc] at hverdict
      exact ih hascii.tail _ _ _ _ hverdict
    | whitespace =>
      rw [hc] at hverdict
      exact ih hascii.tail _ _ _ _ hverdict
    | padding =>
      simp only [hc] at hverdict ⊢
      split at hverdict
      · contradiction
      · rename_i hblock
        rw [if_neg hblock]
        exact ih hascii.tail _ _ _ _ hverdict
    | foreign =>
      rw [hc] at hverdict
      contradiction

/-- The validator stops at the first offending character, whatever follows. -/
theorem validateFrom_offence (bytes : ℕ) {text : List UInt8} (hascii : IsAscii text)
    (rest : List UInt8) (index quadChars extraBytes block : ℕ)
    (hverdict : verdict block text ≠ .accepted) :
    ∃ index', validateFrom bytes (text ++ rest) index quadChars extraBytes block =
      .ok ⟨decide (verdict block text = .slipped), index', bytes⟩ := by
  induction text generalizing index quadChars extraBytes block with
  | nil => exact absurd rfl hverdict
  | cons c text ih =>
    rw [List.cons_append, validateFrom_cons hascii.head.1 hascii.head.2]
    rw [verdict] at hverdict ⊢
    cases hc : symbol c with
    | digit v =>
      rw [hc] at hverdict
      exact ih hascii.tail _ _ _ _ hverdict
    | whitespace =>
      rw [hc] at hverdict
      exact ih hascii.tail _ _ _ _ hverdict
    | padding =>
      simp only [hc] at hverdict ⊢
      split at hverdict
      · rename_i hblock
        rw [if_pos hblock, if_pos hblock]
        exact ⟨index, rfl⟩
      · rename_i hblock
        rw [if_neg hblock, if_neg hblock]
        exact ih hascii.tail _ _ _ _ hverdict
    | foreign => exact ⟨index, rfl⟩

/-- The decoder runs through any ASCII text, foreign characters included. -/
theorem decodeFrom_append {δ : Type*} (rw : ReadWritable δ) {text : List UInt8}
    (hascii : IsAscii text) (rest out : List UInt8) (bitBuffer bitsInBuffer : ℕ) (dest : δ) :
    ∃ out' bitBuffer' bitsInBuffer' dest',
      decodeFrom rw (text ++ rest) out bitBuffer bitsInBuffer dest =
        decodeFrom rw rest out' bitBuffer' bitsInBuffer' dest' := by
  induction text generalizing out bitBuffer bitsInBuffer dest with
  | nil => exact ⟨out, bitBuffer, bitsInBuffer, dest, rfl⟩
  | cons c text ih =>
    rw [List.cons_append, decodeFrom_cons rw hascii.head.1 hascii.head.2]
    cases symbol c with
    | digit v =>
      simp only
      split
      · split
        · exact ih hascii.tail ..
        · exact ih hascii.tail ..
      · exact ih hascii.tail ..
    | whitespace => exact ih hascii.tail ..
    | padding => exact ih hascii.tail ..
    | foreign => exact ih hascii.tail ..

/-! ### The result of write_base64 -/

section Write

variable {δ : Type*} (rw : ReadWritable δ)

/-- A rejected front part decides, whatever bytes come behind it. -/
theorem writeBase64_of_rejected {front : List UInt8} (hascii : IsAscii front)
    (rest : List UInt8) (dest : δ) (hverdict : verdict 0 front = .rejected) :
    writeBase64 rw (front ++ rest) dest = .ok (-2, dest) := by
  obtain ⟨index, hvalidate⟩ := validateFrom_offence 0 hascii (rest ++ [0]) 0 0 0 0
    (by rw [hverdict]; decide)
  unfold writeBase64 validate
  rw [List.append_assoc, hvalidate, hverdict]
  rfl

/-- Whatever the validator lets pass is decoded to its end. -/
theorem writeBase64_of_not_rejected {text : List UInt8} (hascii : IsAscii text) (dest : δ)
    (hverdict : verdict 0 text ≠ .rejected) :
    ∃ dest', writeBase64 rw text dest = .ok (1, dest') := by
  have hvalidate : ∃ index bytes, validate text 0 = .ok ⟨true, index, bytes⟩ := by
    unfold validate
    by_cases haccepted : verdict 0 text = .accepted
    · obtain ⟨index, quadChars, extraBytes, heq⟩ :=
        validateFrom_accepted 0 hascii [0] 0 0 0 0 haccepted
      rw [heq, validateFrom_end]
      exact ⟨_, _, rfl⟩
    · obtain ⟨index, heq⟩ := validateFrom_offence 0 hascii [0] 0 0 0 0 haccepted
      have hslipped : verdict 0 text = .slipped := by
        cases h : verdict 0 text with
        | accepted => exact absurd h haccepted
        | slipped => rfl
        | rejected => exact absurd h hverdict
      rw [heq, hslipped]
      exact ⟨_, _, rfl⟩
  obtain ⟨index, bytes, hvalid⟩ := hvalidate
  obtain ⟨out, bitBuffer, bitsInBuffer, dest', hdecode⟩ :=
    decodeFrom_append rw hascii [0] [] 0 0 (rw.prepareWrite dest bytes)
  unfold writeBase64
  rw [hvalid]
  simp only [Bool.not_true, Bool.false_eq_true, if_false]
  rw [hdecode, decodeFrom_end]
  exact ⟨_, rfl⟩

theorem verdict_eq_rejected_iff (text : List UInt8) :
    verdict 0 text = .rejected ↔ HasForeign text ∧ ¬ ClosesSingleton text := by
  rw [← verdict_eq_slipped_iff_closesSingleton]
  have haccepted := verdict_eq_accepted_iff 0 text
  have hslipped := verdict_eq_slipped_iff 0 text
  constructor
  · intro h
    refine ⟨?_, by rw [h]; decide⟩
    by_contra hforeign
    rw [h] at haccepted hslipped
    apply absurd (haccepted.mpr ⟨hforeign, ?_⟩) (by decide)
    rintro ⟨front, rest, rfl, hblock⟩
    apply absurd (hslipped.mpr ⟨front, rest, rfl, hblock, ?_⟩) (by decide)
    rintro ⟨c, hc, hsymbol⟩
    exact hforeign ⟨c, List.mem_append_left _ hc, hsymbol⟩
  · rintro ⟨hforeign, hnot⟩
    cases h : verdict 0 text with
    | accepted => exact absurd hforeign (haccepted.mp h).1
    | slipped => exact absurd h hnot
    | rejected => rfl

/-- What the grammar asks for: malformed texts leave the destination alone. -/
def MeetsGrammar (text : List UInt8) (dest : δ) : Prop :=
  (Malformed text → writeBase64 rw text dest = .ok (-2, dest)) ∧
    (¬ Malformed text → ∃ dest', writeBase64 rw text dest = .ok (1, dest'))

/-- The one deviation from the grammar is the padding error that the validator
returns as a non-zero number, and only when it is the first offence. -/
theorem meetsGrammar_iff (text : List UInt8) (hascii : IsAscii text) (dest : δ) :
    MeetsGrammar rw text dest ↔ ¬ ClosesSingleton text := by
  rw [← verdict_eq_slipped_iff_closesSingleton]
  unfold MeetsGrammar
  rw [← verdict_eq_accepted_iff_not_malformed]
  have hmalformed : Malformed text ↔ verdict 0 text ≠ .accepted := by
    rw [ne_eq, verdict_eq_accepted_iff_not_malformed, not_not]
  rw [hmalformed]
  constructor
  · rintro ⟨hreject, -⟩ hslipped
    have hminus := hreject (by rw [hslipped]; decide)
    obtain ⟨dest', hone⟩ := writeBase64_of_not_rejected rw hascii dest
      (by rw [hslipped]; decide)
    rw [hminus] at hone
    simp at hone
  · intro hnot
    constructor
    · intro hne
      have hrejected : verdict 0 text = .rejected := by
        cases h : verdict 0 text with
        | accepted => exact absurd h hne
        | slipped => exact absurd h hnot
        | rejected => rfl
      simpa only [List.append_nil] using writeBase64_of_rejected rw hascii [] dest hrejected
    · intro haccepted
      exact writeBase64_of_not_rejected rw hascii dest (by rw [haccepted]; decide)

theorem meetsGrammar_iff_hash :
    MeetsGrammar Buffer.readWritable (['a', 'a', 'a', '#'].map byte) Buffer.new ↔
      ¬ ClosesSingleton (['a', 'a', 'a', '#'].map byte) :=
  meetsGrammar_iff Buffer.readWritable (['a', 'a', 'a', '#'].map byte)
    (by decide) Buffer.new

/-- The unit test's text with bad padding is malformed but gets a one. -/
theorem not_meetsGrammar_badPadding :
    ¬ MeetsGrammar Buffer.readWritable (['0', '=', '=', '='].map byte) Buffer.new := by
  intro h
  have hbad : Malformed (['0', '=', '=', '='].map byte) :=
    Or.inr ⟨[byte '0'], [byte '=', byte '='], rfl, by decide⟩
  have hascii : IsAscii (['0', '=', '=', '='].map byte) := by decide
  obtain ⟨dest, hone⟩ :=
    writeBase64_of_not_rejected Buffer.readWritable hascii Buffer.new (by decide)
  rw [h.1 hbad] at hone
  simp at hone

/-- Every lookup is in bounds and initialised, and so texts with bytes outside
of ASCII are refused. -/
def LookupsSafe (text : List UInt8) (dest : δ) : Prop :=
  (∃ r, writeBase64 rw text dest = .ok r) ∧
    ((∃ c ∈ text, 128 ≤ c) → writeBase64 rw text dest = .ok (-2, dest))

/-- An ASCII character makes the validator give up in front of any other byte. -/
def RefusedEarly (text : List UInt8) : Prop :=
  ∃ front rest, text = front ++ rest ∧ IsAscii front ∧ HasForeign front ∧
    ¬ ClosesSingleton front

theorem exists_first_high {text : List UInt8} (hnul : ∀ c ∈ text, c ≠ 0)
    (hhigh : ∃ c ∈ text, 128 ≤ c) :
    ∃ front c rest, text = front ++ c :: rest ∧ IsAscii front ∧ 128 ≤ c := by
  induction text with
  | nil =>
    obtain ⟨c, hc, -⟩ := hhigh
    exact absurd hc List.not_mem_nil
  | cons d text ih =>
    by_cases hd : d < 128
    · have htail : ∃ c ∈ text, 128 ≤ c := by
        obtain ⟨c, hc, hle⟩ := hhigh
        rcases List.mem_cons.mp hc with rfl | hc
        · exact absurd hd (UInt8.not_lt.mpr hle)
        · exact ⟨c, hc, hle⟩
      obtain ⟨front, c, rest, rfl, hfront, hc⟩ :=
        ih (fun c hc => hnul c (List.mem_cons_of_mem d hc)) htail
      refine ⟨d :: front, c, rest, rfl, ?_, hc⟩
      intro e he
      rcases List.mem_cons.mp he with rfl | he
      · exact ⟨hnul e (List.mem_cons_self ..), hd⟩
      · exact hfront e he
    · exact ⟨[], d, text, rfl, fun e he => absurd he List.not_mem_nil, UInt8.not_lt.mp hd⟩

/-- Unless it is refused before, the first byte outside of ASCII is looked up. -/
theorem writeBase64_high {front : List UInt8} (hascii : IsAscii front) {c : UInt8}
    (hc : 128 ≤ c) (rest : List UInt8) (dest : δ) (hverdict : verdict 0 front ≠ .rejected) :
    writeBase64 rw (front ++ c :: rest) dest = .error .indexOutOfBounds := by
  have hlookup := lookup_high hc
  unfold writeBase64 validate
  rw [List.append_assoc, List.cons_append]
  by_cases haccepted : verdict 0 front = .accepted
  · obtain ⟨index, quadChars, extraBytes, heq⟩ :=
      validateFrom_accepted 0 hascii (c :: (rest ++ [0])) 0 0 0 0 haccepted
    rw [heq, validateFrom, hlookup]
  · obtain ⟨index, heq⟩ :=
      validateFrom_offence 0 hascii (c :: (rest ++ [0])) 0 0 0 0 haccepted
    have hslipped : verdict 0 front = .slipped := by
      cases h : verdict 0 front with
      | accepted => exact absurd h haccepted
      | slipped => rfl
      | rejected => exact absurd h hverdict
    obtain ⟨out, bitBuffer, bitsInBuffer, dest', hdecode⟩ :=
      decodeFrom_append rw hascii (c :: (rest ++ [0])) [] 0 0 (rw.prepareWrite dest 0)
    rw [heq, hslipped]
    simp only [decide_true, Bool.not_true, Bool.false_eq_true, if_false]
    rw [hdecode, decodeFrom, hlookup]

/-- Exactly the texts whose other bytes all lie behind the validator's end are safe. -/
theorem lookupsSafe_iff (text : List UInt8) (hnul : ∀ c ∈ text, c ≠ 0) (dest : δ) :
    LookupsSafe rw text dest ↔ (∀ c ∈ text, c < 128) ∨ RefusedEarly text := by
  constructor
  · rintro ⟨⟨r, hok⟩, -⟩
    by_cases hhigh : ∃ c ∈ text, 128 ≤ c
    · obtain ⟨front, c, rest, rfl, hascii, hc⟩ := exists_first_high hnul hhigh
      refine Or.inr ⟨front, c :: rest, rfl, hascii, ?_⟩
      apply (verdict_eq_rejected_iff front).mp
      by_contra hverdict
      rw [writeBase64_high rw hascii hc rest dest hverdict] at hok
      contradiction
    · refine Or.inl fun c hc => ?_
      by_contra hge
      exact hhigh ⟨c, hc, UInt8.not_lt.mp hge⟩
  · rintro (hlow | ⟨front, rest, rfl, hascii, hrefused⟩)
    · have hascii : IsAscii text := fun c hc => ⟨hnul c hc, hlow c hc⟩
      constructor
      · by_cases hverdict : verdict 0 text = .rejected
        · have heq := writeBase64_of_rejected rw hascii [] dest hverdict
          rw [List.append_nil] at heq
          exact ⟨_, heq⟩
        · obtain ⟨dest', heq⟩ := writeBase64_of_not_rejected rw hascii dest hverdict
          exact ⟨_, heq⟩
      · rintro ⟨c, hc, hge⟩
        exact absurd (hlow c hc) (UInt8.not_lt.mpr hge)
    · have heq := writeBase64_of_rejected rw hascii rest dest
        ((verdict_eq_rejected_iff front).mpr hrefused)
      exact ⟨⟨_, heq⟩, fun _ => heq⟩

theorem lookupsSafe_iff_refused :
    LookupsSafe Buffer.readWritable [byte '#', 0x80] Buffer.new ↔
      (∀ c ∈ [byte '#', 0x80], c < 128) ∨ RefusedEarly [byte '#', 0x80] :=
  lookupsSafe_iff Buffer.readWritable [byte '#', 0x80]
    (List.forall_mem_cons.mpr ⟨by decide, List.forall_mem_singleton.mpr (by decide)⟩) Buffer.new

/-- A single byte 0x80 is looked up outside of the table. -/
theorem not_lookupsSafe_high : ¬ LookupsSafe Buffer.readWritable [0x80] Buffer.new := by
  rintro ⟨⟨r, hok⟩, -⟩
  have hascii : IsAscii [] := fun c hc => absurd hc List.not_mem_nil
  have hhigh : (128 : UInt8) ≤ 0x80 := by decide
  have herror := writeBase64_high Buffer.readWritable hascii hhigh [] Buffer.new (by decide)
  rw [List.nil_append] at herror
  rw [herror] at hok
  contradiction

end Write

end FaucetNetworking.Base64Codec
