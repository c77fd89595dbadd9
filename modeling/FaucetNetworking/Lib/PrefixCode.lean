import Mathlib.Data.List.Infix

/-!
Streams of words of a code in which no word is the beginning of another one. Whoever
has read some words and perhaps a part of the next one from the front of such a stream
has read the words that it begins with. Words of one length are such a code, and so are
words that begin with their length.
-/

structure PrefixCode (α β : Type*) where
  encode : β → List α
  encode_ne_nil : ∀ b, encode b ≠ []
  eq_of_prefix : ∀ b c, encode b <+: encode c → b = c

namespace PrefixCode

variable {α β : Type*} (code : PrefixCode α β)

def encodeAll (words : List β) : List α := words.flatMap code.encode

@[simp] theorem encodeAll_nil : code.encodeAll [] = [] := rfl

@[simp] theorem encodeAll_cons (b : β) (words : List β) :
    code.encodeAll (b :: words) = code.encode b ++ code.encodeAll words := rfl

theorem encodeAll_append (words more : List β) :
    code.encodeAll (words ++ more) = code.encodeAll words ++ code.encodeAll more :=
  List.flatMap_append

variable {code}

/-- Two words at the front of the same stream are the same word. -/
theorem eq_of_append_prefix {b c : β} {rest more : List α}
    (h : code.encode b ++ rest <+: code.encode c ++ more) : b = c := by
  have hb : code.encode b <+: code.encode c ++ more := (List.prefix_append _ _).trans h
  rcases List.prefix_or_prefix_of_prefix hb (List.prefix_append _ _) with hle | hle
  · exact code.eq_of_prefix b c hle
  · exact (code.eq_of_prefix c b hle).symm

/-- What has been read from the front of a stream of words is its first words. -/
theorem prefix_of_encodeAll_append {words stream : List β} {rest : List α}
    (h : code.encodeAll words ++ rest <+: code.encodeAll stream) : words <+: stream := by
  induction words generalizing stream with
  | nil => exact List.nil_prefix
  | cons b words ih =>
    cases stream with
    | nil =>
      rw [encodeAll_cons, List.append_assoc, encodeAll_nil] at h
      exact absurd (List.append_eq_nil_iff.mp (List.prefix_nil.mp h)).1 (code.encode_ne_nil b)
    | cons c stream =>
      rw [encodeAll_cons, encodeAll_cons, List.append_assoc] at h
      obtain rfl := eq_of_append_prefix h
      rw [List.prefix_append_right_inj] at h
      exact (List.prefix_cons_inj b).mpr (ih h)

/-! ### Words of one length -/

/-- All words have the same length, and the symbols tell them apart. -/
def ofLength (encode : β → List α) (n : ℕ) (hn : 0 < n) (hlength : ∀ b, (encode b).length = n)
    (hinjective : Function.Injective encode) : PrefixCode α β where
  encode := encode
  encode_ne_nil := by
    intro b hnil
    have hb := hlength b
    rw [hnil] at hb
    exact Nat.ne_of_lt hn hb
  eq_of_prefix := fun b c h => hinjective (h.eq_of_length ((hlength b).trans (hlength c).symm))

/-! ### Words that begin with their length -/

variable (size : α → ℕ)

/-- A symbol that stands for a length, and as many symbols. -/
@[ext]
structure Frame where
  header : α
  body : List α
  length_body : body.length = size header

variable {size}

theorem Frame.eq_of_prefix {f g : Frame size} (h : f.header :: f.body <+: g.header :: g.body) :
    f = g := by
  obtain ⟨hheader, hbody⟩ := List.cons_prefix_cons.mp h
  apply Frame.ext hheader
  apply hbody.eq_of_length
  rw [f.length_body, g.length_body, hheader]

variable (size)

def framed : PrefixCode α (Frame size) where
  encode := fun f => f.header :: f.body
  encode_ne_nil := fun f => List.cons_ne_nil f.header f.body
  eq_of_prefix := fun _ _ h => Frame.eq_of_prefix h

end PrefixCode
