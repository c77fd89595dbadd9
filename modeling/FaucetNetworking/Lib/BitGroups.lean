import Mathlib.Algebra.Order.Ring.Nat
import Mathlib.Data.List.Basic

/-!
Bit strings, the most significant bit first, cut into groups of a fixed width.
An encoder fills the last group up with zeros, a decoder drops an incomplete
one, and a value is determined by the bits of its group.
-/
namespace BitGroups

/-- The lowest bits of a number, as many as the width says. -/
def toBits (width n : ℕ) : List Bool := (List.range width).map fun i => n.testBit (width - 1 - i)

/-- The number with the given bits. -/
def ofBits (bits : List Bool) : ℕ :=
  Nat.ofBits fun i : Fin bits.length => bits[bits.length - 1 - i]

@[simp] theorem length_toBits (width n : ℕ) : (toBits width n).length = width := by
  simp [toBits]

theorem getElem_toBits {width n i : ℕ} (h : i < (toBits width n).length) :
    (toBits width n)[i] = n.testBit (width - 1 - i) := by
  simp [toBits]

theorem toBits_congr {width n m : ℕ} (h : ∀ i < width, n.testBit i = m.testBit i) :
    toBits width n = toBits width m := by
  apply List.ext_getElem
  · simp only [length_toBits]
  · intro i hi _
    rw [length_toBits] at hi
    rw [getElem_toBits, getElem_toBits]
    exact h _ (by omega)

/-- High bits first, then low ones. -/
theorem toBits_add (high low n : ℕ) :
    toBits (high + low) n = toBits high (n >>> low) ++ toBits low n := by
  apply List.ext_getElem
  · simp only [List.length_append, length_toBits]
  · intro i hi _
    rw [length_toBits] at hi
    rw [getElem_toBits, List.getElem_append]
    split
    · rename_i hlt
      rw [length_toBits] at hlt
      rw [getElem_toBits, Nat.testBit_shiftRight]
      congr 1
      omega
    · rename_i hge
      rw [length_toBits] at hge
      simp only [length_toBits, getElem_toBits]
      congr 1
      omega

/-- Shifting in zeros. -/
theorem toBits_shiftLeft (high low n : ℕ) :
    toBits (high + low) (n <<< low) = toBits high n ++ List.replicate low false := by
  rw [toBits_add]
  congr 1
  · apply toBits_congr
    intro i _
    simp
  · apply List.ext_getElem
    · simp only [length_toBits, List.length_replicate]
    · intro i hi _
      rw [length_toBits] at hi
      rw [getElem_toBits, List.getElem_replicate, Nat.testBit_shiftLeft]
      have hlow : ¬ low ≤ low - 1 - i := by omega
      simp [hlow]

/-- Shifting in a value that fits. -/
theorem toBits_lor (high n : ℕ) {low m : ℕ} (hm : m < 2 ^ low) :
    toBits (high + low) (n <<< low ||| m) = toBits high n ++ toBits low m := by
  rw [toBits_add]
  congr 1
  · apply toBits_congr
    intro i _
    have hbit : m.testBit (low + i) = false :=
      Nat.testBit_lt_two_pow (Nat.lt_of_lt_of_le hm (Nat.pow_le_pow_right (by decide) (by omega)))
    simp [hbit]
  · apply toBits_congr
    intro i hi
    have hlow : ¬ low ≤ i := by omega
    simp [hlow]

theorem ofBits_lt (bits : List Bool) : ofBits bits < 2 ^ bits.length :=
  Nat.ofBits_lt_two_pow _

theorem testBit_ofBits {bits : List Bool} {i : ℕ} (h : i < bits.length) :
    (ofBits bits).testBit i = bits[bits.length - 1 - i] :=
  Nat.testBit_ofBits_lt _ i h

theorem toBits_ofBits (bits : List Bool) : toBits bits.length (ofBits bits) = bits := by
  apply List.ext_getElem
  · rw [length_toBits]
  · intro i hi hi'
    rw [getElem_toBits, testBit_ofBits (by omega)]
    congr 1
    omega

theorem ofBits_toBits (width n : ℕ) : ofBits (toBits width n) = n % 2 ^ width := by
  apply Nat.eq_of_testBit_eq
  intro i
  rw [Nat.testBit_mod_two_pow]
  by_cases hi : i < width
  · rw [testBit_ofBits (by rw [length_toBits]; exact hi), getElem_toBits]
    simp only [length_toBits, hi, decide_true, Bool.true_and]
    congr 1
    omega
  · have hlt := ofBits_lt (toBits width n)
    rw [length_toBits] at hlt
    rw [Nat.testBit_lt_two_pow (Nat.lt_of_lt_of_le hlt (Nat.pow_le_pow_right (by decide)
      (Nat.le_of_not_lt hi)))]
    simp [hi]

theorem ofBits_toBits_of_lt {width n : ℕ} (h : n < 2 ^ width) :
    ofBits (toBits width n) = n := by
  rw [ofBits_toBits, Nat.mod_eq_of_lt h]

/-! ### Encoding: the last group is filled up with zeros -/

def groups (width : ℕ) (bits : List Bool) : List ℕ :=
  if _h : 0 < width ∧ 0 < bits.length then
    ofBits (bits.take width ++ List.replicate (width - bits.length) false) ::
      groups width (bits.drop width)
  else []
termination_by bits.length
decreasing_by
  rw [List.length_drop]
  omega

variable {width : ℕ}

theorem groups_nil : groups width [] = [] := by
  unfold groups
  simp

theorem groups_cons (hwidth : 0 < width) {bits : List Bool} (hbits : 0 < bits.length) :
    groups width bits =
      ofBits (bits.take width ++ List.replicate (width - bits.length) false) ::
        groups width (bits.drop width) := by
  rw [groups, dif_pos ⟨hwidth, hbits⟩]

/-- A complete group in front becomes its value. -/
theorem groups_toBits_append (hwidth : 0 < width) (n : ℕ) (rest : List Bool) :
    groups width (toBits width n ++ rest) = n % 2 ^ width :: groups width rest := by
  have hlen : (toBits width n).length = width := length_toBits width n
  rw [groups_cons hwidth (by rw [List.length_append]; omega)]
  rw [List.take_append_of_le_length (by omega), List.drop_append_of_le_length (by omega)]
  rw [List.take_of_length_le (by omega), List.drop_of_length_le (by omega), List.length_append,
    hlen, Nat.sub_eq_zero_of_le (Nat.le_add_right _ _), List.replicate_zero, List.append_nil,
    ofBits_toBits, List.nil_append]

/-- An incomplete group at the end is shifted up. -/
theorem groups_toBits_last {high : ℕ} (hhigh : 0 < high) (low n : ℕ) :
    groups (high + low) (toBits high n) = [(n <<< low) % 2 ^ (high + low)] := by
  have hlen : (toBits high n).length = high := length_toBits high n
  rw [groups_cons (by omega) (by omega), List.take_of_length_le (by omega),
    List.drop_of_length_le (by omega), groups_nil, hlen, Nat.add_sub_cancel_left,
    ← toBits_shiftLeft, ofBits_toBits]

theorem lt_of_mem_groups {bits : List Bool} {value : ℕ} (h : value ∈ groups width bits) :
    value < 2 ^ width := by
  induction bits using groups.induct width with
  | case1 bits hpos ih =>
    rw [groups, dif_pos hpos] at h
    rcases List.mem_cons.mp h with rfl | h
    · apply Nat.lt_of_lt_of_le (ofBits_lt _)
      apply Nat.pow_le_pow_right (by decide)
      simp only [List.length_append, List.length_take, List.length_replicate]
      omega
    · exact ih h
  | case2 bits hneg =>
    rw [groups, dif_neg hneg] at h
    exact absurd h List.not_mem_nil

/-- The groups spell the bits again, with less than a group of zeros behind. -/
theorem flatMap_groups (hwidth : 0 < width) (bits : List Bool) :
    ∃ fill < width, (groups width bits).length * width = bits.length + fill ∧
      (groups width bits).flatMap (toBits width) = bits ++ List.replicate fill false := by
  induction bits using groups.induct width with
  | case1 bits hpos ih =>
    obtain ⟨fill, hfill, hlen, hspell⟩ := ih
    have hgroup : (bits.take width ++ List.replicate (width - bits.length) false).length =
        width := by
      simp only [List.length_append, List.length_take, List.length_replicate]
      omega
    have hfirst := toBits_ofBits (bits.take width ++
      List.replicate (width - bits.length) false)
    rw [hgroup] at hfirst
    rw [groups_cons hpos.1 hpos.2, List.flatMap_cons, hspell, hfirst, List.length_cons,
      Nat.succ_mul, hlen]
    by_cases hle : width ≤ bits.length
    · refine ⟨fill, hfill, by rw [List.length_drop]; omega, ?_⟩
      rw [Nat.sub_eq_zero_of_le hle, List.replicate_zero, List.append_nil, ← List.append_assoc,
        List.take_append_drop]
    · have hdrop : bits.drop width = [] := List.drop_of_length_le (by omega)
      have hzero : fill = 0 := by
        rw [hdrop, groups_nil] at hlen
        simp only [List.length_nil, Nat.zero_mul] at hlen
        omega
      refine ⟨width - bits.length, by omega, by rw [hdrop, hzero, List.length_nil]; omega, ?_⟩
      rw [hdrop, hzero, List.take_of_length_le (by omega), List.replicate_zero,
        List.append_nil, List.append_nil]
  | case2 bits hneg =>
    have hnil : bits = [] := by
      rw [← List.length_eq_zero_iff]
      omega
    subst hnil
    rw [groups_nil]
    exact ⟨0, hwidth, by simp, rfl⟩

/-! ### Decoding: an incomplete group is left over -/

def wholeGroups (width : ℕ) (bits : List Bool) : List ℕ :=
  if _h : 0 < width ∧ width ≤ bits.length then
    ofBits (bits.take width) :: wholeGroups width (bits.drop width)
  else []
termination_by bits.length
decreasing_by
  rw [List.length_drop]
  omega

def leftover (width : ℕ) (bits : List Bool) : List Bool :=
  if _h : 0 < width ∧ width ≤ bits.length then leftover width (bits.drop width) else bits
termination_by bits.length
decreasing_by
  rw [List.length_drop]
  omega

theorem wholeGroups_of_lt {bits : List Bool} (h : bits.length < width) :
    wholeGroups width bits = [] := by
  rw [wholeGroups, dif_neg (by omega)]

theorem leftover_of_lt {bits : List Bool} (h : bits.length < width) :
    leftover width bits = bits := by
  rw [leftover, dif_neg (by omega)]

/-- A group that is already complete comes first, whatever follows. -/
theorem wholeGroups_append {bits : List Bool} (hwidth : 0 < width) (h : width ≤ bits.length)
    (rest : List Bool) : wholeGroups width (bits ++ rest) =
      ofBits (bits.take width) :: wholeGroups width (bits.drop width ++ rest) := by
  rw [wholeGroups, dif_pos ⟨hwidth, by rw [List.length_append]; omega⟩,
    List.take_append_of_le_length h, List.drop_append_of_le_length h]

theorem leftover_append {bits : List Bool} (hwidth : 0 < width) (h : width ≤ bits.length)
    (rest : List Bool) :
    leftover width (bits ++ rest) = leftover width (bits.drop width ++ rest) := by
  rw [leftover, dif_pos ⟨hwidth, by rw [List.length_append]; omega⟩,
    List.drop_append_of_le_length h]

/-- Reading values back from their bits, in front of an incomplete group. -/
theorem wholeGroups_flatMap {values : List ℕ} (hvalues : ∀ n ∈ values, n < 2 ^ width)
    {tail : List Bool} (htail : tail.length < width) :
    wholeGroups width (values.flatMap (toBits width) ++ tail) = values ∧
      leftover width (values.flatMap (toBits width) ++ tail) = tail := by
  induction values with
  | nil =>
    rw [List.flatMap_nil, List.nil_append]
    exact ⟨wholeGroups_of_lt htail, leftover_of_lt htail⟩
  | cons n values ih =>
    obtain ⟨hgroups, hleft⟩ := ih fun m hm => hvalues m (List.mem_cons_of_mem n hm)
    have hlen : (toBits width n).length = width := length_toBits width n
    rw [List.flatMap_cons, List.append_assoc, wholeGroups_append (by omega) (by omega),
      leftover_append (by omega) (by omega), List.take_of_length_le (by omega),
      List.drop_of_length_le (by omega), List.nil_append, hgroups, hleft,
      ofBits_toBits_of_lt (hvalues n (List.mem_cons_self ..))]
    exact ⟨rfl, rfl⟩

end BitGroups
