import Mathlib.Data.List.AList

/-!
Replacing the value of a key that is present in an association list. The order of the
entries stays, so what is put back as it was leaves the same list.
-/
namespace Replacement

variable {α β : Type*} [DecidableEq α]

theorem kreplace_cons (a : α) (b : β) (entry : Σ _ : α, β) (l : List (Σ _ : α, β)) :
    List.kreplace a b (entry :: l) =
      if a = entry.1 then ⟨a, b⟩ :: l else entry :: List.kreplace a b l := by
  unfold List.kreplace
  by_cases h : a = entry.1
  · rw [if_pos h]
    exact List.lookmap_cons_some _ l (if_pos h)
  · rw [if_neg h]
    exact List.lookmap_cons_none _ l (if_neg h)

theorem dlookup_kreplace_self {a : α} (b : β) {l : List (Σ _ : α, β)} (h : a ∈ l.keys) :
    List.dlookup a (List.kreplace a b l) = some b := by
  induction l with
  | nil => exact absurd h List.not_mem_nil
  | cons entry l ih =>
    rw [kreplace_cons]
    by_cases hhead : a = entry.1
    · rw [if_pos hhead, List.dlookup_cons_eq]
    · rw [if_neg hhead, List.dlookup_cons_ne _ _ hhead]
      rw [List.keys_cons, List.mem_cons] at h
      exact ih (h.resolve_left hhead)

theorem dlookup_kreplace_of_ne {a key : α} (b : β) (l : List (Σ _ : α, β)) (h : key ≠ a) :
    List.dlookup key (List.kreplace a b l) = List.dlookup key l := by
  induction l with
  | nil => rfl
  | cons entry l ih =>
    rw [kreplace_cons]
    by_cases hhead : a = entry.1
    · rw [if_pos hhead, List.dlookup_cons_ne _ _ h, List.dlookup_cons_ne _ _ (hhead ▸ h)]
    · rw [if_neg hhead]
      by_cases hkey : key = entry.1
      · obtain ⟨first, value⟩ := entry
        obtain rfl : key = first := hkey
        rw [List.dlookup_cons_eq, List.dlookup_cons_eq]
      · rw [List.dlookup_cons_ne _ _ hkey, List.dlookup_cons_ne _ _ hkey, ih]

theorem kreplace_kreplace (a : α) (b c : β) (l : List (Σ _ : α, β)) :
    List.kreplace a c (List.kreplace a b l) = List.kreplace a c l := by
  induction l with
  | nil => rfl
  | cons entry l ih =>
    rw [kreplace_cons, kreplace_cons]
    by_cases hhead : a = entry.1
    · rw [if_pos hhead, if_pos hhead, kreplace_cons, if_pos rfl]
    · rw [if_neg hhead, if_neg hhead, kreplace_cons, if_neg hhead, ih]

variable {s : AList fun _ : α => β}

theorem lookup_replace_self {a : α} (b : β) (h : a ∈ s) : (s.replace a b).lookup a = some b :=
  dlookup_kreplace_self b h

theorem lookup_replace_of_ne {a key : α} (b : β) (h : key ≠ a) :
    (s.replace a b).lookup key = s.lookup key := dlookup_kreplace_of_ne b s.entries h

theorem replace_replace (a : α) (b c : β) : (s.replace a b).replace a c = s.replace a c :=
  AList.ext (kreplace_kreplace a b c s.entries)

/-- What is found is put back. -/
theorem replace_eq_self {a : α} {b : β} (h : s.lookup a = some b) : s.replace a b = s :=
  AList.ext (List.kreplace_self s.nodupKeys (AList.mem_lookup_iff.mp h))

end Replacement
