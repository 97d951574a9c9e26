import Stylesmith.Text.Basic

set_option autoImplicit false

namespace Stylesmith.Text

variable {sep : Char}

theorem splitOn_sep (t : Text) : splitOn sep (sep :: t) = [] :: splitOn sep t := by
  obtain ⟨part, parts, h⟩ := List.exists_cons_of_ne_nil (splitOn_ne_nil sep t)
  rw [splitOn, h]
  exact if_pos rfl

/-- A separator between two texts splits them from each other. -/
theorem splitOn_append (a b : Text) :
    splitOn sep (a ++ sep :: b) = splitOn sep a ++ splitOn sep b := by
  induction a with
  | nil => exact splitOn_sep b
  | cons c a ih =>
    obtain ⟨part, parts, h⟩ := List.exists_cons_of_ne_nil (splitOn_ne_nil sep a)
    rw [h, List.cons_append] at ih
    rw [List.cons_append, splitOn, splitOn, ih, h]
    by_cases hc : c = sep
    · simp only [if_pos hc, List.cons_append]
    · simp only [if_neg hc, List.cons_append]

theorem splitOn_of_not_mem {part : Text} (h : sep ∉ part) : splitOn sep part = [part] := by
  induction part with
  | nil => rfl
  | cons c part ih =>
    rw [List.mem_cons, not_or] at h
    rw [splitOn, ih h.2]
    exact if_neg (Ne.symm h.1)

/-- A text without the separator belongs to the first part of what follows it. -/
theorem splitOn_append_of_not_mem {a t part : Text} {parts : List Text} (h : sep ∉ a)
    (ht : splitOn sep t = part :: parts) : splitOn sep (a ++ t) = (a ++ part) :: parts := by
  induction a with
  | nil => exact ht
  | cons c a ih =>
    rw [List.mem_cons, not_or] at h
    rw [List.cons_append, splitOn, ih h.2]
    exact if_neg (Ne.symm h.1)

theorem not_mem_of_mem_splitOn {t part : Text} (h : part ∈ splitOn sep t) : sep ∉ part := by
  induction t generalizing part with
  | nil =>
    rw [splitOn, List.mem_singleton] at h
    rw [h]
    exact List.not_mem_nil
  | cons c t ih =>
    obtain ⟨first, parts, hsplit⟩ := List.exists_cons_of_ne_nil (splitOn_ne_nil sep t)
    rw [hsplit] at ih
    rw [splitOn, hsplit] at h
    by_cases hc : c = sep
    · simp only [if_pos hc, List.mem_cons] at h
      rcases h with rfl | h
      · exact List.not_mem_nil
      · exact ih (List.mem_cons.2 h)
    · simp only [if_neg hc, List.mem_cons] at h
      rcases h with rfl | h
      · rw [List.mem_cons, not_or]
        exact ⟨Ne.symm hc, ih List.mem_cons_self⟩
      · exact ih (List.mem_cons_of_mem first h)

/-- Parts without the separator are found again in the text that they are joined to. -/
theorem splitOn_join {parts : List Text} (hne : parts ≠ []) (h : ∀ part ∈ parts, sep ∉ part) :
    splitOn sep (join [sep] parts) = parts := by
  induction parts with
  | nil => exact absurd rfl hne
  | cons part parts ih =>
    rw [List.forall_mem_cons] at h
    cases parts with
    | nil => exact splitOn_of_not_mem h.1
    | cons next parts =>
      rw [join, List.append_assoc, List.singleton_append, splitOn_append,
        splitOn_of_not_mem h.1, ih (List.cons_ne_nil next parts) h.2]
      rfl

theorem cutFirst?_append {a : Text} (h : sep ∉ a) (b : Text) :
    cutFirst? sep (a ++ sep :: b) = some (a, b) := by
  induction a with
  | nil => exact if_pos rfl
  | cons c a ih =>
    rw [List.mem_cons, not_or] at h
    rw [List.cons_append, cutFirst?, if_neg (Ne.symm h.1), ih h.2]
    rfl

theorem cutFirst?_eq_none {t : Text} (h : sep ∉ t) : cutFirst? sep t = none := by
  induction t with
  | nil => rfl
  | cons c t ih =>
    rw [List.mem_cons, not_or] at h
    rw [cutFirst?, if_neg (Ne.symm h.1), ih h.2]
    rfl

theorem cutFirst?_eq_some_iff {t a b : Text} :
    cutFirst? sep t = some (a, b) ↔ sep ∉ a ∧ t = a ++ sep :: b := by
  constructor
  · intro h
    by_cases hsep : sep ∈ t
    · obtain ⟨a', b', rfl, ha'⟩ := List.eq_append_cons_of_mem hsep
      rw [cutFirst?_append ha' b', Option.some.injEq, Prod.mk.injEq] at h
      obtain ⟨rfl, rfl⟩ := h
      exact ⟨ha', rfl⟩
    · rw [cutFirst?_eq_none hsep] at h
      cases h
  · rintro ⟨ha, rfl⟩
    exact cutFirst?_append ha b

end Stylesmith.Text
