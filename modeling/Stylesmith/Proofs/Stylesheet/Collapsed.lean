import Stylesmith.Proofs.Stylesheet.Lexing

set_option autoImplicit false

namespace Stylesmith

namespace Lexeme

def isGap : Lexeme → Bool
  | comment _ _ => true
  | plain c => Text.isBlank c
  | _ => false

theorem collapse_gap {l : Lexeme} (hl : l.isGap = true) (started gap : Bool) (ls : List Lexeme) :
    collapse true started gap (l :: ls) = collapse true started true ls := by
  cases l with
  | comment => rw [collapse, Bool.or_true]
  | plain c =>
    have hc : Text.isBlank c = true := hl
    rw [collapse, if_pos hc]
  | literal | escape => cases hl

theorem collapse_kept {l : Lexeme} (hl : l.isGap = false) (spaced started gap : Bool)
    (ls : List Lexeme) : collapse spaced started gap (l :: ls) =
      (if started && gap then [' '] else []) ++ (l.text ++ collapse spaced true false ls) := by
  cases l with
  | comment => cases hl
  | plain c =>
    have hc : ¬ Text.isBlank c = true := by simpa [isGap] using hl
    rw [collapse, if_neg hc]
    rfl
  | literal | escape => simp [collapse]

theorem tidy_kept {l : Lexeme} (hl : l.isGap = false) {blank : Bool} {ls : List Lexeme} :
    Tidy blank (l :: ls) ↔ Tidy false ls := by
  cases l with
  | comment => cases hl
  | plain c => exact tidy_plain hl
  | literal | escape => exact .rfl

theorem getLast_kept {l : Lexeme} (hl : l.isGap = false) {ls : List Lexeme}
    (h : ls.getLast? ≠ some (plain ' ')) : (l :: ls).getLast? ≠ some (plain ' ') := by
  rw [List.getLast?_cons]
  cases hlast : ls.getLast? with
  | none =>
    rintro he
    cases he
    cases hl
  | some l' =>
    rw [hlast] at h
    exact h

theorem head_collapse_gap {ls : List Lexeme} {c : Char}
    (h : (collapse true true true ls).head? = some c) : c = ' ' := by
  induction ls with
  | nil => cases h
  | cons l ls ih =>
    cases hl : l.isGap with
    | true => exact ih (by rwa [collapse_gap hl] at h)
    | false =>
      rw [collapse_kept hl] at h
      cases h
      rfl

/-- No character comes to stand at the front of a collapsed text, unless for a gap. -/
theorem head_collapse_spaced {t : Text} {c : Char}
    (h : (collapse true true false (ofText t)).head? = some c) : c = ' ' ∨ t.head? = some c := by
  cases t with
  | nil =>
    rw [ofText] at h
    cases h
  | cons d t =>
    rw [ofText] at h
    cases hl : (first d t).1.isGap with
    | true => exact .inl (head_collapse_gap (by rwa [collapse_gap hl] at h))
    | false =>
      rw [collapse_kept hl, Bool.and_false, if_neg Bool.false_ne_true, List.nil_append,
        List.head?_append, head_first_text] at h
      exact .inr h

/-- What collapsing keeps of a text is read again as the same lexemes. -/
theorem ofText_text_append_collapse (c : Char) (t : Text) :
    ofText ((first c t).1.text ++ collapse true true false (ofText (first c t).2)) =
      (first c t).1 :: ofText (collapse true true false (ofText (first c t).2)) := by
  have hs := starts_first c t
  refine ofText_text_append hs (fun hopen => ?_) fun _ hstar => ?_
  · rw [rest_of_not_closed hs hopen, ofText]
    rfl
  · exact (head_collapse_spaced hstar).resolve_left (by decide)

theorem tidy_collapse (started gap : Bool) (t : Text) :
    Tidy (!started) (ofText (collapse true started gap (ofText t))) ∧
      (ofText (collapse true started gap (ofText t))).getLast? ≠ some (plain ' ') := by
  fun_induction ofText t generalizing started gap with
  | case1 =>
    rw [collapse, ofText]
    exact ⟨trivial, by simp⟩
  | case2 c t ih =>
    cases hl : (first c t).1.isGap with
    | true =>
      rw [collapse_gap hl]
      exact ih started true
    | false =>
      obtain ⟨htidy, hlast⟩ := ih true false
      rw [collapse_kept hl]
      have hlast' := getLast_kept hl hlast
      -- A space is written only where text was written before, so none stands at the front.
      cases hgap : started && gap with
      | false =>
        rw [if_neg Bool.false_ne_true, List.nil_append, ofText_text_append_collapse]
        exact ⟨(tidy_kept hl).2 htidy, hlast'⟩
      | true =>
        obtain ⟨rfl, -⟩ : started = true ∧ gap = true := by simpa using hgap
        rw [if_pos rfl, List.singleton_append, ofText_blank rfl, ofText_text_append_collapse]
        refine ⟨tidy_space.2 ⟨rfl, (tidy_kept hl).2 htidy⟩, ?_⟩
        rwa [List.getLast?_cons_of_ne_nil (List.cons_ne_nil _ _)]

theorem tidy_cutShort {blank : Bool} {later : List Lexeme} {l l' : Lexeme} (hcut : CutShort l l')
    (h : Tidy blank (l :: later)) : Tidy blank [l'] := by
  cases hcut with
  | literal | escape => trivial
  | comment | slash => exact h.elim

end Lexeme

namespace Text

/-- A text that collapsing does not change: its lexemes are no comments, and its blanks are single
spaces inside. -/
structure IsCollapsed (t : Text) : Prop where
  fixed : collapseSpaced t = t
  tidy : Lexeme.Tidy true (Lexeme.ofText t)
  last : (Lexeme.ofText t).getLast? ≠ some (.plain ' ')

theorem isCollapsed_of_tidy {t : Text} (h : Lexeme.Tidy true (Lexeme.ofText t))
    (hlast : (Lexeme.ofText t).getLast? ≠ some (.plain ' ')) : IsCollapsed t := by
  refine ⟨?_, h, hlast⟩
  by_cases hnil : Lexeme.ofText t = []
  · have ht := Lexeme.flatMap_ofText t
    rw [hnil] at ht
    rw [collapseSpaced, hnil, ← ht]
    rfl
  · have hcollapse : Lexeme.collapse true false false (Lexeme.ofText t ++ []) = _ :=
      Lexeme.collapse_tidy h hnil hlast
    rw [List.append_nil, Lexeme.flatMap_ofText] at hcollapse
    rw [collapseSpaced, hcollapse]
    simp [Lexeme.collapse]

theorem isCollapsed_collapseSpaced (t : Text) : IsCollapsed (collapseSpaced t) := by
  obtain ⟨htidy, hlast⟩ := Lexeme.tidy_collapse false false t
  exact isCollapsed_of_tidy htidy hlast

theorem IsCollapsed.of_isPrefix {t q : Text} (h : IsCollapsed t) (hq : q <+: t)
    (hlast : ∀ c ∈ q.getLast?, isWide c = false) : IsCollapsed q := by
  refine isCollapsed_of_tidy ?_ ?_
  · obtain ⟨ls, more, ht, hls⟩ := Lexeme.ofText_of_isPrefix hq
    have htidy := h.tidy
    rw [ht] at htidy
    rcases hls with hls | ⟨l, l', later, rfl, hls, hcut⟩
    · rw [hls, ← List.append_nil ls]
      exact Lexeme.tidy_append_of_append htidy fun _ _ => trivial
    · rw [hls]
      exact Lexeme.tidy_append_of_append htidy fun _ => Lexeme.tidy_cutShort hcut
  · intro hspace
    obtain ⟨ls, hls⟩ := List.getLast?_eq_some_iff.1 hspace
    have ht := Lexeme.flatMap_ofText q
    rw [hls, List.flatMap_append] at ht
    rw [← ht] at hlast
    have := hlast ' ' (by simp [Lexeme.text])
    cases this

theorem not_wide_last_cutImportant {value v : Text} (h : cutImportant value = (v, true)) :
    ∀ c ∈ v.getLast?, isWide c = false := by
  unfold cutImportant at h
  simp only at h
  split at h
  · split at h <;> cases h
    rw [List.getLast?_reverse]
    exact not_drop_of_dropWhile rfl
  · cases h

theorem IsCollapsed.cutImportant {t : Text} (h : IsCollapsed t) :
    IsCollapsed (cutImportant t).1 := by
  rcases cutImportant_cases t with ht | ⟨v, mark, hv, ht, -⟩
  · rwa [ht]
  · rw [hv]
    exact h.of_isPrefix ⟨mark, ht.symm⟩ (not_wide_last_cutImportant hv)

end Text

end Stylesmith
