import Stylesmith.Proofs.Stylesheet.Lexing

set_option autoImplicit false

namespace Stylesmith

namespace Lexeme

variable {sep : Char} {depth : Nat}

/-- A lexeme is the separator, or it belongs to the part that follows. -/
theorem split_cons_cases (sep : Char) (depth : Nat) (l : Lexeme) :
    (l = plain sep ∧ depth = 0) ∨
      ∃ depth', ∀ ls, split sep depth (l :: ls) = split.glue l.text (split sep depth' ls) := by
  cases l with
  | plain c =>
    by_cases hc : c = sep ∧ depth = 0
    · exact .inl ⟨by rw [hc.1], hc.2⟩
    · exact .inr ⟨deepen depth c, fun ls => split_plain hc⟩
  | literal | comment | escape => exact .inr ⟨depth, fun ls => by rw [split]; simp⟩

theorem split_sep (ls : List Lexeme) : split sep 0 (plain sep :: ls) = [] :: split sep 0 ls := by
  rw [split, if_pos ⟨rfl, rfl⟩]

theorem glue_eq_cons {t p : Text} {parts ps : List Text} (hparts : parts ≠ [])
    (h : split.glue t parts = p :: ps) : ∃ part, parts = part :: ps ∧ p = t ++ part := by
  cases parts with
  | nil => exact absurd rfl hparts
  | cons part parts =>
    cases h
    exact ⟨part, rfl, rfl⟩

theorem eq_of_split_eq {t p : Text} (h : split sep depth (ofText t) = [p]) : p = t := by
  have hjoin := join_split sep depth (ofText t)
  rwa [h, flatMap_ofText] at hjoin

/-- The parts of a text are whole: the first one at the depth at which the text begins, the others
outside all brackets. -/
theorem split_parts {t p : Text} {ps : List Text} (h : split sep depth (ofText t) = p :: ps) :
    p <+: t ∧ split sep depth (ofText p) = [p] ∧ ∀ q ∈ ps, split sep 0 (ofText q) = [q] := by
  have split_nil : ∀ depth, split sep depth (ofText []) = [[]] := fun depth => by rw [ofText, split]
  fun_induction ofText t generalizing depth p ps with
  | case1 =>
    cases h
    exact ⟨List.nil_prefix, split_nil depth, by simp⟩
  | case2 c t ih =>
    have hs := starts_first c t
    rcases split_cons_cases sep depth (first c t).1 with ⟨hsep, rfl⟩ | ⟨depth', hglue⟩
    · rw [hsep, split_sep] at h
      cases h
      -- The part before the separator is empty, and all others are parts of the rest.
      refine ⟨List.nil_prefix, split_nil 0, ?_⟩
      cases hq : split sep 0 (ofText (first c t).2) with
      | nil => simp
      | cons q qs =>
        obtain ⟨-, hfirst, hothers⟩ := ih hq
        exact List.forall_mem_cons.2 ⟨hfirst, hothers⟩
    · -- The lexeme is read alike before its own part as before the whole rest.
      rw [hglue] at h
      obtain ⟨part, hpart, rfl⟩ := glue_eq_cons (split_ne_nil _ _ _) h
      obtain ⟨hstart, hfirst, hothers⟩ := ih hpart
      refine ⟨?_, ?_, hothers⟩
      · rw [← text_append_of_starts hs]
        exact (List.prefix_append_right_inj _).2 hstart
      · rw [ofText_text_append_of_isPrefix hs hstart, hglue, hfirst]
        rfl

theorem split_eq_of_mem {t p : Text} (h : p ∈ split sep 0 (ofText t)) :
    split sep 0 (ofText p) = [p] := by
  cases hparts : split sep 0 (ofText t) with
  | nil => exact absurd hparts (split_ne_nil sep 0 _)
  | cons q qs =>
    obtain ⟨-, hfirst, hothers⟩ := split_parts hparts
    rw [hparts] at h
    rcases List.mem_cons.1 h with rfl | hp
    · exact hfirst
    · exact hothers p hp

/-- Lexemes that make up one part still do so if their end is exchanged. -/
theorem split_append_of_append {ls more more' : List Lexeme}
    (hmore : ∀ depth, ∃ p, split sep depth more' = [p])
    (h : ∃ p, split sep depth (ls ++ more) = [p]) : ∃ p, split sep depth (ls ++ more') = [p] := by
  induction ls generalizing depth with
  | nil => exact hmore depth
  | cons l ls ih =>
    rw [List.cons_append] at h ⊢
    obtain ⟨p, hp⟩ := h
    rcases split_cons_cases sep depth l with ⟨rfl, rfl⟩ | ⟨depth', hglue⟩
    · rw [split_sep, List.cons.injEq] at hp
      exact absurd hp.2 (split_ne_nil sep 0 _)
    · rw [hglue] at hp ⊢
      obtain ⟨part, hpart, -⟩ := glue_eq_cons (split_ne_nil _ _ _) hp
      obtain ⟨q, hq⟩ := ih ⟨part, hpart⟩
      exact ⟨l.text ++ q, by rw [hq, split.glue]⟩

theorem split_cutShort (hsep : sep ≠ '/') {l l' : Lexeme} (h : CutShort l l') (depth : Nat) :
    ∃ p, split sep depth [l'] = [p] := by
  rcases split_cons_cases sep depth l' with ⟨rfl, -⟩ | ⟨depth', hglue⟩
  · cases h
    exact absurd rfl hsep
  · exact ⟨_, hglue []⟩

theorem split_of_isPrefix (hsep : sep ≠ '/') {t q : Text} (h : split sep depth (ofText t) = [t])
    (hq : q <+: t) : split sep depth (ofText q) = [q] := by
  obtain ⟨ls, more, ht, hls⟩ := ofText_of_isPrefix hq
  rw [ht] at h
  have hone : ∃ p, split sep depth (ofText q) = [p] := by
    rcases hls with hls | ⟨l, l', later, rfl, hls, hcut⟩
    · rw [hls, ← List.append_nil ls]
      exact split_append_of_append (fun depth => ⟨[], rfl⟩) ⟨t, h⟩
    · rw [hls]
      exact split_append_of_append (split_cutShort hsep hcut) ⟨t, h⟩
  obtain ⟨p, hp⟩ := hone
  rw [hp, eq_of_split_eq hp]

theorem split_dropWhile (hsep : Text.isWide sep = false) {t : Text}
    (h : split sep 0 (ofText t) = [t]) :
    split sep 0 (ofText (t.dropWhile Text.isWide)) = [t.dropWhile Text.isWide] := by
  induction t with
  | nil => exact h
  | cons c t ih =>
    by_cases hc : Text.isWide c = true
    · have hne : ¬ (c = sep ∧ 0 = 0) := by
        rintro ⟨rfl, -⟩
        rw [hc] at hsep
        cases hsep
      have hbracket : isBracket c = false := by
        rw [← Bool.not_eq_true]
        intro hb
        simp only [isBracket, Bool.or_eq_true, beq_iff_eq] at hb
        rcases hb with ((rfl | rfl) | rfl) | rfl <;> cases hc
      rw [ofText_wide hc, split_plain hne, deepen_plain hbracket] at h
      obtain ⟨part, hpart, he⟩ := glue_eq_cons (split_ne_nil _ _ _) h
      cases he
      rw [List.dropWhile_cons_of_pos hc]
      exact ih hpart
    · rwa [List.dropWhile_cons_of_neg hc]

end Lexeme

namespace Text

/-- A selector as it is stored: not empty, without white space at its ends, and without a comma
outside its literals and brackets. -/
structure IsSelector (t : Text) : Prop where
  ne_nil : t ≠ []
  head : ∀ c ∈ t.head?, isWide c = false
  last : ∀ c ∈ t.getLast?, isWide c = false
  whole : splitTop ',' t = [t]

theorem isSelector_trim {t : Text} (h : Lexeme.split ',' 0 (Lexeme.ofText t) = [t])
    (hne : trim t ≠ []) : IsSelector (trim t) := by
  obtain ⟨hhead, hlast⟩ := not_wide_trim t
  refine ⟨hne, hhead, hlast, ?_⟩
  obtain ⟨w, -, hw⟩ := trimEnd_append (t.dropWhile isWide)
  have hwhole := Lexeme.split_of_isPrefix (by decide) (Lexeme.split_dropWhile (by decide) h)
    (q := trim t) ⟨w, hw.symm⟩
  rw [splitTop, hwhole, List.map_cons, trim_eq_self hhead hlast]
  rfl

end Text

theorem Reader.isSelector_of_mem {raw sel : Text} (h : sel ∈ selectors raw) :
    sel.IsSelector := by
  rw [selectors, List.mem_filter, Text.splitTop, List.mem_map] at h
  obtain ⟨⟨part, hpart, rfl⟩, hne⟩ := h
  exact Text.isSelector_trim (Lexeme.split_eq_of_mem hpart) (by simpa using hne)

end Stylesmith
