import Stylesmith.Proofs.Minify.Steady

set_option autoImplicit false

namespace Stylesmith.Value

section Mark

variable {p : Place} {c : Char} {t : Text}

def IsLetter (c : Char) : Prop := c.isAlpha = true ∨ Text.isWide c = true

theorem IsLetter.ne_of_mem (h : IsLetter c) {d : Char}
    (hd : d ∈ ("0123456789\"'#\\(),/!" : Text)) : c ≠ d := by
  have hall : ∀ d ∈ ("0123456789\"'#\\(),/!" : Text), d.isAlpha = false ∧ Text.isWide d = false :=
    Text.forall_of_all rfl
  rintro rfl
  obtain ⟨halpha, hwide⟩ := hall c hd
  rcases h with h | h
  · rw [halpha] at h
    cases h
  · rw [hwide] at h
    cases h

theorem IsLetter.not_isDigit (h : IsLetter c) : c.isDigit = false := by
  have hall : ∀ c ∈ ("0123456789abcdefABCDEF" : Text), c.isDigit = true →
      c ∈ ("0123456789\"'#\\(),/!" : Text) := Text.forall_of_all rfl
  refine Bool.eq_false_iff.2 fun hd => ?_
  exact h.ne_of_mem (hall c (mem_hexDigits (isHexDigit_of_isDigit hd)) hd) rfl

theorem not_letters_of_cons {d : Char} {w : Text} (hw : p.written c t = d :: w)
    (hd : d ∈ ("0123456789\"'#\\(),/!" : Text)) : ¬ ∀ e ∈ p.written c t, IsLetter e := by
  intro h
  have hletter := h d (hw ▸ List.mem_cons_self)
  exact hletter.ne_of_mem hd rfl

theorem not_letters_reference (hs : isSpecial c = false)
    (ho : opensReference p.last (c :: t) = true) : ¬ ∀ d ∈ p.written c t, IsLetter d := by
  intro h
  have hopens := ho
  rw [opensReference, Bool.and_eq_true, Scan.startsIgnoringCase_url_iff] at hopens
  obtain ⟨⟨_, r, l, rest, he, _, hr, hl⟩, _⟩ := hopens
  obtain ⟨rfl, rfl⟩ := List.cons.inj he
  have hmem : '(' ∈ p.written c (r :: l :: '(' :: rest) := by
    rw [Place.written, first_reference hs ho, spanReference_name rest hr hl]
    simp [Piece.compact]
  exact (h '(' hmem).ne_of_mem (by decide) rfl

theorem not_letters_number (hs : isSpecial c = false) (ho : opensReference p.last (c :: t) = false)
    (hn : opensNumber p.last (c :: t) = true) : ¬ ∀ d ∈ p.written c t, IsLetter d := by
  intro h
  obtain ⟨d, hd, hdigit⟩ := Numeral.getLast_shorten (starts_of_opensNumber hn)
  have hmem : d ∈ p.written c t := by
    obtain ⟨v, _, hout⟩ := written_unit hs ho hn
    rw [hout]
    exact List.mem_append_left _ (List.mem_of_getLast? hd)
  rw [(h d hmem).not_isDigit] at hdigit
  cases hdigit

/-- A space is dropped before a separator, which is no letter and is written next. -/
theorem not_letters_dropped (hl : ∀ c ∈ p.last, c ≠ ',' ∧ c ≠ '/' ∧ c ≠ '(')
    (hd : dropsSpace p.last t.head? = true) : ¬ ∀ d ∈ p.compact (' ' :: t), IsLetter d := by
  intro h
  obtain ⟨d, hhead, hsep⟩ := separator_of_dropsSpace hl hd
  obtain ⟨u, rfl⟩ : ∃ u, t = d :: u := ⟨t.tail, (List.cons_head?_tail hhead).symm⟩
  have hmem : d ∈ (p.after ' ' (d :: u)).compact (d :: u) := by
    rw [compact_of_first (first_separator _ hsep) hsep.ne_space]
    exact List.mem_cons_self
  rw [Place.compact_cons, first_mark (.inl rfl)] at h
  have hletter := h d (List.mem_append_right _ hmem)
  refine hletter.ne_of_mem (d := d) ?_ rfl
  rcases hsep with rfl | rfl | rfl <;> decide

/-- What is written as letters and blanks is one character that is kept. -/
theorem kept_of_letters (hl : ∀ c ∈ p.last, c ≠ ',' ∧ c ≠ '/' ∧ c ≠ '(')
    (h : ∀ d ∈ p.compact (c :: t), IsLetter d) :
    first p.last c t = (.plain c, t) ∧ p.written c t = [c] := by
  have hwritten : ∀ d ∈ p.written c t, IsLetter d := fun d hd =>
    h d (Place.compact_cons .. ▸ List.mem_append_left _ hd)
  rcases kind p.last c t with hq | hc | rfl | rfl | ⟨hs, ho⟩ | ⟨hs, ho, hn⟩ | ⟨hs, ho, hn⟩
  · refine absurd hwritten
      (not_letters_of_cons (d := c) (by rw [Place.written, first_literal hq]; rfl) ?_)
    rcases Lexeme.isQuote_iff.1 hq with rfl | rfl <;> decide
  · by_cases hspace : c = ' '
    · subst hspace
      exact ⟨first_mark hc, written_kept fun hd => not_letters_dropped hl hd h⟩
    · have hself : p.written c t = [c] := written_of_first (first_mark hc) hspace
      refine absurd hwritten (not_letters_of_cons hself ?_)
      rcases hc.resolve_left hspace with rfl | rfl <;> decide
  · exact absurd hwritten
      (not_letters_of_cons (d := '#') (by rw [Place.written, first_hash]; rfl) (by decide))
  · exact absurd hwritten
      (not_letters_of_cons (d := '\\') (by rw [Place.written, first_escape]; rfl) (by decide))
  · exact absurd hwritten (not_letters_reference hs ho)
  · exact absurd hwritten (not_letters_number hs ho hn)
  · have hfirst := first_plain hs ho hn
    exact ⟨hfirst, written_of_first hfirst (by rintro rfl; cases hs)⟩

/-- Letters and blanks at the end of a compact value are as they were. -/
theorem compact_eq_of_letters (h : Apart p t) (hl : ∀ c ∈ p.last, c ≠ ',' ∧ c ≠ '/' ∧ c ≠ '(')
    (hletters : ∀ c ∈ p.compact t, IsLetter c) : p.compact t = t := by
  induction h with
  | nil => exact Place.compact_nil _
  | @cons p c t _ _ ih =>
    obtain ⟨hfirst, hkept⟩ := kept_of_letters hl hletters
    have hlast : (p.after c t).last = some c := by
      rw [Place.after, hkept]
      rfl
    rw [Place.compact_cons, hkept] at hletters ⊢
    have hletter := hletters c List.mem_cons_self
    have hbehind := ne_separator_of_last hlast ⟨hletter.ne_of_mem (by decide),
      hletter.ne_of_mem (by decide), hletter.ne_of_mem (by decide)⟩
    rw [ih hbehind fun d hd => hletters d (List.mem_append_right _ hd), hfirst]
    rfl

theorem written_eq_text (h : '!' ∈ p.written c t) : p.written c t = (first p.last c t).1.text := by
  rcases kind p.last c t with hq | hc | rfl | rfl | ⟨hs, ho⟩ | ⟨hs, ho, hn⟩ | ⟨hs, ho, hn⟩
  · rw [Place.written, first_literal hq]
    rfl
  · by_cases hspace : c = ' '
    · subst hspace
      by_cases hd : dropsSpace p.last t.head? = true
      · rw [written_dropped hd] at h
        cases h
      · rw [written_kept hd, first_mark hc]
        rfl
    · rw [written_of_first (first_mark hc) hspace, first_mark hc]
      rfl
  · rw [Place.written, first_hash] at h
    rcases List.mem_cons.1 h with h | h
    · cases h
    · cases isAlphanum_shortenHash (fun c hc => List.mem_takeWhile_imp hc) '!' h
  · rw [Place.written, first_escape]
    rfl
  · rw [Place.written, first_reference hs ho]
    rfl
  · have hmem : '!' ∈ Numeral.shorten (Numeral.span (c :: t)).1 ∨
        '!' ∈ (spanUnit (Numeral.span (c :: t)).2).1 := by
      obtain ⟨v, hv, hwritten⟩ := written_unit hs ho hn
      rw [hwritten, List.mem_append] at h
      rcases hv with rfl | ⟨rfl, _⟩
      · exact h
      · exact h.imp_right fun h => absurd h List.not_mem_nil
    rcases hmem with hmem | hmem
    · cases Numeral.isPart_of_mem_shorten (starts_of_opensNumber hn) hmem
    · rcases spanUnit_cases (Numeral.span (c :: t)).2 with ⟨_, hu⟩ | ⟨hu, _⟩
      · rw [hu] at hmem
        cases List.mem_singleton.1 hmem
      · cases hu '!' hmem
  · have hspace : c ≠ ' ' := by
      rintro rfl
      cases hs
    rw [written_of_first (first_plain hs ho hn) hspace, first_plain hs ho hn]
    rfl

/-- A compact value ends in an exclamation mark and letters only if the value does. -/
theorem compact_mark (h : Apart p t) {v tail : Text} (ht : p.compact t = v ++ '!' :: tail)
    (htail : ∀ c ∈ tail, IsLetter c) : ∃ u, t = u ++ '!' :: tail := by
  induction h generalizing v with
  | nil =>
    rw [Place.compact_nil] at ht
    cases v <;> cases ht
  | @cons p c t _ hapart ih =>
    have htext := first_text p.last c t
    have later : ∀ {v : Text}, (p.after c t).compact (first p.last c t).2 = v ++ '!' :: tail →
        ∃ u, c :: t = u ++ '!' :: tail := by
      intro v hv
      obtain ⟨u, hu⟩ := ih hv
      exact ⟨(first p.last c t).1.text ++ u, by rw [← htext, hu, List.append_assoc]⟩
    rw [Place.compact_cons] at ht
    rcases List.append_eq_append_iff.1 ht with ⟨a, _, hrest⟩ | ⟨a, hwritten, hrest⟩
    · exact later hrest
    · cases a with
      | nil => exact later (v := []) hrest.symm
      | cons e a =>
        obtain ⟨rfl, rfl⟩ := List.cons.inj hrest
        have hsame := written_eq_text (p := p) (c := c) (t := t) (by rw [hwritten]; simp)
        have hlast : ∀ d ∈ (p.after c t).last, d ∈ '!' :: a := by
          intro d hd
          rw [Place.after, hwritten, List.getLast?_append, List.getLast?_eq_some_getLast
            (List.cons_ne_nil _ _)] at hd
          rw [← Option.some.inj hd]
          exact List.getLast_mem _
        have hend : (p.after c t).compact (first p.last c t).2 = (first p.last c t).2 := by
          refine compact_eq_of_letters hapart (fun d hd => ?_) fun d hd =>
            htail d (List.mem_append_right _ hd)
          rcases List.mem_cons.1 (hlast d hd) with rfl | hd
          · decide
          · have hletter := htail d (List.mem_append_left _ hd)
            exact ⟨hletter.ne_of_mem (by decide), hletter.ne_of_mem (by decide),
              hletter.ne_of_mem (by decide)⟩
        refine ⟨v, ?_⟩
        rw [hend, ← htext, ← hsame, hwritten, List.append_assoc]
        rfl

/-- The compact value ends in a mark of importance only if the value does. -/
theorem isMark_of_compact (h : Apart p t)
    (hm : ∃ v mark, p.compact t = v ++ mark ∧ Text.IsMark mark) :
    ∃ v mark, t = v ++ mark ∧ Text.IsMark mark := by
  obtain ⟨v, _, hcompact, before, between, word, after, hbefore, hbetween, hafter, hword, rfl⟩ := hm
  have hletters : ∀ d ∈ between ++ (word ++ after), IsLetter d := by
    intro d hd
    rcases List.mem_append.1 hd with hd | hd
    · exact .inr (hbetween d hd)
    · rcases List.mem_append.1 hd with hd | hd
      · refine .inl ?_
        have hlower : d.toLower ∈ ("important" : Text) := by
          rw [← hword]
          exact List.mem_map_of_mem hd
        have halpha : ∀ e ∈ ("important" : Text), e.isAlpha = true := Text.forall_of_all rfl
        exact Scan.isAlpha_of_toLower rfl (halpha _ hlower)
      · exact .inr (hafter d hd)
  obtain ⟨u, hu⟩ := compact_mark (v := v ++ before) h (by rw [hcompact]; simp) hletters
  exact ⟨u, _, hu, [], between, word, after, by simp, hbetween, hafter, hword, by simp⟩

end Mark

end Stylesmith.Value
