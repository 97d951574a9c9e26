import Stylesmith.Proofs.Stylesheet.Printable

set_option autoImplicit false

namespace Stylesmith

namespace Lexeme

theorem text_append_of_starts {c : Char} {t rest : Text} {l : Lexeme} (h : Starts c t l rest) :
    l.text ++ rest = c :: t := by
  have htext := first_text c t
  rwa [first_eq_of_starts h] at htext

/-- A lexeme is read as before if something else follows it, unless this ends a comment mark. -/
theorem ofText_text_append {c : Char} {t rest u : Text} {l : Lexeme} (h : Starts c t l rest)
    (hclosed : l.closed = false → u = [])
    (hslash : c = '/' → u.head? = some '*' → rest.head? = some '*') :
    ofText (l.text ++ u) = l :: ofText u := by
  have hv : ∃ v, Starts c v l u := by
    cases h with
    | literal _ hq hb => exact ⟨_, .literal u hq hb⟩
    | escape d => exact ⟨_, .escape d u⟩
    | comment _ hb => exact ⟨_, .comment u hb⟩
    | plain hq hb hc => exact ⟨u, .plain hq hb fun hs hu => hc hs (hslash hs hu)⟩
    | unclosed hfirst hopen =>
      rw [hclosed hopen]
      exact ⟨t, .unclosed hfirst hopen⟩
  obtain ⟨v, hv⟩ := hv
  rw [text_append_of_starts hv, ofText_of_starts hv]

theorem rest_of_not_closed {c : Char} {t rest : Text} {l : Lexeme} (h : Starts c t l rest)
    (hl : l.closed = false) : rest = [] := by
  cases h with
  | unclosed => rfl
  | _ => cases hl

theorem ofText_text_append_of_isPrefix {c : Char} {t rest u : Text} {l : Lexeme}
    (h : Starts c t l rest) (hu : u <+: rest) : ofText (l.text ++ u) = l :: ofText u := by
  refine ofText_text_append h (fun hl => ?_) fun _ hstar => ?_
  · rw [rest_of_not_closed h hl] at hu
    exact List.prefix_nil.1 hu
  · obtain ⟨v, rfl⟩ := hu
    rw [List.head?_append, hstar, Option.some_or]

/-- What is read of a lexeme when the text ends within it. -/
inductive CutShort : Lexeme → Lexeme → Prop
  | literal (quote : Char) (body body' : Text) (closed : Bool) :
      CutShort (literal quote body closed) (literal quote body' false)
  | comment (body body' : Text) (closed : Bool) :
      CutShort (comment body closed) (comment body' false)
  | slash (body : Text) (closed : Bool) : CutShort (comment body closed) (plain '/')
  | escape (c : Option Char) : CutShort (escape c) (escape none)

theorem spanLiteral_of_isPrefix {quote : Char} (hquote : quote ≠ '\\') {t u : Text}
    (h : u <+: (spanLiteral quote t).1) : spanLiteral quote u = (u, none) := by
  fun_induction spanLiteral quote t generalizing u with
  | case1 =>
    rw [List.prefix_nil.1 h]
    rfl
  | case2 c t body rest hs ih =>
    rw [hs] at ih
    rcases u with _ | ⟨d, _ | ⟨e, u⟩⟩
    · rfl
    · obtain ⟨v, hv⟩ := h
      cases hv
      simp [spanLiteral, hquote.symm]
    · rw [List.cons_prefix_cons, List.cons_prefix_cons] at h
      obtain ⟨rfl, rfl, h⟩ := h
      simp [spanLiteral, ih h]
  | case3 =>
    rw [List.prefix_nil.1 h]
    rfl
  | case4 c t hne hc body rest hs ih =>
    rw [hs] at ih
    cases u with
    | nil => rfl
    | cons d u =>
      rw [List.cons_prefix_cons] at h
      obtain ⟨rfl, h⟩ := h
      have hu : ∀ e v, d = '\\' → u = e :: v → False := by
        rintro e v rfl rfl
        -- Nothing follows the backslash, so the body ends with it.
        cases t with
        | nil =>
          cases hs
          exact absurd h.length_le (by simp)
        | cons f t => exact hne f t rfl rfl
      rw [spanLiteral, if_neg hc, ih h]
      exact hu

theorem spanComment_of_not_infix_self {t : Text} (h : ¬ ['*', '/'] <:+: t) :
    spanComment t = (t, none) := by
  fun_induction spanComment t with
  | case1 => rfl
  | case2 t => exact absurd (List.prefix_append ['*', '/'] t).isInfix h
  | case3 c t hne body rest hs ih =>
    rw [ih fun hi => h (hi.trans (List.suffix_cons c t).isInfix)] at hs
    cases hs
    rfl

theorem spanComment_isPrefix (t : Text) : (spanComment t).1 <+: t :=
  ⟨_, spanComment_text t⟩

theorem not_infix_spanComment (t : Text) : ¬ ['*', '/'] <:+: (spanComment t).1 := by
  fun_induction spanComment t with
  | case1 => simp
  | case2 => simp
  | case3 c t hne body rest hs ih =>
    rw [hs] at ih
    have hbody : body <+: t := by
      have hp := spanComment_isPrefix t
      rwa [hs] at hp
    rw [List.infix_cons_iff]
    rintro (⟨u, hu⟩ | hi)
    · cases hu
      obtain ⟨v, rfl⟩ := hbody
      exact hne (u ++ v) rfl rfl
    · exact ih hi

/-- A comment whose text ends before its mark is complete has no end. -/
theorem not_infix_snoc_star {t : Text} (h : ¬ ['*', '/'] <:+: t) :
    ¬ ['*', '/'] <:+: t ++ ['*'] := by
  rw [List.infix_concat_iff]
  rintro (⟨u, hu⟩ | hi)
  · have hlast := congrArg List.getLast? hu
    simp at hlast
  · exact h hi

theorem ofText_unclosed_literal {quote : Char} (hquote : isQuote quote = true) {t : Text}
    (ht : spanLiteral quote t = (t, none)) : ofText (quote :: t) = [literal quote t false] := by
  have hf : first quote t = (literal quote t false, []) := by
    unfold first
    rw [if_pos hquote, ht]
  rw [ofText_of_starts (.unclosed hf rfl), ofText]

theorem ofText_unclosed_comment {t : Text} (ht : ¬ ['*', '/'] <:+: t) :
    ofText ('/' :: '*' :: t) = [comment t false] := by
  have hf : first '/' ('*' :: t) = (comment t false, []) := by
    simp [first, isQuote, spanComment_of_not_infix_self ht]
  rw [ofText_of_starts (.unclosed hf rfl), ofText]

/-- A comment that the text ends within, perhaps before its opening mark is complete. -/
theorem ofText_of_isPrefix_comment {body u q : Text} {closed : Bool} (hbody : ¬ ['*', '/'] <:+: u)
    (hq : q <+: '/' :: '*' :: u) (hne : q ≠ []) :
    ∃ l', ofText q = [l'] ∧ CutShort (comment body closed) l' := by
  rcases q with _ | ⟨c, _ | ⟨d, q⟩⟩
  · exact absurd rfl hne
  · obtain ⟨v, hv⟩ := hq
    cases hv
    refine ⟨plain '/', ?_, .slash body closed⟩
    rw [ofText_of_starts (.plain rfl (by decide) (by simp)), ofText]
  · rw [List.cons_prefix_cons, List.cons_prefix_cons] at hq
    obtain ⟨rfl, rfl, hq⟩ := hq
    exact ⟨_, ofText_unclosed_comment fun hi => hbody (hi.trans hq.isInfix), .comment _ _ _⟩

theorem ofText_of_isPrefix_literal {quote : Char} (hquote : isQuote quote = true) {t q : Text}
    {closed : Bool} (hq : q <+: quote :: (spanLiteral quote t).1) (hne : q ≠ []) :
    ∃ l', ofText q = [l'] ∧ CutShort (literal quote (spanLiteral quote t).1 closed) l' := by
  cases q with
  | nil => exact absurd rfl hne
  | cons c q =>
    rw [List.cons_prefix_cons] at hq
    obtain ⟨rfl, hq⟩ := hq
    exact ⟨_, ofText_unclosed_literal hquote
      (spanLiteral_of_isPrefix (ne_backslash_of_isQuote hquote) hq), .literal _ _ _ _⟩

theorem first_of_isQuote {c : Char} (hc : isQuote c = true) (t : Text) : first c t =
    (literal c (spanLiteral c t).1 (spanLiteral c t).2.isSome, (spanLiteral c t).2.getD []) := by
  unfold first
  rw [if_pos hc]
  rcases spanLiteral c t with ⟨body, _ | rest⟩ <;> rfl

theorem first_slash_star (t : Text) : first '/' ('*' :: t) =
    (comment (spanComment t).1 (spanComment t).2.isSome, (spanComment t).2.getD []) := by
  simp only [first, List.tail_cons]
  rcases spanComment t with ⟨body, _ | rest⟩ <;> rfl

/-- A text that ends within its first lexeme is one lexeme. -/
theorem ofText_of_isPrefix_first {c : Char} {t q : Text} (hq : q <+: (first c t).1.text)
    (hne : q ≠ []) (hlt : q ≠ (first c t).1.text) :
    ∃ l', ofText q = [l'] ∧ CutShort (first c t).1 l' := by
  have proper : ∀ {u : Text} {d : Char}, (first c t).1.text = u ++ [d] → q <+: u := by
    intro u d hu
    rw [hu] at hq hlt
    exact (List.prefix_concat_iff.1 hq).resolve_left hlt
  by_cases hquote : isQuote c = true
  · rw [first_of_isQuote hquote] at hq proper ⊢
    refine ofText_of_isPrefix_literal hquote ?_ hne
    cases hclosed : (spanLiteral c t).2.isSome <;> rw [hclosed] at hq proper
    · exact hq
    · exact proper (d := c) (by simp [text])
  by_cases hback : c = '\\'
  · subst hback
    have hq : q <+: ['\\'] := by
      cases t with
      | nil => exact hq
      | cons d t => exact proper rfl
    obtain ⟨e, q, rfl⟩ := List.exists_cons_of_ne_nil hne
    obtain ⟨rfl, hnil⟩ := List.cons_prefix_cons.1 hq
    refine ⟨escape none, ?_, ?_⟩
    · rw [List.prefix_nil.1 hnil, ofText_of_starts (.unclosed rfl rfl), ofText]
    · cases t <;> exact .escape _
  by_cases hcomment : c = '/' ∧ t.head? = some '*'
  · obtain ⟨rfl, hstar⟩ := hcomment
    obtain ⟨t, rfl⟩ := List.head?_eq_some_iff.1 hstar
    rw [first_slash_star] at hq proper ⊢
    refine ofText_of_isPrefix_comment (not_infix_snoc_star (not_infix_spanComment t)) ?_ hne
    cases hclosed : (spanComment t).2.isSome <;> rw [hclosed] at hq proper
    · exact hq.trans ⟨['*'], rfl⟩
    · exact proper (d := '/') (by simp [text])
  · have hplain := Starts.plain (by simpa using hquote) hback fun h ht => hcomment ⟨h, ht⟩
    rw [first_eq_of_starts hplain] at proper
    exact absurd (List.prefix_nil.1 (proper rfl)) hne

/-- The beginning of a text has the same lexemes, but for one that it may end within. -/
theorem ofText_of_isPrefix {t q : Text} (h : q <+: t) :
    ∃ ls more, ofText t = ls ++ more ∧ (ofText q = ls ∨
      ∃ l l' later, more = l :: later ∧ ofText q = ls ++ [l'] ∧ CutShort l l') := by
  fun_induction ofText t generalizing q with
  | case1 =>
    rw [List.prefix_nil.1 h]
    exact ⟨[], [], rfl, .inl (by rw [ofText])⟩
  | case2 c t ih =>
    have hs := starts_first c t
    have htext := text_append_of_starts hs
    rw [← htext] at h
    -- The first lexeme is read as a whole, or the text ends within it.
    by_cases hwhole : (first c t).1.text <+: q
    · obtain ⟨u, rfl⟩ := hwhole
      have hu := (List.prefix_append_right_inj _).1 h
      obtain ⟨ls, more, ht, hq⟩ := ih hu
      refine ⟨(first c t).1 :: ls, more, by rw [ht, List.cons_append], ?_⟩
      rw [ofText_text_append_of_isPrefix hs hu]
      rcases hq with hq | ⟨l, l', later, hmore, hq, hcut⟩
      · exact .inl (by rw [hq])
      · exact .inr ⟨l, l', later, hmore, by rw [hq, List.cons_append], hcut⟩
    · refine ⟨[], _, rfl, ?_⟩
      by_cases hne : q = []
      · subst hne
        exact .inl (by rw [ofText])
      · have hq := (List.prefix_or_prefix_of_prefix h (List.prefix_append _ _)).resolve_right hwhole
        obtain ⟨l', hl', hcut⟩ := ofText_of_isPrefix_first hq hne fun he => hwhole (by rw [he])
        exact .inr ⟨_, l', _, rfl, hl', hcut⟩

end Lexeme

end Stylesmith
