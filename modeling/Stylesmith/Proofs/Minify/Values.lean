import Stylesmith.Minify.Header
import Stylesmith.Minify.Value
import Stylesmith.Proofs.Minify.Numerals
import Stylesmith.Proofs.Minify.Rewriting

set_option autoImplicit false

namespace Stylesmith.Value

open Lexeme (isIdent isQuote)

/-- Whether a piece after the character `last` stays apart from the text `rest` behind it when both
are compacted. A reference must not hold a parenthesis. -/
def Piece.Apart (last : Option Char) (rest : Text) : Piece → Prop
  | verbatim t => ('(', false) ∉ (Text.markLiterals none t).drop 4
  | hash _ => True
  | number _ _ => rest.head? ≠ some '.' ∧ rest.head? ≠ some '%'
  | plain c =>
    (c = ' ' → rest.head? ≠ some ' ' ∧ (last = some '/' → rest.head? ≠ some '*')) ∧
      (c = '+' → Numeral.starts rest = true → rest.head?.any Char.isDigit = true)

/-- Where the compaction of a value stands: the number of open parentheses and the last character
written. -/
structure Place where
  keepUnit : Bool
  depth : Nat
  last : Option Char

namespace Place

def written (p : Place) (c : Char) (t : Text) : Text :=
  (first p.last c t).1.compact (!p.keepUnit && p.depth == 0) p.last (first p.last c t).2.head?

def after (p : Place) (c : Char) (t : Text) : Place :=
  ⟨p.keepUnit, (first p.last c t).1.deepen p.depth, (p.written c t).getLast?.or p.last⟩

def compact (p : Place) (t : Text) : Text := compactFrom p.keepUnit p.depth p.last t

@[simp] theorem compact_nil (p : Place) : p.compact [] = [] := by
  rw [compact, compactFrom]

theorem compact_cons (p : Place) (c : Char) (t : Text) :
    p.compact (c :: t) = p.written c t ++ (p.after c t).compact (first p.last c t).2 := by
  rw [compact, compactFrom]
  rfl

end Place

/-- Whether each piece of the rest of a value stays apart from what follows it. -/
inductive Apart : Place → Text → Prop
  | nil {p : Place} : Apart p []
  | cons {p : Place} {c : Char} {t : Text} :
      (first p.last c t).1.Apart p.last (first p.last c t).2 →
      Apart (p.after c t) (first p.last c t).2 → Apart p (c :: t)

def isSpecial (c : Char) : Bool :=
  isQuote c || c == ' ' || c == '(' || c == ')' || c == '#' || c == '\\'

inductive Kind (last : Option Char) (c : Char) (t : Text) : Prop
  | literal (hq : isQuote c = true)
  | mark (hc : c = ' ' ∨ c = '(' ∨ c = ')')
  | hash (hc : c = '#')
  | escape (hc : c = '\\')
  | reference (hs : isSpecial c = false) (ho : opensReference last (c :: t) = true)
  | number (hs : isSpecial c = false) (ho : opensReference last (c :: t) = false)
      (hn : opensNumber last (c :: t) = true)
  | plain (hs : isSpecial c = false) (ho : opensReference last (c :: t) = false)
      (hn : opensNumber last (c :: t) = false)

section First

variable {last : Option Char} {c : Char} {t : Text}

theorem isSpecial_eq_false_iff : isSpecial c = false ↔ isQuote c = false ∧
    ¬ (c = ' ' ∨ c = '(' ∨ c = ')') ∧ c ≠ '#' ∧ c ≠ '\\' := by
  simp [isSpecial, and_assoc]

theorem isSpecial_of_isIdent (h : isIdent c = true) : isSpecial c = false := by
  refine Bool.eq_false_iff.2 fun hs => ?_
  simp only [isSpecial, isQuote, Bool.or_eq_true, beq_iff_eq] at hs
  rcases hs with ((((((rfl | rfl) | rfl) | rfl) | rfl) | rfl) | rfl) <;> cases h

theorem kind (last : Option Char) (c : Char) (t : Text) : Kind last c t := by
  cases hs : isSpecial c with
  | true =>
    simp only [isSpecial, Bool.or_eq_true, beq_iff_eq] at hs
    rcases hs with ((((hq | hc) | hc) | hc) | hc) | hc
    · exact .literal hq
    · exact .mark (.inl hc)
    · exact .mark (.inr (.inl hc))
    · exact .mark (.inr (.inr hc))
    · exact .hash hc
    · exact .escape hc
  | false =>
    cases ho : opensReference last (c :: t) with
    | true => exact .reference hs ho
    | false =>
      cases hn : opensNumber last (c :: t) with
      | true => exact .number hs ho hn
      | false => exact .plain hs ho hn

theorem first_literal (hq : isQuote c = true) :
    first last c t = (.verbatim (c :: (spanLiteral c t).1), (spanLiteral c t).2) := by
  rw [first, if_pos hq]

theorem first_mark (hc : c = ' ' ∨ c = '(' ∨ c = ')') : first last c t = (.plain c, t) := by
  have hq : isQuote c = false := by rcases hc with rfl | rfl | rfl <;> rfl
  rw [first, hq, if_neg Bool.false_ne_true, if_pos hc]

theorem first_hash : first last '#' t =
    (.hash (t.takeWhile Char.isAlphanum), t.dropWhile Char.isAlphanum) := rfl

theorem first_escape : first last '\\' t = (.verbatim ('\\' :: t.take 1), t.drop 1) := rfl

theorem first_reference (hs : isSpecial c = false) (ho : opensReference last (c :: t) = true) :
    first last c t = (.verbatim (c :: (spanReference none t).1), (spanReference none t).2) := by
  obtain ⟨hq, hm, hh, he⟩ := isSpecial_eq_false_iff.1 hs
  rw [first, hq, if_neg Bool.false_ne_true, if_neg hm, if_neg hh, if_neg he, if_pos ho]

theorem first_number (hs : isSpecial c = false) (ho : opensReference last (c :: t) = false)
    (hn : opensNumber last (c :: t) = true) : first last c t =
      (.number (Numeral.span (c :: t)).1 (spanUnit (Numeral.span (c :: t)).2).1,
        (spanUnit (Numeral.span (c :: t)).2).2) := by
  obtain ⟨hq, hm, hh, he⟩ := isSpecial_eq_false_iff.1 hs
  rw [first, hq, if_neg Bool.false_ne_true, if_neg hm, if_neg hh, if_neg he, ho,
    if_neg Bool.false_ne_true, if_pos hn]

theorem first_plain (hs : isSpecial c = false) (ho : opensReference last (c :: t) = false)
    (hn : opensNumber last (c :: t) = false) : first last c t = (.plain c, t) := by
  obtain ⟨hq, hm, hh, he⟩ := isSpecial_eq_false_iff.1 hs
  rw [first, hq, if_neg Bool.false_ne_true, if_neg hm, if_neg hh, if_neg he, ho,
    if_neg Bool.false_ne_true, hn, if_neg Bool.false_ne_true]

end First

section Span

theorem spanLiteral_again {quote : Char} (hq : isQuote quote = true) (t : Text) {k : Text}
    (hk : (spanLiteral quote t).2 = [] → k = []) :
    spanLiteral quote ((spanLiteral quote t).1 ++ k) = ((spanLiteral quote t).1, k) := by
  have htext := Lexeme.spanLiteral_text quote t
  cases h : Lexeme.spanLiteral quote t with
  | mk body rest =>
  rw [h] at htext
  cases rest with
  | none =>
    obtain rfl : body = t := by simpa using htext
    have hspan : spanLiteral quote body = (body, []) := by rw [spanLiteral, h]
    rw [hspan] at hk ⊢
    rw [hk rfl, List.append_nil, hspan]
  | some rest =>
    obtain ⟨hb, _⟩ := Lexeme.enclosed_of_spanLiteral h
    have hspan : spanLiteral quote t = (body ++ [quote], rest) := by rw [spanLiteral, h]
    rw [hspan, spanLiteral, List.append_assoc, List.singleton_append,
      Lexeme.spanLiteral_of_enclosed (Lexeme.ne_backslash_of_isQuote hq) hb]

theorem spanReference_again (quote : Option Char) (t : Text) {k : Text}
    (hk : (spanReference quote t).2 = [] → k = []) :
    spanReference quote ((spanReference quote t).1 ++ k) = ((spanReference quote t).1, k) := by
  -- An escape at the very end has no character, so nothing may follow there.
  have atEnd : ∀ {quote : Option Char} {c : Char} {t body rest : Text},
      (∀ d u, c = '\\' → t = d :: u → False) → spanReference quote t = (body, rest) →
      (rest = [] → k = []) → ∀ d u, c = '\\' → body ++ k = d :: u → False := by
    intro quote c t body rest hne h hk d u hc hd
    cases t with
    | cons d' u' => exact hne d' u' hc rfl
    | nil =>
      cases h
      rw [hk rfl] at hd
      cases hd
  fun_induction spanReference quote t with
  | case1 => simp [hk, spanReference]
  | case2 quote c t body rest h ih =>
    simp only [h] at ih
    rw [List.cons_append, List.cons_append, spanReference, ih hk]
  | case3 c t hne q body rest h ih =>
    simp only [h] at ih
    rw [List.cons_append, spanReference, ih hk]
    exact atEnd hne h hk
  | case4 t hne => rfl
  | case5 c t hne hc body rest h ih =>
    simp only [h] at ih
    rw [List.cons_append, spanReference, if_neg hc, ih hk]
    exact atEnd hne h hk

theorem spanReference_plain {c : Char} (t : Text) (hq : isQuote c = false) (hc : c ≠ ')')
    (he : c ≠ '\\') : spanReference none (c :: t) =
      (c :: (spanReference none t).1, (spanReference none t).2) := by
  rw [spanReference, if_neg hc, hq]
  · rfl
  · exact fun d u h => absurd h he

theorem spanReference_of_isIdent {c : Char} (t : Text) (h : isIdent c = true) :
    spanReference none (c :: t) = (c :: (spanReference none t).1, (spanReference none t).2) := by
  obtain ⟨hq, hm, _, he⟩ := isSpecial_eq_false_iff.1 (isSpecial_of_isIdent h)
  exact spanReference_plain t hq (fun hc => hm (.inr (.inr hc))) he

theorem spanReference_name {r l : Char} (t : Text) (hr : r.toLower = 'r') (hl : l.toLower = 'l') :
    spanReference none (r :: l :: '(' :: t) =
      (r :: l :: '(' :: (spanReference none t).1, (spanReference none t).2) := by
  rw [spanReference_of_isIdent _ (UrlPart.isIdent_of_toLower hr rfl),
    spanReference_of_isIdent _ (UrlPart.isIdent_of_toLower hl rfl),
    spanReference_plain t rfl (by decide) (by decide)]

end Span

section Head

variable {p : Place} {c : Char} {t : Text}

def IsSeparator (c : Char) : Prop := c = ',' ∨ c = '/' ∨ c = ')'

theorem IsSeparator.not_isIdent (h : IsSeparator c) : isIdent c = false := by
  rcases h with rfl | rfl | rfl <;> rfl

theorem opensReference_of_isIdent {last : Option Char} (h : last.any isIdent = true) :
    opensReference last t = false := by
  rw [opensReference, h, Bool.not_true, Bool.and_false]

theorem opensReference_ne {last : Option Char} (h : c.toLower ≠ 'u') :
    opensReference last (c :: t) = false := by
  refine Bool.eq_false_iff.2 fun ho => ?_
  rw [opensReference, Bool.and_eq_true, Scan.startsIgnoringCase_url_iff] at ho
  obtain ⟨⟨_, _, _, _, he, hu, _⟩, _⟩ := ho
  cases he
  exact h hu

theorem opensNumber_of_isIdent {last : Option Char} (h : last.any isIdent = true) :
    opensNumber last t = false := by
  obtain ⟨d, rfl, hd⟩ := (Option.any_eq_true _ _).1 h
  simp [opensNumber, hd]

theorem starts_of_opensNumber {last : Option Char} (h : opensNumber last t = true) :
    Numeral.starts t = true := (Bool.and_eq_true _ _ ▸ h).2

theorem written_of_first (h : first p.last c t = (.plain c, t)) (hc : c ≠ ' ') :
    p.written c t = [c] := by
  rw [Place.written, h, Piece.compact, if_neg fun hd => hc hd.1]

theorem last_after_of_first (h : first p.last c t = (.plain c, t)) (hc : c ≠ ' ') :
    (p.after c t).last = some c := by
  rw [Place.after, written_of_first h hc]
  rfl

theorem compact_of_first (h : first p.last c t = (.plain c, t)) (hc : c ≠ ' ') :
    p.compact (c :: t) = c :: (p.after c t).compact t := by
  rw [Place.compact_cons, written_of_first h hc, h]
  rfl

theorem first_separator (last : Option Char) (h : IsSeparator c) :
    first last c t = (.plain c, t) := by
  rcases h with rfl | rfl | rfl
  · exact first_plain rfl (opensReference_ne (by decide)) (Bool.and_false _)
  · exact first_plain rfl (opensReference_ne (by decide)) (Bool.and_false _)
  · exact first_mark (.inr (.inr rfl))

theorem isPart_iff {c : Char} : Numeral.isPart c = true ↔
    c.isDigit = true ∨ c = '+' ∨ c = '-' ∨ c = '.' ∨ c = 'e' ∨ c = 'E' := by
  simp [Numeral.isPart, Numeral.isSign, Numeral.isE, or_assoc]

theorem isIdent_of_isDigit {c : Char} (h : c.isDigit = true) : isIdent c = true := by
  simp [isIdent, Char.isAlphanum, h]

theorem written_number (hs : isSpecial c = false) (ho : opensReference p.last (c :: t) = false)
    (hn : opensNumber p.last (c :: t) = true) :
    p.written c t = if (!p.keepUnit && p.depth == 0) &&
        Numeral.shorten (Numeral.span (c :: t)).1 == ['0'] &&
        lengthUnits.contains (Text.lowerAscii (spanUnit (Numeral.span (c :: t)).2).1) then
      Numeral.shorten (Numeral.span (c :: t)).1
    else Numeral.shorten (Numeral.span (c :: t)).1 ++ (spanUnit (Numeral.span (c :: t)).2).1 := by
  rw [Place.written, first_number hs ho hn]
  rfl

theorem head_compact_number (hs : isSpecial c = false) (ho : opensReference p.last (c :: t) = false)
    (hn : opensNumber p.last (c :: t) = true) :
    ∃ d, Numeral.isPart d = true ∧ (p.compact (c :: t)).head? = some d := by
  have hstarts := starts_of_opensNumber hn
  obtain ⟨e, he, _⟩ := Numeral.getLast_shorten hstarts
  obtain ⟨d, w, hw⟩ : ∃ d w, Numeral.shorten (Numeral.span (c :: t)).1 = d :: w :=
    List.exists_cons_of_ne_nil (by rintro hnil; rw [hnil] at he; cases he)
  refine ⟨d, Numeral.isPart_of_mem_shorten hstarts (by rw [hw]; exact List.mem_cons_self), ?_⟩
  rw [Place.compact_cons, written_number hs ho hn, hw]
  split <;> rfl

theorem head_compact_cons (h : ∃ w, p.written c t = c :: w) :
    (p.compact (c :: t)).head? = some c := by
  obtain ⟨w, hw⟩ := h
  rw [Place.compact_cons, hw]
  rfl

theorem IsSeparator.ne_space (h : IsSeparator c) : c ≠ ' ' := by
  rcases h with rfl | rfl | rfl <;> decide

theorem separator_of_dropsSpace {last next : Option Char}
    (hl : ∀ c ∈ last, c ≠ ',' ∧ c ≠ '/' ∧ c ≠ '(') (h : dropsSpace last next = true) :
    ∃ d, next = some d ∧ IsSeparator d := by
  rw [dropsSpace, Bool.or_eq_true, Option.any_eq_true, Option.any_eq_true] at h
  rcases h with ⟨c, hc, h⟩ | ⟨d, hd, h⟩
  · obtain ⟨h1, h2, h3⟩ := hl c hc
    simp [h1, h2, h3] at h
  · exact ⟨d, hd, by simpa [IsSeparator, or_assoc] using h⟩

theorem written_dropped (h : dropsSpace p.last t.head? = true) : p.written ' ' t = [] := by
  rw [Place.written, first_mark (.inl rfl)]
  exact if_pos ⟨rfl, h⟩

theorem written_kept (h : ¬ dropsSpace p.last t.head? = true) : p.written ' ' t = [' '] := by
  rw [Place.written, first_mark (.inl rfl)]
  exact if_neg fun hd => h hd.2

/-- Behind what is no separator, the compact text begins with the same character, with the separator
after a space, or with a numeral. -/
theorem head_compact (hl : ∀ c ∈ p.last, c ≠ ',' ∧ c ≠ '/' ∧ c ≠ '(') (t : Text) :
    (p.compact t).head? = t.head? ∨
      (t.head? = some ' ' ∧ ∃ d, IsSeparator d ∧ (p.compact t).head? = some d) ∨
      (opensNumber p.last t = true ∧
        ∃ d, Numeral.isPart d = true ∧ (p.compact t).head? = some d) := by
  cases t with
  | nil => exact .inl (by simp)
  | cons c t =>
    rcases kind p.last c t with hq | hc | rfl | rfl | ⟨hs, ho⟩ | ⟨hs, ho, hn⟩ | ⟨hs, ho, hn⟩
    · exact .inl (head_compact_cons ⟨_, by rw [Place.written, first_literal hq]; rfl⟩)
    · by_cases hspace : c = ' '
      · subst hspace
        by_cases hd : dropsSpace p.last t.head? = true
        · obtain ⟨d, hhead, hsep⟩ := separator_of_dropsSpace hl hd
          obtain ⟨u, rfl⟩ : ∃ u, t = d :: u := ⟨t.tail, (List.cons_head?_tail hhead).symm⟩
          refine .inr (.inl ⟨rfl, d, hsep, ?_⟩)
          rw [Place.compact_cons, written_dropped hd, List.nil_append, first_mark (.inl rfl),
            compact_of_first (first_separator _ hsep) hsep.ne_space, List.head?_cons]
        · refine .inl (head_compact_cons ⟨[], ?_⟩)
          exact written_kept hd
      · exact .inl (head_compact_cons ⟨_, written_of_first (first_mark hc) hspace⟩)
    · exact .inl (head_compact_cons ⟨_, by rw [Place.written, first_hash]; rfl⟩)
    · exact .inl (head_compact_cons ⟨_, by rw [Place.written, first_escape]; rfl⟩)
    · exact .inl (head_compact_cons ⟨_, by rw [Place.written, first_reference hs ho]; rfl⟩)
    · exact .inr (.inr ⟨hn, head_compact_number hs ho hn⟩)
    · refine .inl (head_compact_cons ⟨_, written_of_first (first_plain hs ho hn) ?_⟩)
      rintro rfl
      cases hs

theorem ne_separator_of_isIdent (h : p.last.any isIdent = true) :
    ∀ c ∈ p.last, c ≠ ',' ∧ c ≠ '/' ∧ c ≠ '(' := by
  intro c hc
  rw [Option.mem_def.1 hc] at h
  refine ⟨?_, ?_, ?_⟩ <;> rintro rfl <;> cases h

theorem ne_separator_of_last (hlast : p.last = some c) (h : c ≠ ',' ∧ c ≠ '/' ∧ c ≠ '(') :
    ∀ d ∈ p.last, d ≠ ',' ∧ d ≠ '/' ∧ d ≠ '(' := by
  rw [hlast]
  rintro d hd
  rwa [← Option.some.inj hd]

/-- Behind a word, the compact text begins with the same character or with a separator. -/
theorem head_compact_of_isIdent (h : p.last.any isIdent = true) (t : Text) :
    (p.compact t).head? = t.head? ∨ ∃ d, IsSeparator d ∧ (p.compact t).head? = some d := by
  rcases head_compact (ne_separator_of_isIdent h) t with hsame | ⟨_, hsep⟩ | ⟨hn, _⟩
  · exact .inl hsame
  · exact .inr hsep
  · rw [opensNumber_of_isIdent h] at hn
    cases hn

/-- A word goes on in the compact text only where it does in the value. -/
theorem compact_eq_cons_of_isIdent (h : p.last.any isIdent = true) {d : Char}
    (hd : isIdent d = true)
    {out : Text} (ht : p.compact t = d :: out) : ∃ u, t = d :: u ∧ (p.after d u).last = some d ∧
      out = (p.after d u).compact u := by
  rcases head_compact_of_isIdent h t with hsame | ⟨e, he, hhead⟩
  · rw [ht] at hsame
    obtain ⟨u, rfl⟩ : ∃ u, t = d :: u := ⟨t.tail, (List.cons_head?_tail hsame.symm).symm⟩
    have hfirst : first p.last d u = (.plain d, u) :=
      first_plain (isSpecial_of_isIdent hd) (opensReference_of_isIdent h) (opensNumber_of_isIdent h)
    have hspace : d ≠ ' ' := by
      rintro rfl
      cases hd
    rw [compact_of_first hfirst hspace] at ht
    exact ⟨u, rfl, last_after_of_first hfirst hspace, (List.cons.inj ht).2.symm⟩
  · rw [ht] at hhead
    rw [Option.some.inj hhead, he.not_isIdent] at hd
    cases hd

theorem digit_compact (hl : ∀ c ∈ p.last, c ≠ ',' ∧ c ≠ '/' ∧ c ≠ '(')
    (hn : opensNumber p.last t = true → t.head?.any Char.isDigit = true)
    (h : (p.compact t).head?.any Char.isDigit = true) : t.head?.any Char.isDigit = true := by
  rcases head_compact hl t with hsame | ⟨_, d, hd, hhead⟩ | ⟨ho, _⟩
  · exact hsame ▸ h
  · rw [hhead] at h
    rcases hd with rfl | rfl | rfl <;> cases h
  · exact hn ho

theorem startsUnsigned_compact (hl : ∀ c ∈ p.last, c ≠ ',' ∧ c ≠ '/' ∧ c ≠ '(')
    (hn : opensNumber p.last t = true → t.head?.any Char.isDigit = true)
    (h : Numeral.startsUnsigned (p.compact t) = true) : Numeral.startsUnsigned t = true := by
  rw [Numeral.startsUnsigned_iff] at h ⊢
  rcases h with h | ⟨c, out, hout, hc⟩
  · exact .inl (digit_compact hl hn h)
  · rcases head_compact hl t with hsame | ⟨_, d, hd, hhead⟩ | ⟨ho, _⟩
    · rw [hout] at hsame
      obtain ⟨u, rfl⟩ : ∃ u, t = '.' :: u := ⟨t.tail, (List.cons_head?_tail hsame.symm).symm⟩
      have hnone : opensNumber p.last ('.' :: u) = false := by
        refine Bool.eq_false_iff.2 fun ho => ?_
        cases hn ho
      have hfirst := first_plain rfl (opensReference_ne (by decide)) hnone
      have hlast := last_after_of_first hfirst (by decide)
      rw [compact_of_first hfirst (by decide), List.cons.injEq] at hout
      have hdigit : u.head?.any Char.isDigit = true := by
        refine digit_compact (p := p.after '.' u) ?_ ?_ (by rw [hout.2]; exact hc)
        · rw [hlast]
          rintro d hd
          cases hd
          decide
        · rw [hlast]
          exact fun ho => by cases ho
      cases u with
      | nil => cases hdigit
      | cons d u => exact .inr ⟨d, u, rfl, hdigit⟩
    · rw [hout] at hhead
      rcases hd with rfl | rfl | rfl <;> cases hhead
    · exact .inl (hn ho)

theorem opensReference_compact (hfirst : first p.last c t = (.plain c, t))
    (h : opensReference p.last (c :: (p.after c t).compact t) = true) :
    opensReference p.last (c :: t) = true := by
  rw [opensReference, Bool.and_eq_true] at h ⊢
  refine ⟨?_, h.2⟩
  obtain ⟨u, r, l, rest, he, hu, hr, hl⟩ := Scan.startsIgnoringCase_url_iff.1 h.1
  obtain ⟨rfl, htail⟩ := List.cons.inj he
  have identU : isIdent c = true := UrlPart.isIdent_of_toLower hu rfl
  have identR : isIdent r = true := UrlPart.isIdent_of_toLower hr rfl
  have identL : isIdent l = true := UrlPart.isIdent_of_toLower hl rfl
  have hlast : (p.after c t).last = some c := by
    refine last_after_of_first hfirst ?_
    rintro rfl
    cases identU
  obtain ⟨t₁, rfl, hlast₁, he₁⟩ :=
    compact_eq_cons_of_isIdent (by rw [hlast]; exact identU) identR htail
  obtain ⟨t₂, rfl, hlast₂, he₂⟩ :=
    compact_eq_cons_of_isIdent (by rw [hlast₁]; exact identR) identL he₁.symm
  rcases head_compact_of_isIdent (by rw [hlast₂]; exact identL) t₂ with hsame | ⟨d, hd, hhead⟩
  · rw [← he₂] at hsame
    have ht₂ : t₂ = '(' :: t₂.tail := (List.cons_head?_tail hsame.symm).symm
    exact Scan.startsIgnoringCase_url_iff.2 ⟨c, r, l, t₂.tail, by rw [ht₂]; rfl, hu, hr, hl⟩
  · rw [← he₂] at hhead
    rcases hd with rfl | rfl | rfl <;> cases hhead

end Head

def Piece.text : Piece → Text
  | verbatim t => t
  | hash digits => '#' :: digits
  | number numeral unit => numeral ++ unit
  | plain c => [c]

section Text

theorem spanReference_text (quote : Option Char) (t : Text) :
    (spanReference quote t).1 ++ (spanReference quote t).2 = t := by
  fun_induction spanReference quote t <;> simp_all

theorem spanLiteral_text (quote : Char) (t : Text) :
    (spanLiteral quote t).1 ++ (spanLiteral quote t).2 = t := by
  have h := Lexeme.spanLiteral_text quote t
  unfold spanLiteral
  split <;> rename_i heq <;> rw [heq] at h <;> simpa using h

theorem spanUnit_text (t : Text) : (spanUnit t).1 ++ (spanUnit t).2 = t := by
  fun_cases spanUnit t
  · rfl
  · exact List.takeWhile_append_dropWhile

theorem first_text (last : Option Char) (c : Char) (t : Text) :
    (first last c t).1.text ++ (first last c t).2 = c :: t := by
  rcases kind last c t with hq | hc | rfl | rfl | ⟨hs, ho⟩ | ⟨hs, ho, hn⟩ | ⟨hs, ho, hn⟩
  · rw [first_literal hq, Piece.text, List.cons_append, spanLiteral_text]
  · rw [first_mark hc]
    rfl
  · rw [first_hash, Piece.text, List.cons_append, List.takeWhile_append_dropWhile]
  · rw [first_escape, Piece.text, List.cons_append, List.take_append_drop]
  · rw [first_reference hs ho, Piece.text, List.cons_append, spanReference_text]
  · rw [first_number hs ho hn, Piece.text, List.append_assoc, spanUnit_text, Numeral.span_text]
  · rw [first_plain hs ho hn]
    rfl

end Text

end Stylesmith.Value
