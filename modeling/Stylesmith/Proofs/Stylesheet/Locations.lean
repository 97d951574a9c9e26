import Mathlib.Data.List.TakeWhile
import Stylesmith.Proofs.SourceMap.Spots
import Stylesmith.Proofs.Stylesheet.Faults
import Stylesmith.Proofs.Stylesheet.Idempotence

set_option autoImplicit false

namespace Stylesmith

namespace Text

theorem lastLine_of_notMem {t : Text} (h : '\n' ∉ t) : lastLine t = t := by
  have hall : t.reverse.takeWhile (· != '\n') = t.reverse := by
    rw [List.takeWhile_eq_self_iff]
    intro c hc
    simp only [bne_iff_ne, ne_eq]
    rintro rfl
    exact h (List.mem_reverse.1 hc)
  rw [lastLine, hall, List.reverse_reverse]

theorem lastLine_cons_of_mem {t : Text} (c : Char) (h : '\n' ∈ t) :
    lastLine (c :: t) = lastLine t := by
  have hshort : (t.reverse.takeWhile (· != '\n')).length ≠ t.reverse.length := by
    intro hlength
    have hall := (List.takeWhile_prefix (· != '\n')).eq_of_length hlength
    rw [List.takeWhile_eq_self_iff] at hall
    exact absurd (hall '\n' (List.mem_reverse.2 h)) (by decide)
  rw [lastLine, List.reverse_cons, List.takeWhile_append, if_neg hshort, lastLine]

theorem lastLine_lineFeed (t : Text) : lastLine ('\n' :: t) = lastLine t := by
  by_cases h : '\n' ∈ t
  · exact lastLine_cons_of_mem '\n' h
  · have hnone := lastLine_of_notMem h
    rw [lastLine, List.reverse_eq_iff] at hnone
    rw [lastLine, List.reverse_cons, List.takeWhile_append, hnone]
    simp [lastLine_of_notMem h]

theorem withLineFeeds_append {t rest : Text} (h : rest.head? ≠ some '\n') :
    withLineFeeds (t ++ rest) = withLineFeeds t ++ withLineFeeds rest := by
  induction t with
  | nil => rfl
  | cons c t ih => rw [List.cons_append, withLineFeeds, Position.endsLine_head h, ih]; rfl

theorem bytes_withLineFeeds (t : Text) : bytes (withLineFeeds t) = bytes t := by
  induction t with
  | nil => rfl
  | cons c t ih =>
    rw [withLineFeeds, bytes, bytes, ih]
    split
    next h =>
      simp only [Position.endsLine, Bool.or_eq_true, Bool.and_eq_true, beq_iff_eq] at h
      rcases h with (rfl | rfl) | ⟨rfl, _⟩ <;> rfl
    next => rfl

theorem count_withLineFeeds (t : Text) :
    (withLineFeeds t).count '\n' + 1 = (lines t).length := by
  induction t with
  | nil => rfl
  | cons c t ih =>
    rw [withLineFeeds, lines]
    split
    next => rw [List.count_cons_self, ih, List.length_cons]
    next h =>
      have hc : c ≠ '\n' := by
        rintro rfl
        exact h rfl
      rw [List.count_cons_of_ne hc, ih]
      split
      · rfl
      · obtain ⟨l, ls, hl⟩ := List.exists_cons_of_ne_nil (lines_ne_nil t)
        rw [hl]
        rfl

theorem lastLine_withLineFeeds (t : Text) :
    lastLine (withLineFeeds t) = (lines t).getLast?.getD [] := by
  induction t with
  | nil => rfl
  | cons c t ih =>
    obtain ⟨l, ls, hl⟩ := List.exists_cons_of_ne_nil (lines_ne_nil t)
    have hcount := count_withLineFeeds t
    rw [withLineFeeds, lines]
    split
    next =>
      rw [lastLine_lineFeed, ih, hl]
      rfl
    next h =>
      rw [hl] at ih hcount
      cases ls with
      | nil =>
        have hnone : '\n' ∉ withLineFeeds t := by
          rw [← List.count_eq_zero]
          simpa using hcount
        have hc : c ≠ '\n' ∧ c ≠ '\r' := by
          constructor
          · rintro rfl
            exact h rfl
          · rintro rfl
            rw [lines_return (by simpa using h)] at hl
            exact absurd (List.cons.inj hl).2 (lines_ne_nil _)
        rw [lastLine_of_notMem hnone] at ih
        rw [if_neg hc.2, hl, lastLine_of_notMem (by simp [hnone, hc.1.symm]), ih]
        rfl
      | cons m ls =>
        have hsome : '\n' ∈ withLineFeeds t := by
          rw [← List.count_pos_iff]
          simp only [List.length_cons] at hcount
          omega
        rw [lastLine_cons_of_mem c hsome, ih]
        split
        · rw [hl]
        · rw [hl]
          rfl

theorem dropLines_append {t rest : Text} (h : rest.head? ≠ some '\n') :
    dropLines ((lines t).length - 1) (t ++ rest) = (lines t).getLast?.getD [] ++ rest := by
  induction t with
  | nil => simp [lines, dropLines]
  | cons c t ih =>
    obtain ⟨l, ls, hl⟩ := List.exists_cons_of_ne_nil (lines_ne_nil t)
    have hends := Position.endsLine_head (c := c) (t := t) h
    rw [hl] at ih
    rw [lines, List.cons_append]
    by_cases hc : Position.endsLine c t.head? = true
    · rw [if_pos hc, hl]
      simp only [List.length_cons, Nat.add_sub_cancel, dropLines, hends, hc, if_true] at ih ⊢
      exact ih
    · have hskip : ∀ n, dropLines (n + 1) (c :: (t ++ rest)) = dropLines (n + 1) (t ++ rest) := by
        intro n
        rw [dropLines, hends, if_neg hc]
      rw [if_neg hc]
      cases ls with
      | nil =>
        have hr : c ≠ '\r' := by
          rintro rfl
          rw [lines_return (by simpa using hc)] at hl
          exact absurd (List.cons.inj hl).2 (lines_ne_nil _)
        have hrest : t ++ rest = l ++ rest := by simpa [dropLines] using ih
        rw [if_neg hr, hl, hrest]
        rfl
      | cons m ls =>
        split
        · rw [hl]
          exact (hskip _).trans ih
        · rw [hl]
          exact (hskip _).trans ih

theorem suffixAt_afterText {t rest : Text} (h : rest.head? ≠ some '\n') :
    suffixAt (t ++ rest) (Position.afterText t) = rest := by
  obtain ⟨tail, htail⟩ := exists_line_append (t := t) h
  have hpos := List.length_pos_iff.2 (lines_ne_nil t)
  have hlt : (lines t).length - 1 < (lines (t ++ rest)).length := (List.getElem?_eq_some_iff.1 htail).1
  have hline : min (max (lines t).length 1) (lines (t ++ rest)).length = (lines t).length := by
    omega
  simp only [suffixAt, Position.afterText, hline, htail, dropLines_append h, Option.getD_some,
    List.length_append, Nat.add_sub_cancel, Nat.min_eq_left (Nat.le_add_right _ _), List.drop_left]

end Text

namespace SyntaxError

structure Matches (reason : Text) (c : Char) : Prop where
  not_blank : Text.isBlank c = false
  brace : reason = ("Unexpected \x7d" : Text) → c = '}'
  block : reason = ("Unclosed block" : Text) → c = '{'
  literal : reason = ("Unclosed string" : Text) → c = '"' ∨ c = '\''
  comment : reason = ("Unclosed comment" : Text) → c = '/'
  bracket : reason = ("Unclosed bracket" : Text) → c = '(' ∨ c = '['
  name : reason = ("At-rule without name" : Text) → c = '@'

theorem Cause.Fits.matches {cause : Cause} {c : Char} (h : cause.Fits c)
    (hblank : Text.isBlank c = false) : Matches cause.reason c := by
  cases cause with
  | other => exact h.elim
  | unclosedLiteral =>
    have hquote := Lexeme.isQuote_iff.1 h
    refine ⟨hblank, ?_, ?_, fun _ => hquote, ?_, ?_, ?_⟩ <;>
      exact fun hr => absurd hr (by decide +kernel)
  | _ =>
    refine ⟨hblank, ?_, ?_, ?_, ?_, ?_, ?_⟩ <;> first
      | exact fun _ => h
      | exact fun hr => absurd hr (by decide +kernel)

/-- The place of an error, said in three ways, is that of the character `c` between `before` and
`after`. -/
structure LocatedAt (e : SyntaxError) (before : Text) (c : Char) (after : Text) : Prop where
  text : e.text = before ++ c :: after
  /-- Lines are counted with line ends of every kind. -/
  position : e.position = Position.afterText before
  /-- Offset and length are counted in bytes. -/
  span : e.span = (Text.bytes before, c.utf8Size)
  bytes_shown : Text.bytes e.shown = Text.bytes e.text
  /-- In the text that is shown, only line feeds end lines. -/
  shown : ∃ before' after', e.shown = before' ++ c :: after' ∧
    Text.bytes before' = Text.bytes before ∧ e.position.line = before'.count '\n' + 1 ∧
    e.position.column = before'.lastLine.length + 1

end SyntaxError

theorem endsLine_of_not_isBlank {c : Char} (h : Text.isBlank c = false) (next : Option Char) :
    Position.endsLine c next = false := by
  rw [Bool.eq_false_iff]
  intro hends
  simp only [Position.endsLine, Bool.or_eq_true, Bool.and_eq_true, beq_iff_eq] at hends
  rcases hends with (rfl | rfl) | ⟨rfl, _⟩ <;> cases h

theorem locatedAt_ofFault (source : Text) {f : Fault} {before after : Text} {c : Char}
    (hmark : f.mark = c :: after) (hblank : Text.isBlank c = false) :
    (SyntaxError.ofFault source (before ++ c :: after) f).LocatedAt before c after := by
  have hhead : (c :: after).head? ≠ some '\n' := by
    rintro hc
    rw [Option.some.inj hc] at hblank
    cases hblank
  have hposition : (SyntaxError.ofFault source (before ++ c :: after) f).position =
      Position.afterText before := by
    rw [SyntaxError.ofFault, hmark]
    exact Position.ofSuffix_append hhead
  have hshown : (SyntaxError.ofFault source (before ++ c :: after) f).shown =
      Text.withLineFeeds before ++ c :: Text.withLineFeeds after := by
    rw [SyntaxError.shown, SyntaxError.ofFault, Text.withLineFeeds_append hhead, Text.withLineFeeds,
      endsLine_of_not_isBlank hblank]
    rfl
  refine ⟨rfl, hposition, ?_, Text.bytes_withLineFeeds _, _, _, hshown,
    Text.bytes_withLineFeeds _, ?_, ?_⟩
  · rw [SyntaxError.span, SyntaxError.marked, hposition]
    simp only [SyntaxError.ofFault, Text.suffixAt_afterText hhead, Text.before_append, List.head?_cons,
      Option.map_some, Option.getD_some]
  · rw [hposition, Position.afterText, Text.count_withLineFeeds]
  · rw [hposition, Position.afterText, Text.lastLine_withLineFeeds]

namespace Stylesheet

theorem parse_eq_error_iff {source t : Text} {positions : Bool} {e : SyntaxError} :
    parse source t positions = .error e ↔ ∃ f, nodes t = .error f ∧ e = .ofFault source t f := by
  unfold parse
  split
  · rename_i f h
    simp [h, eq_comm]
  · simp_all

/-- The error of a text that is no style sheet is located at a character of the text that is no
blank and matches the reason. -/
theorem parse_error_located {source t : Text} {positions : Bool} {e : SyntaxError}
    (h : parse source t positions = .error e) :
    e.text = t ∧ ∃ before c after, e.LocatedAt before c after ∧ SyntaxError.Matches e.reason c := by
  obtain ⟨f, hf, rfl⟩ := parse_eq_error_iff.1 h
  obtain ⟨⟨before, rfl⟩, c, after, hmark, hblank, hfits⟩ := markedIn_of_nodes hf
  rw [hmark]
  exact ⟨rfl, before, c, after, locatedAt_ofFault source hmark hblank, hfits.matches hblank⟩

/-- The fifth line, since there are line ends of four kinds before it. -/
theorem parse_error_located_mixedLineEnds :
    let t : Text := "é\x7b\r\n\x0c\r😀\nb:'c"
    ∃ e before c after, parse "a.css" t false = .error e ∧ e.position = ⟨5, 3⟩ ∧ e.span = (14, 1) ∧
      e.text = t ∧ e.LocatedAt before c after ∧ SyntaxError.Matches e.reason c := by
  intro t
  cases h : parse "a.css" t false with
  | ok s =>
    have herror : (parse "a.css" t false).toOption.isSome = false := by
      decide +kernel
    rw [h] at herror
    cases herror
  | error e =>
    obtain ⟨htext, before, c, after, hlocated, hmatches⟩ := parse_error_located h
    have hplace : (match parse "a.css" t false with
        | .ok _ => none
        | .error e => some (e.position, e.span)) = some (⟨5, 3⟩, (14, 1)) := by
      decide +kernel
    rw [h] at hplace
    obtain ⟨hposition, hspan⟩ := Prod.mk.inj (Option.some.inj hplace)
    exact ⟨e, before, c, after, rfl, hposition, hspan, htext, hlocated, hmatches⟩

end Stylesheet

end Stylesmith
