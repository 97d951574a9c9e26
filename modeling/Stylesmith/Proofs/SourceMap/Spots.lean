import Mathlib.Data.List.Induction
import Stylesmith.SourceMap.Basic
import Stylesmith.Stylesheet.Printer

set_option autoImplicit false

namespace Stylesmith

namespace Text

theorem units16_append (t u : Text) : units16 (t ++ u) = units16 t + units16 u := by
  induction t with
  | nil => simp [units16]
  | cons c t ih => rw [List.cons_append, units16, units16, ih, Nat.add_assoc]

def lastLine (t : Text) : Text := (t.reverse.takeWhile (· != '\n')).reverse

theorem lastLine_snoc (t : Text) (c : Char) :
    lastLine (t ++ [c]) = if c = '\n' then [] else lastLine t ++ [c] := by
  rw [lastLine, List.reverse_append, List.reverse_singleton, List.singleton_append,
    List.takeWhile_cons]
  by_cases hc : c = '\n'
  · simp [hc]
  · simp [hc, lastLine]

end Text

/-- The spot after a generated text: only line feeds end its lines. -/
def Spot.afterText (t : Text) : Spot := ⟨t.count '\n', Text.units16 t.lastLine⟩

theorem Spot.afterText_snoc (t : Text) (c : Char) : afterText (t ++ [c]) =
    if c = '\n' then ⟨(afterText t).line + 1, 0⟩
    else ⟨(afterText t).line, (afterText t).column + Text.charUnits16 c⟩ := by
  rw [afterText, Text.lastLine_snoc, List.count_append, List.count_singleton]
  by_cases hc : c = '\n'
  · simp [hc, afterText, Text.units16]
  · simp [hc, afterText, Text.units16, Text.units16_append]

theorem Piece.advance_first (t : Text) :
    advance .first t = ⟨(Spot.afterText t).line + 1, (Spot.afterText t).column + 1⟩ := by
  induction t using List.reverseRec with
  | nil => rfl
  | append_singleton t c ih =>
    rw [advance_append, ih, advance, advance, Spot.afterText_snoc]
    by_cases hc : c = '\n'
    · simp [hc]
    · simp [hc, advance, Nat.add_right_comm]

/-- The spot of a text at which its suffix `rest` starts. -/
def Spot.ofSuffix (t rest : Text) : Spot :=
  ⟨(t.before rest).lines.length - 1, Text.units16 ((t.before rest).lines.getLast?.getD [])⟩

namespace Position

theorem lt_trans {p q r : Position} (hpq : p.lt q) (hqr : q.lt r) : p.lt r := by
  unfold lt at *
  omega

theorem endsLine_head {c : Char} {t rest : Text} (h : rest.head? ≠ some '\n') :
    endsLine c (t ++ rest).head? = endsLine c t.head? := by
  cases t with
  | cons d t => rfl
  | nil =>
    have hnext : (rest.head? != some '\n') = true := by simpa using h
    rw [List.nil_append, endsLine, endsLine, hnext]
    rfl

end Position

namespace Text

theorem lines_ne_nil (t : Text) : lines t ≠ [] := by
  induction t with
  | nil => simp [lines]
  | cons c t ih =>
    rw [lines]
    split
    · simp
    · split
      · exact ih
      · split <;> simp

/-- A carriage return that does not end a line stands before a line feed. -/
theorem lines_return {t : Text} (h : Position.endsLine '\r' t.head? = false) :
    lines t = [] :: lines t.tail := by
  cases t with
  | nil => cases h
  | cons c t =>
    obtain rfl : c = '\n' := by simpa [Position.endsLine] using h
    rfl

/-- What stands before a suffix ends within the line of the suffix. -/
theorem exists_line_append {t rest : Text} (h : rest.head? ≠ some '\n') :
    ∃ tail, (lines (t ++ rest))[(lines t).length - 1]? =
      some ((lines t).getLast?.getD [] ++ tail) := by
  have later : ∀ (l : Text) {ls ms : List Text} {tail : Text}, ls ≠ [] →
      ms[ls.length - 1]? = some (ls.getLast?.getD [] ++ tail) →
        (l :: ms)[(l :: ls).length - 1]? = some ((l :: ls).getLast?.getD [] ++ tail) := by
    intro l ls ms tail hls hms
    obtain ⟨m, ls, rfl⟩ := List.exists_cons_of_ne_nil hls
    simpa using hms
  induction t with
  | nil =>
    obtain ⟨l, ls, hl⟩ := List.exists_cons_of_ne_nil (lines_ne_nil rest)
    exact ⟨l, by simp [lines, hl]⟩
  | cons c t ih =>
    obtain ⟨tail, ih⟩ := ih
    have hends := Position.endsLine_head (c := c) (t := t) h
    by_cases hc : Position.endsLine c t.head? = true
    · refine ⟨tail, ?_⟩
      rw [List.cons_append, lines, hends, if_pos hc, lines, if_pos hc]
      exact later [] (lines_ne_nil t) ih
    · by_cases hr : c = '\r'
      · refine ⟨tail, ?_⟩
        rw [List.cons_append, lines, hends, if_neg hc, if_pos hr, lines, if_neg hc, if_pos hr]
        exact ih
      · rw [List.cons_append, lines, hends, if_neg hc, if_neg hr, lines, if_neg hc, if_neg hr]
        obtain ⟨l, ls, hl⟩ := List.exists_cons_of_ne_nil (lines_ne_nil t)
        obtain ⟨m, ms, hm⟩ := List.exists_cons_of_ne_nil (lines_ne_nil (t ++ rest))
        rw [hl, hm] at ih
        rw [hl, hm]
        refine ⟨tail, ?_⟩
        cases ls with
        | nil => simpa using ih
        | cons l' ls => simpa using ih

end Text

namespace Position

def pastLines (p : Position) : List Text → Position
  | [] => p
  | [l] => ⟨p.line, p.column + l.length⟩
  | _ :: l :: ls => pastLines ⟨p.line + 1, 1⟩ (l :: ls)

theorem pastLines_cons (p : Position) (l : Text) {ls : List Text} (h : ls ≠ []) :
    pastLines p (l :: ls) = pastLines ⟨p.line + 1, 1⟩ ls := by
  obtain ⟨m, ls, rfl⟩ := List.exists_cons_of_ne_nil h
  rfl

theorem after_eq_pastLines (p : Position) (t : Text) {next : Option Char} (h : next ≠ some '\n') :
    p.after t next = pastLines p (Text.lines t) := by
  induction t generalizing p with
  | nil => rfl
  | cons c t ih =>
    have hends : endsLine c (t.head?.or next) = endsLine c t.head? := by
      have hhead := @endsLine_head c t next.toList (by simpa using h)
      rwa [List.head?_append, Option.head?_toList] at hhead
    have hne := Text.lines_ne_nil t
    rw [after, ih, past, hends, Text.lines]
    by_cases hc : endsLine c t.head? = true
    · rw [if_pos hc, if_pos hc, pastLines_cons p [] hne]
    · rw [if_neg hc, if_neg hc]
      by_cases hr : c = '\r'
      · -- The column does not matter, since the line ends right after.
        have hline := Text.lines_return (t := t) (by simpa [hr] using hc)
        rw [if_pos hr, hline, pastLines_cons _ [] (Text.lines_ne_nil _),
          pastLines_cons _ [] (Text.lines_ne_nil _)]
      · rw [if_neg hr]
        obtain ⟨l, ls, hl⟩ := List.exists_cons_of_ne_nil hne
        rw [hl]
        cases ls with
        | nil =>
          simp only [pastLines, List.length_cons, mk.injEq, true_and]
          omega
        | cons l' ls => rfl

theorem pastLines_eq {p : Position} (hp : p.column = 1) {ls : List Text} (h : ls ≠ []) :
    pastLines p ls = ⟨p.line + ls.length - 1, (ls.getLast?.getD []).length + 1⟩ := by
  induction ls generalizing p with
  | nil => exact absurd rfl h
  | cons l ls ih =>
    cases ls with
    | nil => simp [pastLines, hp, Nat.add_comm]
    | cons m ls =>
      rw [pastLines_cons p l (List.cons_ne_nil m ls), ih rfl (List.cons_ne_nil m ls)]
      simp
      omega

/-- The position after a text: the number of its lines, and a column after the last of them. -/
def afterText (t : Text) : Position :=
  ⟨(Text.lines t).length, ((Text.lines t).getLast?.getD []).length + 1⟩

theorem ofSuffix_append {t rest : Text} (h : rest.head? ≠ some '\n') :
    ofSuffix (t ++ rest) rest = afterText t := by
  rw [ofSuffix, Text.before_append, after_eq_pastLines _ _ h, pastLines_eq rfl (Text.lines_ne_nil t)]
  simp [first, afterText]

/-- The position of a suffix is the spot of the suffix. -/
theorem spot_ofSuffix {t rest : Text} (hrest : rest <:+ t) (h : rest.head? ≠ some '\n') :
    (⟨(ofSuffix t rest).line - 1, Text.column16 t.lines.toArray (ofSuffix t rest)⟩ : Spot) =
      Spot.ofSuffix t rest := by
  obtain ⟨pre, rfl⟩ := hrest
  obtain ⟨tail, htail⟩ := Text.exists_line_append (t := pre) h
  have hpos := List.length_pos_iff.2 (Text.lines_ne_nil pre)
  obtain ⟨n, hn⟩ := Nat.exists_eq_succ_of_ne_zero (Nat.pos_iff_ne_zero.1 hpos)
  rw [hn, Nat.succ_sub_one] at htail
  rw [ofSuffix_append h, afterText, Spot.ofSuffix, Text.before_append, hn, Text.column16]
  simp [htail]

end Position

end Stylesmith
