import Stylesmith.Proofs.Cursor.Parser
import Stylesmith.Proofs.Stylesheet.Lexing

set_option autoImplicit false

namespace Stylesmith.Cursor.Input

open Lexeme (isIdent isQuote)

variable {i : Input} {c : Char} {t rest : Text}

theorem suffix_tail (h : c :: t <:+ i.text) : t <:+ i.text := (List.suffix_cons c t).trans h

theorem getElem_offset (h : c :: t <:+ i.text) (hlt : i.offset (c :: t) < i.text.length) :
    i.text[i.offset (c :: t)] = c := by
  have hget := getElem?_offset h
  rw [List.getElem?_eq_getElem hlt] at hget
  exact Option.some.inj hget

theorem getElem?_offset_succ (h : c :: t <:+ i.text) :
    i.text[i.offset (c :: t) + 1]? = t.head? := by
  rw [getElem?_offset_add h, List.getElem?_cons_succ, List.head?_eq_getElem?]

theorem offset_nil (i : Input) : i.offset [] = i.text.length := Nat.sub_zero _

theorem advance_offset (h : rest <:+ i.text) (n : Nat) :
    i.advance (i.offset rest) n = i.offset (rest.drop n) := by
  have hlen := h.length_le
  unfold advance offset
  rw [List.length_drop]
  omega

section Loops

theorem skipBlanks_offset (h : rest <:+ i.text) :
    i.skipBlanks (i.offset rest) = i.offset (Text.skipBlanks rest) := by
  induction rest with
  | nil =>
    rw [skipBlanks, offset_nil, dif_neg (Nat.lt_irrefl _)]
    rfl
  | cons c t ih =>
    rw [skipBlanks, dif_pos (offset_lt h (List.cons_ne_nil c t)), getElem_offset h]
    cases hc : Text.isBlank c with
    | true =>
      rw [if_pos rfl, offset_tail h, ih (suffix_tail h), Text.skipBlanks, Text.skipBlanks,
        List.dropWhile_cons_of_pos hc]
    | false =>
      rw [if_neg Bool.false_ne_true, Text.skipBlanks, List.dropWhile_cons_of_neg (by simp [hc])]

theorem pastClose?_offset {close : Char} (hclose : close ≠ '\\') (h : rest <:+ i.text) :
    i.pastClose? close (i.offset rest) = (Lexeme.spanLiteral close rest).2.map i.offset := by
  fun_induction Lexeme.spanLiteral close rest with
  | case1 =>
    rw [pastClose?, offset_nil, dif_neg (Nat.lt_irrefl _)]
    rfl
  | case2 c t body rest hspan ih =>
    rw [hspan] at ih
    rw [pastClose?, dif_pos (offset_lt h (List.cons_ne_nil _ _)), getElem_offset h, if_pos rfl,
      advance_offset h]
    exact ih (suffix_tail (suffix_tail h))
  | case3 t hne =>
    rw [pastClose?, dif_pos (offset_lt h (List.cons_ne_nil _ _)), getElem_offset h, if_neg hclose,
      if_pos rfl, offset_tail h]
    rfl
  | case4 c t hne hc body rest hspan ih =>
    rw [hspan] at ih
    rw [pastClose?, dif_pos (offset_lt h (List.cons_ne_nil _ _)), getElem_offset h]
    by_cases hback : c = '\\'
    · subst hback
      -- The backslash is the last character of the text.
      cases t with
      | nil =>
        cases hspan
        rw [if_pos rfl, advance_offset h, List.drop_succ_cons, List.drop_nil, pastClose?,
          offset_nil, dif_neg (Nat.lt_irrefl _)]
        rfl
      | cons d t => exact absurd rfl (hne d t rfl)
    · rw [if_neg hback, if_neg hc, offset_tail h]
      exact ih (suffix_tail h)

theorem pastComment?_offset (h : rest <:+ i.text) :
    i.pastComment? (i.offset rest) = (Lexeme.spanComment rest).2.map i.offset := by
  fun_induction Lexeme.spanComment rest with
  | case1 =>
    rw [pastComment?, offset_nil, dif_neg (Nat.lt_irrefl _)]
    rfl
  | case2 t =>
    rw [pastComment?, dif_pos (offset_lt h (List.cons_ne_nil _ _)), getElem_offset h,
      getElem?_offset_add h, if_pos ⟨rfl, rfl⟩, advance_offset h]
    rfl
  | case3 c t hne body rest hspan ih =>
    rw [hspan] at ih
    have hopen : ¬ (c = '*' ∧ i.text[i.offset (c :: t) + 1]? = some '/') := by
      rw [getElem?_offset_succ h, List.head?_eq_some_iff]
      rintro ⟨rfl, u, rfl⟩
      exact hne u rfl rfl
    rw [pastComment?, dif_pos (offset_lt h (List.cons_ne_nil _ _)), getElem_offset h,
      if_neg hopen, offset_tail h]
    exact ih (suffix_tail h)

theorem skipName_offset (h : rest <:+ i.text) :
    i.skipName (i.offset rest) = i.offset (Text.spanName rest).2 := by
  fun_induction Text.spanName rest with
  | case1 => rw [skipName, offset_nil, dif_neg (Nat.lt_irrefl _)]
  | case2 c t name rest hspan ih =>
    rw [hspan] at ih
    rw [skipName, dif_pos (offset_lt h (List.cons_ne_nil _ _)), getElem_offset h, if_pos rfl,
      advance_offset h]
    exact ih (suffix_tail (suffix_tail h))
  | case3 c t hne hc name rest hspan ih =>
    rw [hspan] at ih
    rw [skipName, dif_pos (offset_lt h (List.cons_ne_nil _ _)), getElem_offset h]
    by_cases hback : c = '\\'
    · subst hback
      cases t with
      | nil =>
        cases hspan
        rw [if_pos rfl, advance_offset h, List.drop_succ_cons, List.drop_nil, skipName, offset_nil,
          dif_neg (Nat.lt_irrefl _)]
      | cons d t => exact absurd rfl (hne d t rfl)
    · rw [if_neg hback, if_pos (hc.resolve_left hback), offset_tail h]
      exact ih (suffix_tail h)
  | case4 c t hne hc =>
    rw [not_or] at hc
    rw [skipName, dif_pos (offset_lt h (List.cons_ne_nil _ _)), getElem_offset h, if_neg hc.1,
      if_neg hc.2]

end Loops

section Skips

theorem skipLiteral_offset (hquote : isQuote c = true) (h : c :: t <:+ i.text) :
    i.skipLiteral c (i.offset (c :: t)) =
      match (Lexeme.spanLiteral c t).2 with
      | some rest => pure (i.offset rest)
      | none => throw (i.report ⟨.unclosedLiteral, c :: t⟩) := by
  rw [skipLiteral, offset_tail h,
    pastClose?_offset (Lexeme.ne_backslash_of_isQuote hquote) (suffix_tail h)]
  cases (Lexeme.spanLiteral c t).2 with
  | none => exact fail_offset .unclosedLiteral h (List.cons_ne_nil c t)
  | some rest => rfl

theorem skipComment_offset (h : '/' :: '*' :: t <:+ i.text) :
    i.skipComment (i.offset ('/' :: '*' :: t)) =
      match (Lexeme.spanComment t).2 with
      | some rest => pure (i.offset rest)
      | none => throw (i.report ⟨.unclosedComment, '/' :: '*' :: t⟩) := by
  rw [skipComment, advance_offset h, List.drop_succ_cons, List.drop_succ_cons, List.drop_zero,
    pastComment?_offset (suffix_tail (suffix_tail h))]
  cases (Lexeme.spanComment t).2 with
  | none => exact fail_offset .unclosedComment h (List.cons_ne_nil _ _)
  | some rest => rfl

theorem skipReference_offset {u r l : Char} (h : u :: r :: l :: '(' :: t <:+ i.text) :
    i.skipReference (i.offset (u :: r :: l :: '(' :: t)) =
      match Scan.afterReference t with
      | some rest => pure (i.offset rest)
      | none => throw (i.report ⟨.unclosedBracket, '(' :: t⟩) := by
  have hparen : '(' :: t <:+ i.text := suffix_tail (suffix_tail (suffix_tail h))
  have hmark : i.offset (u :: r :: l :: '(' :: t) + 3 = i.offset ('(' :: t) :=
    offset_add h (by simp)
  rw [skipReference, advance_offset h, Scan.afterReference_eq_spanLiteral, hmark]
  simp only [List.drop_succ_cons, List.drop_zero]
  rw [pastClose?_offset (by decide) (suffix_tail hparen)]
  cases (Lexeme.spanLiteral ')' t).2 with
  | none => exact fail_offset .unclosedBracket hparen (List.cons_ne_nil _ _)
  | some rest => rfl

end Skips

section References

def Agrees (i : Input) (afterIdent : Bool) (rest : Text) : Prop :=
  rest.head?.any isIdent = true → i.behindIdent (i.offset rest) = afterIdent

theorem behindIdent_offset (h : c :: rest <:+ i.text) :
    i.behindIdent (i.offset rest) = isIdent c := by
  rw [behindIdent, ← offset_tail h, Nat.add_sub_cancel, getElem?_offset h, List.head?_cons,
    Option.any_some, decide_eq_true (Nat.succ_pos _), Bool.true_and]

theorem agrees_behind (h : c :: rest <:+ i.text) : i.Agrees (isIdent c) rest :=
  fun _ => behindIdent_offset h

theorem agrees_of_not_ident {afterIdent : Bool} (h : rest.head?.any isIdent = false) :
    i.Agrees afterIdent rest := by
  intro hident
  rw [h] at hident
  cases hident

/-- A scan remembers whether the last character that it passed belongs to an identifier. -/
theorem last_of_passes {s s' : Scan.State} (h : Scan.Passes s c t s' rest) :
    ∃ u d, c :: t = u ++ d :: rest ∧ isIdent d = s'.afterIdent := by
  cases h with
  | reference hopens hafter =>
    obtain ⟨_, u, r, l, rest, he, _⟩ := Scan.opensReference_iff.1 hopens
    cases he
    obtain ⟨body, _, hbody⟩ := Scan.afterReference_eq_some_iff.1 hafter
    simp only [List.drop_succ_cons, List.drop_zero] at hbody
    exact ⟨c :: r :: l :: '(' :: body, ')', by rw [hbody]; simp, rfl⟩
  | @lexeme l _ _ hstarts hclosed =>
    have htext := Lexeme.text_append_of_starts hstarts
    cases l with
    | literal quote body closed =>
      obtain rfl : closed = true := by simpa [Lexeme.closed] using hclosed
      have hquote : isIdent quote = false := by
        cases hstarts with
        | literal _ hquote => rcases Lexeme.isQuote_iff.1 hquote with rfl | rfl <;> rfl
        | unclosed _ hopen => cases hopen
      exact ⟨quote :: body, quote, by rw [← htext]; simp [Lexeme.text], hquote⟩
    | comment body closed =>
      obtain rfl : closed = true := by simpa [Lexeme.closed] using hclosed
      exact ⟨'/' :: '*' :: (body ++ ['*']), '/', by rw [← htext]; simp [Lexeme.text], rfl⟩
    | escape d =>
      cases d with
      | none => exact ⟨[], '\\', htext.symm, rfl⟩
      | some d => exact ⟨['\\'], d, htext.symm, rfl⟩
    | plain d =>
      refine ⟨[], d, htext.symm, ?_⟩
      simp only [Scan.State.past]
      split_ifs with hround hsquare hclose
      · subst hround
        rfl
      · subst hsquare
        rfl
      · rcases hclose with rfl | rfl <;> rfl
      · rfl

theorem agrees_of_passes {s s' : Scan.State} (ht : c :: t <:+ i.text)
    (h : Scan.Passes s c t s' rest) : i.Agrees s'.afterIdent rest := by
  obtain ⟨u, d, he, hd⟩ := last_of_passes h
  rw [he] at ht
  rw [← hd]
  exact agrees_behind ((List.suffix_append u (d :: rest)).trans ht)

theorem opensReference_offset {afterIdent : Bool} (h : c :: t <:+ i.text)
    (hagrees : i.Agrees afterIdent (c :: t)) :
    i.opensReference (i.offset (c :: t)) = Scan.opensReference afterIdent (c :: t) := by
  rw [opensReference, Scan.opensReference, drop_offset h, Bool.and_comm (!afterIdent)]
  cases hname : Text.startsIgnoringCase "url(" (c :: t) with
  | false => rfl
  | true =>
    obtain ⟨u, r, l, rest, he, hu, -, -⟩ := Scan.startsIgnoringCase_url_iff.1 hname
    cases he
    have hident : isIdent c = true := by
      have halpha : c.isAlpha = true := by
        rw [← Char.isAlpha_toLower_eq_isAlpha, hu]
        rfl
      change (((c.isAlpha || c.isDigit) || c == '-') || c == '_' || decide (128 ≤ c.toNat)) = true
      rw [halpha]
      rfl
    have hfour : i.offset (c :: r :: l :: '(' :: rest) + 4 = i.offset rest := offset_add h (by simp)
    have hrest : rest <:+ i.text := suffix_tail (suffix_tail (suffix_tail (suffix_tail h)))
    have hblanks : Text.skipBlanks rest <:+ i.text := (List.dropWhile_suffix _).trans hrest
    rw [hagrees hident, hfour, skipBlanks_offset hrest, getElem?_offset hblanks]
    rfl

end References

section Scan

def indexed (i : Input) (brackets : List (Char × Text)) : List (Char × Nat) :=
  brackets.map fun (closer, mark) => (closer, i.offset mark)

theorem indexed_closeBracket (c : Char) (brackets : List (Char × Text)) :
    closeBracket c (i.indexed brackets) = i.indexed (Scan.closeBracket c brackets) := by
  cases brackets with
  | nil => rfl
  | cons b brackets =>
    simp only [indexed, List.map_cons, closeBracket, Scan.closeBracket]
    split <;> rfl

theorem isEmpty_indexed (brackets : List (Char × Text)) :
    (i.indexed brackets).isEmpty = brackets.isEmpty := List.isEmpty_map

/-- A checked scan reads the next lexeme or reference as the scan does. -/
theorem pass_offset {s : Scan.State} (h : c :: t <:+ i.text)
    (hagrees : i.Agrees s.afterIdent (c :: t)) :
    i.pass c (i.offset (c :: t)) (i.indexed s.brackets) =
      ofExcept (i.result (fun (s', rest) => (i.indexed s'.brackets, i.offset rest))
        (s.read c t)) := by
  unfold pass Scan.State.read
  rw [getElem?_offset_succ h, opensReference_offset h hagrees]
  by_cases hquote : isQuote c = true
  · rw [if_pos hquote, skipLiteral_offset hquote h, Lexeme.first_of_isQuote hquote,
      Scan.opensReference_ne (Scan.not_u_of_isQuote hquote), if_neg Bool.false_ne_true]
    cases (Lexeme.spanLiteral c t).2 <;> rfl
  rw [if_neg hquote]
  by_cases hcomment : c = '/' ∧ t.head? = some '*'
  · obtain ⟨rfl, hstar⟩ := hcomment
    obtain ⟨t, rfl⟩ := List.head?_eq_some_iff.1 hstar
    rw [if_pos ⟨rfl, hstar⟩, skipComment_offset h, Lexeme.first_slash_star,
      Scan.opensReference_ne (by decide), if_neg Bool.false_ne_true]
    cases (Lexeme.spanComment t).2 <;> rfl
  rw [if_neg hcomment]
  by_cases hback : c = '\\'
  · subst hback
    rw [if_pos rfl, Scan.opensReference_ne (by decide), if_neg Bool.false_ne_true,
      advance_offset h]
    cases t <;> rfl
  rw [if_neg hback]
  cases hopens : Scan.opensReference s.afterIdent (c :: t) with
  | true =>
    obtain ⟨_, u, r, l, rest, he, hu, _⟩ := Scan.opensReference_iff.1 hopens
    cases he
    have hne : ∀ d : Char, d.toLower ≠ 'u' → c ≠ d := by
      rintro d hd rfl
      exact hd hu
    rw [if_neg (hne '(' (by decide)), if_neg (hne '[' (by decide)),
      if_neg (not_or.2 ⟨hne ')' (by decide), hne ']' (by decide)⟩), if_pos rfl, if_pos rfl,
      skipReference_offset h]
    simp only [List.drop_succ_cons, List.drop_zero]
    cases Scan.afterReference rest <;> rfl
  | false =>
    have hstarts : Lexeme.Starts c t (.plain c) t :=
      .plain (by simpa using hquote) hback fun hslash hstar => hcomment ⟨hslash, hstar⟩
    rw [if_neg Bool.false_ne_true, if_neg Bool.false_ne_true, Lexeme.first_eq_of_starts hstarts,
      offset_tail h, indexed_closeBracket]
    simp only
    split_ifs <;> rfl

/-- What is left of the text after a scan; nothing where it fails. -/
def left : Except Fault Text → Nat
  | .ok rest => rest.length
  | .error _ => 0

theorem left_toStop_le (s : Scan.State) (rest : Text) :
    left (Scan.toStop s rest) ≤ rest.length := by
  cases hstop : Scan.toStop s rest with
  | ok stop => exact Scan.toStop_length_le hstop
  | error f => exact Nat.zero_le _

/-- A checked scan ends as the scan does. It takes one step for each lexeme or reference and one
for the stop. -/
theorem yields_scan {s : Scan.State} (h : rest <:+ i.text)
    (hagrees : i.Agrees s.afterIdent rest) (hbrackets : Scan.BracketsIn s.brackets i.text) :
    Yields (i.scan (i.offset rest) (i.indexed s.brackets)) (i.result i.offset (Scan.toStop s rest))
      (rest.length - left (Scan.toStop s rest) + 1) := by
  fun_induction Scan.toStop s rest with
  | case1 s hb =>
    rw [scan, getElem?_offset h, hb]
    exact (yields_pure _).tick
  | case2 s closer mark b hb =>
    obtain ⟨hmark, c, t, he, -⟩ := hbrackets (closer, mark) (hb ▸ List.mem_cons_self)
    have hne : mark ≠ [] := by
      rintro rfl
      cases he
    rw [scan, getElem?_offset h, hb]
    simp only [List.head?_nil, indexed, List.map_cons, List.head?_cons, fail_offset _ hmark hne]
    exact (yields_throw _).tick
  | case3 s c t hstop =>
    rw [scan, getElem?_offset h]
    simp only [List.head?_cons, isEmpty_indexed, hstop, if_true]
    exact ((yields_pure _).tick).mono (by omega)
  | case4 s c t hstop f hread =>
    rw [scan, getElem?_offset h]
    simp only [List.head?_cons, isEmpty_indexed, hstop, pass_offset h hagrees, hread]
    exact ((yields_throw _).tick).mono (by omega)
  | case5 s c t hstop s' rest hread hle ih =>
    have hpasses := Scan.passes_of_read hread
    have hrest : rest <:+ i.text := (Scan.suffix_of_passes hpasses).trans (suffix_tail h)
    have hmove := move_offset h (show rest.length < (c :: t).length from Nat.lt_succ_of_le hle)
    have hleft := left_toStop_le s' rest
    have hlater := ih hrest (agrees_of_passes h hpasses)
      (Scan.bracketsIn_of_passes h hbrackets hpasses)
    rw [scan, getElem?_offset h]
    simp only [List.head?_cons, isEmpty_indexed, hstop, pass_offset h hagrees, hread]
    refine (Yields.tick ?_).mono (?_ : (rest.length - left (Scan.toStop s' rest) + 1) + 1 ≤ _)
    · simp only [Bool.false_eq_true, if_false, result, ofExcept, pure_bind, hmove]
      exact hlater
    · rw [List.length_cons]
      omega

end Scan

end Stylesmith.Cursor.Input
