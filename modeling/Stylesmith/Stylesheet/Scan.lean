import Stylesmith.Stylesheet.Lexeme
import Stylesmith.Stylesheet.SyntaxError

/-!
# Scanning

A scan moves to the next brace or semicolon outside literals, comments, brackets and unquoted
references. It returns the rest of the text, which is a suffix of the text that it was given.
-/

set_option autoImplicit false

namespace Stylesmith.Scan

open Lexeme (isIdent isQuote)

/-- The characters that end a scan. -/
def isStop (c : Char) : Bool := c == '{' || c == ';' || c == '}'

/-- Whether an unquoted reference starts here. The name `url` must not continue an identifier,
and the first character inside the parenthesis must not be a quote. -/
def opensReference (afterIdent : Bool) (t : Text) : Bool :=
  !afterIdent && Text.startsIgnoringCase "url(" t &&
    !((Text.skipBlanks (t.drop 4)).head?.any isQuote)

def afterReference : Text → Option Text
  | [] => none
  | '\\' :: _ :: t => afterReference t
  | c :: t => if c = ')' then some t else afterReference t

/-- What a closing bracket leaves of the open ones: it closes the innermost one of its kind only. -/
def closeBracket (c : Char) : List (Char × Text) → List (Char × Text)
  | [] => []
  | (closer, mark) :: open' => if closer = c then open' else (closer, mark) :: open'

theorem afterReference_length_lt {t rest : Text} (h : afterReference t = some rest) :
    rest.length < t.length := by
  fun_induction afterReference t with
  | case1 => simp at h
  | case2 _ t ih =>
    have := ih h
    simp only [List.length_cons]
    omega
  | case3 =>
    cases h
    simp
  | case4 _ _ _ _ ih =>
    have := ih h
    simp only [List.length_cons]
    omega

structure State where
  /-- Whether the last character belongs to an identifier. -/
  afterIdent : Bool
  /-- The open brackets, innermost first: what closes each, and the text from it on. -/
  brackets : List (Char × Text)

/-- Reads one lexeme or one unquoted reference of the text `c :: t`. -/
def State.read (s : State) (c : Char) (t : Text) : Except Fault (State × Text) :=
  if opensReference s.afterIdent (c :: t) then
    match afterReference (t.drop 3) with
    | none => .error ⟨.unclosedBracket, t.drop 2⟩
    | some rest => .ok (⟨false, s.brackets⟩, rest)
  else
    match Lexeme.first c t with
    | (.literal _ _ true, rest) => .ok (⟨false, s.brackets⟩, rest)
    | (.literal _ _ false, _) => .error ⟨.unclosedLiteral, c :: t⟩
    | (.comment _ true, rest) => .ok (⟨false, s.brackets⟩, rest)
    | (.comment _ false, _) => .error ⟨.unclosedComment, c :: t⟩
    | (.escape d, rest) => .ok (⟨d.any isIdent, s.brackets⟩, rest)
    | (.plain c, rest) =>
      if c = '(' then .ok (⟨false, (')', c :: t) :: s.brackets⟩, rest)
      else if c = '[' then .ok (⟨false, (']', c :: t) :: s.brackets⟩, rest)
      else if c = ')' ∨ c = ']' then .ok (⟨false, closeBracket c s.brackets⟩, rest)
      else .ok (⟨isIdent c, s.brackets⟩, rest)

theorem State.read_length_le {s s' : State} {c : Char} {t rest : Text}
    (h : s.read c t = .ok (s', rest)) : rest.length ≤ t.length := by
  unfold read at h
  split at h
  · split at h
    · cases h
    · rename_i hr
      cases h
      have := afterReference_length_lt hr
      rw [List.length_drop] at this
      omega
  · have hl := Lexeme.first_length_le c t
    split at h <;> rename_i hr <;> rw [hr] at hl
    iterate 5 (first | (cases h; exact hl) | cases h)
    split at h
    · cases h; exact hl
    · split at h
      · cases h; exact hl
      · split at h <;> (cases h; exact hl)

def toStop (s : State) : Text → Except Fault Text
  | [] =>
    match s.brackets with
    | [] => .ok []
    | (_, mark) :: _ => .error ⟨.unclosedBracket, mark⟩
  | c :: t =>
    if s.brackets.isEmpty && isStop c then .ok (c :: t)
    else
      match h : s.read c t with
      | .error f => .error f
      | .ok (s', rest) =>
        have := State.read_length_le h
        toStop s' rest
termination_by t => t.length
decreasing_by simpa using Nat.lt_succ_of_le this

theorem toStop_length_le {s : State} {t rest : Text} (h : toStop s t = .ok rest) :
    rest.length ≤ t.length := by
  fun_induction toStop s t with
  | case1 => cases h; simp
  | case2 => cases h
  | case3 => cases h; simp
  | case4 => cases h
  | case5 _ _ _ _ _ _ _ this ih =>
    have := ih h
    rw [List.length_cons]
    omega

theorem toStop_length_le_tail {s : State} {c : Char} {t rest : Text} (hc : isStop c = false)
    (h : toStop s (c :: t) = .ok rest) : rest.length ≤ t.length := by
  rw [toStop] at h
  simp only [hc, Bool.and_false, Bool.false_eq_true, if_false] at h
  split at h
  · cases h
  · have := State.read_length_le ‹_›
    have := toStop_length_le h
    omega

theorem isStop_of_toStop {s : State} {c : Char} {t rest : Text} (h : toStop s t = .ok (c :: rest)) :
    isStop c = true := by
  fun_induction toStop s t with
  | case1 => cases h
  | case2 => cases h
  | case3 _ _ _ hc =>
    cases h
    simp only [Bool.and_eq_true] at hc
    exact hc.2
  | case4 => cases h
  | case5 _ _ _ _ _ _ _ _ ih => exact ih h

end Stylesmith.Scan
