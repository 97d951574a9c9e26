import Stylesmith.Minify.Numeral
import Stylesmith.Stylesheet.Lexeme

set_option autoImplicit false

namespace Stylesmith.Value

open Lexeme (isIdent isQuote)

/-- Units that a zero may lose. -/
def lengthUnits : List Text :=
  ["px", "em", "rem", "ex", "ch", "vw", "vh", "vmin", "vmax", "cm", "mm", "in", "pt", "pc", "q"]

/-- Properties for which a zero without a unit means something else. -/
def unitKeepers : List Text := ["flex", "flex-basis", "-webkit-flex", "-ms-flex"]

inductive Piece where
  /-- A literal, a reference or an escape. -/
  | verbatim (t : Text)
  | hash (digits : Text)
  | number (numeral unit : Text)
  | plain (c : Char)
  deriving DecidableEq, Repr

def spanLiteral (quote : Char) (t : Text) : Text × Text :=
  match Lexeme.spanLiteral quote t with
  | (body, some rest) => (body ++ [quote], rest)
  | (body, none) => (body, [])

/-- A text through the first closing parenthesis outside literals and escapes, and what follows
it. `quote` is the quote of the literal that the text starts in. -/
def spanReference (quote : Option Char) : Text → Text × Text
  | [] => ([], [])
  | '\\' :: c :: t =>
    let (body, rest) := spanReference quote t
    ('\\' :: c :: body, rest)
  | c :: t =>
    match quote with
    | some q =>
      let (body, rest) := spanReference (if c = q then none else some q) t
      (c :: body, rest)
    | none =>
      if c = ')' then ([c], t)
      else
        let (body, rest) := spanReference (if isQuote c then some c else none) t
        (c :: body, rest)

def spanUnit (t : Text) : Text × Text :=
  match t with
  | '%' :: rest => (['%'], rest)
  | _ => (t.takeWhile isIdent, t.dropWhile isIdent)

def opensReference (last : Option Char) (t : Text) : Bool :=
  Text.startsIgnoringCase "url(" t && !last.any isIdent

def opensNumber (last : Option Char) (t : Text) : Bool :=
  !last.any (fun c => isIdent c || c == '.' || c == '#') && Numeral.starts t

def first (last : Option Char) (c : Char) (t : Text) : Piece × Text :=
  if isQuote c then (.verbatim (c :: (spanLiteral c t).1), (spanLiteral c t).2)
  else if c = ' ' ∨ c = '(' ∨ c = ')' then (.plain c, t)
  else if c = '#' then (.hash (t.takeWhile Char.isAlphanum), t.dropWhile Char.isAlphanum)
  else if c = '\\' then (.verbatim (c :: t.take 1), t.drop 1)
  else if opensReference last (c :: t) then
    (.verbatim (c :: (spanReference none t).1), (spanReference none t).2)
  else if opensNumber last (c :: t) then
    let (numeral, afterNumeral) := Numeral.span (c :: t)
    (.number numeral (spanUnit afterNumeral).1, (spanUnit afterNumeral).2)
  else (.plain c, t)

def isHexDigit (c : Char) : Bool :=
  c.isDigit || ('a' ≤ c && c ≤ 'f') || ('A' ≤ c && c ≤ 'F')

/-- The first of each two digits when both are the same for all. -/
def halve? : Text → Option Text
  | [] => some []
  | a :: b :: t => if a = b then (halve? t).map (a :: ·) else none
  | [_] => none

/-- A color in lower case, with one digit a channel where that says the same. -/
def shortenHash (digits : Text) : Text :=
  let n := digits.length
  if (n = 3 ∨ n = 4 ∨ n = 6 ∨ n = 8) ∧ digits.all isHexDigit then
    let lower := Text.lowerAscii digits
    if n = 6 ∨ n = 8 then (halve? lower).getD lower else lower
  else digits

def dropsSpace (last next : Option Char) : Bool :=
  last.any (fun c => c == ',' || c == '/' || c == '(') ||
    next.any (fun c => c == ',' || c == '/' || c == ')')

/-- The text that a piece is compacted to, after `last` and before `next`; `bare` says that a zero
may lose its unit here. -/
def Piece.compact (bare : Bool) (last next : Option Char) : Piece → Text
  | verbatim t => t
  | hash digits => '#' :: shortenHash digits
  | number numeral unit =>
    let short := Numeral.shorten numeral
    if bare && short == ['0'] && lengthUnits.contains (Text.lowerAscii unit) then short
    else short ++ unit
  | plain c => if c = ' ' ∧ dropsSpace last next then [] else [c]

def Piece.deepen (depth : Nat) : Piece → Nat
  | plain c => if c = '(' then depth + 1 else if c = ')' then depth - 1 else depth
  | _ => depth

theorem spanReference_length_le (quote : Option Char) (t : Text) :
    (spanReference quote t).2.length ≤ t.length := by
  fun_induction spanReference quote t <;> simp_all <;> omega

theorem spanLiteral_length_le (quote : Char) (t : Text) : (spanLiteral quote t).2.length ≤ t.length := by
  have h := congrArg List.length (Lexeme.spanLiteral_text quote t)
  unfold spanLiteral
  split <;> rename_i heq <;> rw [heq] at h <;> simp at h ⊢
  omega

theorem spanUnit_length_le (t : Text) : (spanUnit t).2.length ≤ t.length := by
  unfold spanUnit
  split
  · simp
  · exact (List.dropWhile_sublist _).length_le

theorem first_length_le (last : Option Char) (c : Char) (t : Text) :
    (first last c t).2.length ≤ t.length := by
  unfold first
  split
  · exact spanLiteral_length_le c t
  split
  · exact Nat.le_refl _
  split
  · exact (List.dropWhile_sublist _).length_le
  split
  · simp
  split
  · exact spanReference_length_le none t
  split
  · rename_i h
    simp only [opensNumber, Bool.and_eq_true] at h
    have := Numeral.span_length_lt h.2
    have := spanUnit_length_le (Numeral.span (c :: t)).2
    simp only [List.length_cons] at *
    omega
  · exact Nat.le_refl _

/-- Compacts a value from some piece on: `last` is the last character written, and `depth` the
number of open parentheses. -/
def compactFrom (keepUnit : Bool) (depth : Nat) (last : Option Char) : Text → Text
  | [] => []
  | c :: t =>
    let piece := (first last c t).1
    let out := piece.compact (!keepUnit && depth == 0) last (first last c t).2.head?
    out ++ compactFrom keepUnit (piece.deepen depth) (out.getLast?.or last) (first last c t).2
termination_by t => t.length
decreasing_by simpa using Nat.lt_succ_of_le (first_length_le last c t)

def compact (property value : Text) : Text :=
  let property := Text.lowerAscii property
  if property = "unicode-range" then value
  else compactFrom (unitKeepers.contains property) 0 none value

end Stylesmith.Value
