import Stylesmith.Stylesheet.Collapse

set_option autoImplicit false

namespace Stylesmith

/-- The characters of a text, each with whether it belongs to a literal. `quote` is the quote of
the literal that the text starts in. -/
def Text.markLiterals (quote : Option Char) : Text → List (Char × Bool)
  | [] => []
  | '\\' :: d :: t =>
    if quote.isSome then ('\\', true) :: (d, true) :: markLiterals quote t
    else ('\\', false) :: markLiterals none (d :: t)
  | c :: t =>
    match quote with
    | some q => (c, true) :: markLiterals (if c = q then none else some q) t
    | none =>
      if Lexeme.isQuote c then (c, true) :: markLiterals (some c) t
      else (c, false) :: markLiterals none t

theorem Text.map_fst_markLiterals (quote : Option Char) (t : Text) :
    (markLiterals quote t).map (·.1) = t := by
  fun_induction markLiterals quote t <;> simp_all

namespace Selector

def joins (depth : Nat) (c : Char) : Bool :=
  c == ',' || (depth == 0 && (c == '>' || c == '+' || c == '~')) ||
    (depth != 0 && (c == '(' || c == ')'))

/-- Compacts the rest of a selector: `last` is the last character written. -/
def compactFrom (depth : Nat) (last : Option Char) : List (Char × Bool) → Text
  | [] => []
  | (c, inLiteral) :: rest =>
    if inLiteral then c :: compactFrom depth (some c) rest
    else if c = ' ' then
      if last.any (joins depth) || (rest.head?.map (·.1)).any (joins depth) then
        compactFrom depth last rest
      else c :: compactFrom depth (some c) rest
    else c :: compactFrom (Lexeme.deepen depth c) (some c) rest

def compact (selector : Text) : Text := compactFrom 0 none (Text.markLiterals none selector)

end Selector

namespace Prelude

def deepen (depth : Nat) (c : Char) : Nat :=
  if c = '(' then depth + 1 else if c = ')' then depth - 1 else depth

def dropsSpace (depth : Nat) (last next : Option Char) : Bool :=
  last == some ',' || next == some ',' ||
    (depth != 0 && (last == some ':' || last == some '(' || next == some ')'))

def compactFrom (depth : Nat) (last : Option Char) : List (Char × Bool) → Text
  | [] => []
  | (c, inLiteral) :: rest =>
    if inLiteral then c :: compactFrom depth (some c) rest
    else if c = ' ' then
      if dropsSpace depth last (rest.head?.map (·.1)) then compactFrom depth last rest
      else c :: compactFrom depth (some c) rest
    else c :: compactFrom (deepen depth c) (some c) rest

/-- The prelude without the spaces beside commas and, in parentheses, after colons. -/
def compact (prelude : Text) : Text := compactFrom 0 none (Text.markLiterals none prelude)

end Prelude

end Stylesmith
