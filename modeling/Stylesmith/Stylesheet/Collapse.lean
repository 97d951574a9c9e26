import Stylesmith.Stylesheet.Lexeme

/-!
# Collapsed texts

Selectors, preludes and values are stored collapsed: without comments, without blanks at the ends,
and with single spaces for runs of blanks. Literals and escapes stay as they are. A text is split
at a separator only outside literals, comments, parentheses and brackets.
-/

set_option autoImplicit false

namespace Stylesmith

namespace Lexeme

/-- The collapsed text of some lexemes. A comment counts as a blank if `spaced`, else as nothing.
`started` says that text was written before, and `gap` that blanks were read since. -/
def collapse (spaced started gap : Bool) : List Lexeme → Text
  | [] => []
  | comment _ _ :: ls => collapse spaced started (gap || spaced) ls
  | plain c :: ls =>
    if Text.isBlank c then collapse spaced started true ls
    else (if started && gap then [' '] else []) ++ c :: collapse spaced true false ls
  | l :: ls => (if started && gap then [' '] else []) ++ l.text ++ collapse spaced true false ls

/-- The bracket depth after a character. Any closing bracket closes any opening one. -/
def deepen (depth : Nat) (c : Char) : Nat :=
  if c = '(' ∨ c = '[' then depth + 1
  else if c = ')' ∨ c = ']' then depth - 1
  else depth

/-- The texts between the separators that stand outside all brackets. -/
def split (sep : Char) (depth : Nat) : List Lexeme → List Text
  | [] => [[]]
  | plain c :: ls =>
    if c = sep ∧ depth = 0 then [] :: split sep depth ls
    else glue [c] (split sep (deepen depth c) ls)
  | l :: ls => glue l.text (split sep depth ls)
where
  glue (t : Text) : List Text → List Text
    | [] => [t]
    | part :: parts => (t ++ part) :: parts

def cut? (sep : Char) (depth : Nat) : List Lexeme → Option (Text × Text)
  | [] => none
  | plain c :: ls =>
    if c = sep ∧ depth = 0 then some ([], ls.flatMap text)
    else (cut? sep (deepen depth c) ls).map fun (a, b) => (c :: a, b)
  | l :: ls => (cut? sep depth ls).map fun (a, b) => (l.text ++ a, b)

end Lexeme

namespace Text

/-- The collapsed text in which a comment leaves nothing, as in selectors and property names. -/
def collapse (t : Text) : Text := Lexeme.collapse false false false (Lexeme.ofText t)

/-- The collapsed text in which a comment counts as a blank, as in preludes and values. -/
def collapseSpaced (t : Text) : Text := Lexeme.collapse true false false (Lexeme.ofText t)

def splitTop (sep : Char) (t : Text) : List Text :=
  (Lexeme.split sep 0 (Lexeme.ofText t)).map trim

def cutTop? (sep : Char) (t : Text) : Option (Text × Text) :=
  Lexeme.cut? sep 0 (Lexeme.ofText t)

end Text

end Stylesmith
