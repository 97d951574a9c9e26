import Stylesmith.Stylesheet.Excerpt

set_option autoImplicit false

namespace Stylesmith

structure FragmentError where
  message : Text
  line : Option Nat
  column : Option Nat
  excerpt : Option Text
  deriving DecidableEq, Repr

namespace FragmentError

def plain (message : Text) : FragmentError := ⟨message, none, none, none⟩

/-- An error of syntax. The message holds the excerpt, since hosts often show nothing else. -/
def ofSyntax (message : Text) (line column : Option Nat) (excerpt : Option Text) : FragmentError :=
  let whole :=
    match excerpt with
    | some (c :: rest) => message ++ ("\n\nCss Syntax Error\n\n" : Text) ++ c :: rest
    | _ => message
  ⟨whole, line, column, excerpt⟩

def ofSyntaxError (e : SyntaxError) : FragmentError :=
  ofSyntax e.reason (some e.position.line) (some e.position.column) (some e.excerpt)

def text (e : FragmentError) : Text :=
  match e.line, e.column with
  | some line, some column =>
    (Nat.repr line : Text) ++ ':' :: (Nat.repr column).toList ++ (": " : Text) ++ e.message
  | some line, none => (Nat.repr line : Text) ++ (": " : Text) ++ e.message
  | none, _ => e.message

end FragmentError

end Stylesmith
