import Stylesmith.Text.Position

set_option autoImplicit false

namespace Stylesmith

inductive SyntaxError.Cause where
  | unclosedBlock
  | unclosedLiteral
  | unclosedComment
  | unclosedBracket
  | unexpectedBrace
  | unknownWord
  | missingSelector
  | missingProperty
  | missingName
  | other (reason : Text)
  deriving DecidableEq, Repr

def SyntaxError.Cause.reason : SyntaxError.Cause → Text
  | unclosedBlock => "Unclosed block"
  | unclosedLiteral => "Unclosed string"
  | unclosedComment => "Unclosed comment"
  | unclosedBracket => "Unclosed bracket"
  | unexpectedBrace => "Unexpected \x7d"
  | unknownWord => "Unknown word"
  | missingSelector => "Missing selector"
  | missingProperty => "Missing property name"
  | missingName => "At-rule without name"
  | other reason => reason

/-- A cause with the rest of the text from the offending character on. -/
structure Fault where
  cause : SyntaxError.Cause
  mark : Text
  deriving DecidableEq, Repr

structure SyntaxError where
  file : Text
  text : Text
  position : Position
  cause : SyntaxError.Cause
  deriving DecidableEq, Repr

namespace SyntaxError

def ofFault (file text : Text) (f : Fault) : SyntaxError :=
  ⟨file, text, Position.ofSuffix text f.mark, f.cause⟩

def reason (e : SyntaxError) : Text := e.cause.reason

/-- The text from the marked character on. A position that the text does not have is cut to it. -/
def marked (e : SyntaxError) : Text := e.text.suffixAt e.position

def span (e : SyntaxError) : Nat × Nat :=
  (Text.bytes (e.text.before e.marked), (e.marked.head?.map Char.utf8Size).getD 0)

/-- The text as excerpts show it, with the same offsets. -/
def shown (e : SyntaxError) : Text := e.text.withLineFeeds

def message (e : SyntaxError) : Text :=
  e.file ++ ":" ++ (Nat.repr e.position.line : Text) ++ ":" ++ (Nat.repr e.position.column : Text) ++
    ": " ++ e.reason

end SyntaxError

end Stylesmith
