import Stylesmith.Text.Basic

set_option autoImplicit false

namespace Stylesmith

/-- A line and a column, both counted from one. -/
structure Position where
  line : Nat
  column : Nat
  deriving DecidableEq, Repr

namespace Position

def first : Position := ⟨1, 1⟩

def lt (p q : Position) : Prop := p.line < q.line ∨ p.line = q.line ∧ p.column < q.column

/-- Whether a line ends with `c` when `next` is the character after it. -/
def endsLine (c : Char) (next : Option Char) : Bool :=
  c == '\n' || c == '\x0c' || (c == '\r' && next != some '\n')

def past (p : Position) (c : Char) (next : Option Char) : Position :=
  if endsLine c next then ⟨p.line + 1, 1⟩ else ⟨p.line, p.column + 1⟩

def after (p : Position) : (t : Text) → (next : Option Char) → Position
  | [], _ => p
  | c :: t, next => after (p.past c (t.head?.or next)) t next

/-- The position in `t` at which its suffix `rest` starts. -/
def ofSuffix (t rest : Text) : Position := first.after (t.before rest) rest.head?

theorem after_append (p : Position) (a b : Text) (next : Option Char) :
    p.after (a ++ b) next = (p.after a (b.head?.or next)).after b next := by
  induction a generalizing p with
  | nil => rfl
  | cons c a ih => simp [after, ih, List.head?_append, Option.or_assoc]

end Position

namespace Text

def lines : Text → List Text
  | [] => [[]]
  | c :: t =>
    if Position.endsLine c t.head? then [] :: lines t
    else if c = '\r' then lines t
    else match lines t with
      | [] => [[c]]
      | l :: ls => (c :: l) :: ls

/-- The text with a line feed in place of each other character that ends a line by itself. -/
def withLineFeeds : Text → Text
  | [] => []
  | c :: t => (if Position.endsLine c t.head? then '\n' else c) :: withLineFeeds t

/-- The suffix of a text that starts after its first `n` line ends. -/
def dropLines : Nat → Text → Text
  | 0, t => t
  | _ + 1, [] => []
  | n + 1, c :: t => if Position.endsLine c t.head? then dropLines n t else dropLines (n + 1) t

/-- The suffix that starts at a position: the line is cut to the lines of the text and the column
to the line without what ends it. -/
def suffixAt (t : Text) (p : Position) : Text :=
  let ls := t.lines
  let line := min (max p.line 1) ls.length
  (dropLines (line - 1) t).drop (min (p.column - 1) (ls[line - 1]?.getD []).length)

/-- A column counted from zero in UTF-16 code units, for a column of characters counted from one.
A line that the text does not have counts as if each of its characters were one unit. -/
def column16 (lines : Array Text) (p : Position) : Nat :=
  match p.line with
  | 0 => p.column - 1
  | n + 1 =>
    match lines[n]? with
    | some content => units16 (content.take (p.column - 1))
    | none => p.column - 1

end Text

end Stylesmith
