import Stylesmith.Stylesheet.SyntaxError
import Stylesmith.Text.Blank
import Stylesmith.Text.Fill

set_option autoImplicit false

namespace Stylesmith.Excerpt

def tabStop : Nat := 4

def contextLines : Nat := 2

def titleWidth : Nat := 198

structure Gauge where
  column : Nat
  /-- Inside an escape sequence of a terminal, which lasts until the letter `m`. -/
  escaped : Bool

def Gauge.start : Gauge := ⟨0, false⟩

def Gauge.width (g : Gauge) (c : Char) : Nat :=
  if g.escaped then 0
  else if c == '\t' then tabStop - g.column % tabStop
  else Text.charWidth c

def Gauge.next (g : Gauge) (c : Char) : Gauge where
  column := g.column + g.width c
  escaped := if g.escaped then c != 'm' else c == Text.escape

def columns (t : Text) : Nat := (t.foldl Gauge.next Gauge.start).column

def expandTabs (line : Text) : Text := go .start line
where
  go (g : Gauge) : Text → Text
    | [] => []
    | c :: t =>
      (if c = '\t' then List.replicate (g.width c) ' ' else [c]) ++ go (g.next c) t

def padded (width n : Nat) : Text :=
  let digits : Text := Nat.repr n
  List.replicate (width - digits.length) ' ' ++ digits

def title (message : Text) : Text :=
  let lead (i : Nat) : Text := if i = 0 then "  x " else "  | "
  let lines := (Text.splitOn '\n' message).flatMap (Text.fill (titleWidth - (lead 0).length))
  lines.zipIdx.flatMap fun ((line, i) : Text × Nat) => lead i ++ line ++ ['\n']

def labelLines (label : Text) : List Text :=
  match Text.splitOn '\n' label with
  | [part] => ["`-- " ++ part]
  | first :: rest => ("`-| " ++ first) :: rest.map ("  | " ++ ·)
  | [] => []

structure Spot where
  ahead : Text
  marked : Option Char

def Spot.atEnd (s : Spot) : Bool :=
  match s.marked with
  | none => true
  | some c => c == '\n' || c == '\r' || c == '\x0c'

def Spot.underline (s : Spot) (label : Text) : List Text :=
  match s.marked with
  | none => []
  | some c =>
    let start := columns s.ahead
    let stop := max (start + 1) (if s.atEnd then start + 1 else columns (s.ahead ++ [c]))
    let bar := (start + stop) / 2
    let marks := List.replicate start ' ' ++ List.replicate (bar - start) '^' ++ ['|'] ++
      List.replicate (stop - bar - 1) '^'
    marks :: (labelLines label).map (List.replicate bar ' ' ++ ·)

def body (lines : List Text) (line : Nat) (s : Spot) (label : Text) : Nat × Text :=
  let skipped := line - contextLines
  -- Beside a marked line end one more line is shown.
  let shown := line - skipped + 1 + contextLines + (if s.marked.isSome && s.atEnd then 1 else 0)
  let kept := (lines.drop skipped).take shown
  let width := (Nat.repr (if kept.isEmpty then 0 else skipped + kept.length)).length
  let blank := List.replicate (width + 2) ' '
  let text := (kept.zipIdx skipped).flatMap fun ((l, i) : Text × Nat) =>
    ' ' :: padded width (i + 1) ++ [' ', '|', ' '] ++ expandTabs l ++ ['\n'] ++
      (if i = line then (s.underline label).flatMap fun (u : Text) => blank ++ [':', ' '] ++ u ++ ['\n']
      else [])
  (width, text)

end Excerpt

def SyntaxError.excerpt (e : SyntaxError) : Text :=
  let at' := Position.ofSuffix e.text e.marked
  let lines := e.shown.lines
  let lines := if lines.getLast? = some [] then lines.dropLast else lines
  let content := e.shown.lines[at'.line - 1]?.getD []
  let spot : Excerpt.Spot := ⟨content.take (at'.column - 1), e.marked.head?⟩
  let (width, body) := Excerpt.body lines (at'.line - 1) spot e.reason
  let blank := List.replicate (width + 2) ' '
  let code : Text := "mortar::css::syntax_error\n\n"
  Text.trimEnd (code ++ Excerpt.title e.message ++
    blank ++ ",-[" ++ e.file ++ ":" ++ (Nat.repr at'.line : Text) ++ ":" ++
    (Nat.repr (Text.bytes spot.ahead + 1) : Text) ++ "]\n" ++ body ++ blank ++ "`----")

end Stylesmith
