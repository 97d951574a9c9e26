import Stylesmith.Text.Alphanumeric
import Stylesmith.Text.Blank
import Stylesmith.Text.LineBreak
import Stylesmith.Text.Width

set_option autoImplicit false

namespace Stylesmith.Text

def escape : Char := '\x1b'

/-- What follows the end of a command to the operating system of a terminal: the bell, or an escape
with a backslash. `last` is the character before. -/
def afterTerminator (last : Char) : Text → Text
  | [] => []
  | c :: t => if c = '\x07' ∨ (c = '\\' ∧ last = escape) then t else afterTerminator c t

def afterEscape : Text → Text
  | [] => []
  | c :: t =>
    if c = '[' then (t.dropWhile fun d => !('@' ≤ d && d ≤ '~')).drop 1
    else if c = ']' then afterTerminator c t
    else t

theorem afterTerminator_suffix (last : Char) (t : Text) : afterTerminator last t <:+ t := by
  induction t generalizing last with
  | nil => exact List.suffix_refl []
  | cons c t ih =>
    simp only [afterTerminator]
    split
    · exact List.suffix_cons c t
    · exact (ih c).trans (List.suffix_cons c t)

theorem afterEscape_suffix (t : Text) : afterEscape t <:+ t := by
  cases t with
  | nil => exact List.suffix_refl []
  | cons c t =>
    simp only [afterEscape]
    split
    · exact ((List.drop_suffix 1 _).trans (List.dropWhile_suffix _)).trans (List.suffix_cons c t)
    · split
      · exact (afterTerminator_suffix c t).trans (List.suffix_cons c t)
      · exact List.suffix_cons c t

/-- A character, or an escape sequence, which shows nothing. -/
structure Glyph where
  text : Text
  shown : Option Char

def glyphs : Text → List Glyph
  | [] => []
  | c :: t =>
    if c = escape then ⟨c :: before t (afterEscape t), none⟩ :: glyphs (afterEscape t)
    else ⟨[c], some c⟩ :: glyphs t
termination_by t => t.length
decreasing_by
  · simp only [List.length_cons]; exact Nat.lt_succ_of_le (afterEscape_suffix t).length_le
  · simp

def Glyph.width (g : Glyph) : Nat := (g.shown.map charWidth).getD 0

def displayWidth (t : Text) : Nat := (glyphs t).foldl (fun n g => n + g.width) 0

/-- Cuts glyphs after the given numbers of shown characters, of which `count` come before. `part` is
what was read since the last cut. -/
def cutAfter (cuts : List Nat) (count : Nat) (part : Text) : List Glyph → List Text
  | [] => if part.isEmpty then [] else [part]
  | g :: gs =>
    let count' := if g.shown.isSome then count + 1 else count
    if cuts.head? = some count then part :: cutAfter cuts.tail count' g.text gs
    else cutAfter cuts count' (part ++ g.text) gs

/-- The words of a line, each with the blanks after it. Hyphens, also soft ones, end no word here;
in a line that ends with one the last two words count as one. -/
def words (line : Text) : List Text :=
  let shown := (glyphs line).filterMap Glyph.shown
  let cuts := (lineBreaks shown).filter fun n =>
    let previous := shown[n - 1]?
    n = 0 ∨ (previous ≠ some '-' ∧ previous ≠ some '\u00ad')
  cutAfter cuts.dropLast 0 [] (glyphs line)

structure Chunk where
  text : Text
  spaces : Nat

def Chunk.ofWord (word : Text) : Chunk :=
  let text := trimEndWhile (· == ' ') word
  ⟨text, word.length - text.length⟩

/-- The parts of a word, cut after every hyphen between letters or numbers. `last` is the character
before, and `part` what was read since the last cut. -/
def cutHyphens (last : Option Char) (part : Text) : Text → List Text
  | [] => [part]
  | c :: t =>
    if c = '-' ∧ last.any isAlphanumeric ∧ t.head?.any isAlphanumeric then
      (part ++ [c]) :: cutHyphens (some c) [] t
    else cutHyphens (some c) (part ++ [c]) t

/-- The parts of at most `room` columns of some glyphs. `part` was read since the last cut and has
`width` columns. -/
def cutWide (room : Nat) (part : Text) (width : Nat) : List Glyph → List Text
  | [] => if part.isEmpty then [] else [part]
  | g :: gs =>
    if width > 0 ∧ width + g.width > room then part :: cutWide room g.text g.width gs
    else cutWide room (part ++ g.text) (width + g.width) gs

def Chunk.ofParts (spaces : Nat) : List Text → List Chunk
  | [] => []
  | [part] => [⟨part, spaces⟩]
  | part :: parts => ⟨part, 0⟩ :: ofParts spaces parts

def chunks (room : Nat) (line : Text) : List Chunk :=
  (((words line).map Chunk.ofWord).flatMap fun w =>
    Chunk.ofParts w.spaces (cutHyphens none [] w.text)).flatMap fun c =>
      if displayWidth c.text > room then Chunk.ofParts c.spaces (cutWide room [] 0 (glyphs c.text))
      else [c]

/-- Puts chunks on lines of `room` columns after the start of a line, which has `width` columns with
the spaces at its end. -/
def putChunks (room : Nat) (line : Text) (spaces width : Nat) : List Chunk → List Text
  | [] => [line]
  | c :: cs =>
    let own := displayWidth c.text
    if width + own > room then line :: putChunks room c.text c.spaces (own + c.spaces) cs
    else
      putChunks room (line ++ List.replicate spaces ' ' ++ c.text) c.spaces (width + own + c.spaces) cs

/-- The lines of at most `room` columns that a line is broken into, without the spaces at their
ends. -/
def fill (room : Nat) (line : Text) : List Text := putChunks room [] 0 0 (chunks room line)

end Stylesmith.Text
