import Stylesmith.Stylesheet.Basic
import Stylesmith.Text.Blank
import Stylesmith.Text.Word

set_option autoImplicit false

namespace Stylesmith

namespace Path

/-- The segments above the root, innermost first, after one more segment. -/
def descend (above : List Text) (segment : Text) : List Text :=
  if segment = [] ∨ segment = ['.'] then above
  else if segment = ['.', '.'] then above.tail
  else segment :: above

/-- The absolute path of `target` as seen from the directory `base`. -/
def resolve (base target : Text) : Text :=
  let above := (Text.splitOn '/' base ++ Text.splitOn '/' target).foldl descend []
  '/' :: Text.join ['/'] above.reverse

def directory (path : Text) : Text :=
  match Text.cutLast? '/' path with
  | some (dir, _) => dir
  | none => []

end Path

/-- A reference as it was written: its quote, if it has one, and its target. -/
structure Reference where
  quote : Option Char
  target : Text
  deriving DecidableEq, Repr

namespace Reference

def isTargetChar (c : Char) : Bool := !(c == '"' || c == '\'' || c == ')' || Text.isWide c)

/-- What follows white space and a closing parenthesis. -/
def afterClose? (t : Text) : Option Text :=
  match t.dropWhile Text.isWide with
  | ')' :: rest => some rest
  | _ => none

def read? (t : Text) : Option (Reference × Text) :=
  if Text.startsIgnoringCase "url(" t then
    match (t.drop 4).dropWhile Text.isWide with
    | '"' :: t =>
      (Text.cutFirst? '"' t).bind fun (target, t) =>
        (afterClose? t).map fun rest => (⟨some '"', target⟩, rest)
    | '\'' :: t =>
      (Text.cutFirst? '\'' t).bind fun (target, t) =>
        (afterClose? t).map fun rest => (⟨some '\'', target⟩, rest)
    | t =>
      (afterClose? (t.dropWhile isTargetChar)).map fun rest =>
        (⟨none, t.takeWhile isTargetChar⟩, rest)
  else none

def hasScheme (target : Text) : Bool :=
  match target with
  | [] => false
  | c :: t =>
    c.isAlpha &&
      (t.dropWhile fun c => c.isAlphanum || c == '+' || c == '.' || c == '-').head? == some ':'

def isAbsolute (target : Text) : Bool :=
  match target with
  | [] => true
  | c :: _ => c == '/' || c == '#' || hasScheme target

def resolved (base : Text) (r : Reference) : Text :=
  "url(" ++ r.quote.toList ++ Path.resolve base r.target ++ r.quote.toList ++ ")"

/-- The reference that a text starts with unless its name continues a word, and what follows it. -/
def readAt? (afterWord : Bool) (t : Text) : Option (Reference × Text) :=
  if afterWord then none else read? t

theorem afterClose?_length_lt {t rest : Text} (h : afterClose? t = some rest) :
    rest.length < t.length := by
  unfold afterClose? at h
  have hl := (List.dropWhile_sublist (l := t) Text.isWide).length_le
  split at h
  · rename_i heq
    cases h
    rw [heq, List.length_cons] at hl
    omega
  · cases h

theorem cutFirst?_length_lt {sep : Char} {t a b : Text} (h : Text.cutFirst? sep t = some (a, b)) :
    b.length < t.length := by
  induction t generalizing a with
  | nil => cases h
  | cons c t ih =>
    unfold Text.cutFirst? at h
    split at h
    · cases h
      simp
    · cases hc : Text.cutFirst? sep t with
      | none => simp [hc] at h
      | some p =>
        simp only [hc, Option.map_some, Option.some.injEq, Prod.mk.injEq] at h
        have := ih (a := p.1) (by rw [hc, ← h.2])
        rw [List.length_cons]
        omega

theorem read?_length_lt {t rest : Text} {r : Reference} (h : read? t = some (r, rest)) :
    rest.length < t.length := by
  unfold read? at h
  have hl := (List.dropWhile_sublist (l := t.drop 4) Text.isWide).length_le
  rw [List.length_drop] at hl
  split at h
  · split at h
    iterate 2
      rename_i heq
      rw [heq, List.length_cons] at hl
      simp only [Option.bind_eq_some_iff, Option.map_eq_some_iff] at h
      obtain ⟨⟨a, b⟩, hcut, c, hclose, hrest⟩ := h
      cases hrest
      have := cutFirst?_length_lt hcut
      have := afterClose?_length_lt hclose
      simp only at *
      omega
    · simp only [Option.map_eq_some_iff] at h
      obtain ⟨c, hclose, hrest⟩ := h
      cases hrest
      have := afterClose?_length_lt hclose
      have := (List.dropWhile_sublist (l := (t.drop 4).dropWhile Text.isWide) isTargetChar).length_le
      omega
  · cases h

theorem readAt?_length_lt {afterWord : Bool} {t rest : Text} {r : Reference}
    (h : readAt? afterWord t = some (r, rest)) : rest.length < t.length := by
  cases afterWord
  · exact read?_length_lt h
  · cases h

/-- The text with every relative reference seen from the directory `base`. A reference does not
start inside a word. -/
def anchorFrom (base : Text) (afterWord : Bool) : Text → Text
  | [] => []
  | c :: t =>
    match h : readAt? afterWord (c :: t) with
    | some (r, rest) =>
      have := readAt?_length_lt h
      (if isAbsolute r.target then Text.before (c :: t) rest else r.resolved base) ++
        anchorFrom base false rest
    | none => c :: anchorFrom base (Text.isWord c) t
termination_by t => t.length
decreasing_by
  · exact this
  · simp

end Reference

def Text.anchorReferences (source t : Text) : Text :=
  Reference.anchorFrom (Path.directory source) false t

namespace Node

variable {α : Type}

mutual

def anchorReferences (source : Text) : Node α → Node α
  | rule selectors children o => rule selectors (anchorAllReferences source children) o
  | group name prelude children o =>
    group name (if name = "import" then Text.anchorReferences source prelude else prelude)
      (anchorAllReferences source children) o
  | statement name prelude o =>
    statement name (if name = "import" then Text.anchorReferences source prelude else prelude) o
  | declaration property value important o =>
    declaration property (Text.anchorReferences source value) important o
  | comment text o => comment text o

def anchorAllReferences (source : Text) : List (Node α) → List (Node α)
  | [] => []
  | n :: ns => anchorReferences source n :: anchorAllReferences source ns

end

end Node

end Stylesmith
