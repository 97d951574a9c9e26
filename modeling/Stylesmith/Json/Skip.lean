import Stylesmith.Json.Reader

/-!
# Skipping JSON

A value that is not needed is skipped without judging the size of its numbers, its halves of
surrogates or its depth. An object can so be cut into the texts of its fields.
-/

set_option autoImplicit false

namespace Stylesmith.Json

def skipBlanks (t : Text) : Text := t.dropWhile isBlank

def skipDigits? (t : Text) : Option Text :=
  if t.head?.any Char.isDigit then some (t.dropWhile Char.isDigit) else none

def skipExponent? (t : Text) : Option Text :=
  match t with
  | c :: rest =>
    if c = 'e' ∨ c = 'E' then
      match rest with
      | '+' :: rest | '-' :: rest | rest => skipDigits? rest
    else some t
  | [] => some t

def skipNumber? (t : Text) : Option Text := do
  let rest ← skipDigits? t
  if t.head? = some '0' ∧ (t.drop 1).head?.any Char.isDigit then none
  else
    match rest with
    | '.' :: rest => skipExponent? (← skipDigits? rest)
    | rest => skipExponent? rest

def skipString? : Text → Option Text
  | [] => none
  | '"' :: t => some t
  | '\\' :: 'u' :: a :: b :: c :: d :: t =>
    if [a, b, c, d].all fun x => (hexValue? x).isSome then skipString? t else none
  | '\\' :: e :: t =>
    if ['"', '\\', '/', 'b', 'f', 'n', 'r', 't'].contains e then skipString? t else none
  | c :: t => if c = '\\' ∨ c.toNat < 32 then none else skipString? t

def skipScalar? : Text → Option Text
  | '"' :: t => skipString? t
  | 'n' :: t => (readWord "ull" t).toOption
  | 't' :: t => (readWord "rue" t).toOption
  | 'f' :: t => (readWord "alse" t).toOption
  | '-' :: t => skipNumber? t
  | t => skipNumber? t

def afterMark? (mark : Char) (t : Text) : Option Text :=
  match skipBlanks t with
  | c :: rest => if c = mark then some rest else none
  | [] => none

/-- Reads items that commas separate, up to a closing mark; `fuel` bounds their number. -/
def series? {α : Type} (item : Text → Option (α × Text)) (close : Char) :
    (fuel : Nat) → Text → Option (List α × Text)
  | 0, _ => none
  | fuel + 1, t => do
    let (a, rest) ← item t
    match afterMark? close rest with
    | some rest => some ([a], rest)
    | none =>
      let (as, rest) ← series? item close fuel (← afterMark? ',' rest)
      some (a :: as, rest)

def enclosed? {α : Type} (item : Text → Option (α × Text)) (close : Char) (t : Text) :
    Option (List α × Text) :=
  match afterMark? close t with
  | some rest => some ([], rest)
  | none => series? item close (t.length + 1) t

/-- Skips a value; `depth` bounds the nesting. -/
def skipValue? : (depth : Nat) → Text → Option Text
  | 0, _ => none
  | depth + 1, t =>
    let item (t : Text) : Option (Unit × Text) := (skipValue? depth t).map ((), ·)
    let entry (t : Text) : Option (Unit × Text) := do
      let rest ← skipString? (← afterMark? '"' t)
      item (← afterMark? ':' rest)
    match skipBlanks t with
    | '[' :: rest => (enclosed? item ']' rest).map (·.2)
    | '\x7b' :: rest => (enclosed? entry '\x7d' rest).map (·.2)
    | t => skipScalar? t

def fieldText? (t : Text) : Option ((Text × Text) × Text) := do
  let rest ← afterMark? '"' t
  let (key, rest) ← (readString (rest.length + 1) rest).toOption
  let value ← afterMark? ':' rest
  let rest ← skipValue? (value.length + 1) value
  some ((key, Text.before value rest), rest)

/-- The fields of an object, whose values are kept as texts. -/
def fieldTexts? (t : Text) : Option (List (Text × Text)) := do
  let (fields, rest) ← enclosed? fieldText? '\x7d' (← afterMark? '\x7b' t)
  if (skipBlanks rest).isEmpty then some fields else none

end Stylesmith.Json
