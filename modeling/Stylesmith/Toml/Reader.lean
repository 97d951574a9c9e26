import Stylesmith.Toml.Document
import Stylesmith.Toml.Scalar

set_option autoImplicit false

namespace Stylesmith.Toml

def maxDepth : Nat := 80

def isBareKeyChar (c : Char) : Bool := c.isAlphanum || c == '_' || c == '-'

def skipBlanks (t : Text) : Text := t.dropWhile isBlank

def readKeyPart (t : Text) : Option (Text × Text) :=
  match t with
  | [] => none
  | c :: rest =>
    if c = '"' ∨ c = '\'' then readLine (c == '"') c (t.length + 1) rest
    else
      let name := t.takeWhile isBareKeyChar
      if name.isEmpty then none else some (name, t.dropWhile isBareKeyChar)

def readKey : (fuel : Nat) → Text → Option ((List Text × Text) × Text)
  | 0, _ => none
  | fuel + 1, t => do
    let (part, rest) ← readKeyPart (skipBlanks t)
    match skipBlanks rest with
    | '.' :: rest =>
      let ((parts, last), rest) ← readKey fuel rest
      some ((part :: parts, last), rest)
    | rest => some (([], part), rest)

def afterComment? (t : Text) : Option Text :=
  match t with
  | '#' :: rest =>
    match rest.dropWhile isPlain with
    | [] => some []
    | rest => if (afterLineEnd? rest).isSome then some rest else none
  | _ => some t

/-- What follows blanks, comments and ends of lines; `fuel` bounds their number. -/
def skipGap : (fuel : Nat) → Text → Option Text
  | 0, t => some t
  | fuel + 1, t => do
    let t ← afterComment? (skipBlanks t)
    match afterLineEnd? t with
    | some rest => skipGap fuel rest
    | none => some t

def afterLine? (t : Text) : Option Text := do
  match ← afterComment? (skipBlanks t) with
  | [] => some []
  | rest => afterLineEnd? rest

def readItems (read : Text → Option (Json.Value × Text)) : (fuel : Nat) → Text →
    Option (List Json.Value × Text)
  | 0, _ => none
  | fuel + 1, t => do
    match ← skipGap (t.length + 1) t with
    | ']' :: rest => some ([], rest)
    | t =>
      let (v, rest) ← read t
      match ← skipGap (rest.length + 1) rest with
      | ',' :: rest =>
        let (vs, rest) ← readItems read fuel rest
        some (v :: vs, rest)
      | ']' :: rest => some ([v], rest)
      | _ => none

def readPair (read : Text → Option (Json.Value × Text)) (fields : Fields) (t : Text) :
    Option (Fields × Text) := do
  let ((keys, last), rest) ← readKey (maxDepth - 1) t
  match rest with
  | '=' :: rest =>
    let (v, rest) ← read (skipBlanks rest)
    let fields ← Fields.defineDotted last v keys fields
    some (fields, rest)
  | _ => none

def readPairs (read : Text → Option (Json.Value × Text)) : (fuel : Nat) → Fields → Text →
    Option (Fields × Text)
  | 0, _, _ => none
  | fuel + 1, fields, t => do
    let (fields, rest) ← readPair read fields t
    match skipBlanks rest with
    | ',' :: rest => readPairs read fuel fields rest
    | '\x7d' :: rest => some (fields, rest)
    | _ => none

/-- Reads a value whose nesting is less than `depth`. -/
def readValue : (depth : Nat) → Text → Option (Json.Value × Text)
  | 0, _ => none
  | depth + 1, t =>
    match t with
    | '[' :: rest => do
      guard (depth ≠ 0)
      let (items, rest) ← readItems (readValue depth) (t.length + 1) rest
      some (.array items, rest)
    | '\x7b' :: rest => do
      guard (depth ≠ 0)
      match skipBlanks rest with
      | '\x7d' :: rest => some (.object [], rest)
      | rest =>
        let (fields, rest) ← readPairs (readValue depth) (t.length + 1) [] rest
        some (.object (fieldsToJson fields), rest)
    | _ => readScalar t

def readHeader (t : Text) (close : Text) : Option ((List Text × Text) × Text) := do
  let (key, rest) ← readKey (maxDepth - 1) t
  let rest ← Text.afterPrefix? close rest
  some (key, ← afterLine? rest)

/-- Reads a document line by line; `path` leads to the table of the last header, and `fuel` bounds
the number of lines. -/
def readLines : (fuel : Nat) → (path : List Text) → Fields → Text → Option Fields
  | 0, _, _, _ => none
  | fuel + 1, path, fields, t =>
    match skipBlanks t with
    | [] => some fields
    | '[' :: '[' :: rest => do
      let ((keys, last), rest) ← readHeader rest [']', ']']
      readLines fuel (keys ++ [last]) (← Fields.startRow keys last fields) rest
    | '[' :: rest => do
      let ((keys, last), rest) ← readHeader rest [']']
      readLines fuel (keys ++ [last]) (← Fields.startTable keys last fields) rest
    | t =>
      if t.head? = some '#' ∨ (afterLineEnd? t).isSome then do
        readLines fuel path fields (← afterLine? t)
      else do
        let ((keys, last), rest) ← readKey (maxDepth - 1) t
        match rest with
        | '=' :: rest =>
          let (v, rest) ← readValue maxDepth (skipBlanks rest)
          let fields ← Fields.descend (Fields.defineDotted last v keys) path fields
          readLines fuel path fields (← afterLine? rest)
        | _ => none

def parse (t : Text) : Option (List (Text × Json.Value)) :=
  let t := match t with
    | '\ufeff' :: rest => rest
    | t => t
  (readLines (t.length + 1) [] [] t).map fieldsToJson

end Stylesmith.Toml
