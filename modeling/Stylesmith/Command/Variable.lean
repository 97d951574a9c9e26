import Stylesmith.Text.Blank
import Stylesmith.Text.Quoted
import Stylesmith.Toml.Scalar

/-!
# Values of environment variables

The text of a variable spells a flag, a number, a letter, a string, a list or a table. A text that
does not spell any of them stands for itself.
-/

set_option autoImplicit false

namespace Stylesmith.Variable

inductive Value where
  | flag (b : Bool)
  | unsigned (n : Nat)
  | signed (i : Int)
  | real (x : Binary64)
  | letter (c : Char)
  | string (t : Text)
  | list (items : List Value)
  | table (entries : List (Text × Value))

namespace Value

def describe : Value → Text
  | flag b => if b then "bool true" else "bool false"
  | unsigned n => "unsigned int " ++ Text.backquoted (Nat.repr n)
  | signed i => "signed int " ++ Text.backquoted (toString i)
  | real x => "float " ++ Text.backquoted x.plain
  | letter c => "string " ++ Text.quoted [c]
  | string t => "string " ++ Text.quoted t
  | list _ => "sequence"
  | table _ => "map"

def put (key : Text) (v : Value) (entries : List (Text × Value)) : List (Text × Value) :=
  entries.filter (·.1 != key) ++ [(key, v)]

def inOrder (entries : List (Text × Value)) : List (Text × Value) :=
  entries.mergeSort fun a b => !decide (b.1 < a.1)

def nest (keys : List Text) (v : Value) : Value := keys.foldr (fun key v => table [(key, v)]) v

mutual

/-- A value in place of an older one: the entries of two tables are brought together. -/
def merge (older : Value) : Value → Value
  | table entries =>
    match older with
    | table kept => table (mergeEntries kept entries)
    | _ => table entries
  | v => v

def mergeEntries (kept : List (Text × Value)) : List (Text × Value) → List (Text × Value)
  | [] => kept
  | (key, v) :: entries =>
    let v := match kept.lookup key with
      | some older => merge older v
      | none => v
    mergeEntries (put key v kept) entries

end

end Value

def isBlank (c : Char) : Bool := c == ' ' || (9 ≤ c.toNat && c.toNat ≤ 13 && c.toNat != 11)

def isPlain (c : Char) : Bool := !(['[', ']', '\x7b', '\x7d', ','].contains c)

def isKeyChar (c : Char) : Bool := c.isAlphanum || c == '_' || c == '-'

def natural? (t : Text) : Option Nat :=
  if t.isEmpty ∨ !t.all Char.isDigit then none
  else some (t.foldl (fun n c => 10 * n + (c.toNat - 48)) 0)

def unsigned (t : Text) : Bool × Text :=
  match t with
  | '-' :: rest => (true, rest)
  | '+' :: rest => (false, rest)
  | _ => (false, t)

def integer? (word : Text) : Option Value := do
  let (negative, digits) := unsigned word
  let n ← natural? digits
  if negative then if n ≤ beyond63 then some (.signed (-(n : Int))) else none
  else if n < beyond64 then some (.unsigned n) else none

def real? (word : Text) : Option Value := do
  let (negative, body) := unsigned word
  let (mantissa, exponent) := match Text.cutFirst? 'e' (Text.lowerAscii body) with
    | some (mantissa, exponent) => (mantissa, some exponent)
    | none => (body, none)
  let (whole, places) ← Text.cutFirst? '.' mantissa
  let n ← natural? (whole ++ places)
  let e : Int ← match exponent with
    | none => some 0
    | some t =>
      let (below, digits) := unsigned t
      (natural? digits).map fun e => if below then -(e : Int) else (e : Int)
  let power := e - (places.length : Int)
  let bits :=
    if n = 0 ∨ power + ((whole ++ places).length : Int) < -400 then 0
    else if power > 400 then Binary64.infinity
    else Binary64.ofRatio (Binary64.scale10 n 1 power).1 (Binary64.scale10 n 1 power).2
  some (.real ⟨negative, bits⟩)

def ofWord (word : Text) : Value :=
  ((if word.contains '.' then real? word else none).or (integer? word)).getD (.string word)

/-- A string after its opening quote, as TOML spells it on one line, with what follows it. -/
def readQuoted (t : Text) : Option (Text × Text) := Toml.readLine true '"' (t.length + 1) t

/-- The items of a list or an object up to its end, with what follows it; `fuel` bounds their
number. -/
def readItems {α : Type} (read : Text → Option (α × Text)) (close : Char) :
    (fuel : Nat) → Text → Option (List α × Text)
  | 0, _ => none
  | fuel + 1, t =>
    if t.head? = some close then some ([], t.drop 1)
    else do
      let (item, rest) ← read t
      match rest with
      | [] => none
      | c :: rest =>
        if c = ',' then
          let (items, rest) ← readItems read close fuel rest
          some (item :: items, rest)
        else if c = close then some ([item], rest)
        else none

def readKey (t : Text) : Option (Text × Text) :=
  match t.dropWhile isBlank with
  | '"' :: rest => readQuoted rest
  | t =>
    let key := t.takeWhile isKeyChar
    if key.isEmpty then none else some (key, t.dropWhile isKeyChar)

def readValue : (depth : Nat) → Text → Option (Value × Text)
  | 0, _ => none
  | depth + 1, t => do
    let t := t.dropWhile isBlank
    let (v, rest) ←
      match Text.afterPrefix? "true" t, Text.afterPrefix? "false" t, t with
      | some rest, _, _ => some (Value.flag true, rest)
      | _, some rest, _ => some (.flag false, rest)
      | _, _, '[' :: rest =>
        (readItems (readValue depth) ']' (rest.length + 1) rest).map fun (vs, r) => (.list vs, r)
      | _, _, '\x7b' :: rest =>
        let entry (t : Text) : Option ((Text × Value) × Text) := do
          let (key, rest) ← readKey t
          match rest.dropWhile isBlank with
          | '=' :: rest =>
            let (v, rest) ← readValue depth rest
            some ((key, v), rest)
          | _ => none
        (readItems entry '\x7d' (rest.length + 1) rest).map fun (fields, r) =>
          (.table (fields.foldl (fun fs (k, v) => Value.put k v fs) []), r)
      | _, _, '"' :: rest =>
        (readQuoted rest).map fun (s, r) => (.string s, r)
      | _, _, '\'' :: c :: '\'' :: rest => some (.letter c, rest)
      | _, _, '\'' :: _ => none
      | _, _, t => some (ofWord (Text.trim (t.takeWhile isPlain)), t.dropWhile isPlain)
    some (v, rest.dropWhile isBlank)

def parse (t : Text) : Value :=
  match readValue (t.length + 1) t with
  | some (v, []) => v
  | _ => .string t

end Stylesmith.Variable
