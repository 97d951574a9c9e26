import Stylesmith.Json.Reader
import Stylesmith.Toml.Moment

set_option autoImplicit false

namespace Stylesmith.Toml

def isBlank (c : Char) : Bool := c == ' ' || c == '\t'

def isPlain (c : Char) : Bool := c == '\t' || (32 ≤ c.toNat && c.toNat != 127)

def afterLineEnd? : Text → Option Text
  | '\n' :: t => some t
  | '\r' :: '\n' :: t => some t
  | _ => none

def readCode (digits : Nat) (t : Text) : Option (Char × Text) := do
  let values ← (t.take digits).mapM Json.hexValue?
  guard (values.length = digits)
  let n := values.foldl (fun n d => 16 * n + d) 0
  guard (n.isValidChar)
  some (Char.ofNat n, t.drop digits)

def readEscape : Text → Option (Char × Text)
  | [] => none
  | c :: t =>
    match c with
    | 'b' => some ('\x08', t)
    | 't' => some ('\t', t)
    | 'n' => some ('\n', t)
    | 'f' => some ('\x0c', t)
    | 'r' => some ('\r', t)
    | '"' => some ('"', t)
    | '\\' => some ('\\', t)
    | 'u' => readCode 4 t
    | 'U' => readCode 8 t
    | _ => none

def readLine (escapes : Bool) (quote : Char) : (fuel : Nat) → Text → Option (Text × Text)
  | 0, _ | _, [] => none
  | fuel + 1, c :: t => do
    if c = quote then some ([], t)
    else
      let (c, rest) ←
        if escapes ∧ c = '\\' then readEscape t else if isPlain c then some (c, t) else none
      let (s, rest) ← readLine escapes quote fuel rest
      some (c :: s, rest)

/-- What follows a backslash at the end of a line: the text from the next character on that is not
blank. -/
def afterFold? (t : Text) : Option Text := do
  let rest ← afterLineEnd? (t.dropWhile isBlank)
  some (rest.dropWhile fun c => isBlank c || c == '\n' || c == '\r')

/-- Reads a string of several lines after its opening quotes; `fuel` bounds its length. Up to two
quotes may stand before the closing ones. -/
def readBlock (escapes : Bool) (quote : Char) : (fuel : Nat) → Text → Option (Text × Text)
  | 0, _ | _, [] => none
  | fuel + 1, c :: t => do
    if c = quote ∧ t.take 2 = [quote, quote] then
      let extra := ((t.drop 2).take 2).takeWhile (· == quote)
      some (extra, t.drop (2 + extra.length))
    else
      match afterLineEnd? (c :: t) with
      | some rest =>
        let (s, rest) ← readBlock escapes quote fuel rest
        some ('\n' :: s, rest)
      | none =>
        if escapes ∧ c = '\\' then
          match afterFold? t with
          | some rest => readBlock escapes quote fuel rest
          | none =>
            let (c, rest) ← readEscape t
            let (s, rest) ← readBlock escapes quote fuel rest
            some (c :: s, rest)
        else if isPlain c then
          let (s, rest) ← readBlock escapes quote fuel t
          some (c :: s, rest)
        else none

def readString (t : Text) : Option (Text × Text) :=
  match t with
  | [] => none
  | q :: rest =>
    let escapes := q == '"'
    if rest.take 2 = [q, q] then
      let body := rest.drop 2
      readBlock escapes q (t.length + 1) ((afterLineEnd? body).getD body)
    else readLine escapes q (t.length + 1) rest

/-- Reads digits with single underscores between them; the answer has no underscores. -/
def readDigitRun (isDigit : Char → Bool) : Text → Option (Text × Text)
  | [] => none
  | c :: t =>
    if isDigit c then
      match t with
      | '_' :: d :: rest =>
        if isDigit d then (readDigitRun isDigit (d :: rest)).map fun (ds, r) => (c :: ds, r)
        else some ([c], t)
      | d :: rest =>
        if isDigit d then (readDigitRun isDigit (d :: rest)).map fun (ds, r) => (c :: ds, r)
        else some ([c], t)
      | [] => some ([c], t)
    else none

def fromDigits (base : Nat) (digits : Text) : Nat :=
  digits.foldl (fun n d => base * n + (Json.hexValue? d).getD 0) 0

/-- An integer of 64 bits with its sign. -/
def signed? (negative : Bool) (n : Nat) : Option Json.Number :=
  if negative then
    if n = 0 then some (.natural 0) else if n ≤ beyond63 then some (.negative (n - 1)) else none
  else if n < beyond63 then some (.natural n) else none

def readBased (t : Text) : Option (Json.Number × Text) := do
  let run (base : Nat) (isDigit : Char → Bool) (t : Text) : Option (Json.Number × Text) := do
    let (digits, rest) ← readDigitRun isDigit t
    let n ← signed? false (fromDigits base digits)
    some (n, rest)
  match t with
  | '0' :: 'x' :: t => run 16 (fun c => (Json.hexValue? c).isSome) t
  | '0' :: 'o' :: t => run 8 (fun c => '0' ≤ c ∧ c ≤ '7') t
  | '0' :: 'b' :: t => run 2 (fun c => c == '0' || c == '1') t
  | _ => none

def readWhole (t : Text) : Option (Text × Text) :=
  match t with
  | '0' :: rest => some (['0'], rest)
  | _ => readDigitRun Char.isDigit t

def decimal (digits : Text) (exponent : Int) : Nat :=
  let n := fromDigits 10 digits
  -- The size decides alone where the power is out of all proportion.
  let top : Int := exponent + (digits.length : Int)
  if n = 0 ∨ top < -400 then 0
  else if top - (digits.length : Int) > 400 then Binary64.infinity
  else Binary64.ofRatio (Binary64.scale10 n 1 exponent).1 (Binary64.scale10 n 1 exponent).2

def readSign : Text → Bool × Text
  | '-' :: t => (true, t)
  | '+' :: t => (false, t)
  | t => (false, t)

def readExponent (t : Text) : Option (Option Int × Text) :=
  match t with
  | c :: rest =>
    if c = 'e' ∨ c = 'E' then do
      let (negative, rest) := readSign rest
      let (digits, rest) ← readDigitRun Char.isDigit rest
      let n : Int := fromDigits 10 digits
      some (some (if negative then -n else n), rest)
    else some (none, t)
  | [] => some (none, t)

def readDecimal (t : Text) : Option (Json.Number × Text) := do
  let (negative, body) := readSign t
  match body with
  | 'i' :: 'n' :: 'f' :: rest => some (.real ⟨negative, Binary64.infinity⟩, rest)
  | 'n' :: 'a' :: 'n' :: rest => some (.real ⟨negative, Binary64.infinity + 1⟩, rest)
  | _ =>
    let (whole, rest) ← readWhole body
    let (fraction, rest) ← match rest with
      | '.' :: rest => (readDigitRun Char.isDigit rest).map fun (ds, r) => (some ds, r)
      | _ => some (none, rest)
    let (exponent, rest) ← readExponent rest
    if fraction.isNone ∧ exponent.isNone then
      let n ← signed? negative (fromDigits 10 whole)
      some (n, rest)
    else
      let places := fraction.getD []
      let x := decimal (whole ++ places) (exponent.getD 0 - (places.length : Int))
      guard (negative ∨ x ≠ Binary64.infinity)
      some (.real ⟨negative, x⟩, rest)

def momentValue (m : Moment) : Json.Value :=
  .object [("$__toml_private_datetime", .string m.text)]

def readScalar (t : Text) : Option (Json.Value × Text) :=
  match t with
  | [] => none
  | c :: rest =>
    if c = '"' ∨ c = '\'' then (readString t).map fun (s, r) => (.string s, r)
    else if c = 't' then (Text.afterPrefix? "rue" rest).map (.bool true, ·)
    else if c = 'f' then (Text.afterPrefix? "alse" rest).map (.bool false, ·)
    else
      match Moment.read t with
      | some (m, rest) => some (momentValue m, rest)
      | none =>
        match readBased t with
        | some (n, rest) => some (.number n, rest)
        | none => (readDecimal t).map fun (n, rest) => (.number n, rest)

end Stylesmith.Toml
