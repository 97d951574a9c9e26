import Stylesmith.Json.Basic

set_option autoImplicit false

namespace Stylesmith.Json

inductive Cause where
  | endInValue
  | endInArray
  | endInObject
  | endInString
  | noColon
  | noCommaInArray
  | noCommaInObject
  | badWord
  | noValue
  | badEscape
  | badNumber
  | hugeNumber
  | controlCharacter
  | keyNotString
  | loneSurrogate
  | brokenSurrogate
  | trailingComma
  | trailingCharacters
  | tooDeep
  deriving DecidableEq, Repr

def Cause.message : Cause → Text
  | endInValue => "EOF while parsing a value"
  | endInArray => "EOF while parsing a list"
  | endInObject => "EOF while parsing an object"
  | endInString => "EOF while parsing a string"
  | noColon => "expected \x60:\x60"
  | noCommaInArray => "expected \x60,\x60 or \x60]\x60"
  | noCommaInObject => "expected \x60,\x60 or \x60\x7d\x60"
  | badWord => "expected ident"
  | noValue => "expected value"
  | badEscape => "invalid escape"
  | badNumber => "invalid number"
  | hugeNumber => "number out of range"
  | controlCharacter => "control character (\\u0000-\\u001F) found while parsing a string"
  | keyNotString => "key must be a string"
  | loneSurrogate => "lone leading surrogate in hex escape"
  | brokenSurrogate => "unexpected end of hex escape"
  | trailingComma => "trailing comma"
  | trailingCharacters => "trailing characters"
  | tooDeep => "recursion limit exceeded"

/-- A cause with the rest of the text where it arose. The place of the error is some bytes further on:
those that were looked at. -/
structure Fault where
  cause : Cause
  rest : Text
  bytes : Nat

def advance (line column : Nat) : (bytes : Nat) → Text → Nat × Nat
  | 0, _ | _, [] => (line, column)
  | bytes + 1, c :: t =>
    if c = '\n' then advance (line + 1) 0 bytes t
    else advance line (column + min (bytes + 1) c.utf8Size) (bytes + 1 - c.utf8Size) t

def lineAndColumn (t : Text) : Nat × Nat := advance 1 0 (Text.bytes t) t

def Fault.place (t : Text) (f : Fault) : Nat × Nat :=
  let (line, column) := lineAndColumn (Text.before t f.rest)
  advance line column f.bytes f.rest

def placeText (line column : Nat) : Text :=
  " at line " ++ (Nat.repr line : Text) ++ " column " ++ (Nat.repr column : Text)

def Fault.message (t : Text) (f : Fault) : Text :=
  f.cause.message ++ placeText (f.place t).1 (f.place t).2

def maxNatural : Nat := beyond64 - 1

/-- Reads digits while the number stays in 64 bits: the number, and what follows. -/
def spanNatural (n : Nat) : Text → Nat × Text
  | [] => (n, [])
  | c :: t =>
    if c.isDigit ∧ 10 * n + (c.toNat - 48) ≤ maxNatural then spanNatural (10 * n + (c.toNat - 48)) t
    else (n, c :: t)

def nearest (n : Nat) : Nat := Binary64.ofRatio n 1

def times (a b : Nat) : Nat :=
  Binary64.ofRatio ((Binary64.toRatio a).1 * (Binary64.toRatio b).1)
    ((Binary64.toRatio a).2 * (Binary64.toRatio b).2)

def divided (a b : Nat) : Nat :=
  Binary64.ofRatio ((Binary64.toRatio a).1 * (Binary64.toRatio b).2)
    ((Binary64.toRatio a).2 * (Binary64.toRatio b).1)

/-- A number from its digits and an exponent of ten: the digits are rounded first, and then
multiplied or divided by a rounded power of ten, in two steps where it is out of range. The answer
is `none` when the number is too large. -/
def scaled (digits : Nat) (exponent : Int) : Option Nat :=
  let f := nearest digits
  if 0 ≤ exponent then
    if digits = 0 then some 0
    else if exponent > 308 then none
    else
      let x := times f (nearest (Nat.pow 10 exponent.toNat))
      if x = Binary64.infinity then none else some x
  else
    let k := exponent.natAbs
    if k ≤ 308 then some (divided f (nearest (Nat.pow 10 k)))
    else
      let small := divided f (nearest (Nat.pow 10 308))
      if k ≤ 616 then some (divided small (nearest (Nat.pow 10 (k - 308)))) else some 0

def maxExponent : Nat := beyond31 - 1

/-- Reads the digits of an exponent up to the first one that makes it too large: whether there is
such a one, the exponent, and what follows. -/
def readSize (n : Nat) : Text → Bool × Nat × Text
  | [] => (false, n, [])
  | c :: t =>
    if !c.isDigit then (false, n, c :: t)
    else if 10 * n + (c.toNat - 48) > maxExponent then (true, n, t)
    else readSize (10 * n + (c.toNat - 48)) t

def readExponent (negative : Bool) (digits : Nat) (exponent : Int) (t : Text) :
    Except Fault (Number × Text) :=
  let finish (exponent : Int) (rest : Text) : Except Fault (Number × Text) :=
    match scaled digits exponent with
    | some x => .ok (.real ⟨negative, x⟩, rest)
    | none => .error ⟨.hugeNumber, rest, 0⟩
  match t with
  | c :: t' =>
    if c = 'e' ∨ c = 'E' then
      let (minus, t') := match t' with
        | '-' :: t' => (true, t')
        | '+' :: t' => (false, t')
        | t' => (false, t')
      if t'.isEmpty then .error ⟨.endInValue, [], 0⟩
      else if !t'.head?.any Char.isDigit then .error ⟨.badNumber, t', 1⟩
      else
        let (tooLarge, size, rest) := readSize 0 t'
        if !tooLarge then finish (if minus then exponent - (size : Int) else exponent + (size : Int)) rest
        else if digits ≠ 0 ∧ !minus then .error ⟨.hugeNumber, rest, 0⟩
        else .ok (.real ⟨negative, 0⟩, rest.dropWhile Char.isDigit)
    else finish exponent t
  | [] => finish exponent t

/-- Reads what follows the digits before a point: a fraction and an exponent. `exponent` counts the
digits that were dropped. -/
def readFraction (negative : Bool) (digits : Nat) (exponent : Nat) (t : Text) :
    Except Fault (Number × Text) :=
  match t with
  | '.' :: t' =>
    match t' with
    | [] => .error ⟨.endInValue, [], 1⟩
    | d :: _ =>
      if d.isDigit then
        let (all, rest) := spanNatural digits t'
        let places := (Text.before t' rest).length
        readExponent negative all (exponent - places) (rest.dropWhile Char.isDigit)
      else .error ⟨.badNumber, t', 1⟩
  | _ => readExponent negative digits exponent t

def readNumber (negative : Bool) (t : Text) : Except Fault (Number × Text) :=
  match t with
  | [] => .error ⟨.endInValue, [], 0⟩
  | c :: after =>
    if !c.isDigit then .error ⟨.badNumber, t, 1⟩
    else if c = '0' ∧ after.head?.any Char.isDigit then .error ⟨.badNumber, after, 1⟩
    else
      let (digits, rest) := if c = '0' then (0, after) else spanNatural 0 t
      let dropped := (rest.takeWhile Char.isDigit).length
      let rest := rest.dropWhile Char.isDigit
      let isReal := rest.head?.any fun c => c == '.' || c == 'e' || c == 'E'
      if dropped ≠ 0 ∨ isReal then readFraction negative digits dropped rest
      else if !negative then .ok (.natural digits, rest)
      else if digits = 0 ∨ digits > beyond63 then .ok (.real ⟨true, nearest digits⟩, rest)
      else .ok (.negative (digits - 1), rest)

def hexValue? (c : Char) : Option Nat :=
  if c.isDigit then some (c.toNat - 48)
  else if 'a' ≤ c ∧ c ≤ 'f' then some (c.toNat - 87)
  else if 'A' ≤ c ∧ c ≤ 'F' then some (c.toNat - 55)
  else none

/-- Reads four digits in base sixteen. Where they are none, four bytes are looked at. -/
def readHex (t : Text) : Except Fault (Nat × Text) :=
  match (t.take 4).map hexValue? with
  | [some a, some b, some c, some d] => .ok (((a * 16 + b) * 16 + c) * 16 + d, t.drop 4)
  | _ => if Text.bytes t < 4 then .error ⟨.endInString, [], 0⟩ else .error ⟨.badEscape, t, 4⟩

def readUnicode (t : Text) : Except Fault (Char × Text) := do
  let (n, rest) ← readHex t
  if 0xdc00 ≤ n ∧ n ≤ 0xdfff then .error ⟨.loneSurrogate, rest, 0⟩
  else if n < 0xd800 ∨ 0xdbff < n then .ok (Char.ofNat n, rest)
  else
    match rest with
    | [] => .error ⟨.endInString, [], 0⟩
    | ['\\'] => .error ⟨.endInString, [], 0⟩
    | '\\' :: 'u' :: rest =>
      let (low, rest) ← readHex rest
      if low < 0xdc00 ∨ 0xdfff < low then .error ⟨.loneSurrogate, rest, 0⟩
      else .ok (Char.ofNat ((n - 0xd800) * 1024 + (low - 0xdc00) + 0x10000), rest)
    | '\\' :: rest | rest => .error ⟨.brokenSurrogate, rest, 1⟩

/-- Reads a string after its opening quote; `fuel` bounds its length. -/
def readString : (fuel : Nat) → Text → Except Fault (Text × Text)
  | _, [] => .error ⟨.endInString, [], 0⟩
  | 0, c :: t => .error ⟨.endInString, c :: t, 0⟩
  | fuel + 1, c :: t => do
    if c = '"' then .ok ([], t)
    else if c = '\\' then
      match t with
      | [] => .error ⟨.endInString, [], 0⟩
      | e :: t =>
        let (c, rest) ← match e with
          | '"' | '\\' | '/' => .ok (e, t)
          | 'b' => .ok ('\x08', t)
          | 'f' => .ok ('\x0c', t)
          | 'n' => .ok ('\n', t)
          | 'r' => .ok ('\r', t)
          | 't' => .ok ('\t', t)
          | 'u' => readUnicode t
          | _ => .error ⟨.badEscape, e :: t, 1⟩
        let (s, rest) ← readString fuel rest
        .ok (c :: s, rest)
    else if c.toNat < 32 then .error ⟨.controlCharacter, c :: t, 1⟩
    else
      let (s, rest) ← readString fuel t
      .ok (c :: s, rest)

def readWord : (word t : Text) → Except Fault Text
  | [], t => .ok t
  | _ :: _, [] => .error ⟨.endInValue, [], 0⟩
  | w :: word, c :: t => if w = c then readWord word t else .error ⟨.badWord, c :: t, 1⟩

inductive Token where
  | mark (c : Char)
  | scalar (v : Value)
  | bad (f : Fault)

def Token.first (c : Char) (t : Text) : Token × Text :=
  let scalar (r : Except Fault (Value × Text)) : Token × Text :=
    match r with
    | .ok (v, rest) => (.scalar v, rest)
    | .error f => (.bad f, [])
  if c = '"' then scalar ((readString (t.length + 1) t).map fun (s, rest) => (.string s, rest))
  else if c = 'n' then scalar ((readWord "ull" t).map (.null, ·))
  else if c = 't' then scalar ((readWord "rue" t).map (.bool true, ·))
  else if c = 'f' then scalar ((readWord "alse" t).map (.bool false, ·))
  else if c = '-' then scalar ((readNumber true t).map fun (n, rest) => (.number n, rest))
  else if c.isDigit then scalar ((readNumber false (c :: t)).map fun (n, rest) => (.number n, rest))
  else if c = '[' ∨ c = ']' ∨ c = '\x7b' ∨ c = '\x7d' ∨ c = ',' ∨ c = ':' then (.mark c, t)
  else (.bad ⟨.noValue, c :: t, 1⟩, [])

def isBlank (c : Char) : Bool := c == ' ' || c == '\n' || c == '\t' || c == '\r'

/-- The tokens of a text, each with the rest of the text from it on. A bad token is the last one;
`fuel` bounds their number. -/
def tokens : (fuel : Nat) → Text → List (Token × Text)
  | 0, _ => []
  | fuel + 1, t =>
    match t.dropWhile isBlank with
    | [] => []
    | c :: rest =>
      match Token.first c rest with
      | (.bad f, _) => [(.bad f, c :: rest)]
      | (token, after) => (token, c :: rest) :: tokens fuel after

/-- An array or object that is open, its items last first. -/
inductive Frame where
  | array (items : List Value)
  | object (fields : List (Text × Value)) (key : Text)

inductive Goal where
  | value
  | firstItem
  | firstKey (fields : List (Text × Value))
  | laterItem
  | laterKey (fields : List (Text × Value))
  | colon
  | comma
  | nothing (result : Value)

def maxDepth : Nat := 128

def deliver (v : Value) : List Frame → List Frame × Goal
  | [] => ([], .nothing v)
  | .array items :: frames => (.array (v :: items) :: frames, .comma)
  | .object fields key :: frames => (.object (Value.put key v fields) key :: frames, .comma)

def parseTokens (frames : List Frame) (goal : Goal) : List (Token × Text) → Except Fault Value
  | [] =>
    match goal with
    | .nothing v => .ok v
    | .value | .laterItem | .laterKey _ => .error ⟨.endInValue, [], 1⟩
    | .firstItem => .error ⟨.endInArray, [], 1⟩
    | .firstKey _ | .colon => .error ⟨.endInObject, [], 1⟩
    | .comma =>
      match frames with
      | .array _ :: _ => .error ⟨.endInArray, [], 1⟩
      | _ => .error ⟨.endInObject, [], 1⟩
  | (token, here) :: rest =>
    let fail (cause : Cause) : Except Fault Value := .error ⟨cause, here, 1⟩
    let key (fields : List (Text × Value)) : Except Fault Value :=
      match token with
      | .scalar (.string k) => parseTokens (.object fields k :: frames) .colon rest
      | .bad f => if here.head? = some '"' then .error f else fail .keyNotString
      | _ => fail .keyNotString
    let value : Except Fault Value :=
      match token with
      | .bad f => .error f
      | .scalar v => parseTokens (deliver v frames).1 (deliver v frames).2 rest
      | .mark c =>
        if c = '[' then
          if frames.length + 1 ≥ maxDepth then fail .tooDeep
          else parseTokens (.array [] :: frames) .firstItem rest
        else if c = '\x7b' then
          if frames.length + 1 ≥ maxDepth then fail .tooDeep
          else parseTokens frames (.firstKey []) rest
        else fail .noValue
    match goal, token, frames with
    | .nothing _, _, _ => fail .trailingCharacters
    | .value, _, _ => value
    | .firstItem, .mark ']', _ :: frames =>
      parseTokens (deliver (.array []) frames).1 (deliver (.array []) frames).2 rest
    | .firstItem, _, _ => value
    | .laterItem, .mark ']', _ => fail .trailingComma
    | .laterItem, _, _ => value
    | .firstKey fields, .mark '\x7d', frames =>
      parseTokens (deliver (.object fields) frames).1 (deliver (.object fields) frames).2 rest
    | .firstKey fields, _, _ => key fields
    | .laterKey _, .mark '\x7d', _ => fail .trailingComma
    | .laterKey fields, _, _ => key fields
    | .colon, .mark ':', frames => parseTokens frames .value rest
    | .colon, _, _ => fail .noColon
    | .comma, .mark ',', .array items :: frames =>
      parseTokens (.array items :: frames) .laterItem rest
    | .comma, .mark ']', .array items :: frames =>
      parseTokens (deliver (.array items.reverse) frames).1 (deliver (.array items.reverse) frames).2
        rest
    | .comma, _, .array _ :: _ => fail .noCommaInArray
    | .comma, .mark ',', .object fields _ :: frames => parseTokens frames (.laterKey fields) rest
    | .comma, .mark '\x7d', .object fields _ :: frames =>
      parseTokens (deliver (.object fields) frames).1 (deliver (.object fields) frames).2 rest
    | .comma, _, _ => fail .noCommaInObject

def parse (t : Text) : Except Fault Value := parseTokens [] .value (tokens (t.length + 1) t)

end Stylesmith.Json
