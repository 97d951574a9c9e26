import Stylesmith.Json.Basic

set_option autoImplicit false

namespace Stylesmith.Json

def hexDigit (n : Nat) : Char := if n < 10 then Char.ofNat (48 + n) else Char.ofNat (87 + n)

/-- A character of a string: quotes, backslashes and control characters are escaped. -/
def escapeChar (c : Char) : Text :=
  match c with
  | '"' => ['\\', '"']
  | '\\' => ['\\', '\\']
  | '\n' => ['\\', 'n']
  | '\r' => ['\\', 'r']
  | '\t' => ['\\', 't']
  | '\x08' => ['\\', 'b']
  | '\x0c' => ['\\', 'f']
  | c =>
    if c.toNat < 32 then ['\\', 'u', '0', '0', hexDigit (c.toNat / 16), hexDigit (c.toNat % 16)]
    else [c]

def quote (t : Text) : Text := '"' :: t.flatMap escapeChar ++ ['"']

namespace Number

def text : Number → Text
  | natural n => Nat.repr n
  | negative n => '-' :: (Nat.repr (n + 1)).toList
  | real x => x.scientific

end Number

namespace Value

mutual

def compact : Value → Text
  | null => "null"
  | bool b => if b then "true" else "false"
  | number n => n.text
  | string t => quote t
  | array items => '[' :: compactItems items
  | object fields => '\x7b' :: compactFields fields

def compactItems : List Value → Text
  | [] => [']']
  | [v] => compact v ++ [']']
  | v :: vs => compact v ++ ',' :: compactItems vs

def compactFields : List (Text × Value) → Text
  | [] => ['\x7d']
  | [(k, v)] => quote k ++ ':' :: compact v ++ ['\x7d']
  | (k, v) :: fields => quote k ++ ':' :: compact v ++ ',' :: compactFields fields

end

def newLine (depth : Nat) : Text := '\n' :: List.replicate (2 * depth) ' '

mutual

def pretty (depth : Nat) : Value → Text
  | array [] => ['[', ']']
  | array (v :: vs) => '[' :: newLine (depth + 1) ++ pretty (depth + 1) v ++ prettyItems (depth + 1) vs
      ++ newLine depth ++ [']']
  | object [] => ['\x7b', '\x7d']
  | object ((k, v) :: fields) =>
    '\x7b' :: newLine (depth + 1) ++ quote k ++ ':' :: ' ' :: pretty (depth + 1) v ++
      prettyFields (depth + 1) fields ++ newLine depth ++ ['\x7d']
  | null => "null"
  | bool b => if b then "true" else "false"
  | number n => n.text
  | string t => quote t

def prettyItems (depth : Nat) : List Value → Text
  | [] => []
  | v :: vs => ',' :: newLine depth ++ pretty depth v ++ prettyItems depth vs

def prettyFields (depth : Nat) : List (Text × Value) → Text
  | [] => []
  | (k, v) :: fields =>
    ',' :: newLine depth ++ quote k ++ ':' :: ' ' :: pretty depth v ++ prettyFields depth fields

end

end Value

end Stylesmith.Json
