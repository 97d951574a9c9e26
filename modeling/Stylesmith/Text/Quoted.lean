import Stylesmith.Text.Hidden

set_option autoImplicit false

namespace Stylesmith.Text

def hex (n : Nat) : Text := Nat.toDigits 16 n

def quotedChar (c : Char) : Text :=
  match c with
  | '\x00' => ['\\', '0']
  | '\t' => ['\\', 't']
  | '\n' => ['\\', 'n']
  | '\r' => ['\\', 'r']
  | '"' => ['\\', '"']
  | '\\' => ['\\', '\\']
  | c => if isVisible c then [c] else ['\\', 'u', '\x7b'] ++ hex c.toNat ++ ['\x7d']

def quoted (t : Text) : Text := '"' :: t.flatMap quotedChar ++ ['"']

def backquoted (t : Text) : Text := '\x60' :: t ++ ['\x60']

end Stylesmith.Text
