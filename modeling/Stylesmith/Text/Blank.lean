import Stylesmith.Text.Basic

set_option autoImplicit false

namespace Stylesmith.Text

/-- The blanks of style sheets: space, tab, line feed, carriage return and form feed. -/
def isBlank (c : Char) : Bool :=
  c == ' ' || c == '\t' || c == '\n' || c == '\r' || c == '\x0c'

/-- The Unicode property `White_Space`. -/
def isWide (c : Char) : Bool :=
  (9 ≤ c.toNat && c.toNat ≤ 13) || c.toNat == 32 || c.toNat == 0x85 || c.toNat == 0xa0 ||
    c.toNat == 0x1680 || (0x2000 ≤ c.toNat && c.toNat ≤ 0x200a) || c.toNat == 0x2028 ||
    c.toNat == 0x2029 || c.toNat == 0x202f || c.toNat == 0x205f || c.toNat == 0x3000

def skipBlanks (t : Text) : Text := t.dropWhile isBlank

def trimEndWhile (drop : Char → Bool) (t : Text) : Text := (t.reverse.dropWhile drop).reverse

def trimWhile (drop : Char → Bool) (t : Text) : Text := trimEndWhile drop (t.dropWhile drop)

def trim (t : Text) : Text := trimWhile isWide t

def trimEnd (t : Text) : Text := trimEndWhile isWide t

theorem isWide_of_isBlank {c : Char} (h : isBlank c = true) : isWide c = true := by
  simp only [isBlank, Bool.or_eq_true, beq_iff_eq] at h
  rcases h with (((h | h) | h) | h) | h <;> subst h <;> decide

theorem skipBlanks_length_le (t : Text) : (skipBlanks t).length ≤ t.length :=
  (List.dropWhile_sublist isBlank).length_le

end Stylesmith.Text
