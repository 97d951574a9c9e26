import Stylesmith.Decimal.Width
import Stylesmith.Text.Basic

/-!
# Binary floating-point numbers

A number of 64 bits is kept as its sign and the integer that its other 63 bits spell. It denotes
`m * 2 ^ e` for a mantissa `m` below `2 ^ 53`. All arithmetic is exact and rounds once, to the
nearest number, a tie going to the even mantissa.
-/

set_option autoImplicit false

namespace Stylesmith

/-- A floating-point number of 64 bits. Beyond the bits of infinity it is no number. -/
structure Binary64 where
  negative : Bool
  magnitude : Nat
  deriving DecidableEq, Repr

namespace Binary64

def infinity : Nat := 0x7ff0000000000000

/-- The first bit of a mantissa, which is not written. -/
def hidden : Nat := 0x10000000000000

/-- The least exponent, which numbers near zero share. -/
def minExponent : Int := -1074

def decode (magnitude : Nat) : Nat × Int :=
  let field : Nat := magnitude / hidden
  let fraction : Nat := magnitude % hidden
  if field = 0 then (fraction, minExponent) else (hidden + fraction, minExponent + (field - 1))

def scale2 (num den : Nat) (e : Int) : Nat × Nat :=
  match e with
  | .ofNat k => (num * Nat.pow 2 k, den)
  | .negSucc k => (num, den * Nat.pow 2 (k + 1))

def scale10 (num den : Nat) (e : Int) : Nat × Nat :=
  match e with
  | .ofNat k => (num * Nat.pow 10 k, den)
  | .negSucc k => (num, den * Nat.pow 10 (k + 1))

/-- The quotient rounded to the nearest integer, a tie going to the even one. -/
def roundDiv (num den : Nat) : Nat :=
  let q := num / den
  let r := num % den
  if 2 * r < den ∨ (2 * r = den ∧ q % 2 = 0) then q else q + 1

def ofRatio (num den : Nat) : Nat :=
  if num = 0 then 0
  else
    -- The exponent for a mantissa of 53 bits, or one less.
    let guess : Int := (Nat.log2 num : Int) - Nat.log2 den - 52
    let (n, d) := scale2 num den (-guess)
    let e := max minExponent (if n < hidden * d then guess - 1 else guess)
    let (n, d) := scale2 num den (-e)
    let m := roundDiv n d
    min infinity ((e - minExponent).toNat * hidden + m)

def toRatio (magnitude : Nat) : Nat × Nat :=
  let (m, e) := decode magnitude
  scale2 m 1 e

/-- The digits of a positive number and the power of ten of the last one: the fewest digits that
no other number is nearer to, and of those the nearest. -/
def shortest (magnitude : Nat) : Nat × Int :=
  let (m, e) := decode magnitude
  let (num, den) := scale2 (4 * m) 4 e
  -- The values that round to this number lie between these two, in quarters of a unit.
  let (high, _) := scale2 (4 * m + 2) 4 e
  let (low, _) := scale2 (4 * m - (if m = hidden ∧ minExponent < e then 1 else 2)) 4 e
  let inside (n d : Nat) : Bool :=
    if m % 2 = 0 then low * d ≤ n * den ∧ n * den ≤ high * d
    else low * d < n * den ∧ n * den < high * d
  search num den inside (exponent num den) 17
where
  exponent (num den : Nat) : Int :=
    if den ≤ num then ((Nat.repr (num / den)).length : Int) - 1
    else
      let size := (Nat.repr (den / num)).length
      if num * Nat.pow 10 (size - 1) = den then 1 - (size : Int) else -(size : Int)
  search (num den : Nat) (inside : Nat → Nat → Bool) (top : Int) : Nat → Nat × Int
    | 0 => (num / den, 0)
    | fuel + 1 =>
      let last := top - (16 - fuel)
      let (n, d) := scale10 num den (-last)
      let below := n / d
      let pick (digits : Nat) : Option Nat :=
        let (gn, gd) := scale10 digits 1 last
        if inside gn gd then some digits else none
      match pick below, pick (below + 1) with
      | some a, some b =>
        if 2 * (n % d) < d ∨ (2 * (n % d) = d ∧ a % 2 = 0) then (a, last) else (b, last)
      | some a, none => (a, last)
      | none, some b => (b, last)
      | none, none => search num den inside top fuel

/-- The shortest digits without trailing zeros, and the power of ten of the last one. -/
def digits (magnitude : Nat) : Text × Int :=
  if magnitude = 0 then (['0'], 0)
  else
    let (d, last) := shortest magnitude
    let full : Text := Nat.repr d
    let kept := (full.reverse.dropWhile (· == '0')).reverse
    (kept, last + ((full.length - kept.length : Nat) : Int))

/-- The digits in positional notation, without an exponent; a point is written only before other
digits. -/
def positional (digits : Text) (last : Int) : Text :=
  match last with
  | .ofNat k => digits ++ List.replicate k '0'
  | .negSucc k =>
    let places := k + 1
    if places < digits.length then
      digits.take (digits.length - places) ++ '.' :: digits.drop (digits.length - places)
    else ['0', '.'] ++ List.replicate (places - digits.length) '0' ++ digits

def withPoint (t : Text) : Text := if t.contains '.' then t else t ++ ['.', '0']

def plain (x : Binary64) : Text :=
  if infinity < x.magnitude then ['N', 'a', 'N']
  else
    (if x.negative then ['-'] else []) ++
      if x.magnitude = infinity then ['i', 'n', 'f']
      else positional (digits x.magnitude).1 (digits x.magnitude).2

/-- The number with an exponent, which has a sign, where its leading digit lies below the fifth place
after the point or above the sixteenth before it. -/
def scientific (x : Binary64) : Text :=
  let (ds, last) := digits x.magnitude
  let top : Int := last + (ds.length : Int) - 1
  let body :=
    if -5 ≤ top ∧ top ≤ 15 then withPoint (positional ds last)
    else
      let mantissa := ds.take 1 ++ (if ds.length = 1 then [] else '.' :: ds.drop 1)
      mantissa ++ ['e', if top < 0 then '-' else '+'] ++ (Nat.repr top.natAbs : Text)
  (if x.negative then ['-'] else []) ++ body

end Binary64

end Stylesmith
