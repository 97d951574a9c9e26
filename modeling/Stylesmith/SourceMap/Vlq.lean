import Stylesmith.Decimal.Width
import Stylesmith.SourceMap.Basic

/-!
# Mappings

The tokens of a source map are written as text: lines are ended by semicolons and tokens separated
by commas. A token is a list of integers, each the difference to the one before it, in base 32
with the sign in the lowest bit and a bit for continuation.
-/

set_option autoImplicit false

namespace Stylesmith.SourceMap

def base64 : Text := "ABCDEFGHIJKLMNOPQRSTUVWXYZabcdefghijklmnopqrstuvwxyz0123456789+/"

def base64Digit (n : Nat) : Char := base64[n]?.getD 'A'

def base64Value? (c : Char) : Option Nat := base64.findIdx? (· == c)

namespace Vlq

/-- The digits of a number with its sign in the lowest bit; `fuel` bounds their number. -/
def encodeNat : (fuel : Nat) → Nat → Text
  | 0, _ => []
  | fuel + 1, n =>
    if n < 32 then [base64Digit n] else base64Digit (32 + n % 32) :: encodeNat fuel (n / 32)

def encode (i : Int) : Text :=
  let n := match i with
    | .ofNat n => 2 * n
    | .negSucc n => 2 * (n + 1) + 1
  encodeNat (n.log2 + 1) n

/-- The integers of a segment. A character outside of base 64 counts as a continuation with all
bits set, once for each of its bytes. The answer is `none` for a number that does not end or has
too many digits, and for no number at all. -/
def decode (segment : Text) : Option (List Int) :=
  go 0 0 (segment.flatMap fun c =>
    match base64Value? c with
    | some n => [n]
    | none => List.replicate c.utf8Size 63)
where
  go (sum shift : Nat) : List Nat → Option (List Int)
    | [] => if sum = 0 ∧ shift = 0 then some [] else none
    | n :: ns =>
      if shift ≥ 64 then none
      else
        let sum := (sum + n % 32 * Nat.pow 2 shift) % beyond64
        if n ≥ 32 then go sum (shift + 5) ns
        else
          let signed : Int := if sum ≥ beyond63 then (sum : Int) - beyond64 else sum
          let half := signed / 2
          (go 0 0 ns).map ((if sum % 2 = 1 then -half else half) :: ·)

end Vlq

/-- What the numbers of a segment are relative to. -/
structure Base where
  column : Nat
  source : Nat
  spot : Spot
  name : Nat

/-- A number further on, of which 32 bits are kept; it may not be below zero. -/
def shift? (n : Nat) (delta : Int) : Option Nat :=
  if (n : Int) + delta < 0 then none else some (((n : Int) + delta).toNat % beyond32)

def index? (items n : Nat) (delta : Int) : Option Nat :=
  let sum := (n : Int) + delta
  if 0 ≤ sum ∧ sum < (items : Int) then some sum.toNat else none

/-- Reads a segment of a line. The answer is `none` for a wrong count of numbers, for a place before
the first one, and for a source or a name that the map does not have. -/
def decodeSegment (sources names line : Nat) (base : Base) (segment : Text) :
    Option (Base × Token) := do
  match ← Vlq.decode segment with
  | [column] =>
    let column ← shift? base.column column
    some ({ base with column }, ⟨⟨line, column⟩, none⟩)
  | column :: source :: srcLine :: srcColumn :: rest =>
    let column ← shift? base.column column
    let source ← index? sources base.source source
    let spot : Spot := ⟨← shift? base.spot.line srcLine, ← shift? base.spot.column srcColumn⟩
    let token : Token := ⟨⟨line, column⟩, some (source, spot)⟩
    match rest with
    | [] => some ({ base with column, source, spot }, token)
    | [name] => some (⟨column, source, spot, ← index? names base.name name⟩, token)
    | _ => none
  | _ => none

def decodeLine (sources names line : Nat) (base : Base) : List Text → Option (Base × List Token)
  | [] => some (base, [])
  | [] :: segments => decodeLine sources names line base segments
  | segment :: segments =>
    (decodeSegment sources names line base segment).bind fun (base, token) =>
      (decodeLine sources names line base segments).map fun (base, tokens) => (base, token :: tokens)

def decodeLines (sources names line : Nat) (base : Base) : List Text → Option (List Token)
  | [] => some []
  | l :: ls =>
    (decodeLine sources names line { base with column := 0 } (Text.splitOn ',' l)).bind
      fun (base, tokens) => (decodeLines sources names (line + 1) base ls).map (tokens ++ ·)

def decodeMappings (sources names : Nat) (mappings : Text) : Option (List Token) :=
  decodeLines sources names 0 ⟨0, 0, ⟨0, 0⟩, 0⟩ (Text.splitOn ';' mappings)

/-- The mappings of tokens in the order of their generated spots, after a place in the line `line`
where a token ends if `started` holds. -/
def encodeFrom (started : Bool) (line : Nat) (base : Base) : List Token → Text
  | [] => []
  | t :: ts =>
    let sameLine := t.generated.line == line
    let gap :=
      if !sameLine then List.replicate (t.generated.line - line) ';'
      else if started then [',']
      else []
    let column := Vlq.encode ((t.generated.column : Int) - (if sameLine then base.column else 0))
    let base := { base with column := t.generated.column }
    match t.origin with
    | none => gap ++ column ++ encodeFrom true t.generated.line base ts
    | some (source, spot) =>
      gap ++ column ++ Vlq.encode ((source : Int) - base.source) ++
        Vlq.encode ((spot.line : Int) - base.spot.line) ++
        Vlq.encode ((spot.column : Int) - base.spot.column) ++
        encodeFrom true t.generated.line { base with source, spot } ts

def encodeMappings (tokens : List Token) : Text :=
  encodeFrom false 0 ⟨0, 0, ⟨0, 0⟩, 0⟩ tokens

end Stylesmith.SourceMap
