import Stylesmith.Text.BreakClass

/-!
# Line breaks

Where a text may be broken into lines. Whether a break may stand between two characters depends on
their classes, on the spaces between them, and on a few longer patterns: pairs of flag letters,
hyphens after Hebrew letters, and joiners.
-/

set_option autoImplicit false

namespace Stylesmith.Text

namespace BreakClass

def endsLine (k : BreakClass) : Bool :=
  k == lineEnd || k == carriageReturn || k == lineFeed || k == nextLine

/-- Whether the character attaches to the one before it, if that is not a blank. -/
def attaches (k : BreakClass) : Bool := k == attached || k == joiner

def isBlank (k : BreakClass) : Bool := k == space || k == zeroWidthSpace || k.endsLine

def letters : List BreakClass := [ordinary, hebrew]

def hangul : List BreakClass := [leadJamo, vowelJamo, tailJamo, openSyllable, closedSyllable]

/-- The pairs of neighbours that stay together: each class of a first list with each of a second
one. -/
def together : List (List BreakClass × List BreakClass) := [
  (letters, digit :: letters),
  ([digit], letters),
  ([unitBefore], [ideograph, person, skinTone]),
  ([ideograph, person, skinTone], [unitAfter]),
  ([unitBefore, unitAfter], letters),
  (letters, [unitBefore, unitAfter]),
  ([closing, closingRound, digit], [unitBefore, unitAfter]),
  ([unitBefore, unitAfter], [opening, digit]),
  ([hyphen, separator, digit, slash], [digit]),
  ([leadJamo], [leadJamo, vowelJamo, openSyllable, closedSyllable]),
  ([vowelJamo, openSyllable], [vowelJamo, tailJamo]),
  ([tailJamo, closedSyllable], [tailJamo]),
  (hangul, [unitAfter]),
  ([unitBefore], hangul),
  ([separator], letters),
  (digit :: letters, [opening]),
  ([closingRound], digit :: letters),
  ([person], [skinTone])]

def staysWith (a b : BreakClass) : Bool :=
  together.any fun (firsts, seconds) => firsts.contains a && seconds.contains b

end BreakClass

structure BreakState where
  /-- The class of the last character, or of the character that it attaches to. -/
  last : BreakClass
  /-- The same without the spaces that come last. -/
  solid : BreakClass
  joined : Bool
  /-- Whether an odd number of flag letters comes last. -/
  halfFlag : Bool
  hebrewHyphen : Bool

namespace BreakState

open BreakClass

def first (k : BreakClass) : BreakState :=
  let own := if k.attaches then ordinary else k
  ⟨own, own, k == joiner, own == flag, false⟩

def absorbs (s : BreakState) (k : BreakClass) : Bool := k.attaches && !s.last.isBlank

def next (s : BreakState) (k : BreakClass) : BreakState :=
  if s.absorbs k then { s with joined := k == joiner }
  else
    let own := if k.attaches then ordinary else k
    { last := own
      solid := if own = space then s.solid else own
      joined := k == joiner
      halfFlag := own == flag && !(s.last == flag && s.halfFlag)
      hebrewHyphen := s.last == hebrew && (own == hyphen || own == breakAfter) }

def breaksBefore (s : BreakState) (k : BreakClass) : Bool :=
  let own := if k.attaches then ordinary else k
  if s.last = carriageReturn then own != lineFeed
  else if s.last.endsLine then true
  else if own.isBlank then false
  else if s.joined then false
  else if s.solid = zeroWidthSpace then true
  else if s.absorbs k then false
  else if own = wordJoiner ∨ s.last = wordJoiner ∨ s.last = glue then false
  else if own = glue ∧ s.last ≠ space ∧ s.last ≠ breakAfter ∧ s.last ≠ hyphen then false
  else if [closing, closingRound, exclamation, separator, slash].contains own then false
  else if s.solid = opening then false
  else if s.solid = quotation ∧ own = opening then false
  else if (s.solid = closing ∨ s.solid = closingRound) ∧ own = nonstarter then false
  else if s.solid = dash ∧ own = dash then false
  else if s.last = space then true
  else if own = quotation ∨ s.last = quotation then false
  else if own = object ∨ s.last = object then true
  else if [breakAfter, hyphen, nonstarter, ellipsis].contains own then false
  else if s.last = breakBefore ∨ s.hebrewHyphen then false
  else if s.last = slash ∧ own = hebrew then false
  else if s.last = flag ∧ own = flag then !s.halfFlag
  else !s.last.staysWith own

end BreakState

/-- The numbers of characters after which a text may be broken, for the rest of a text that has
`offset` characters before it. Every text ends with a break. -/
def breaksFrom (s : BreakState) (offset : Nat) : Text → List Nat
  | [] => [offset]
  | c :: t =>
    let later := breaksFrom (s.next (breakClass c)) (offset + 1) t
    if s.breaksBefore (breakClass c) then offset :: later else later

def lineBreaks : Text → List Nat
  | [] => [0]
  | c :: t => breaksFrom (.first (breakClass c)) 1 t

end Stylesmith.Text
