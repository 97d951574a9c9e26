import Stylesmith.Proofs.Cursor.Bytes

set_option autoImplicit false

namespace Stylesmith.Cursor

open Lexeme (isIdent isQuote)

def closeBracket (c : Char) : List (Char × Nat) → List (Char × Nat)
  | [] => []
  | (closer, index) :: open' => if closer = c then open' else (closer, index) :: open'

inductive Item where
  | skipped (next : Nat)
  | node (n : Node Provenance) (next : Nat)
  /-- The header of a rule that starts at `start`, up to its brace. -/
  | opened (header : Header) (start brace : Nat)
  /-- The brace that closes the block. -/
  | closed (next : Nat)

namespace Input

variable (i : Input)

def advance (p n : Nat) : Nat := min (p + n) i.text.length

def skipBlanks (p : Nat) : Nat :=
  if h : p < i.text.length then
    if Text.isBlank i.text[p] then skipBlanks (p + 1) else p
  else p
termination_by i.text.length - p

def pastClose? (close : Char) (p : Nat) : Option Nat :=
  if h : p < i.text.length then
    if i.text[p] = '\\' then pastClose? close (i.advance p 2)
    else if i.text[p] = close then some (p + 1)
    else pastClose? close (p + 1)
  else none
termination_by i.text.length - p
decreasing_by
  · simp only [advance]
    omega
  · omega

def pastComment? (p : Nat) : Option Nat :=
  if h : p < i.text.length then
    if i.text[p] = '*' ∧ i.text[p + 1]? = some '/' then some (i.advance p 2)
    else pastComment? (p + 1)
  else none
termination_by i.text.length - p

def skipName (p : Nat) : Nat :=
  if h : p < i.text.length then
    if i.text[p] = '\\' then skipName (i.advance p 2)
    else if isIdent i.text[p] then skipName (p + 1)
    else p
  else p
termination_by i.text.length - p
decreasing_by
  · simp only [advance]
    omega
  · omega

def skipLiteral (quote : Char) (p : Nat) : Checked Nat :=
  match i.pastClose? quote (p + 1) with
  | some q => pure q
  | none => i.fail .unclosedLiteral p

def skipComment (p : Nat) : Checked Nat :=
  match i.pastComment? (i.advance p 2) with
  | some q => pure q
  | none => i.fail .unclosedComment p

def skipReference (p : Nat) : Checked Nat :=
  match i.pastClose? ')' (i.advance p 4) with
  | some q => pure q
  | none => i.fail .unclosedBracket (p + 3)

def behindIdent (p : Nat) : Bool := 0 < p && i.text[p - 1]?.any isIdent

def opensReference (p : Nat) : Bool :=
  Text.startsIgnoringCase "url(" (i.text.drop p) && !i.behindIdent p &&
    !i.text[i.skipBlanks (p + 4)]?.any isQuote

def pass (c : Char) (p : Nat) (brackets : List (Char × Nat)) :
    Checked (List (Char × Nat) × Nat) :=
  if isQuote c then do
    let q ← i.skipLiteral c p
    pure (brackets, q)
  else if c = '/' ∧ i.text[p + 1]? = some '*' then do
    let q ← i.skipComment p
    pure (brackets, q)
  else if c = '\\' then pure (brackets, i.advance p 2)
  else if c = '(' then pure ((')', p) :: brackets, p + 1)
  else if c = '[' then pure ((']', p) :: brackets, p + 1)
  else if c = ')' ∨ c = ']' then pure (closeBracket c brackets, p + 1)
  else if i.opensReference p then do
    let q ← i.skipReference p
    pure (brackets, q)
  else pure (brackets, p + 1)

def scan (p : Nat) (brackets : List (Char × Nat)) : Checked Nat := do
  tick
  match i.text[p]? with
  | none =>
    match brackets.head? with
    | none => pure p
    | some (_, index) => i.fail .unclosedBracket index
  | some c =>
    if brackets.isEmpty && Scan.isStop c then pure p
    else
      let (brackets, q) ← i.pass c p brackets
      let q ← i.move p q
      scan q.1 brackets
termination_by i.text.length - p
decreasing_by
  have := q.2
  omega

def comment (start : Nat) : Checked Item := do
  let stop ← i.skipComment start
  let body ← i.slice (start + 2) (stop - 2)
  let origin ← i.origin start
  pure (.node (.comment body origin) stop)

/-- Reads an at-rule, up to its brace if it has a block. A closing brace that ends it belongs to the
block around it. -/
def atRule (start : Nat) : Checked Item := do
  let nameEnd := i.skipName (start + 1)
  let name ← i.slice (start + 1) nameEnd
  if name.isEmpty then i.fail .missingName start
  else
    let stop ← i.scan nameEnd []
    let prelude ← i.slice nameEnd stop
    let name := Text.lowerAscii name
    let prelude := Text.collapseSpaced prelude
    if i.text[stop]? = some '{' then pure (.opened (.group name prelude) start stop)
    else
      let origin ← i.origin start
      pure (.node (.statement name prelude origin)
        (if i.text[stop]? = some ';' then stop + 1 else stop))

def ruleHeader (start brace : Nat) : Checked Item := do
  let prelude ← i.slice start brace
  let collapsed := Text.collapse prelude
  let selectors ← parts ',' collapsed 0 (Lexeme.topBytes ',' 0 0 (Lexeme.ofText collapsed))
  match selectors.filter (!·.isEmpty) with
  | [] => i.fail .missingSelector start
  | selector :: others => pure (.opened (.rule (selector :: others)) start brace)

def declaration (start stop : Nat) : Checked Item := do
  let raw ← i.slice start stop
  match (Lexeme.topBytes ':' 0 0 (Lexeme.ofText raw)).head? with
  | none => i.fail .unknownWord start
  | some colon =>
    let (name, _) ← cutBytes raw colon
    let property := Text.collapse name
    if property.isEmpty then i.fail .missingProperty start
    else if property.contains ' ' then i.fail .unknownWord start
    else
      let (_, rawValue) ← cutBytes raw (colon + 1)
      let custom := ("--" : Text).isPrefixOf property
      let full := if custom then Text.trim rawValue else Text.collapseSpaced rawValue
      let (value, important) ← cutMark full
      let origin ← i.origin start
      pure (.node (.declaration property value important origin) stop)

/-- Reads a declaration, which only blocks may hold, or the header of a rule. -/
def ruleOrDeclaration (inside : Bool) (start : Nat) : Checked Item := do
  let stop ← i.scan start []
  if i.text[stop]? = some '{' then i.ruleHeader start stop
  else if inside then i.declaration start stop
  else if i.text[stop]? = some '}' then i.fail .unexpectedBrace stop
  else i.fail .unknownWord start

def item (inside : Bool) (c : Char) (p : Nat) : Checked Item :=
  if c = '}' then
    if inside then pure (.closed (p + 1)) else i.fail .unexpectedBrace p
  else if c = ';' then pure (.skipped (p + 1))
  else if c = '/' ∧ i.text[p + 1]? = some '*' then i.comment p
  else if c = '@' then i.atRule p
  else if !inside ∧ ("<!--" : Text).isPrefixOf (i.text.drop p) then
    pure (.skipped (i.advance p 4))
  else if !inside ∧ ("-->" : Text).isPrefixOf (i.text.drop p) then
    pure (.skipped (i.advance p 3))
  else i.ruleOrDeclaration inside p

/-- Reads the nodes of a block from `p` on, up to the brace that closes it, or those of the whole
text. `brace?` is where the block opens, and `nodes` has the nodes before `p`, last first. -/
def items (brace? : Option Nat) (p : Nat) (nodes : List (Node Provenance)) :
    Checked (List (Node Provenance) × Nat) := do
  tick
  let start := i.skipBlanks p
  match i.text[start]? with
  | none =>
    match brace? with
    | none => pure (nodes.reverse, start)
    | some brace => i.fail .unclosedBlock brace
  | some c =>
    match ← i.item brace?.isSome c start with
    | .skipped next =>
      let q ← i.move p next
      items brace? q.1 nodes
    | .node n next =>
      let q ← i.move p next
      items brace? q.1 (n :: nodes)
    | .opened header first brace =>
      tick
      let q ← i.move p (brace + 1)
      let (children, next) ← items (some brace) q.1 []
      let r ← i.move q.1 next
      let origin ← i.origin first
      items brace? r.1 (header.node children origin :: nodes)
    | .closed next =>
      let q ← i.move p next
      pure (nodes.reverse, q.1)
termination_by i.text.length - p
decreasing_by
  · have := q.2
    omega
  · have := q.2
    omega
  · have := q.2
    omega
  · have := q.2
    have := r.2
    omega

end Input

def parse (source t : Text) (positions : Bool) : Checked Stylesheet := do
  let (children, _) ← Input.items ⟨source, t, positions⟩ none 0 []
  pure ⟨some source, children⟩

end Stylesmith.Cursor
