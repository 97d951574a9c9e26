import Stylesmith.Stylesheet.Basic
import Stylesmith.Stylesheet.Collapse
import Stylesmith.Stylesheet.Scan

/-!
# Reading style sheets

A reader keeps the blocks that are open and the rest of the text. Each step reads one item, opens
or closes a block, or skips a separator, and leaves a shorter rest. Nodes are read with the rest of
the text from their first character on as their origin; `Stylesheet.parse` turns these into
positions.
-/

set_option autoImplicit false

namespace Stylesmith

namespace Text

def spanName : Text → Text × Text
  | [] => ([], [])
  | '\\' :: c :: t =>
    let (name, rest) := spanName t
    ('\\' :: c :: name, rest)
  | c :: t =>
    if c = '\\' ∨ Lexeme.isIdent c then
      let (name, rest) := spanName t
      (c :: name, rest)
    else ([], c :: t)

theorem spanName_length_le (t : Text) : (spanName t).2.length ≤ t.length := by
  fun_induction spanName t <;> simp_all <;> omega

/-- A value without the mark `!important` at its end, and whether it had one. White space may
stand around both parts of the mark. -/
def cutImportant (value : Text) : Text × Bool :=
  let end' := (trimEnd value).reverse
  if startsIgnoringCase "tnatropmi" end' then
    match (end'.drop 9).dropWhile isWide with
    | '!' :: rest => ((rest.dropWhile isWide).reverse, true)
    | _ => (value, false)
  else (value, false)

end Text

inductive Header where
  | rule (selectors : List Text)
  | group (name prelude : Text)

structure OpenBlock where
  header : Header
  /-- The text from the first character of the rule on. -/
  start : Text
  brace : Text
  /-- The nodes before the rule in its own block, last first. -/
  earlier : List (Node Text)

def OpenBlock.node (b : OpenBlock) (children : List (Node Text)) : Node Text :=
  match b.header with
  | .rule selectors => .rule selectors children b.start
  | .group name prelude => .group name prelude children b.start

structure Reader where
  blocks : List OpenBlock
  /-- The nodes read in the innermost block, last first. -/
  nodes : List (Node Text)
  /-- Whether the last character belongs to an identifier. -/
  afterIdent : Bool
  rest : Text

namespace Reader

def ofText (t : Text) : Reader := ⟨[], [], false, t⟩

def push (r : Reader) (n : Node Text) (rest : Text) : Reader :=
  { r with nodes := n :: r.nodes, afterIdent := false, rest }

def skip (r : Reader) (afterIdent : Bool) (rest : Text) : Reader := { r with afterIdent, rest }

def enter (r : Reader) (header : Header) (start brace rest : Text) : Reader :=
  ⟨⟨header, start, brace, r.nodes⟩ :: r.blocks, [], false, rest⟩

def selectors (prelude : Text) : List Text :=
  (Text.splitTop ',' (Text.collapse prelude)).filter (!·.isEmpty)

def declaration (start raw : Text) : Except Fault (Node Text) :=
  match Text.cutTop? ':' raw with
  | none => .error ⟨.unknownWord, start⟩
  | some (name, rawValue) =>
    let property := Text.collapse name
    if property.isEmpty then .error ⟨.missingProperty, start⟩
    else if property.contains ' ' then .error ⟨.unknownWord, start⟩
    else
      let custom := ("--" : Text).isPrefixOf property
      let full := if custom then Text.trim rawValue else Text.collapseSpaced rawValue
      let (value, important) := Text.cutImportant full
      .ok (.declaration property value important start)

def comment (r : Reader) (start : Text) : Except Fault Reader :=
  match Lexeme.spanComment (start.drop 2) with
  | (body, some rest) => .ok (r.push (.comment body start) rest)
  | (_, none) => .error ⟨.unclosedComment, start⟩

/-- Adds an at-rule, or enters its block. The name and prelude are known, and the rest of the text
is `stop`; a closing brace there belongs to the block around the at-rule. -/
def addAtRule (r : Reader) (name prelude start : Text) : (stop : Text) → Reader
  | '{' :: rest => r.enter (.group name prelude) start ('{' :: rest) rest
  | ';' :: rest => r.push (.statement name prelude start) rest
  | stop => r.push (.statement name prelude start) stop

def atRule (r : Reader) (start : Text) : Except Fault Reader :=
  match Text.spanName start.tail with
  | ([], _) => .error ⟨.missingName, start⟩
  | (name, afterName) =>
    match Scan.toStop ⟨false, []⟩ afterName with
    | .error f => .error f
    | .ok stop =>
      .ok (r.addAtRule (Text.lowerAscii name) (Text.collapseSpaced (afterName.before stop)) start stop)

def enterRule (r : Reader) (start stop : Text) : Except Fault Reader :=
  match selectors (Text.before start stop) with
  | [] => .error ⟨.missingSelector, start⟩
  | selector :: others => .ok (r.enter (.rule (selector :: others)) start stop stop.tail)

/-- What is read where neither a block nor an at-rule nor a comment starts: a declaration, which
only blocks may hold. The rest of the text is `stop`. -/
def addDeclaration (r : Reader) (start stop : Text) : Except Fault Reader :=
  match r.blocks with
  | [] =>
    if stop.head? = some '}' then .error ⟨.unexpectedBrace, stop⟩
    else .error ⟨.unknownWord, start⟩
  | _ :: _ =>
    match declaration start (Text.before start stop) with
    | .error f => .error f
    | .ok n => .ok (r.push n stop)

def item (r : Reader) (start : Text) : Except Fault Reader :=
  match Scan.toStop ⟨r.afterIdent, []⟩ start with
  | .error f => .error f
  | .ok stop => if stop.head? = some '{' then r.enterRule start stop else r.addDeclaration start stop

def close (r : Reader) (start : Text) : Except Fault Reader :=
  match r.blocks with
  | [] => .error ⟨.unexpectedBrace, start⟩
  | b :: blocks => .ok ⟨blocks, b.node r.nodes.reverse :: b.earlier, false, start.tail⟩

def read (r : Reader) (c : Char) (t : Text) : Except Fault Reader :=
  if c = '}' then r.close (c :: t)
  else if c = ';' then .ok (r.skip false t)
  else if c = '/' ∧ t.head? = some '*' then r.comment (c :: t)
  else if c = '@' then r.atRule (c :: t)
  else if r.blocks.isEmpty ∧ ("<!--" : Text).isPrefixOf (c :: t) then .ok (r.skip true (t.drop 3))
  else if r.blocks.isEmpty ∧ ("-->" : Text).isPrefixOf (c :: t) then .ok (r.skip false (t.drop 2))
  else r.item (c :: t)

def skipBlanks (r : Reader) : Reader :=
  r.skip (r.afterIdent && !r.rest.head?.any Text.isBlank) (Text.skipBlanks r.rest)

/-- Reads the next part of the text. The answer is `none` when the text ends outside all blocks. -/
def step (r : Reader) : Except Fault (Option Reader) :=
  let r := r.skipBlanks
  match r.rest with
  | [] =>
    match r.blocks with
    | [] => .ok none
    | b :: _ => .error ⟨.unclosedBlock, b.brace⟩
  | c :: t => (r.read c t).map some

theorem comment_rest_length_lt {r r' : Reader} {c d : Char} {t : Text}
    (h : r.comment (c :: d :: t) = .ok r') : r'.rest.length < t.length + 2 := by
  unfold comment at h
  split at h
  · rename_i body rest hs
    cases h
    have := congrArg List.length (Lexeme.spanComment_text t)
    simp only [List.drop_succ_cons, List.drop_zero] at hs
    simp [hs] at this
    simp [push]
    omega
  · cases h

theorem addAtRule_rest_length_le (r : Reader) (name prelude start stop : Text) :
    (r.addAtRule name prelude start stop).rest.length ≤ stop.length := by
  unfold addAtRule
  split <;> simp [push, enter]

theorem atRule_rest_length_lt {r r' : Reader} {c : Char} {t : Text}
    (h : r.atRule (c :: t) = .ok r') : r'.rest.length < t.length + 1 := by
  unfold atRule at h
  have hn := Text.spanName_length_le t
  simp only [List.tail_cons] at h
  split at h
  · cases h
  · rename_i hname
    rw [hname] at hn
    split at h
    · cases h
    · rename_i stop hs
      cases h
      have := Scan.toStop_length_le hs
      have := addAtRule_rest_length_le r
      exact Nat.lt_succ_of_le (Nat.le_trans (this ..) (by simp at hn; omega))

theorem enterRule_rest_length_lt {r r' : Reader} {start stop : Text} (hstop : stop ≠ [])
    (h : r.enterRule start stop = .ok r') : r'.rest.length < stop.length := by
  have := List.length_pos_iff.2 hstop
  unfold enterRule at h
  split at h
  · cases h
  · cases h
    simp [enter]
    omega

theorem addDeclaration_rest {r r' : Reader} {start stop : Text}
    (h : r.addDeclaration start stop = .ok r') : r'.rest = stop := by
  unfold addDeclaration at h
  split at h
  · split at h <;> cases h
  · split at h <;> cases h
    rfl

theorem item_rest_length_lt {r r' : Reader} {c : Char} {t : Text} (hsemi : c ≠ ';') (hbrace : c ≠ '}')
    (h : r.item (c :: t) = .ok r') : r'.rest.length < t.length + 1 := by
  unfold item at h
  split at h
  · cases h
  · rename_i stop hs
    split at h
    · rename_i hopen
      have := Scan.toStop_length_le hs
      have := enterRule_rest_length_lt (by rintro rfl; simp at hopen) h
      simp only [List.length_cons] at *
      omega
    · rename_i hopen
      rw [addDeclaration_rest h]
      by_cases hc : c = '{'
      · subst hc
        rw [Scan.toStop] at hs
        simp [Scan.isStop] at hs
        subst hs
        simp at hopen
      · have := Scan.toStop_length_le_tail (by simp [Scan.isStop, hc, hsemi, hbrace]) hs
        omega

theorem read_rest_length_lt {r r' : Reader} {c : Char} {t : Text} (h : r.read c t = .ok r') :
    r'.rest.length < t.length + 1 := by
  unfold read at h
  split at h
  · unfold close at h
    split at h
    · cases h
    · cases h
      simp
  · split at h
    · cases h
      simp [skip]
    · split at h
      · rename_i hc
        cases t with
        | nil => simp at hc
        | cons d t => exact comment_rest_length_lt h
      · split at h
        · exact atRule_rest_length_lt h
        · split at h
          · cases h
            simp only [skip, List.length_drop]
            omega
          · split at h
            · cases h
              simp only [skip, List.length_drop]
              omega
            · exact item_rest_length_lt ‹_› ‹_› h

theorem step_rest_length_lt {r r' : Reader} (h : r.step = .ok (some r')) :
    r'.rest.length < r.rest.length := by
  unfold step at h
  have hb := Text.skipBlanks_length_le r.rest
  have hr : r.skipBlanks.rest = Text.skipBlanks r.rest := rfl
  simp only at h
  split at h
  · split at h <;> cases h
  · rename_i c t ht
    cases hd : r.skipBlanks.read c t with
    | error f => simp [hd, Except.map] at h
    | ok n =>
      simp only [hd, Except.map, Except.ok.injEq, Option.some.injEq] at h
      subst h
      have := read_rest_length_lt hd
      rw [← hr, ht, List.length_cons] at hb
      omega

def run (r : Reader) : Except Fault (List (Node Text)) :=
  match h : r.step with
  | .error f => .error f
  | .ok none => .ok r.nodes.reverse
  | .ok (some r') =>
    have := step_rest_length_lt h
    run r'
termination_by r.rest.length

end Reader

namespace Stylesheet

/-- The nodes of a text, each with the rest of the text from its first character on. -/
def nodes (t : Text) : Except Fault (List (Node Text)) := (Reader.ofText t).run

def provenance (source t : Text) (positions : Bool) (rest : Text) : Provenance :=
  ⟨source, if positions then some (Position.ofSuffix t rest) else none⟩

/-- Reads the style sheet `t`. Its nodes are marked with `source`, and with their positions if
`positions` says so. -/
def parse (source t : Text) (positions : Bool) : Except SyntaxError Stylesheet :=
  match nodes t with
  | .error f => .error (.ofFault source t f)
  | .ok ns => .ok ⟨some source, Node.mapOrigins (provenance source t positions) ns⟩

end Stylesheet

end Stylesmith
