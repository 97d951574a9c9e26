import Stylesmith.Stylesheet.Basic

/-!
# Writing style sheets

A node is laid out as a list of pieces: text, and marks that say where a node begins. The pieces
give both the written text and, for every node in order, the position at which it was written.
-/

set_option autoImplicit false

namespace Stylesmith

inductive Layout where
  /-- One item a line, indented by two spaces a level. -/
  | pretty
  /-- Without spaces and line ends between items, and without a semicolon before a brace. -/
  | compact
  deriving DecidableEq, Repr

/-- A piece of output: some text, or the mark that the node with this origin begins. -/
inductive Piece (α : Type) where
  | text (t : Text)
  | mark (origin : α)
  deriving DecidableEq, Repr

namespace Piece

variable {α : Type}

def texts : List (Piece α) → Text
  | [] => []
  | text t :: ps => t ++ texts ps
  | mark _ :: ps => texts ps

/-- The position after some more output. Columns count UTF-16 units, and only a line feed ends a
line, as readers of source maps have it. -/
def advance (p : Position) : Text → Position
  | [] => p
  | c :: t =>
    if c = '\n' then advance ⟨p.line + 1, 1⟩ t
    else advance ⟨p.line, p.column + Text.charUnits16 c⟩ t

/-- The marks among some pieces, each with the position at which it stands. -/
def marks (p : Position) : List (Piece α) → List (Position × α)
  | [] => []
  | text t :: ps => marks (advance p t) ps
  | mark o :: ps => (p, o) :: marks p ps

@[simp] theorem texts_append (ps qs : List (Piece α)) : texts (ps ++ qs) = texts ps ++ texts qs := by
  induction ps with
  | nil => rfl
  | cons p ps ih => cases p <;> simp [texts, ih]

theorem advance_append (p : Position) (a b : Text) : advance p (a ++ b) = advance (advance p a) b := by
  induction a generalizing p with
  | nil => rfl
  | cons c a ih =>
    simp only [List.cons_append, advance]
    split <;> exact ih _

theorem marks_append (p : Position) (ps qs : List (Piece α)) :
    marks p (ps ++ qs) = marks p ps ++ marks (advance p (texts ps)) qs := by
  induction ps generalizing p with
  | nil => rfl
  | cons q ps ih => cases q <;> simp [marks, texts, advance_append, ih]

end Piece

namespace Layout

def newLine (depth : Nat) : Text := '\n' :: List.replicate (2 * depth) ' '

def selectorGap (depth : Nat) : Layout → Text
  | pretty => ',' :: newLine depth
  | compact => [',']

def declaration (property value : Text) (important : Bool) : Layout → Text
  | pretty => property ++ ": " ++ value ++ (if important then (" !important" : Text) else []) ++ ";"
  | compact => property ++ ":" ++ value ++ (if important then ("!important" : Text) else [])

def atHeader (name prelude : Text) : Text :=
  '@' :: name ++ (if prelude.isEmpty then [] else ' ' :: prelude)

def openBrace : Layout → Text
  | pretty => [' ', '{']
  | compact => ['{']

def closeBrace (depth : Nat) (childless : Bool) : Layout → Text
  | pretty => if childless then ['}'] else newLine depth ++ ['}']
  | compact => ['}']

def itemGap (depth : Nat) (afterDeclaration : Bool) : Layout → Text
  | pretty => newLine depth
  | compact => if afterDeclaration then ";" else []

def topGap (bothStatements : Bool) : Layout → Text
  | pretty => if bothStatements then "\n" else "\n\n"
  | compact => []

def topEnd (childless : Bool) : Layout → Text
  | pretty => if childless then [] else "\n"
  | compact => []

end Layout

namespace Node

variable {α : Type}

mutual

def pieces (layout : Layout) (depth : Nat) : Node α → List (Piece α)
  | rule selectors children o =>
    .mark o :: .text (Text.join (layout.selectorGap depth) selectors) ::
      .text (layout.openBrace) ::
        (itemPieces layout (depth + 1) false children ++
          [.text (layout.closeBrace depth children.isEmpty)])
  | group name prelude children o =>
    .mark o :: .text (Layout.atHeader name prelude) ::
      .text (layout.openBrace) ::
        (itemPieces layout (depth + 1) false children ++
          [.text (layout.closeBrace depth children.isEmpty)])
  | statement name prelude o => [.mark o, .text (Layout.atHeader name prelude ++ ";")]
  | declaration property value important o =>
    [.mark o, .text (layout.declaration property value important)]
  | comment text o => [.mark o, .text ("/*" ++ text ++ "*/")]

def itemPieces (layout : Layout) (depth : Nat) (afterDeclaration : Bool) :
    List (Node α) → List (Piece α)
  | [] => []
  | n :: ns =>
    .text (layout.itemGap depth afterDeclaration) ::
      (pieces layout depth n ++ itemPieces layout depth n.isDeclaration ns)

end

def laterPieces (layout : Layout) (afterStatement : Bool) : List (Node α) → List (Piece α)
  | [] => []
  | n :: ns =>
    .text (layout.topGap (afterStatement && n.isStatement)) ::
      (pieces layout 0 n ++ laterPieces layout n.isStatement ns)

def sheetPieces (layout : Layout) : List (Node α) → List (Piece α)
  | [] => [.text (layout.topEnd true)]
  | n :: ns =>
    pieces layout 0 n ++ laterPieces layout n.isStatement ns ++ [.text (layout.topEnd false)]

end Node

structure Mapping where
  generated : Position
  origin : Option (Text × Position)
  deriving DecidableEq, Repr

structure Printed where
  text : Text
  mappings : Option (List Mapping)
  deriving DecidableEq, Repr

namespace Stylesheet

def render {α : Type} (layout : Layout) (ns : List (Node α)) : Text :=
  Piece.texts (Node.sheetPieces layout ns)

/-- For each node of a sheet in order, where it was written and where it comes from. -/
def mappings (layout : Layout) (ns : List (Node Provenance)) : List Mapping :=
  (Piece.marks .first (Node.sheetPieces layout ns)).map fun (generated, origin) =>
    ⟨generated, origin.position.map fun p => (origin.source, p)⟩

def print (layout : Layout) (withMappings : Bool) (ns : List (Node Provenance)) : Printed :=
  ⟨render layout ns, if withMappings then some (mappings layout ns) else none⟩

end Stylesheet

end Stylesmith
