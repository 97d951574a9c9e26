import Stylesmith.Text.Position

set_option autoImplicit false

namespace Stylesmith

/-- A node of a style sheet or of a block; `α` is what nodes remember of where they come from. -/
inductive Node (α : Type) where
  | rule (selectors : List Text) (children : List (Node α)) (origin : α)
  /-- An at-rule with a block, such as `@media print { }`. -/
  | group (name prelude : Text) (children : List (Node α)) (origin : α)
  /-- An at-rule without a block, such as `@import "a";`. -/
  | statement (name prelude : Text) (origin : α)
  | declaration (property value : Text) (important : Bool) (origin : α)
  | comment (text : Text) (origin : α)

structure Provenance where
  source : Text
  position : Option Position
  deriving DecidableEq, Repr

structure Stylesheet where
  source : Option Text
  children : List (Node Provenance)

namespace Node

variable {α β : Type}

def origin : Node α → α
  | .rule _ _ o | .group _ _ _ o | .statement _ _ o | .declaration _ _ _ o | .comment _ o => o

def isComment : Node α → Bool
  | .comment _ _ => true
  | _ => false

def isDeclaration : Node α → Bool
  | .declaration _ _ _ _ => true
  | _ => false

def isStatement : Node α → Bool
  | .statement _ _ _ => true
  | _ => false

def atName? : Node α → Option Text
  | .group name _ _ _ | .statement name _ _ => some name
  | _ => none

def isImport (n : Node α) : Bool := n.atName? == some "import"

def isCharset (n : Node α) : Bool := n.atName? == some "charset"

mutual

def mapOrigin (f : α → β) : Node α → Node β
  | .rule selectors children o => .rule selectors (mapOrigins f children) (f o)
  | .group name prelude children o => .group name prelude (mapOrigins f children) (f o)
  | .statement name prelude o => .statement name prelude (f o)
  | .declaration property value important o => .declaration property value important (f o)
  | .comment text o => .comment text (f o)

def mapOrigins (f : α → β) : List (Node α) → List (Node β)
  | [] => []
  | n :: ns => mapOrigin f n :: mapOrigins f ns

end

theorem mapOrigins_eq_map (f : α → β) (ns : List (Node α)) :
    mapOrigins f ns = ns.map (mapOrigin f) := by
  induction ns with
  | nil => rfl
  | cons n ns ih => simp [mapOrigins, ih]

mutual

def ruleCount : Node α → Nat
  | .rule _ children _ => 1 + ruleCounts children
  | .group _ _ children _ => ruleCounts children
  | _ => 0

def ruleCounts : List (Node α) → Nat
  | [] => 0
  | n :: ns => ruleCount n + ruleCounts ns

end

end Node

namespace Stylesheet

def empty (source : Text) : Stylesheet := ⟨some source, []⟩

def isEmpty (s : Stylesheet) : Bool := s.children.isEmpty

def ruleCount (s : Stylesheet) : Nat := Node.ruleCounts s.children

end Stylesheet

end Stylesmith
