import Stylesmith.Minify.Header
import Stylesmith.Minify.Value
import Stylesmith.Stylesheet.Parser
import Stylesmith.Stylesheet.Printer

/-!
# Minification

A sheet is minified by dropping the nodes without effect and compacting the texts of the others.
With a budget, the nodes are then split into chunks that are sheets by themselves and hold at most
so many selectors each, as far as single nodes allow.
-/

set_option autoImplicit false

namespace Stylesmith

namespace Node

variable {α : Type}

def conditionalGroups : List Text := ["media", "supports", "container", "document", "-moz-document"]

/-- Whether a property is custom: its value is kept as it was written. -/
def isCustomProperty (property : Text) : Bool := ("--" : Text).isPrefixOf property

mutual

/-- The minified node, or nothing if it has no effect. -/
def minify? : Node α → Option (Node α)
  | rule selectors children o =>
    match minifyAll children with
    | [] => none
    | n :: ns => some (rule (selectors.map Selector.compact) (n :: ns) o)
  | group name prelude children o =>
    match minifyAll children with
    | [] =>
      if conditionalGroups.contains name then none
      else some (group name (Prelude.compact prelude) [] o)
    | n :: ns => some (group name (Prelude.compact prelude) (n :: ns) o)
  | statement name prelude o => some (statement name (Prelude.compact prelude) o)
  | declaration property value important o =>
    some (declaration property
      (if isCustomProperty property then value else Value.compact property value) important o)
  | comment text o => if text.head? = some '!' then some (comment text o) else none

def minifyAll : List (Node α) → List (Node α)
  | [] => []
  | n :: ns =>
    match minify? n with
    | none => minifyAll ns
    | some m => m :: minifyAll ns

end

mutual

def selectorCount : Node α → Nat
  | rule selectors children _ => selectors.length + selectorCounts children
  | group _ _ children _ => selectorCounts children
  | _ => 0

def selectorCounts : List (Node α) → Nat
  | [] => 0
  | n :: ns => selectorCount n + selectorCounts ns

end

def isStatementNamed (name : Text) : Node α → Bool
  | statement n _ _ => n == name
  | _ => false

/-- Whether a node may be moved to another chunk than the first: it is none of the statements that
must lead a sheet. -/
def isBody (n : Node α) : Bool :=
  !(n.isStatementNamed "charset" || n.isStatementNamed "import" || n.isStatementNamed "namespace")

end Node

namespace Chunk

variable {α : Type}

/-- Splits nodes into runs: a run ends before the node that would exceed the budget, unless the run
holds only comments. `run` holds the nodes of the current run and `count` their selectors. -/
def runs (budget : Nat) (run : List (Node α)) (count : Nat) : List (Node α) → List (List (Node α))
  | [] => [run]
  | n :: ns =>
    if count + n.selectorCount > budget ∧ run.any (!·.isComment) then
      run :: runs budget [n] n.selectorCount ns
    else runs budget (run ++ [n]) (count + n.selectorCount) ns

/-- The nodes of each chunk. Every chunk repeats the `@charset` and `@namespace` statements; the
imports stay in the first. No budget, or one of zero, does not split. -/
def split (budget : Option Nat) (ns : List (Node α)) : List (List (Node α)) :=
  let max := budget.getD 0
  if max = 0 ∨ Node.selectorCounts ns ≤ max then [ns]
  else
    let charsets := ns.filter (·.isStatementNamed "charset")
    let imports := ns.filter (·.isStatementNamed "import")
    let namespaces := ns.filter (·.isStatementNamed "namespace")
    match runs max [] 0 (ns.filter (·.isBody)) with
    | [] => []
    | first :: others =>
      (charsets ++ imports ++ namespaces ++ first) :: others.map (charsets ++ namespaces ++ ·)

end Chunk

inductive Minified where
  | text (t : Text)
  | chunks (ts : List Text)
  deriving DecidableEq, Repr

namespace Minified

/-- A single chunk counts as a text. -/
def ofChunks : List Text → Minified
  | [t] => text t
  | ts => chunks ts

def toChunks : Minified → List Text
  | text t => [t]
  | chunks ts => ts

def isEmpty (m : Minified) : Bool := m.toChunks.all (·.isEmpty)

end Minified

namespace Stylesheet

def minifiedChunks {α : Type} (budget : Option Nat) (ns : List (Node α)) : List (List (Node α)) :=
  Chunk.split budget (Node.minifyAll ns)

def minify (budget : Option Nat) (withMappings : Bool) (s : Stylesheet) : List Printed :=
  (minifiedChunks budget s.children).map (print .compact withMappings)

def mergedName : Text := "<merged>"

def minifyText (budget : Option Nat) (t : Text) : Except SyntaxError Minified :=
  if (Text.trim t).isEmpty then .ok (.text [])
  else (parse mergedName t false).map fun s =>
    .ofChunks ((minifiedChunks budget s.children).map (render .compact))

end Stylesheet

def SyntaxError.minifyMessage (e : SyntaxError) : Text :=
  ("merged stylesheet is not valid CSS: " : Text) ++ e.message

end Stylesmith
