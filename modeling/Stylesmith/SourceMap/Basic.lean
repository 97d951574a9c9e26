import Stylesmith.Text.Basic

/-!
# Source maps

A source map says for places of a generated text where they come from. Lines and columns count
from zero, and columns count UTF-16 units. A place that no token names belongs to the last token
before it on its line.
-/

set_option autoImplicit false

namespace Stylesmith

/-- A line and a column, both counted from zero. -/
structure Spot where
  line : Nat
  column : Nat
  deriving DecidableEq, Repr

def Spot.le (a b : Spot) : Bool := a.line < b.line || (a.line == b.line && a.column ≤ b.column)

namespace SourceMap

/-- A token: a spot of the generated text and, unless it has none, its source by index and the
spot there. -/
structure Token where
  generated : Spot
  origin : Option (Nat × Spot)
  deriving DecidableEq, Repr

structure Link where
  generated : Spot
  source : Nat
  origin : Spot
  deriving DecidableEq, Repr

def Link.le (a b : Link) : Bool := a.generated.le b.generated

end SourceMap

/-- A source map. Sources may lack a content. -/
structure SourceMap where
  sources : List Text
  contents : List (Option Text)
  tokens : List SourceMap.Token
  deriving DecidableEq, Repr

namespace SourceMap

def sourced (m : SourceMap) : List Link :=
  m.tokens.filterMap fun t => t.origin.map fun (source, at') => ⟨t.generated, source, at'⟩

/-- The tokens with a source in the order of their generated spots; tokens of one spot keep their
order. -/
def links (m : SourceMap) : List Link := m.sourced.mergeSort Link.le

/-- The last link at or before a spot, if it is on the same line. -/
def lookup (links : List Link) (at' : Spot) : Option Link :=
  (links.filter fun l => l.generated.le at').getLast?.filter fun l => l.generated.line == at'.line

structure Place where
  source : Text
  content : Text
  spot : Spot
  deriving DecidableEq, Repr

/-- Where a link leads. A source without a name or content has empty ones. -/
def place (m : SourceMap) (l : Link) : Place :=
  ⟨m.sources[l.source]?.getD [], (m.contents[l.source]?.getD none).getD [], l.origin⟩

/-- The sources with one more, unless one of its name is there. -/
def addSource (sources : List (Text × Text)) (source content : Text) : List (Text × Text) :=
  if sources.any (·.1 == source) then sources else sources ++ [(source, content)]

/-- The map with these tokens. Each source is listed once, after the given ones, in the order of
first use and with the content of its first use. -/
def build (sources : List (Text × Text)) (entries : List (Spot × Place)) : SourceMap :=
  let all := entries.foldl (fun all e => addSource all e.2.source e.2.content) sources
  { sources := all.map (·.1)
    contents := all.map fun s => some s.2
    tokens := entries.map fun (generated, p) =>
      ⟨generated, some (all.findIdx (·.1 == p.source), p.spot)⟩ }

/-- The map from the text of `outer` to the sources of `inner`, when `outer` leads to the text of
`inner`. Tokens that lead nowhere in `inner` are dropped. -/
def compose (outer inner : SourceMap) : SourceMap :=
  let known := inner.links
  build [] (outer.links.filterMap fun l =>
    (lookup known l.origin).map fun found => (l.generated, inner.place found))

def retarget (m : SourceMap) (source content : Text) : SourceMap :=
  build [(source, content)] (m.links.map fun l => (l.generated, ⟨source, content, l.origin⟩))

end SourceMap

end Stylesmith
