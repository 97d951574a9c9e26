import Stylesmith.SourceMap.Json
import Stylesmith.Stylesheet.Printer

set_option autoImplicit false

namespace Stylesmith

/-- A fragment as the source of printed nodes: its text, and the source map that leads from it to
its own sources. -/
structure Fragment where
  path : Text
  content : Text
  map : Option SourceMap
  deriving DecidableEq, Repr

namespace Fragment

/-- A fragment with a source map given as text; one that is malformed counts as none. -/
def ofTexts (path content : Text) (map : Option Text) : Fragment :=
  ⟨path, content, map.bind SourceMap.parse?⟩

/-- The fragments by path. A later one replaces an earlier one of its path. -/
def register (fragments : List Fragment) (f : Fragment) : List Fragment :=
  fragments.filter (·.path != f.path) ++ [f]

def resolve (f : Fragment) (p : Position) : Option SourceMap.Place :=
  let spot : Spot := ⟨p.line - 1, Text.column16 f.content.lines.toArray p⟩
  match f.map with
  | none => some ⟨f.path, f.content, spot⟩
  | some map => (SourceMap.lookup map.links spot).map map.place

/-- Where a position leads among some fragments. A path that is none of theirs leads to itself. -/
def resolveIn (fragments : List Fragment) (path : Text) (p : Position) : Option SourceMap.Place :=
  match fragments.find? (·.path == path) with
  | some f => f.resolve p
  | none => some ⟨path, [], p.line - 1, p.column - 1⟩

end Fragment

namespace SourceMap

/-- The source map of printed nodes. Mappings that lead nowhere are dropped. -/
def stitch (fragments : List Fragment) (mappings : List Mapping) : SourceMap :=
  build [] (mappings.filterMap fun m =>
    m.origin.bind fun (path, p) =>
      (Fragment.resolveIn fragments path p).map fun place =>
        (⟨m.generated.line - 1, m.generated.column - 1⟩, place))

end SourceMap

end Stylesmith
