import Stylesmith.Json.Writer
import Stylesmith.Stylesheet.Basic

set_option autoImplicit false

namespace Stylesmith

def Position.toJson (p : Position) : Json.Value :=
  .object [("line", .number (.natural p.line)), ("column", .number (.natural p.column))]

def Provenance.toJson (p : Provenance) : Json.Value :=
  .object [("source", .string p.source), ("position", (p.position.map Position.toJson).getD .null)]

namespace Node

mutual

def toJson : Node Provenance → Json.Value
  | rule selectors children o =>
    .object [("type", .string "rule"), ("selectors", .array (selectors.map .string)),
      ("children", .array (allToJson children)), ("provenance", o.toJson)]
  | group name prelude children o =>
    .object [("type", .string "atrule"), ("name", .string name), ("prelude", .string prelude),
      ("block", .array (allToJson children)), ("provenance", o.toJson)]
  | statement name prelude o =>
    .object [("type", .string "atrule"), ("name", .string name), ("prelude", .string prelude),
      ("block", .null), ("provenance", o.toJson)]
  | declaration property value important o =>
    .object [("type", .string "decl"), ("property", .string property), ("value", .string value),
      ("important", .bool important), ("provenance", o.toJson)]
  | comment text o =>
    .object [("type", .string "comment"), ("text", .string text), ("provenance", o.toJson)]

def allToJson : List (Node Provenance) → List Json.Value
  | [] => []
  | n :: ns => n.toJson :: allToJson ns

end

end Node

def Stylesheet.toJson (s : Stylesheet) : Json.Value :=
  .object [("source", (s.source.map .string).getD .null), ("children", .array (Node.allToJson s.children))]

end Stylesmith
