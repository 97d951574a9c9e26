import Stylesmith.Json.Skip
import Stylesmith.Json.Writer
import Stylesmith.SourceMap.Vlq

set_option autoImplicit false

namespace Stylesmith

namespace Json.Value

def string? : Value → Option Text
  | string t => some t
  | _ => none

def listOf? {α : Type} (item : Value → Option α) : Value → Option (List α)
  | array items => items.mapM item
  | _ => none

def optional? {α : Type} (kind : Value → Option α) : Option Value → Option (Option α)
  | none | some null => some none
  | some v => (kind v).map some

def natural32? : Value → Option Nat
  | number (.natural n) => if n < beyond32 then some n else none
  | _ => none

end Json.Value

namespace SourceMap

open Json.Value (optional? listOf? string? natural32?)

structure Fields where
  version : Option Json.Value
  file : Option Json.Value
  mappings : Option Json.Value
  sourceRoot : Option Json.Value
  sources : Option Json.Value
  contents : Option Json.Value
  names : Option Json.Value
  debugId : Option Json.Value
  ignored : Option Json.Value

/-- The value of a field that goes by some names. It may be missing, but not be given twice. -/
def field? (fields : List (Text × Text)) (names : List Text) : Option (Option Json.Value) :=
  match fields.filter fun (key, _) => names.contains key with
  | [] => some none
  | [(_, t)] => (Json.parse t).toOption.map some
  | _ => none

def Fields.ofObject? (fields : List (Text × Text)) : Option Fields := do
  some {
    version := ← field? fields ["version"]
    file := ← field? fields ["file"]
    mappings := ← field? fields ["mappings"]
    sourceRoot := ← field? fields ["sourceRoot"]
    sources := ← field? fields ["sources"]
    contents := ← field? fields ["sourcesContent"]
    names := ← field? fields ["names"]
    debugId := ← field? fields ["debugId"]
    ignored := ← field? fields ["ignoreList", "x_google_ignoreList"] }

def Fields.ofArray? : Json.Value → Option Fields
  | .array [version, file, mappings, sourceRoot, sources, contents, names, debugId, ignored] =>
    some ⟨version, file, mappings, sourceRoot, sources, contents, names, debugId, ignored⟩
  | _ => none

def ofFields? (f : Fields) : Option SourceMap := do
  if (← natural32? (← f.version)) ≠ 3 then none
  let mappings ← (← f.mappings).string?
  let sources ← listOf? string? (← f.sources)
  let names ← listOf? string? (f.names.getD (.array []))
  let contents ← optional? (listOf? fun
    | .null => some none
    | c => (string? c).map some) f.contents
  let _ ← optional? string? f.file
  let _ ← optional? string? f.sourceRoot
  let _ ← optional? string? f.debugId
  let ignored ← optional? (listOf? natural32?) f.ignored
  if (ignored.getD []).any fun source => sources.length ≤ source then none
  let tokens ← decodeMappings sources.length names.length mappings
  some ⟨sources, contents.getD [], tokens⟩

def parse? (t : Text) : Option SourceMap := do
  let fields ← match Json.fieldTexts? t with
    | some fields => Fields.ofObject? fields
    | none => Fields.ofArray? (← (Json.parse t).toOption)
  ofFields? fields

def quoteAll (ts : List Text) : Text := Text.join [','] (ts.map Json.quote)

/-- The JSON text of a source map. A map without sources has no contents either. -/
def text (m : SourceMap) : Text :=
  let contents : Text :=
    if m.contents.isEmpty then []
    else (",\"sourcesContent\":[" : Text) ++ quoteAll (m.contents.map (·.getD [])) ++ [']']
  ("\x7b\"version\":3,\"names\":[],\"sources\":[" : Text) ++ quoteAll m.sources ++ [']'] ++ contents ++
    (",\"mappings\":\"" : Text) ++ encodeMappings m.tokens ++ ("\"\x7d" : Text)

def composeText? (outer inner : Text) : Option Text := do
  some (compose (← parse? outer) (← parse? inner)).text

def retargetText? (map source content : Text) : Option Text := do
  some (retarget (← parse? map) source content).text

end SourceMap

end Stylesmith
