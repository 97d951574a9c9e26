import Stylesmith.Minify.Basic
import Stylesmith.SourceMap.Stitch
import Stylesmith.Stylesheet.Merge
import Stylesmith.Text.Lower
import Stylesmith.Transform.Registry

/-!
# Build passes

A pass takes the files of a bundle through the transforms and the parser, merges the sheets and
writes the result: readable in development, minified in production. A file that fails is reported
and stands for an empty sheet; the pass goes on.
-/

set_option autoImplicit false

namespace Stylesmith.Build

inductive Mode where
  | development
  | production
  deriving DecidableEq, Repr

def Mode.name : Mode → Text
  | development => "development"
  | production => "production"

/-- Reads the name of a mode, in any case, long or short. The error has the name in lower case. -/
def Mode.parse (t : Text) : Except Text Mode :=
  let name := Text.lower t
  if name = "development" ∨ name = "dev" then .ok .development
  else if name = "production" ∨ name = "prod" then .ok .production
  else .error (("Invalid build mode: " : Text) ++ name)

structure Options where
  mode : Mode
  sourceMaps : Bool
  deriving DecidableEq, Repr

/-- A file of a bundle, as its host supplies it. -/
structure Source where
  path : Text
  url : Option Text
  contents : Except Text Text
  /-- The source map that leads from the text to where it was made from. -/
  map : Option Text

structure Output where
  text : Text
  /-- The path that the sheet must have, if it must have one. -/
  path : Option Text
  map : Option Text
  deriving DecidableEq, Repr

def developmentPath : Text := "merged-stylesheets.css"

def hasImportsDirectory (address : Text) : Bool :=
  ("imports/" : Text).isPrefixOf address || Text.occursIn "/imports/" address

def isImportOnly (address : Text) : Bool :=
  (".import.css" : Text).isSuffixOf address || hasImportsDirectory address

def Source.address (s : Source) : Text := s.url.getD s.path

/-- The directory under which devices serve a bundle, which is not part of an origin. -/
def devicePrefix : Text := "/__cordova"

def origin (work : Text) (url : Option Text) : Text :=
  work ++ (url.map (Text.replaceFirst devicePrefix [])).getD []

structure Setup where
  config : Config
  stage : Stage

structure Processed where
  path : Text
  sheet : Stylesheet
  text : Text
  /-- The source map that leads from this text to where it was made from. -/
  map : Option Text
  error : Option FragmentError
  warnings : Nat
  calls : List Transform.Call

def Processed.failed (path : Text) (e : FragmentError) (warnings : Nat)
    (calls : List Transform.Call) : Processed :=
  ⟨path, Stylesheet.empty path, [], none, some e, warnings, calls⟩

def parseInto (path text : Text) (map : Option Text) (warnings : Nat)
    (calls : List Transform.Call) : Processed :=
  match Stylesheet.parse path text true with
  | .ok sheet => ⟨path, sheet, text, map, none, warnings, calls⟩
  | .error e => .failed path (.ofSyntaxError e) warnings calls

def mapThrough (s : Source) (contents : Text) (made : Option Text) : Option Text :=
  made.bind fun map =>
    match s.map with
    | some before => SourceMap.composeText? map before
    | none => SourceMap.retargetText? map s.path contents

def Setup.transforms (setup : Setup) (path : Text) : Bool :=
  !Package.excludes setup.config.excludedPackages path && !setup.stage.isEmpty

def process (setup : Setup) (work : Text) (sourceMaps : Bool) (s : Source) : Processed :=
  match s.contents with
  | .error reason =>
    .failed s.path (.plain (("failed to read " : Text) ++ s.path ++ (": " : Text) ++ reason)) 0 []
  | .ok contents =>
    if setup.transforms s.path then
      let run := setup.stage.run ⟨origin work s.url, setup.config.parser, sourceMaps⟩ contents
      match run.result with
      | .error f => .failed s.path f.toFragmentError 0 run.calls
      | .ok made =>
        parseInto s.path made.text (mapThrough s contents made.map) made.warnings.length run.calls
    else parseInto s.path contents s.map 0 []

structure Summary where
  fragments : Nat
  errors : Nat
  warnings : Nat
  outputs : Nat
  deriving DecidableEq, Repr

def Summary.zero : Summary := ⟨0, 0, 0, 0⟩

inductive Failure where
  | config (f : Config.Failure)
  | minify (e : SyntaxError)
  deriving DecidableEq, Repr

/-- The message of a failure. There is none about malformed TOML. -/
def Failure.message? : Failure → Option Text
  | config f => f.message?.map fun m => ("failed to load pipeline configuration: " : Text) ++ m
  | minify e => some e.minifyMessage

/-- What a pass did. Errors come with the index of their file; all output belongs to the first
file. -/
structure Report where
  result : Except Failure Summary
  reads : List Nat
  errors : List (Nat × FragmentError)
  outputs : List Output
  calls : List Transform.Call

inductive Delivery where
  | error (e : FragmentError)
  | sheet (o : Output)
  deriving DecidableEq, Repr

def Delivery.error? : Delivery → Option FragmentError
  | error e => some e
  | sheet _ => none

def Delivery.sheet? : Delivery → Option Output
  | error _ => none
  | sheet o => some o

/-- What is handed over in a pass, in order, each with the index of the file that it goes to: the
errors to their files, then the sheets to the first file. -/
def Report.deliveries (r : Report) : List (Nat × Delivery) :=
  r.errors.map (fun (i, e) => (i, .error e)) ++ r.outputs.map fun o => (0, .sheet o)

/-- The sheets that production writes. Without source maps, the merged sheet is written and read
again on the way. -/
def productionOutputs (setup : Setup) (fragments : Option (List Fragment)) (merged : Stylesheet) :
    Except SyntaxError (List Output) :=
  match fragments with
  | some fs =>
    .ok ((merged.minify setup.config.chunkBudget true).map fun p =>
      ⟨p.text, none, p.mappings.map fun ms => (SourceMap.stitch fs ms).text⟩)
  | none =>
    (Stylesheet.minifyText setup.config.chunkBudget
      (Stylesheet.render .pretty merged.children)).map fun m =>
        m.toChunks.map fun t => ⟨t, none, none⟩

def developmentOutputs (fragments : Option (List Fragment)) (merged : Stylesheet) : List Output :=
  let p := Stylesheet.print .pretty fragments.isSome merged.children
  let map := fragments.bind fun fs => p.mappings.map fun ms => (SourceMap.stitch fs ms).text
  [⟨p.text, some developmentPath, map⟩]

def outputs (setup : Setup) (o : Options) (done : List Processed) : Except SyntaxError (List Output) :=
  let merged := Stylesheet.merge setup.config.anchorReferences (done.map (·.sheet))
  let fragments :=
    if o.sourceMaps then
      some (done.foldl (fun fs p => Fragment.register fs (.ofTexts p.path p.text p.map)) [])
    else none
  match o.mode with
  | .development => .ok (developmentOutputs fragments merged)
  | .production => productionOutputs setup fragments merged

def pass (setup : Setup) (work : Text) (o : Options) (files : List Source) : Report :=
  let fragments := files.zipIdx.filter fun (s, _) => !isImportOnly s.address
  if fragments.isEmpty then ⟨.ok .zero, [], [], [], []⟩
  else
    let reads := fragments.map (·.2)
    let done := fragments.map fun (s, i) => (process setup work o.sourceMaps s, i)
    let all := done.map (·.1)
    let errors := done.filterMap fun (p, i) => p.error.map fun e => (i, e)
    let calls := all.flatMap (·.calls)
    match outputs setup o all with
    | .error e => ⟨.error (.minify e), reads, errors, [], calls⟩
    | .ok written =>
      let warnings := all.foldl (fun n p => n + p.warnings) 0 +
        (Stylesheet.mergeWarnings (all.map (·.sheet))).length
      ⟨.ok ⟨all.length, errors.length, warnings, written.length⟩, reads, errors, written, calls⟩

end Stylesmith.Build
