import Stylesmith.Config.Basic
import Stylesmith.Json.Normal
import Stylesmith.Json.Writer
import Stylesmith.Text.Quoted

/-!
# Reading a configuration

A configuration is read from a JSON value. Plugins are a list of names and descriptions, or an
object from names to options. The other options may stand in an object of their own or beside it;
those in the object win.
-/

set_option autoImplicit false

namespace Stylesmith

namespace Config

inductive Problem where
  | wrongType (found : Json.Value) (expected : Text)
  /-- A value of the right kind that is out of range. -/
  | wrongValue (found : Json.Value) (expected : Text)
  | wrongLength (found : Nat) (expected : Text)
  | wrongPlugins
  /-- A plugin whose options are neither an object nor a flag. -/
  | wrongPlugin (name : Text) (found : Json.Value)
  | other (message : Text)

structure Complaint where
  problem : Problem
  path : Option (List Text)

structure Options where
  parser : Option Text
  excludedPackages : Option (List Text)
  anchorReferences : Option Bool
  chunkBudget : Option Nat
  deriving DecidableEq, Repr

def Options.none : Options := ⟨.none, .none, .none, .none⟩

def Options.orElse (o fallback : Options) : Options where
  parser := o.parser.or fallback.parser
  excludedPackages := o.excludedPackages.or fallback.excludedPackages
  anchorReferences := o.anchorReferences.or fallback.anchorReferences
  chunkBudget := o.chunkBudget.or fallback.chunkBudget

def complain {α : Type} (p : Problem) : Except Complaint α := .error ⟨p, some []⟩

def under {α : Type} (key : Text) (r : Except Complaint α) : Except Complaint α :=
  r.mapError fun c => { c with path := c.path.map (key :: ·) }

def readString : Json.Value → Except Complaint Text
  | .string t => .ok t
  | v => complain (.wrongType v "a string")

def readBool : Json.Value → Except Complaint Bool
  | .bool b => .ok b
  | v => complain (.wrongType v "a boolean")

def readNatural : Json.Value → Except Complaint Nat
  | .number (.natural n) => .ok n
  | .number (.negative n) => complain (.wrongValue (.number (.negative n)) "usize")
  | v => complain (.wrongType v "usize")

def readItems {α : Type} (read : Json.Value → Except Complaint α) (i : Nat) :
    List Json.Value → Except Complaint (List α)
  | [] => .ok []
  | v :: vs => do
    let a ← under (Nat.repr i) (read v)
    let as ← readItems read (i + 1) vs
    .ok (a :: as)

def readStrings : Json.Value → Except Complaint (List Text)
  | .array items => readItems readString 0 items
  | v => complain (.wrongType v "a sequence")

def readOptional {α : Type} (read : Json.Value → Except Complaint α) :
    Json.Value → Except Complaint (Option α)
  | .null => .ok none
  | v => (read v).map some

/-- Reads one option; a key that names none is ignored. -/
def readOption (o : Options) (key : Text) (v : Json.Value) : Except Complaint Options :=
  under key <|
    if key = "parser" then (readOptional readString v).map fun x => { o with parser := x }
    else if key = "excludedPackages" then
      (readOptional readStrings v).map fun x => { o with excludedPackages := x }
    else if key = "rewriteUrls" then
      (readOptional readBool v).map fun x => { o with anchorReferences := x }
    else if key = "maxSelectorsPerChunk" then
      (readOptional readNatural v).map fun x => { o with chunkBudget := x }
    else .ok o

def readFields (o : Options) : List (Text × Json.Value) → Except Complaint Options
  | [] => .ok o
  | (key, v) :: fields => do readFields (← readOption o key v) fields

def optionNames : List Text := ["parser", "excludedPackages", "rewriteUrls", "maxSelectorsPerChunk"]

structure Dialect where
  /-- Whether a list of options may be too long. -/
  longLists : Bool

/-- Reads options that stand in a value of their own: an object, or a list of all four. -/
def readOptions (d : Dialect) : Json.Value → Except Complaint Options
  | .object fields => readFields .none fields
  | .array items =>
    let named := optionNames.zip items
    let read := named.zipIdx.foldlM
      (fun o ((key, v), i) => (readOption o key v).mapError fun (c : Complaint) =>
        { c with path := c.path.map fun (p : List Text) => Nat.repr i :: p.tail }) Options.none
    read.bind fun o =>
      if items.length < 4 then
        complain (.wrongLength items.length "struct RawOptions with 4 elements")
      else if 4 < items.length ∧ !d.longLists then
        complain (.wrongLength items.length "fewer elements in array")
      else .ok o
  | v => complain (.wrongType v "struct RawOptions")

/-- A plugin of a list: a name, or a description as an object or as a list of name and options. -/
def readPlugin? : Json.Value → Option Plugin
  | .string name => some (.plain name)
  | .object fields =>
    match Json.Value.get? "name" fields with
    | some (.string name) =>
      some ⟨name, ((Json.Value.get? "options" fields).getD (.object [])).finite⟩
    | _ => none
  | .array [.string name] => some (.plain name)
  | .array [.string name, options] => some ⟨name, options.finite⟩
  | _ => none

inductive Plugins where
  | list (plugins : List Plugin)
  | table (entries : List (Text × Json.Value))

def readPlugins : Json.Value → Except Complaint Plugins
  | .null => .ok (.list [])
  | .array items =>
    match items.mapM readPlugin? with
    | some plugins => .ok (.list plugins)
    | none => complain .wrongPlugins
  | .object fields => .ok (.table (Json.finiteFields fields))
  | _ => complain .wrongPlugins

/-- The plugins of an object from names to options: `false` leaves a plugin out, `true` and null
stand for no options. -/
def enabled : List (Text × Json.Value) → Except Problem (List Plugin)
  | [] => .ok []
  | (name, options) :: entries =>
    match options with
    | .bool false => enabled entries
    | .bool true | .null => (enabled entries).map (Plugin.plain name :: ·)
    | .object fields => (enabled entries).map (⟨name, .object fields⟩ :: ·)
    | other => .error (.wrongPlugin name other)

def Plugins.toList : Plugins → Except Problem (List Plugin)
  | list plugins => .ok plugins
  | table entries => enabled entries

structure Parts where
  plugins : Plugins
  options : Options

def readParts (d : Dialect) (p : Parts) : List (Text × Json.Value) → Except Complaint Parts
  | [] => .ok p
  | (key, v) :: fields => do
    if key = "plugins" then
      readParts d { p with plugins := ← under key (readPlugins v) } fields
    else if key = "options" then
      readParts d { p with options := ← under key (readOptions d v) } fields
    else readParts d p fields

def displaced {α : Type} (r : Except Complaint α) : Except Complaint α :=
  r.mapError fun c => { c with path := none }

def decode (d : Dialect) : Json.Value → Except Complaint Config
  | .object fields => do
    let parts ← readParts d ⟨.list [], .none⟩ fields
    let beside ← displaced (readFields .none
      (fields.filter fun (key, _) => key ≠ "plugins".toList ∧ key ≠ "options".toList))
    let plugins ← parts.plugins.toList.mapError (⟨·, none⟩)
    let options := parts.options.orElse beside
    .ok ⟨plugins, options.parser, options.excludedPackages.getD [],
      options.anchorReferences.getD false, options.chunkBudget⟩
  | v => .error ⟨.wrongType v "struct RawConfig", none⟩

def describe : Json.Value → Text
  | .null => "null"
  | .bool b => "boolean " ++ Text.backquoted (if b then "true" else "false")
  | .number (.real x) => "floating point " ++ Text.backquoted x.scientific
  | .number n => "integer " ++ Text.backquoted n.text
  | .string t => "string " ++ Text.quoted t
  | .array _ => "sequence"
  | .object _ => "map"

def Problem.wording (typeLead valueLead : Text) (describe : Json.Value → Text) : Problem → Text
  | wrongType found expected => typeLead ++ describe found ++ ", expected " ++ expected
  | wrongValue found expected => valueLead ++ describe found ++ ", expected " ++ expected
  | wrongLength found expected =>
    ("invalid length " : Text) ++ (Nat.repr found : Text) ++ ", expected " ++ expected
  | wrongPlugins => "data did not match any variant of untagged enum RawPlugins"
  | wrongPlugin name found =>
    ("plugin " : Text) ++ Text.backquoted name ++
      " must map to an options object, \x60true\x60 or \x60false\x60, found " ++ found.compact
  | other message => message

def Problem.message (p : Problem) : Text :=
  p.wording "invalid type: " "invalid value: " describe

def ofValue (v : Json.Value) : Except Problem Config :=
  (decode ⟨false⟩ v).mapError (·.problem)

end Config

end Stylesmith
