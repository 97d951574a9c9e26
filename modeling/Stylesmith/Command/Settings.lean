import Stylesmith.Build.Pass
import Stylesmith.Command.Variable

set_option autoImplicit false

namespace Stylesmith

structure Settings where
  outputDirectory : Text
  mode : Build.Mode
  sourceMap : Bool
  maxParallel : Option Nat
  deriving DecidableEq, Repr

namespace Settings

def default : Settings := ⟨"dist", .development, false, none⟩

structure Flags where
  outputDirectory : Option Text
  mode : Option Build.Mode
  sourceMap : Bool
  maxParallel : Option Nat
  deriving DecidableEq, Repr

def variableLead : Text := "MORTAR_"

/-- The keys that the name of a variable spells, in lower case: dots stand between them, and white
space around the name does not count. A variable with an empty key gives no setting. -/
def keys? (variableName : Text) : Option (List Text) :=
  let name := Text.trim variableName
  if Text.startsIgnoringCase variableLead name then
    let keys := Text.splitOn '.' (Text.lowerAscii (Text.trim (name.drop variableLead.length)))
    if keys.any List.isEmpty then none else some keys
  else none

def addVariable (values : List (Text × Variable.Value)) (nameAndText : Text × Text) :
    List (Text × Variable.Value) :=
  match keys? nameAndText.1 with
  | some (key :: keys) =>
    Variable.Value.mergeEntries values [(key, .nest keys (Variable.parse nameAndText.2))]
  | _ => values

def fromVariables (environment : List (Text × Text)) : List (Text × Variable.Value) :=
  environment.foldl addVariable []

inductive Problem where
  | wrongType (found : Variable.Value) (expected : Text)
  /-- A value of the right kind that is out of range. -/
  | wrongValue (found : Variable.Value) (expected : Text)
  | unknownMode (name : Text)

structure Complaint where
  problem : Problem
  path : List Text

def complain {α : Type} (p : Problem) : Except Complaint α := .error ⟨p, []⟩

def under {α : Type} (key : Text) (r : Except Complaint α) : Except Complaint α :=
  r.mapError fun c => { c with path := key :: c.path }

def readPath : Variable.Value → Except Complaint Text
  | .string t => .ok t
  | .letter c => .ok [c]
  | v => complain (.wrongType v "path string")

def readBool : Variable.Value → Except Complaint Bool
  | .flag b => .ok b
  | v => complain (.wrongType v "a boolean")

def readNatural : Variable.Value → Except Complaint Nat
  | .unsigned n => .ok n
  | .signed i => if 0 ≤ i then .ok i.toNat else complain (.wrongValue (.signed i) "usize")
  | v => complain (.wrongType v "usize")

/-- Reads a mode: its name, or a table from its name to nothing, of which the first key counts. -/
def readMode : Variable.Value → Except Complaint Build.Mode
  | .string name =>
    if name = Build.Mode.name .development then .ok .development
    else if name = Build.Mode.name .production then .ok .production
    else complain (.unknownMode name)
  | .table entries =>
    match Variable.Value.inOrder entries with
    | [] => complain (.wrongType (.table []) "enum")
    | (name, v) :: _ =>
      under name <| complain <|
        if name = Build.Mode.name .development ∨ name = Build.Mode.name .production then
          .wrongType v "unit"
        else .unknownMode name
  | v => complain (.wrongType v "enum Mode")

/-- Reads a value of the environment, if no flag stands in for it. -/
def layered {α : Type} (flag : Option α) (key : Text) (read : Variable.Value → Except Complaint α)
    (values : List (Text × Variable.Value)) (fallback : α) : Except Complaint α :=
  match flag, values.lookup key with
  | some a, _ => .ok a
  | none, some v => under key (read v)
  | none, none => .ok fallback

def Problem.message : Problem → Text
  | wrongType found expected => "invalid type: found " ++ found.describe ++ ", expected " ++ expected
  | wrongValue found expected => "invalid value " ++ found.describe ++ ", expected " ++ expected
  | unknownMode name =>
    ("unknown variant: found " : Text) ++ Text.backquoted name ++
      ", expected \x60\x60development\x60 or \x60production\x60\x60"

def Complaint.message (c : Complaint) : Text :=
  let keys := c.path.map fun key => key.map Char.toUpper
  ("Invalid settings: " : Text) ++ c.problem.message ++ (" for key " : Text) ++
    Text.quoted (Text.join ['.'] keys) ++ (" in " : Text) ++ Text.backquoted variableLead ++
    " environment variable(s)"

/-- The settings that some flags and values give. The settings are judged by their names in order. -/
def ofLayers (flags : Flags) (values : List (Text × Variable.Value)) :
    Except Complaint Settings := do
  let maxParallel ← layered (flags.maxParallel.map some) "max_parallel"
    (fun v => (readNatural v).map some) values default.maxParallel
  let mode ← layered flags.mode "mode" readMode values default.mode
  let directory ← layered flags.outputDirectory "out_dir" readPath values default.outputDirectory
  let sourceMap ← layered (if flags.sourceMap then some true else none) "source_map" readBool values
    default.sourceMap
  .ok ⟨directory, mode, sourceMap, maxParallel⟩

def load (flags : Flags) (environment : List (Text × Text)) : Except Text Settings :=
  (ofLayers flags (fromVariables environment)).mapError Complaint.message

end Settings

end Stylesmith
