import Stylesmith.Build.Pass
import Stylesmith.FileTree.Basic

set_option autoImplicit false

namespace Stylesmith.Command

open Build (Output)

/-- The name of a sheet that need not have a certain one: a number tells it from the others. -/
def freeName (count index : Nat) : Text :=
  if count = 1 then "styles.css"
  else ("styles-" : Text) ++ (Nat.repr (index + 1) : Text) ++ (".css" : Text)

def outputNames (os : List Output) : List Text :=
  os.zipIdx.map fun (o, i) => o.path.getD (freeName os.length i)

def mapName (name : Text) : Text := name ++ (".map" : Text)

/-- The text of a sheet as it is written: with a source map, a comment leads to it. -/
def writtenText (name : Text) (o : Output) : Text :=
  match o.map with
  | none => o.text
  | some _ =>
    o.text ++ (if o.text.isEmpty ∨ o.text.getLast? = some '\n' then [] else ['\n']) ++
      ("/*# sourceMappingURL=" : Text) ++ mapName name ++ (" */\n" : Text)

structure FileError where
  path : Text
  fault : FileTree.Fault
  deriving DecidableEq, Repr

def writeFile (t : FileTree) (path text : Text) : Except FileError FileTree :=
  (t.write path text).mapError (⟨path, ·⟩)

/-- Writes sheets with their names to a directory, one after the other, and tells their paths and
sizes. What was written before an error stays. -/
def writeNamed (t : FileTree) (directory : Text) :
    List (Text × Output) → FileTree × Except FileError (List (Text × Nat))
  | [] => (t, .ok [])
  | (name, o) :: os =>
    let path := FilePath.join directory name
    let text := writtenText name o
    let mapped : Except FileError FileTree := match o.map with
      | none => .ok t
      | some map => writeFile t (FilePath.join directory (mapName name)) map
    match mapped with
    | .error e => (t, .error e)
    | .ok t =>
      match writeFile t path text with
      | .error e => (t, .error e)
      | .ok t =>
        let (t, rest) := writeNamed t directory os
        (t, rest.map fun written => (path, Text.bytes text) :: written)

def writeOutputs (t : FileTree) (directory : Text) (os : List Output) :
    FileTree × Except FileError (List (Text × Nat)) :=
  if os.isEmpty then (t, .ok [])
  else
    match t.makeDirectories directory with
    | .error fault => (t, .error ⟨directory, fault⟩)
    | .ok t => writeNamed t directory ((outputNames os).zip os)

end Stylesmith.Command
