import Stylesmith.Config.Format
import Stylesmith.FileTree.Basic

set_option autoImplicit false

namespace Stylesmith.Config

inductive Failure where
  | malformed (path : Text) (message : Option Text)
  | unknownPlugin (name : Text)
  | badOptions (plugin message : Text)
  | unreadable (fault : FileTree.Fault)
  deriving DecidableEq, Repr

def Failure.message? : Failure → Option Text
  | malformed path message =>
    message.map fun m => ("failed to parse " : Text) ++ path ++ (": " : Text) ++ m
  | unknownPlugin name => some (("unknown plugin " : Text) ++ Text.backquoted name)
  | badOptions plugin message =>
    some (("invalid options for plugin " : Text) ++ Text.backquoted plugin ++ (": " : Text) ++ message)
  | unreadable fault => some (("I/O error: " : Text) ++ fault.message)

def hasField (path t : Text) : Except Failure Bool :=
  match Json.parse t with
  | .error fault => .error (.malformed path (some (fault.message t)))
  | .ok v =>
    match v.field? manifestField with
    | none | some .null => .ok false
    | some _ => .ok true

def find (t : FileTree) (root : Text) : Except Failure (Option Text) := do
  let manifest := FilePath.join root manifestName
  let configured ←
    match t.read manifest with
    | .ok text => hasField manifest text
    | .error _ => .ok false
  if configured then .ok (some manifest)
  else
    .ok ((fileNames.map fun (name, _) => FilePath.join root name).find? fun path => t.isFile path)

/-- The name by which messages call a file: its path as seen from the working directory. -/
def shownName (t : FileTree) (path : Text) : Text :=
  let work := '/' :: Text.join ['/'] t.work
  FilePath.shorter work (FilePath.join work path)

/-- Reads the configuration file at a path. A directory stands for a file without fields. -/
def loadFile (t : FileTree) (path : Text) : Except Failure Config := do
  match ← (t.entry path).mapError .unreadable with
  | .directory => .ok default
  | .file text =>
    (ofFile (Format.ofPath path) (shownName t path) text).mapError (.malformed path)

def load (t : FileTree) (root : Text) : Except Failure (Option Config) := do
  match ← find t root with
  | none => .ok none
  | some path => (loadFile t path).map some

end Stylesmith.Config
