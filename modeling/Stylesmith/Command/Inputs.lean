import Stylesmith.Command.Outputs

set_option autoImplicit false

namespace Stylesmith.Command

structure Input where
  file : Text
  path : Text
  deriving DecidableEq, Repr

namespace Input

def ofFile (root file : Text) : Input := ⟨file, Text.join ['/'] (FilePath.partsBelow root file)⟩

def url (i : Input) : Text := '/' :: i.path

def contents (t : FileTree) (i : Input) : Except FileTree.Fault Text := t.read i.file

def sourceMap? (t : FileTree) (i : Input) : Option Text := (t.read (mapName i.file)).toOption

def toSource (t : FileTree) (i : Input) : Build.Source :=
  ⟨i.path, some i.url, (i.contents t).mapError (·.message), i.sourceMap? t⟩

end Input

def isSheetName (names : List Text) : Bool :=
  (names.getLast?.bind FilePath.extension?) == some "css".toList

def collectOne (t : FileTree) (root path : Text) : Except FileError (List Input) :=
  let path := FilePath.join root path
  match t.resolve path with
  | .error fault => .error ⟨path, fault⟩
  | .ok names =>
    match t.get? names with
    | none => .error ⟨path, .missing⟩
    | some (.file _) => .ok [.ofFile root path]
    | some .directory =>
      .ok (((t.filesBelow names).filter isSheetName).map fun below =>
        .ofFile root (FilePath.join path (Text.join ['/'] below)))

def collect (t : FileTree) (root : Text) (paths : List Text) : Except FileError (List Input) :=
  (paths.mapM (collectOne t root)).map List.flatten

end Stylesmith.Command
