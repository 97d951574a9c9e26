import Stylesmith.Config.Decode
import Stylesmith.FileTree.Path
import Stylesmith.Json.Reader
import Stylesmith.Toml.Reader

set_option autoImplicit false

namespace Stylesmith.Config

inductive Format where
  | json
  | toml
  | manifest
  deriving DecidableEq, Repr

def manifestName : Text := "package.json"

def manifestField : Text := "postcss"

def fileNames : List (Text × Format) := [
  (".postcssrc", .json),
  (".postcssrc.json", .json),
  (".postcssrc.toml", .toml),
  ("postcss.config.json", .json),
  ("postcss.config.toml", .toml)]

def Format.ofPath (path : Text) : Format :=
  let name := (FilePath.name? path).getD []
  if name = manifestName then .manifest
  else
    match fileNames.find? fun (known, _) => known == name with
    | some (_, format) => format
    | none => if (".toml" : Text).isSuffixOf name then .toml else .json

def Format.word : Format → Text
  | json | manifest => "JSON"
  | toml => "TOML"

def Format.place (format : Format) (shown : Text) : Text :=
  (" in " : Text) ++ shown ++ ' ' :: format.word ++ (" file" : Text)

/-- The kind of a value, as messages about files name it. In TOML all integers have a sign. -/
def describeIn (format : Format) : Json.Value → Text
  | .null => "unit"
  | .bool b => if b then "bool true" else "bool false"
  | .number (.real x) => "float " ++ Text.backquoted x.plain
  | .number (.natural n) =>
    (if format = .toml then "signed int " else "unsigned int ") ++ Text.backquoted (Nat.repr n)
  | .number n => "signed int " ++ Text.backquoted n.text
  | .string t => "string " ++ Text.quoted t
  | .array _ => "sequence"
  | .object _ => "map"

def Problem.fileWording (describe : Json.Value → Text) (p : Problem) : Text :=
  p.wording "invalid type: found " "invalid value " describe

def Complaint.fileMessage (format : Format) (shown : Text) (c : Complaint) : Text :=
  c.problem.fileWording (describeIn format) ++
    match c.path with
    | none => []
    | some keys =>
      (" for key " : Text) ++ Text.quoted (Text.join ['.'] ("default" :: keys)) ++ format.place shown

/-- Reads a JSON text that must hold an object. The kind of the value is judged before what follows
it. -/
def readObject (t : Text) : Except Text (List (Text × Json.Value)) :=
  let wrong (v : Json.Value) (rest : Text) : Except Text (List (Text × Json.Value)) :=
    let (line, column) := Json.lineAndColumn (Text.before t rest)
    .error ((Problem.wrongType v "a map").message ++ Json.placeText line column)
  let whole : Except Text (List (Text × Json.Value)) :=
    match Json.parse t with
    | .ok (.object fields) => .ok fields
    | .ok v => wrong v []
    | .error fault => .error (fault.message t)
  match t.dropWhile Json.isBlank with
  | [] => whole
  | c :: rest =>
    match Json.Token.first c rest with
    | (.scalar v, after) => wrong v after
    | (.mark m, _) => if m = '[' then wrong (.array []) (c :: rest) else whole
    | (.bad _, _) => whole

/-- Reads the fields of a configuration file. There is no message about malformed TOML. -/
def readFields? (format : Format) (shown t : Text) :
    Except (Option Text) (List (Text × Json.Value)) :=
  match format with
  | .toml =>
    match Toml.parse t with
    | some fields => .ok fields
    | none => .error none
  | _ => (readObject t).mapError fun message => some (message ++ format.place shown)

def ofFile (format : Format) (shown t : Text) : Except (Option Text) Config := do
  let fields ← readFields? format shown t
  let root :=
    if format = .manifest then
      match Json.Value.get? manifestField fields with
      | some (.object inner) => inner
      | _ => []
    else fields
  (decode ⟨true⟩ (Json.Value.object root).sorted).mapError fun c =>
    some (c.fileMessage format shown)

end Stylesmith.Config
