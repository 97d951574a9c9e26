import Stylesmith.Json.Basic
import Stylesmith.Text.Replace

set_option autoImplicit false

namespace Stylesmith

structure Plugin where
  name : Text
  options : Json.Value

def Plugin.plain (name : Text) : Plugin := ⟨name, .object []⟩

structure Config where
  plugins : List Plugin
  parser : Option Text
  /-- Packages whose sheets the plugins do not see. -/
  excludedPackages : List Text
  anchorReferences : Bool
  chunkBudget : Option Nat

namespace Config

def default : Config := ⟨[], none, [], false, none⟩

def isEmpty (c : Config) : Bool :=
  c.plugins.isEmpty && c.parser.isNone && c.excludedPackages.isEmpty && !c.anchorReferences &&
    c.chunkBudget.isNone

end Config

namespace Package

/-- The name of a package as its directory spells it: the first colon becomes an underscore. -/
def directory (name : Text) : Text :=
  match Text.cutFirst? ':' name with
  | some (owner, rest) => owner ++ '_' :: rest
  | none => name

/-- Whether a path of the bundle belongs to one of some packages. The name of a package also covers
longer names that start with it. -/
def excludes (names : List Text) (path : Text) : Bool :=
  !path.isEmpty && names.any fun name => Text.occursIn ("packages/" ++ directory name) path

end Package

end Stylesmith
