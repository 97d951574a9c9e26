import Stylesmith.Text.Basic

/-!
# Paths of files

A path is a text with slashes. Its parts are the names between them, without empty names and
without dots, except a root or a dot at its start.
-/

set_option autoImplicit false

namespace Stylesmith.FilePath

def isAbsolute (path : Text) : Bool := path.head? == some '/'

def isIdle (name : Text) : Bool := name.isEmpty || name == ['.']

def parts (path : Text) : List Text :=
  let names := Text.splitOn '/' path
  let kept := names.filter fun name => !isIdle name
  if isAbsolute path then ['/'] :: kept
  else if names.head? = some ['.'] then ['.'] :: kept
  else kept

/-- A path seen from a base, as a text: an absolute path stays as it is. -/
def join (base path : Text) : Text :=
  if isAbsolute path ∨ base.isEmpty then path
  else if base.getLast? = some '/' then base ++ path
  else base ++ '/' :: path

def name? (path : Text) : Option Text :=
  match (parts path).getLast? with
  | some name => if name = ['/'] ∨ name = ['.'] ∨ name = ['.', '.'] then none else some name
  | none => none

def extension? (path : Text) : Option Text := do
  let (stem, extension) ← Text.cutLast? '.' (← name? path)
  if stem.isEmpty then none else some extension

/-- The parts of a path below a base; all of its parts when it lies elsewhere. -/
def partsBelow (base path : Text) : List Text :=
  let all := parts path
  if (parts base).isPrefixOf all then all.drop (parts base).length else all

def dropCommon : List Text → List Text → List Text × List Text
  | a :: as, b :: bs => if a = b then dropCommon as bs else (a :: as, b :: bs)
  | as, bs => (as, bs)

/-- An absolute path as it is seen from an absolute base, where this is shorter. -/
def shorter (base path : Text) : Text :=
  let (below, above) := dropCommon (parts path) (parts base)
  let seen := above.map (fun _ => ['.', '.']) ++ below
  if seen.length < (parts path).length then Text.join ['/'] seen else path

end Stylesmith.FilePath
