import Stylesmith.FileTree.Path

set_option autoImplicit false

namespace Stylesmith

inductive FileTree.Entry where
  | file (text : Text)
  | directory
  deriving DecidableEq, Repr

/-- A tree of files: its entries by the names that lead to them. -/
structure FileTree where
  entries : List (List Text × FileTree.Entry)
  work : List Text

inductive FileTree.Fault where
  | missing
  | notDirectory
  | isDirectory
  deriving DecidableEq, Repr

namespace FileTree

def Fault.message : Fault → Text
  | missing => "No such file or directory (os error 2)"
  | notDirectory => "Not a directory (os error 20)"
  | isDirectory => "Is a directory (os error 21)"

/-- The entry that some names lead to. The root is a directory. -/
def find? (names : List Text) : List (List Text × Entry) → Option Entry
  | [] => if names.isEmpty then some .directory else none
  | (ns, e) :: entries => if ns = names then some e else find? names entries

def get? (t : FileTree) (names : List Text) : Option Entry := find? names t.entries

def put (names : List Text) (e : Entry) : List (List Text × Entry) → List (List Text × Entry)
  | [] => [(names, e)]
  | (ns, old) :: entries => if ns = names then (ns, e) :: entries else (ns, old) :: put names e entries

def set (t : FileTree) (names : List Text) (e : Entry) : FileTree :=
  { t with entries := put names e t.entries }

theorem find?_put_self (names : List Text) (e : Entry) (entries : List (List Text × Entry)) :
    find? names (put names e entries) = some e := by
  induction entries with
  | nil => simp [put, find?]
  | cons x entries ih =>
    obtain ⟨ns, old⟩ := x
    by_cases h : ns = names <;> simp [put, find?, h, ih]

theorem find?_put_of_ne {names other : List Text} (h : other ≠ names) (e : Entry)
    (entries : List (List Text × Entry)) :
    find? other (put names e entries) = find? other entries := by
  induction entries with
  | nil => simp [put, find?, h.symm]
  | cons x entries ih =>
    obtain ⟨ns, old⟩ := x
    by_cases hn : ns = names
    · simp [put, find?, hn, h.symm]
    · rw [put, if_neg hn, find?, find?, ih]

theorem get?_set_self (t : FileTree) (names : List Text) (e : Entry) :
    (t.set names e).get? names = some e := find?_put_self names e t.entries

theorem get?_set_of_ne (t : FileTree) {names other : List Text} (h : other ≠ names) (e : Entry) :
    (t.set names e).get? other = t.get? other := find?_put_of_ne h e t.entries

def checkDirectory (t : FileTree) (names : List Text) : Except Fault Unit :=
  match t.get? names with
  | some .directory => .ok ()
  | some (.file _) => .error .notDirectory
  | none => .error .missing

def step (here : List Text) (name : Text) : List Text :=
  if FilePath.isIdle name then here
  else if name = ['.', '.'] then here.dropLast
  else here ++ [name]

/-- Walks from a directory along the names of a path. All names but the last must lead to
directories. -/
def walk (t : FileTree) (here : List Text) : List Text → Except Fault (List Text)
  | [] => .ok here
  | name :: names => do
    t.checkDirectory here
    t.walk (step here name) names

def resolve (t : FileTree) (path : Text) : Except Fault (List Text) :=
  if path.isEmpty then .error .missing
  else t.walk (if FilePath.isAbsolute path then [] else t.work) (Text.splitOn '/' path)

def entry (t : FileTree) (path : Text) : Except Fault Entry := do
  match t.get? (← t.resolve path) with
  | some e => .ok e
  | none => .error .missing

def isFile (t : FileTree) (path : Text) : Bool :=
  match t.entry path with
  | .ok (.file _) => true
  | _ => false

def isDirectory (t : FileTree) (path : Text) : Bool :=
  match t.entry path with
  | .ok .directory => true
  | _ => false

def read (t : FileTree) (path : Text) : Except Fault Text := do
  match ← t.entry path with
  | .file text => .ok text
  | .directory => .error .isDirectory

def write (t : FileTree) (path text : Text) : Except Fault FileTree := do
  let names ← t.resolve path
  match t.get? names with
  | some .directory => .error .isDirectory
  | some (.file _) => .ok (t.set names (.file text))
  | none => .ok (t.set names (.file text))

def makeDirectory (t : FileTree) (names : List Text) : Except Fault FileTree :=
  match t.get? names with
  | some .directory => .ok t
  | some (.file _) => .error .notDirectory
  | none => .ok (t.set names .directory)

def makeAll (t : FileTree) (here : List Text) : List Text → Except Fault FileTree
  | [] => .ok t
  | name :: names => do
    let t ← t.makeDirectory (step here name)
    t.makeAll (step here name) names

/-- Makes the directory at a path with all directories that lead to it. A path that ends in a dot
must be there. -/
def makeDirectories (t : FileTree) (path : Text) : Except Fault FileTree :=
  let names := Text.splitOn '/' path
  if path.isEmpty ∨ t.isDirectory path then .ok t
  else if (names.filter fun name => !name.isEmpty).getLast? = some ['.'] then .error .missing
  else t.makeAll (if FilePath.isAbsolute path then [] else t.work) names

def namesLe (a b : List Text × Text) : Bool := !decide (b.1 < a.1)

def files (t : FileTree) : List (List Text × Text) :=
  (t.entries.filterMap fun
    | (names, .file text) => some (names, text)
    | _ => none).mergeSort namesLe

def filesBelow (t : FileTree) (names : List Text) : List (List Text) :=
  (t.files.filter fun (ns, _) => names.isPrefixOf ns && names.length < ns.length).map
    fun (ns, _) => ns.drop names.length

def changes (before after : FileTree) : List (List Text × Text) :=
  after.files.filter fun (names, text) => before.get? names != some (.file text)

def empty (work : Text) : FileTree :=
  let names := (FilePath.parts work).drop 1
  ⟨(List.range names.length).map fun i => (names.take (i + 1), .directory), names⟩

def addFile (t : FileTree) (path text : Text) : FileTree :=
  let names := t.work ++ FilePath.parts path
  let t := (t.makeAll [] names.dropLast).toOption.getD t
  t.set names (.file text)

end FileTree

end Stylesmith
