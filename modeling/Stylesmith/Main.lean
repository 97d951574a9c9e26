import Stylesmith.Command.Run

set_option autoImplicit false

namespace Stylesmith

def helpText : String :=
  "stylesmith build [OPTIONS] PATH...   merge style sheets into one\n" ++
  "  -o, --out-dir DIR    where to write (dist)\n" ++
  "  -m, --mode MODE      development or production (development)\n" ++
  "      --source-map     write source maps too\n" ++
  "      --root DIR       the root of the bundle\n" ++
  "      --max-parallel N how many files to work on at a time\n" ++
  "stylesmith inspect [OPTIONS] FILE    print the tree of a style sheet\n" ++
  "      --positions      with lines and columns\n" ++
  "      --minified       print the minified sheet instead\n" ++
  "both: -v, --verbose  -q, --quiet  --no-color  -h, --help"

def Command.Usage.message : Command.Usage → String
  | help | nothing => helpText
  | version => "stylesmith 0.4.1"
  | missingCommand => "a command is missing"
  | unknownCommand => "there is no such command"
  | missingPath => "a path is missing"
  | unknownOption => "there is no such option, or no place for this argument"
  | badValue => "an option or a path has no value that it can have"
  | badNumber => "an option needs a number"
  | conflict => "options exclude each other, or one was given twice"
  | unwantedValue => "an option takes no value"

def variableNames : List String :=
  ["OUT_DIR", "MODE", "SOURCE_MAP", "MAX_PARALLEL"].map fun name =>
    String.ofList Settings.variableLead ++ name

def Command.Request.places : Command.Request → List Text
  | build r => r.root.toList ++ r.paths
  | inspect r => [r.file]

def pathOf (names : List Text) : String := "/" ++ String.ofList (Text.join ['/'] names)

/-- Adds the file or directory at some names to a tree, with all that it holds. What cannot be read
is left out. -/
partial def addPlace (t : FileTree) (names : List Text) : IO FileTree := do
  let place := (← IO.currentDir) / pathOf names
  match ← place.symlinkMetadata.toBaseIO with
  | .error _ => return t
  | .ok found =>
    match found.type with
    | .dir =>
      let mut t := t.set names .directory
      match ← place.readDir.toBaseIO with
      | .error _ => return t
      | .ok entries =>
        for e in entries do
          t ← addPlace t (names ++ [e.fileName.toList])
        return t
    | .file =>
      match ← (IO.FS.readFile place).toBaseIO with
      | .ok text => return t.set names (.file text.toList)
      | .error _ => return t
    | _ => return t

def readFiles (request : Command.Request) : IO FileTree := do
  let work := (← IO.currentDir).toString.toList
  let mut t := FileTree.empty work
  t ← addPlace t t.work
  for path in request.places do
    let names := (Text.splitOn '/' (FilePath.join work path)).foldl FileTree.step []
    unless t.work.isPrefixOf names do
      t := (t.makeAll [] names.dropLast).toOption.getD t
      t ← addPlace t names
  return t

def writeFiles (files : List (List Text × Text)) : IO Unit := do
  for (names, text) in files do
    IO.FS.createDirAll (pathOf names.dropLast)
    IO.FS.writeFile (pathOf names) (String.ofList text)

def readEnvironment : IO (List (Text × Text)) :=
  variableNames.filterMapM fun name => do
    return (← IO.getEnv name).map fun value => (name.toList, value.toList)

end Stylesmith

open Stylesmith in
def main (arguments : List String) : IO UInt32 := do
  match Command.parse (arguments.map String.toList) with
  | .error .help => do
    IO.println Command.Usage.help.message
    return 0
  | .error .version => do
    IO.println Command.Usage.version.message
    return 0
  | .error usage =>
    IO.eprintln usage.message
    return 2
  | .ok parsed =>
    let before ← readFiles parsed.request
    let outcome := Command.run Lowering.Engine.absent before (← readEnvironment) parsed.request
    writeFiles (before.changes outcome.files)
    IO.print (String.ofList outcome.printed)
    match outcome.result with
    | .ok () => return 0
    | .error f =>
      IO.eprintln (String.ofList (f.message?.getD ("malformed configuration file" : Text)))
      return 1
