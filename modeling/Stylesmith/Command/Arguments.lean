import Stylesmith.Build.Pass
import Stylesmith.Decimal.Width

/-!
# Command lines

A command line names a command, between options that all commands share, and is followed by options
and paths of that command. An option may be given once on each of the two levels. The value of an
option is judged when the next argument comes, so an unknown option is told before it.
-/

set_option autoImplicit false

namespace Stylesmith.Command

inductive Usage where
  | help
  | version
  | nothing
  | missingCommand
  | unknownCommand
  | missingPath
  | unknownOption
  /-- A value that is none of those that an option takes, or no value at all. -/
  | badValue
  | badNumber
  | conflict
  | unwantedValue
  deriving DecidableEq, Repr

inductive Switch where
  | verbose
  | quiet
  | plainColor
  | sourceMap
  | positions
  | minified
  | help
  | version
  deriving DecidableEq, Repr

inductive Setting where
  | outputDirectory
  | mode
  | root
  | maxParallel
  deriving DecidableEq, Repr

inductive Choice where
  | switch (s : Switch)
  | setting (s : Setting)
  deriving DecidableEq, Repr

inductive Level where
  | top
  | build
  | inspect
  deriving DecidableEq, Repr

structure Named where
  long : Text
  short : Option Char
  choice : Choice

def Level.options (level : Level) : List Named :=
  let shared : List Named := [
    ⟨"verbose", some 'v', .switch .verbose⟩,
    ⟨"quiet", some 'q', .switch .quiet⟩,
    ⟨"no-color", none, .switch .plainColor⟩,
    ⟨"help", some 'h', .switch .help⟩]
  shared ++ match level with
    | .top => [⟨"version", some 'V', .switch .version⟩]
    | .build => [
      ⟨"out-dir", some 'o', .setting .outputDirectory⟩,
      ⟨"mode", some 'm', .setting .mode⟩,
      ⟨"source-map", none, .switch .sourceMap⟩,
      ⟨"root", none, .setting .root⟩,
      ⟨"max-parallel", none, .setting .maxParallel⟩]
    | .inspect => [
      ⟨"positions", none, .switch .positions⟩,
      ⟨"minified", none, .switch .minified⟩]

def Level.long? (level : Level) (name : Text) : Option Choice :=
  (level.options.find? (·.long == name)).map (·.choice)

def Level.short? (level : Level) (c : Char) : Option Choice :=
  (level.options.find? (·.short == some c)).map (·.choice)

inductive Pending where
  | nothing
  | setting (s : Setting) (value : Option Text)
  | paths (ps : List Text)

structure Given where
  switches : List Switch
  settings : List (Setting × Text)
  paths : List Text
  pending : Pending

def Given.empty : Given := ⟨[], [], [], .nothing⟩

/-- The number that a value spells, within 64 bits. A plus may come before it. -/
def readNumber? (value : Text) : Option Nat :=
  let digits := match value with
    | '+' :: rest => rest
    | _ => value
  if digits.isEmpty ∨ !digits.all Char.isDigit then none
  else
    let n := digits.foldl (fun n c => 10 * n + (c.toNat - 48)) 0
    if n < beyond64 then some n else none

def readMode? (value : Text) : Option Build.Mode :=
  if value = Build.Mode.name .development then some .development
  else if value = Build.Mode.name .production then some .production
  else none

def judge (s : Setting) (value : Text) : Except Usage Unit :=
  match s with
  | .outputDirectory | .root => if value.isEmpty then .error .badValue else .ok ()
  | .mode => if (readMode? value).isSome then .ok () else .error .badValue
  | .maxParallel => if (readNumber? value).isSome then .ok () else .error .badNumber

namespace Given

def addSetting (g : Given) (s : Setting) (value : Text) : Except Usage Given := do
  if g.settings.any (·.1 == s) then .error .conflict
  else
    judge s value
    .ok { g with settings := g.settings ++ [(s, value)] }

def settle (g : Given) : Except Usage Given :=
  let rest := { g with pending := .nothing }
  match g.pending with
  | .nothing => .ok rest
  | .setting _ none => .error .badValue
  | .setting s (some value) => rest.addSetting s value
  | .paths ps =>
    if ps.any (·.isEmpty) then .error .badValue else .ok { rest with paths := g.paths ++ ps }

def addSwitch (g : Given) (s : Switch) : Except Usage Given := do
  let g ← g.settle
  if s = .help then .error .help
  else if s = .version then .error .version
  else if g.switches.contains s then .error .conflict
  else .ok { g with switches := g.switches ++ [s] }

def openSetting (g : Given) (s : Setting) (value : Option Text) : Except Usage Given := do
  let g ← g.settle
  match value with
  | some value => g.addSetting s value
  | none => .ok { g with pending := .setting s none }

def addLong (level : Level) (g : Given) (name : Text) (value : Option Text) : Except Usage Given :=
  match level.long? name with
  | none => .error .unknownOption
  | some (.setting s) => g.openSetting s value
  | some (.switch s) => if value.isSome then .error .unwantedValue else g.addSwitch s

/-- Adds options by their short names. What follows an option with a value is its value. -/
def addShort (level : Level) (g : Given) : Text → Except Usage Given
  | [] => .ok g
  | c :: rest =>
    match level.short? c with
    | none => .error .unknownOption
    | some (.setting s) =>
      g.openSetting s (match rest with
        | [] => none
        | '=' :: value => some value
        | value => some value)
    | some (.switch s) => do (← g.addSwitch s).addShort level rest

def addPath (level : Level) (g : Given) (path : Text) : Except Usage Given := do
  match level, g.pending with
  | .top, _ => .error .unknownCommand
  | .build, .paths ps => .ok { g with pending := .paths (ps ++ [path]) }
  | .inspect, .paths _ => .error .unknownOption
  | _, _ =>
    if level = .inspect ∧ !g.paths.isEmpty then .error .unknownOption
    else
      let g ← g.settle
      .ok { g with pending := .paths [path] }

def finish (g : Given) (needsPath : Bool) : Except Usage Given := do
  let g ← g.settle
  if g.switches.contains .verbose ∧ g.switches.contains .quiet then .error .conflict
  else if needsPath ∧ g.paths.isEmpty then .error .missingPath
  else .ok g

/-- Adds an argument, which is no path only before a double dash. -/
def addArgument (level : Level) (g : Given) (argument : Text) : Except Usage Given :=
  match argument with
  | '-' :: '-' :: name =>
    match Text.cutFirst? '=' name with
    | some (name, value) => g.addLong level name (some value)
    | none => g.addLong level name none
  | '-' :: c :: names => g.addShort level (c :: names)
  | _ =>
    match g.pending with
    | .setting s none => .ok { g with pending := .setting s (some argument) }
    | _ => g.addPath level argument

/-- Reads the arguments of a command. After a double dash, all of them are paths. -/
def readAll (level : Level) (g : Given) (onlyPaths : Bool) : List Text → Except Usage Given
  | [] => g.finish true
  | argument :: rest => do
    if onlyPaths then readAll level (← g.addPath level argument) true rest
    else if argument = ['-', '-'] then readAll level g true rest
    else readAll level (← g.addArgument level argument) false rest

def value? (g : Given) (s : Setting) : Option Text :=
  (g.settings.find? (·.1 == s)).map (·.2)

end Given

structure BuildRequest where
  paths : List Text
  outputDirectory : Option Text
  mode : Option Build.Mode
  sourceMap : Bool
  root : Option Text
  maxParallel : Option Nat
  deriving DecidableEq, Repr

structure InspectRequest where
  file : Text
  positions : Bool
  minified : Bool
  deriving DecidableEq, Repr

inductive Request where
  | build (r : BuildRequest)
  | inspect (r : InspectRequest)
  deriving DecidableEq, Repr

structure Arguments where
  verbose : Bool
  quiet : Bool
  plainColor : Bool
  request : Request
  deriving DecidableEq, Repr

def commandNames : List Text := ["build", "inspect", "help"]

/-- What the help command answers: one command may be named, and it has no commands of its own. -/
def helpAbout : List Text → Usage
  | [] => .help
  | name :: rest => if commandNames.contains name ∧ rest.isEmpty then .help else .unknownCommand

def buildRequest (g : Given) : BuildRequest where
  paths := g.paths
  outputDirectory := g.value? .outputDirectory
  mode := (g.value? .mode).bind readMode?
  sourceMap := g.switches.contains .sourceMap
  root := g.value? .root
  maxParallel := (g.value? .maxParallel).bind readNumber?

def inspectRequest (g : Given) : InspectRequest where
  file := g.paths.headD []
  positions := g.switches.contains .positions
  minified := g.switches.contains .minified

def combine (top inner : Given) (request : Request) : Except Usage Arguments := do
  let top ← top.finish false
  let given (s : Switch) : Bool := top.switches.contains s || inner.switches.contains s
  .ok ⟨given .verbose, given .quiet, given .plainColor, request⟩

def parseFrom (top : Given) (onlyPaths : Bool) : List Text → Except Usage Arguments
  | [] => .error (if top.switches.isEmpty then .nothing else .missingCommand)
  | argument :: rest => do
    if onlyPaths then
      .error (if commandNames.contains argument then .unknownOption else .unknownCommand)
    else if argument = "build" then
      let inner ← Given.empty.readAll .build false rest
      combine top inner (.build (buildRequest inner))
    else if argument = "inspect" then
      let inner ← Given.empty.readAll .inspect false rest
      combine top inner (.inspect (inspectRequest inner))
    else if argument = "help" then .error (helpAbout rest)
    else if argument = ['-', '-'] then parseFrom top true rest
    else parseFrom (← top.addArgument .top argument) false rest

def parse (arguments : List Text) : Except Usage Arguments := parseFrom .empty false arguments

end Stylesmith.Command
