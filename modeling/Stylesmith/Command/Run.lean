import Stylesmith.Build.Session
import Stylesmith.Command.Arguments
import Stylesmith.Command.Inputs
import Stylesmith.Command.Settings
import Stylesmith.Stylesheet.Json
import Stylesmith.Transform.Lowering

set_option autoImplicit false

namespace Stylesmith.Command

inductive Failure where
  | pipeline (f : Build.Failure)
  | settings (message : Text)
  | noInputs (paths : List Text)
  | read (e : FileError)
  | write (e : FileError)
  | fragments (count : Nat)
  | inspection (message : Text)
  deriving DecidableEq, Repr

def Failure.message? : Failure → Option Text
  | pipeline f => f.message?
  | settings m => some m
  | noInputs paths => some (("No stylesheets found in " : Text) ++ Text.join (", " : Text) paths)
  | read e => some (("Failed to read " : Text) ++ e.path)
  | write e => some (("Failed to write " : Text) ++ e.path)
  | fragments count => some ((Nat.repr count : Text) ++ (" stylesheet(s) failed to build" : Text))
  | inspection m => some m

structure Outcome where
  result : Except Failure Unit
  printed : Text
  files : FileTree

def Outcome.failed (t : FileTree) (f : Failure) : Outcome := ⟨.error f, [], t⟩

def workPath (t : FileTree) : Text := '/' :: Text.join ['/'] t.work

def BuildRequest.flags (r : BuildRequest) : Settings.Flags :=
  ⟨r.outputDirectory, r.mode, r.sourceMap, r.maxParallel⟩

def buildInputs (engine : Lowering.Engine) (t : FileTree) (root : Text) (settings : Settings)
    (inputs : List Input) : Outcome :=
  let session := Build.Session.start (fun _ => Config.load t root) (.builtin engine) root
  let (_, report) := session.run ⟨settings.mode, settings.sourceMap⟩ (inputs.map (·.toSource t))
  match report.result with
  | .error f => .failed t (.pipeline f)
  | .ok summary =>
    match writeOutputs t (FilePath.join root settings.outputDirectory) report.outputs with
    | (t, .error e) => .failed t (.write e)
    | (t, .ok _) =>
      if summary.errors = 0 then ⟨.ok (), [], t⟩ else .failed t (.fragments summary.errors)

def build (engine : Lowering.Engine) (t : FileTree) (environment : List (Text × Text))
    (r : BuildRequest) : Outcome :=
  match Settings.load r.flags environment with
  | .error m => .failed t (.settings m)
  | .ok settings =>
    let root := r.root.getD (workPath t)
    match collect t root r.paths with
    | .error e => .failed t (.read e)
    | .ok [] => .failed t (.noInputs r.paths)
    | .ok inputs => buildInputs engine t root settings inputs

def inspection (t : FileTree) (r : InspectRequest) : Except Text Text := do
  let text ← (t.read r.file).mapError fun fault =>
    ("Failed to read " : Text) ++ r.file ++ (": " : Text) ++ fault.message
  if r.minified then
    let m ← (Stylesheet.minifyText none text).mapError fun e =>
      ("Minification failed: " : Text) ++ e.minifyMessage ++ (": " : Text) ++ e.message
    .ok (Text.join ['\n'] m.toChunks)
  else
    let sheet ← (Stylesheet.parse r.file text r.positions).mapError (·.message)
    .ok (sheet.toJson.pretty 0)

def inspect (t : FileTree) (r : InspectRequest) : Outcome :=
  match inspection t r with
  | .error m => .failed t (.inspection m)
  | .ok text => ⟨.ok (), text ++ ['\n'], t⟩

def run (engine : Lowering.Engine) (t : FileTree) (environment : List (Text × Text)) :
    Request → Outcome
  | .build r => build engine t environment r
  | .inspect r => inspect t r

end Stylesmith.Command
