import Stylesmith.Build.FragmentError
import Stylesmith.SourceMap.Json

/-!
# Transforms

A transform changes the text of a fragment. A stage runs transforms one after the other, each on
the text that the one before it made. Its source map leads through all of them, or there is none.
-/

set_option autoImplicit false

namespace Stylesmith

structure Transform.Context where
  origin : Text
  parser : Option Text
  sourceMap : Bool
  deriving DecidableEq, Repr

structure Transform.Output where
  text : Text
  /-- A source map from the new text to the old one. -/
  map : Option Text
  warnings : List Text
  deriving DecidableEq, Repr

inductive Transform.Failure where
  | malformed (message : Text) (line column : Option Nat) (excerpt : Option Text)
  | failed (plugin message : Text)
  deriving DecidableEq, Repr

structure Transform where
  name : Text
  run : Transform.Context → Text → Except Transform.Failure Transform.Output

namespace Transform

def Failure.message : Failure → Text
  | malformed message _ _ _ => message
  | failed plugin message => plugin ++ (": " : Text) ++ message

def Failure.toFragmentError : Failure → FragmentError
  | malformed message line column excerpt => .ofSyntax message line column excerpt
  | failed plugin message => .plain (failed plugin message).message

structure Call where
  name : Text
  context : Context
  text : Text
  deriving DecidableEq, Repr

end Transform

abbrev Stage := List Transform

namespace Stage

open Transform (Call Context Failure Output)

/-- The calls of a stage, and what it made or why it failed. -/
structure Run where
  calls : List Call
  result : Except Failure Output

/-- The map through two steps, where `previous` is none before the first one. -/
def chain (next previous : Option Text) : Option Text :=
  match next, previous with
  | some map, some before => SourceMap.composeText? map before
  | map, none => map
  | none, some _ => none

/-- What a stage has made after one more transform. A map is kept while `mapped` holds. -/
def advance (mapped : Bool) (before : Output) (name : Text) (next : Output) : Output where
  text := next.text
  map := if mapped then chain next.map before.map else none
  warnings := before.warnings ++ next.warnings.map fun w => name ++ (": " : Text) ++ w

def runFrom (c : Context) (mapped : Bool) (made : Output) : List Transform → Run
  | [] => ⟨[], .ok made⟩
  | t :: ts =>
    let call : Call := ⟨t.name, c, made.text⟩
    match t.run c made.text with
    | .error f => ⟨[call], .error f⟩
    | .ok next =>
      let now := advance mapped made t.name next
      let rest := runFrom c now.map.isSome now ts
      ⟨call :: rest.calls, rest.result⟩

def run (stage : Stage) (c : Context) (t : Text) : Run := runFrom c c.sourceMap ⟨t, none, []⟩ stage

def names (stage : Stage) : List Text := stage.map (·.name)

end Stage

end Stylesmith
