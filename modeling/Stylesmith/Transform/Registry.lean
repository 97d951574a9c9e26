import Stylesmith.Config.Discovery
import Stylesmith.Transform.Basic

set_option autoImplicit false

namespace Stylesmith

abbrev Transform.Factory := Json.Value → Except Config.Failure Transform

structure Registry where
  entries : List (Text × Transform.Factory)

namespace Registry

def empty : Registry := ⟨[]⟩

/-- Registers a factory, in place of an earlier one of that name. -/
def register (r : Registry) (name : Text) (f : Transform.Factory) : Registry :=
  ⟨(r.entries.filter fun (n, _) => n != name) ++ [(name, f)]⟩

def registerTransform (r : Registry) (t : Transform) : Registry := r.register t.name fun _ => .ok t

def find? (r : Registry) (name : Text) : Option Transform.Factory :=
  (r.entries.find? fun (n, _) => n == name).map (·.2)

def contains (r : Registry) (name : Text) : Bool := (r.find? name).isSome

def resolve (r : Registry) (p : Plugin) : Except Config.Failure Transform :=
  match r.find? p.name with
  | some f => f p.options
  | none => .error (.unknownPlugin p.name)

/-- The stage of some plugins. The first plugin at fault is reported. -/
def stage (r : Registry) (plugins : List Plugin) : Except Config.Failure Stage :=
  plugins.mapM r.resolve

def names (r : Registry) : List Text := (r.entries.map (·.1)).mergeSort fun a b => !decide (b < a)

def describe (r : Registry) : Text :=
  ("TransformRegistry \x7b transforms: [" : Text) ++ Text.join (", " : Text) (r.names.map Text.quoted) ++
    ("] \x7d" : Text)

end Registry

end Stylesmith
