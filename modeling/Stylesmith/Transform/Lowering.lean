import Stylesmith.Transform.Query
import Stylesmith.Transform.Registry

set_option autoImplicit false

namespace Stylesmith

namespace Lowering

def pluginName : Text := "lightningcss"

abbrev Engine :=
  List Text → Transform.Context → Text → Except Transform.Failure Transform.Output

def Engine.absent : Engine := fun _ _ _ => .error (.failed pluginName "no engine is installed")

/-- Reads the queries of an object, which may have no other fields. -/
def readQueries (queries : List Text) :
    List (Text × Json.Value) → Except Config.Complaint (List Text)
  | [] => .ok queries
  | (key, v) :: fields => do
    if key = "targets" then
      readQueries ((← Config.readOptional Config.readStrings v).getD []) fields
    else
      Config.complain (.other (("unknown field " : Text) ++ Text.backquoted key ++
        (", expected \x60targets\x60" : Text)))

def readOptions : Json.Value → Except Config.Complaint (List Text)
  | .null | .array [] => .ok []
  | .object fields => readQueries [] fields
  | .array (v :: rest) => do
    let queries ← Config.readOptional Config.readStrings v
    if rest.isEmpty then .ok (queries.getD [])
    else Config.complain (.wrongLength (rest.length + 1) "fewer elements in array")
  | v => Config.complain (.wrongType v "struct LightningCssOptions")

def factory (engine : Engine) : Transform.Factory := fun options =>
  let checked : Except Config.Complaint Transform := do
    let queries ← readOptions options
    (Query.checkAll queries).mapError fun refusal => ⟨.other refusal.message, some []⟩
    .ok ⟨pluginName, engine queries⟩
  checked.mapError fun c => .badOptions pluginName c.problem.message

end Lowering

def Registry.builtin (engine : Lowering.Engine) : Registry :=
  Registry.empty.register Lowering.pluginName (Lowering.factory engine)

end Stylesmith
