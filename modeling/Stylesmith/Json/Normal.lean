import Stylesmith.Json.Basic

set_option autoImplicit false

namespace Stylesmith.Json

def keyLe (a b : Text × Value) : Bool := !decide (b.1 < a.1)

mutual

def Value.sorted : Value → Value
  | .array items => .array (sortedItems items)
  | .object fields => .object ((sortedFields fields).mergeSort keyLe)
  | v => v

def sortedItems : List Value → List Value
  | [] => []
  | v :: vs => v.sorted :: sortedItems vs

def sortedFields : List (Text × Value) → List (Text × Value)
  | [] => []
  | (key, v) :: fields => (key, v.sorted) :: sortedFields fields

end

mutual

/-- The value with null for every number that is infinite or none. -/
def Value.finite : Value → Value
  | .number (.real x) => if x.magnitude < Binary64.infinity then .number (.real x) else .null
  | .array items => .array (finiteItems items)
  | .object fields => .object (finiteFields fields)
  | v => v

def finiteItems : List Value → List Value
  | [] => []
  | v :: vs => v.finite :: finiteItems vs

def finiteFields : List (Text × Value) → List (Text × Value)
  | [] => []
  | (key, v) :: fields => (key, v.finite) :: finiteFields fields

end

end Stylesmith.Json
