import Stylesmith.Decimal.Binary64

set_option autoImplicit false

namespace Stylesmith.Json

/-- A number: an integer from `-2 ^ 63` to `2 ^ 64 - 1`, or a floating-point number. -/
inductive Number where
  | natural (n : Nat)
  /-- The negative integer `-(n + 1)`. -/
  | negative (n : Nat)
  | real (x : Binary64)
  deriving DecidableEq, Repr

inductive Value where
  | null
  | bool (b : Bool)
  | number (n : Number)
  | string (t : Text)
  | array (items : List Value)
  | object (fields : List (Text × Value))

namespace Value

def get? (key : Text) : List (Text × Value) → Option Value
  | [] => none
  | (k, v) :: fields => if k = key then some v else get? key fields

/-- Gives a key a value: a key that is there keeps its place. -/
def put (key : Text) (value : Value) : List (Text × Value) → List (Text × Value)
  | [] => [(key, value)]
  | (k, v) :: fields => if k = key then (k, value) :: fields else (k, v) :: put key value fields

def field? (key : Text) : Value → Option Value
  | object fields => get? key fields
  | _ => none

end Value

end Stylesmith.Json
