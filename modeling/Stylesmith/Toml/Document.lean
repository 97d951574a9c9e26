import Stylesmith.Json.Basic

/-!
# TOML documents

A document is built from its headers and its keys with values, in their order. A table remembers how
it came to be, since this decides what may still be added to it.
-/

set_option autoImplicit false

namespace Stylesmith.Toml

inductive Origin where
  | header
  /-- By a longer header that starts with its keys. -/
  | implied
  | dotted
  deriving DecidableEq, Repr

inductive Item where
  | value (v : Json.Value)
  | table (origin : Origin) (fields : List (Text × Item))
  /-- The tables of a list, the last one last. -/
  | tables (rows : List (List (Text × Item)))

abbrev Fields := List (Text × Item)

namespace Fields

def get? (key : Text) : Fields → Option Item
  | [] => none
  | (k, item) :: fields => if k = key then some item else get? key fields

/-- Gives a key an item: a key that is there keeps its place. -/
def put (key : Text) (item : Item) : Fields → Fields
  | [] => [(key, item)]
  | (k, i) :: fields => if k = key then (k, item) :: fields else (k, i) :: put key item fields

def updateLast (change : Fields → Option Fields) : List Fields → Option (List Fields)
  | [] => none
  | [row] => (change row).map ([·])
  | row :: next :: rows => (updateLast change (next :: rows)).map (row :: ·)

/-- Changes the table that some keys lead to. Missing tables are added on the way, and a list of
tables stands for its last one. -/
def descend (change : Fields → Option Fields) : List Text → Fields → Option Fields
  | [], fields => change fields
  | key :: keys, fields =>
    match get? key fields with
    | none => (descend change keys []).map fun inner => put key (.table .implied inner) fields
    | some (.value _) => none
    | some (.table origin inner) =>
      (descend change keys inner).map fun inner => put key (.table origin inner) fields
    | some (.tables rows) =>
      (updateLast (descend change keys) rows).map fun rows => put key (.tables rows) fields

/-- Starts a table with a header. Only a table that longer headers implied may be there already. -/
def startTable (keys : List Text) (last : Text) : Fields → Option Fields :=
  descend (fun fields =>
    match get? last fields with
    | none => some (put last (.table .header []) fields)
    | some (.table .implied inner) => some (put last (.table .header inner) fields)
    | _ => none) keys

def startRow (keys : List Text) (last : Text) : Fields → Option Fields :=
  descend (fun fields =>
    match get? last fields with
    | none => some (put last (.tables [[]]) fields)
    | some (.tables rows) => some (put last (.tables (rows ++ [[]])) fields)
    | _ => none) keys

def define (key : Text) (v : Json.Value) (fields : Fields) : Option Fields :=
  match get? key fields with
  | none => some (put key (.value v) fields)
  | some _ => none

/-- Gives a key with dots a value. The table before the last key must come from keys with dots
alone, and no table on the way may have a header. -/
def defineDotted (last : Text) (v : Json.Value) : List Text → Fields → Option Fields
  | [], fields => define last v fields
  | key :: keys, fields =>
    match get? key fields with
    | none => (defineDotted last v keys []).map fun inner => put key (.table .dotted inner) fields
    | some (.table .dotted inner) =>
      (defineDotted last v keys inner).map fun inner => put key (.table .dotted inner) fields
    | some (.table .implied inner) =>
      if keys.isEmpty then none
      else (defineDotted last v keys inner).map fun inner => put key (.table .implied inner) fields
    | some (.tables rows) =>
      if keys.isEmpty then none
      else (updateLast (defineDotted last v keys) rows).map fun rows => put key (.tables rows) fields
    | some _ => none

end Fields

mutual

def Item.toJson : Item → Json.Value
  | .value v => v
  | .table _ fields => .object (fieldsToJson fields)
  | .tables rows => .array (rowsToJson rows)

def fieldsToJson : List (Text × Item) → List (Text × Json.Value)
  | [] => []
  | (key, item) :: fields => (key, item.toJson) :: fieldsToJson fields

def rowsToJson : List (List (Text × Item)) → List Json.Value
  | [] => []
  | row :: rows => .object (fieldsToJson row) :: rowsToJson rows

end

end Stylesmith.Toml
