import Stylesmith.Stylesheet.Reference

set_option autoImplicit false

namespace Stylesmith

namespace Merge

variable {α : Type}

inductive Remark where
  | lateImport
  | encoding (name : Text)
  | looseDeclaration (property : Text)
  deriving DecidableEq, Repr

def Remark.message : Remark → Text
  | lateImport =>
    "@import must precede all other statements; hoisted to the top of the merged stylesheet"
  | encoding name =>
    ("@charset \"" : Text) ++ name ++ "\" is ignored; merged output is always UTF-8"
  | looseDeclaration property =>
    ("unexpected declaration \x60" : Text) ++ property ++
      "\x60 outside of a rule; passed through unchanged"

def encodingOf (prelude : Text) : Text := Text.trimWhile (fun c => c == '"' || c == '\'') prelude

/-- Whether an import after this node still leads its fragment. -/
def keepsLead (n : Node α) : Bool := n.isComment || n.isImport || n.isCharset

/-- The remarks on one node; `leading` says that no content precedes it. -/
def remarksOn (leading : Bool) (n : Node α) : List Remark :=
  match n with
  | .declaration property _ _ _ => [.looseDeclaration property]
  | .group name prelude _ _ | .statement name prelude _ =>
    if name = "import" then (if leading then [] else [.lateImport])
    else if name = "charset" then
      if Text.eqIgnoringCase (encodingOf prelude) "utf-8" then []
      else [.encoding (encodingOf prelude)]
    else []
  | _ => []

def remarks (leading : Bool) : List (Node α) → List Remark
  | [] => []
  | n :: ns => remarksOn leading n ++ remarks (leading && keepsLead n) ns

/-- The nodes of a fragment in two lists: those that move to the front, and the others. `pending`
holds the comments before the first node of the list, which go where the next other node goes. -/
def hoist (leading : Bool) (pending : List (Node α)) : List (Node α) → List (Node α) × List (Node α)
  | [] => ([], pending)
  | n :: ns =>
    if leading && n.isComment then hoist leading (pending ++ [n]) ns
    else if n.isImport then
      let (front, body) := hoist leading [] ns
      (pending ++ n :: front, body)
    else
      let (front, body) := hoist (leading && n.isCharset) [] ns
      (front, pending ++ n :: body)

def anchorReferences (s : Stylesheet) : Stylesheet :=
  { s with children := Node.anchorAllReferences (s.source.getD []) s.children }

def children (sheets : List Stylesheet) : List (Node Provenance) :=
  let parts := sheets.map fun s => hoist true [] s.children
  parts.flatMap (·.1) ++ parts.flatMap (·.2)

structure Warning where
  path : Text
  remark : Remark
  deriving DecidableEq, Repr

def warnings (sheets : List Stylesheet) : List Warning :=
  sheets.flatMap fun s => (remarks true s.children).map (⟨s.source.getD [], ·⟩)

end Merge

namespace Stylesheet

def merge (anchor : Bool) (sheets : List Stylesheet) : Stylesheet :=
  ⟨none, Merge.children (if anchor then sheets.map Merge.anchorReferences else sheets)⟩

/-- What is unusual about some fragments. References in them play no part in it. -/
def mergeWarnings (sheets : List Stylesheet) : List Merge.Warning := Merge.warnings sheets

end Stylesheet

end Stylesmith
