import Stylesmith.Stylesheet.Printer

set_option autoImplicit false

namespace Stylesmith

variable {α β γ : Type}

namespace Piece

def map (f : α → β) : Piece α → Piece β
  | text t => text t
  | mark o => mark (f o)

theorem texts_map (f : α → β) (ps : List (Piece α)) : texts (ps.map (map f)) = texts ps := by
  induction ps with
  | nil => rfl
  | cons p ps ih => cases p <;> simp [map, texts, ih]

end Piece

namespace Node

def bare (ns : List (Node α)) : List (Node Unit) := mapOrigins (fun _ => ()) ns

theorem bare_cons (n : Node α) (ns : List (Node α)) : bare (n :: ns) = bare [n] ++ bare ns := rfl

theorem bare_head {m : Node α} {ms : List (Node α)} {n : Node β} {ns : List (Node β)}
    (h : bare (m :: ms) = bare (n :: ns)) : bare [m] = bare [n] :=
  congrArg (fun l => [l]) (List.cons.inj h).1

theorem bare_tail {m : Node α} {ms : List (Node α)} {n : Node β} {ns : List (Node β)}
    (h : bare (m :: ms) = bare (n :: ns)) : bare ms = bare ns :=
  (List.cons.inj h).2

theorem bare_rule_eq {selectors : List Text} {cs : List (Node α)} {ds : List (Node β)} (o : α)
    (p : β) (h : bare cs = bare ds) : bare [rule selectors cs o] = bare [rule selectors ds p] :=
  congrArg (fun es => [rule selectors es ()]) h

theorem bare_group_eq {name prelude : Text} {cs : List (Node α)} {ds : List (Node β)} (o : α)
    (p : β) (h : bare cs = bare ds) :
    bare [group name prelude cs o] = bare [group name prelude ds p] :=
  congrArg (fun es => [group name prelude es ()]) h

mutual

theorem mapOrigin_mapOrigin (g : β → γ) (f : α → β) (n : Node α) :
    mapOrigin g (mapOrigin f n) = mapOrigin (fun o => g (f o)) n := by
  cases n <;> simp only [mapOrigin] <;> rw [mapOrigins_mapOrigins]

theorem mapOrigins_mapOrigins (g : β → γ) (f : α → β) (ns : List (Node α)) :
    mapOrigins g (mapOrigins f ns) = mapOrigins (fun o => g (f o)) ns := by
  cases ns with
  | nil => rfl
  | cons n ns => simp only [mapOrigins, mapOrigin_mapOrigin, mapOrigins_mapOrigins]

end

theorem bare_mapOrigins (f : α → β) (ns : List (Node α)) : bare (mapOrigins f ns) = bare ns :=
  mapOrigins_mapOrigins _ f ns

theorem isEmpty_mapOrigins (f : α → β) (ns : List (Node α)) :
    (mapOrigins f ns).isEmpty = ns.isEmpty := by
  rw [mapOrigins_eq_map, List.isEmpty_map]

theorem isDeclaration_mapOrigin (f : α → β) (n : Node α) :
    (mapOrigin f n).isDeclaration = n.isDeclaration := by
  cases n <;> rfl

theorem isStatement_mapOrigin (f : α → β) (n : Node α) :
    (mapOrigin f n).isStatement = n.isStatement := by
  cases n <;> rfl

mutual

theorem pieces_mapOrigin (f : α → β) (layout : Layout) (depth : Nat) (n : Node α) :
    pieces layout depth (mapOrigin f n) = (pieces layout depth n).map (Piece.map f) := by
  cases n with
  | rule | group =>
    simp [mapOrigin, pieces, Piece.map, itemPieces_mapOrigins, isEmpty_mapOrigins]
  | statement | declaration | comment => rfl

theorem itemPieces_mapOrigins (f : α → β) (layout : Layout) (depth : Nat) (afterDeclaration : Bool)
    (ns : List (Node α)) : itemPieces layout depth afterDeclaration (mapOrigins f ns) =
      (itemPieces layout depth afterDeclaration ns).map (Piece.map f) := by
  cases ns with
  | nil => rfl
  | cons n ns =>
    simp [mapOrigins, itemPieces, Piece.map, pieces_mapOrigin, itemPieces_mapOrigins,
      isDeclaration_mapOrigin]

end

theorem laterPieces_mapOrigins (f : α → β) (layout : Layout) (afterStatement : Bool)
    (ns : List (Node α)) : laterPieces layout afterStatement (mapOrigins f ns) =
      (laterPieces layout afterStatement ns).map (Piece.map f) := by
  induction ns generalizing afterStatement with
  | nil => rfl
  | cons n ns ih =>
    simp [mapOrigins, laterPieces, Piece.map, pieces_mapOrigin, ih, isStatement_mapOrigin]

theorem sheetPieces_mapOrigins (f : α → β) (layout : Layout) (ns : List (Node α)) :
    sheetPieces layout (mapOrigins f ns) = (sheetPieces layout ns).map (Piece.map f) := by
  cases ns with
  | nil => rfl
  | cons n ns =>
    simp [mapOrigins, sheetPieces, Piece.map, pieces_mapOrigin, laterPieces_mapOrigins,
      isStatement_mapOrigin]

end Node

namespace Stylesheet

open Node

theorem render_mapOrigins (f : α → β) (layout : Layout) (ns : List (Node α)) :
    render layout (mapOrigins f ns) = render layout ns := by
  rw [render, sheetPieces_mapOrigins, Piece.texts_map]
  rfl

theorem render_eq_of_bare {layout : Layout} {ms : List (Node α)} {ns : List (Node β)}
    (h : bare ms = bare ns) : render layout ms = render layout ns := by
  rw [← render_mapOrigins (fun _ => ()) layout ms, ← render_mapOrigins (fun _ => ()) layout ns]
  exact congrArg (render layout) h

end Stylesheet

end Stylesmith
