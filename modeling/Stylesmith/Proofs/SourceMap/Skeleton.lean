import Stylesmith.Proofs.SourceMap.Spots
import Stylesmith.Proofs.Stylesheet.Occurrences

set_option autoImplicit false

namespace Stylesmith

variable {α : Type} {layout : Layout}

namespace Position

/-- The position after a generated text: only line feeds end its lines, and columns count UTF-16
units. -/
def generated (t : Text) : Position := ⟨1 + t.count '\n', 1 + Text.units16 t.lastLine⟩

theorem advance_first_eq (t : Text) : Piece.advance first t = generated t := by
  rw [Piece.advance_first, generated, Spot.afterText, Nat.add_comm, Nat.add_comm (Text.units16 _)]

end Position

theorem Piece.lt_advance (p : Position) {t : Text} (h : t ≠ []) : p.lt (advance p t) := by
  induction t generalizing p with
  | nil => exact absurd rfl h
  | cons c t ih =>
    have hunits : 0 < Text.charUnits16 c := by
      unfold Text.charUnits16
      split <;> decide
    -- One character leads to a later column or to a later line.
    have hstep : ∃ q, p.lt q ∧ advance p (c :: t) = advance q t := by
      rw [advance]
      split
      · exact ⟨⟨p.line + 1, 1⟩, .inl (Nat.lt_succ_self p.line), rfl⟩
      · exact ⟨⟨p.line, p.column + Text.charUnits16 c⟩, .inr ⟨rfl, Nat.lt_add_of_pos_right hunits⟩,
          rfl⟩
    obtain ⟨q, hq, he⟩ := hstep
    rw [he]
    cases t with
    | nil => exact hq
    | cons d t => exact Position.lt_trans hq (ih q (List.cons_ne_nil d t))

theorem Position.generated_lt (t : Text) {u : Text} (h : u ≠ []) :
    (generated t).lt (generated (t ++ u)) := by
  rw [← advance_first_eq, ← advance_first_eq, Piece.advance_append]
  exact Piece.lt_advance _ h

namespace Node

mutual

/-- A node and the nodes inside it, in the order in which they begin, each with the number of blocks
around it. -/
def nested (depth : Nat) : Node α → List (Nat × Node α)
  | rule selectors children o =>
    (depth, rule selectors children o) :: allNested (depth + 1) children
  | group name prelude children o =>
    (depth, group name prelude children o) :: allNested (depth + 1) children
  | statement name prelude o => [(depth, statement name prelude o)]
  | declaration property value important o => [(depth, declaration property value important o)]
  | comment text o => [(depth, comment text o)]

/-- Some nodes and the nodes inside them, each with the number of blocks around it. -/
def allNested (depth : Nat) : List (Node α) → List (Nat × Node α)
  | [] => []
  | n :: ns => nested depth n ++ allNested depth ns

end

mutual

theorem nested_placed (depth : Nat) (before : Text) (n : Node α) :
    (placed layout depth before n).map (fun o => (o.depth, o.node)) = nested depth n := by
  cases n with
  | rule | group => rw [placed, nested, List.map_cons, nested_placedItems]
  | statement | declaration | comment => rfl

theorem nested_placedItems (depth : Nat) (before : Text) (afterDeclaration : Bool)
    (ns : List (Node α)) :
    (placedItems layout depth before afterDeclaration ns).map (fun o => (o.depth, o.node)) =
      allNested depth ns := by
  cases ns with
  | nil => rfl
  | cons n ns => rw [placedItems, allNested, List.map_append, nested_placed, nested_placedItems]

end

theorem nested_placedLater (before : Text) (afterStatement : Bool) (ns : List (Node α)) :
    (placedLater layout before afterStatement ns).map (fun o => (o.depth, o.node)) =
      allNested 0 ns := by
  induction ns generalizing before afterStatement with
  | nil => rfl
  | cons n ns ih => rw [placedLater, allNested, List.map_append, nested_placed, ih]

theorem nested_placedSheet (ns : List (Node α)) :
    (placedSheet layout ns).map (fun o => (o.depth, o.node)) = allNested 0 ns := by
  cases ns with
  | nil => rfl
  | cons n ns => rw [placedSheet, allNested, List.map_append, nested_placed, nested_placedLater]

end Node

/-- What a mapping says of a node that stands there: where it is written, and where it comes from
unless it has no position. -/
def Occurrence.mapping (o : Occurrence Provenance) : Mapping :=
  ⟨.generated o.before, o.node.origin.position.map fun p => (o.node.origin.source, p)⟩

/-- Of two places of a text, the later one has the later position. -/
theorem Within.positions {t : Text} {occs : List (Occurrence α)} (h : Within layout [] t occs) :
    occs.Pairwise fun a b => (Position.generated a.before).lt (.generated b.before) := by
  refine h.ordered.imp_of_mem fun {a b} ha hb hlength => ?_
  have hbegins : ∀ o ∈ occs, o.before <+: t := fun o ho =>
    (List.prefix_append _ _).trans (h.stands o ho).2
  obtain ⟨u, hu⟩ := List.prefix_of_prefix_length_le (hbegins a ha) (hbegins b hb) hlength.le
  rw [← hu]
  refine Position.generated_lt a.before ?_
  rintro rfl
  rw [List.append_nil] at hu
  rw [hu] at hlength
  exact absurd hlength (lt_irrefl _)

namespace Stylesheet

/-- Asking for mappings does not change the text. There is one mapping for each node, in the order in
which the nodes begin, and it tells where in the text the node stands as it is written at its depth;
so each mapping is behind the one before. -/
theorem print_skeleton (layout : Layout) (ns : List (Node Provenance)) :
    (print layout true ns).text = (print layout false ns).text ∧
      (print layout false ns).mappings = none ∧
      ∃ occs : List (Occurrence Provenance),
        occs.map (fun o => (o.depth, o.node)) = Node.allNested 0 ns ∧
        (∀ o ∈ occs, ∃ post,
          (print layout true ns).text = o.before ++ Node.written layout o.depth o.node ++ post) ∧
        (print layout true ns).mappings = some (occs.map Occurrence.mapping) ∧
        (occs.map Occurrence.mapping).Pairwise fun a b => a.generated.lt b.generated := by
  have hwithin := @Node.within_placedSheet _ layout ns
  refine ⟨rfl, rfl, Node.placedSheet layout ns, Node.nested_placedSheet ns, fun o ho => ?_, ?_, ?_⟩
  · obtain ⟨post, hpost⟩ := (hwithin.stands o ho).2
    exact ⟨post, hpost.symm⟩
  · have hmark : ∀ o : Occurrence Provenance, Node.mark .first o =
        (.generated o.before, o.node.origin) := fun o => by
      rw [Node.mark, Position.advance_first_eq]
    simp only [print, if_true, mappings, Node.marks_sheetPieces, List.map_map, Option.some.injEq]
    exact List.map_congr_left fun o _ => by simp only [Function.comp_apply, hmark]; rfl
  · exact List.pairwise_map.2 hwithin.positions

end Stylesheet

end Stylesmith
