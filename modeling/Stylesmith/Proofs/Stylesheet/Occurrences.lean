import Stylesmith.Proofs.Stylesheet.Subnodes

set_option autoImplicit false

namespace Stylesmith

variable {α : Type} {layout : Layout}

/-- A node where it is written: the text before it, and the number of blocks around it. -/
structure Occurrence (α : Type) where
  before : Text
  depth : Nat
  node : Node α

def Occurrence.text (layout : Layout) (o : Occurrence α) : Text := Node.written layout o.depth o.node

namespace Node

mutual

def placed (layout : Layout) (depth : Nat) (before : Text) : Node α → List (Occurrence α)
  | rule selectors children o =>
    ⟨before, depth, rule selectors children o⟩ ::
      placedItems layout (depth + 1) (before ++ (layout.header depth selectors ++ ['{'])) false
        children
  | group name prelude children o =>
    ⟨before, depth, group name prelude children o⟩ ::
      placedItems layout (depth + 1)
        (before ++ (Layout.atHeader name prelude ++ (layout.openGap ++ ['{']))) false children
  | statement name prelude o => [⟨before, depth, statement name prelude o⟩]
  | declaration property value important o =>
    [⟨before, depth, declaration property value important o⟩]
  | comment text o => [⟨before, depth, comment text o⟩]

def placedItems (layout : Layout) (depth : Nat) (before : Text) (afterDeclaration : Bool) :
    List (Node α) → List (Occurrence α)
  | [] => []
  | n :: ns =>
    placed layout depth (before ++ layout.itemGap depth afterDeclaration) n ++
      placedItems layout depth
        (before ++ layout.itemGap depth afterDeclaration ++ written layout depth n) n.isDeclaration ns

end

def placedLater (layout : Layout) (before : Text) (afterStatement : Bool) :
    List (Node α) → List (Occurrence α)
  | [] => []
  | n :: ns =>
    placed layout 0 (before ++ layout.topGap (afterStatement && n.isStatement)) n ++
      placedLater layout
        (before ++ layout.topGap (afterStatement && n.isStatement) ++ written layout 0 n)
        n.isStatement ns

def placedSheet (layout : Layout) : List (Node α) → List (Occurrence α)
  | [] => []
  | n :: ns => placed layout 0 [] n ++ placedLater layout (written layout 0 n) n.isStatement ns

mutual

theorem map_node_placed (depth : Nat) (before : Text) (n : Node α) :
    (placed layout depth before n).map (·.node) = subnodes n := by
  cases n with
  | rule | group => rw [placed, subnodes, List.map_cons, map_node_placedItems]
  | statement | declaration | comment => rfl

theorem map_node_placedItems (depth : Nat) (before : Text) (afterDeclaration : Bool)
    (ns : List (Node α)) :
    (placedItems layout depth before afterDeclaration ns).map (·.node) = allSubnodes ns := by
  cases ns with
  | nil => rfl
  | cons n ns =>
    rw [placedItems, allSubnodes, List.map_append, map_node_placed, map_node_placedItems]

end

theorem map_node_placedLater (before : Text) (afterStatement : Bool) (ns : List (Node α)) :
    (placedLater layout before afterStatement ns).map (·.node) = allSubnodes ns := by
  induction ns generalizing before afterStatement with
  | nil => rfl
  | cons n ns ih => rw [placedLater, allSubnodes, List.map_append, map_node_placed, ih]

theorem map_node_placedSheet (ns : List (Node α)) :
    (placedSheet layout ns).map (·.node) = allSubnodes ns := by
  cases ns with
  | nil => rfl
  | cons n ns =>
    rw [placedSheet, allSubnodes, List.map_append, map_node_placed, map_node_placedLater]

end Node

/-- The occurrences are places of the text `t`, which stands after `before`, in order. -/
structure Within (layout : Layout) (before t : Text) (occs : List (Occurrence α)) : Prop where
  stands : ∀ o ∈ occs, before <+: o.before ∧ o.before ++ o.text layout <+: before ++ t
  ordered : occs.Pairwise fun a b => a.before.length < b.before.length

namespace Within

variable {before t u : Text} {occs occs' : List (Occurrence α)}

theorem nil (layout : Layout) (before t : Text) : Within layout before t ([] : List (Occurrence α)) :=
  ⟨fun _ ho => absurd ho List.not_mem_nil, .nil⟩

theorem written_pos (depth : Nat) (n : Node α) : 0 < (Node.written layout depth n).length := by
  obtain ⟨c, hc, _⟩ := Node.exists_not_wide layout depth n
  exact List.length_pos_of_mem hc

theorem append (h : Within layout before t occs) (h' : Within layout (before ++ t) u occs') :
    Within layout before (t ++ u) (occs ++ occs') := by
  refine ⟨?_, List.pairwise_append.2 ⟨h.ordered, h'.ordered, ?_⟩⟩
  · intro o ho
    rw [← List.append_assoc]
    rcases List.mem_append.1 ho with ho | ho
    · obtain ⟨hb, ht⟩ := h.stands o ho
      exact ⟨hb, ht.trans (List.prefix_append _ _)⟩
    · obtain ⟨hb, ht⟩ := h'.stands o ho
      exact ⟨(List.prefix_append _ _).trans hb, ht⟩
  · intro o ho o' ho'
    have hend := (h.stands o ho).2.length_le
    have hstart := (h'.stands o' ho').1.length_le
    have hpos : 0 < (o.text layout).length := written_pos o.depth o.node
    rw [List.length_append] at hend
    omega

theorem skip (h : Within layout (before ++ t) u occs) : Within layout before (t ++ u) occs :=
  (nil layout before t).append h

theorem extend (h : Within layout before t occs) (u : Text) : Within layout before (t ++ u) occs := by
  have ha := h.append (nil layout (before ++ t) u)
  rwa [List.append_nil] at ha

theorem single (layout : Layout) (depth : Nat) (before : Text) (n : Node α) :
    Within layout before (Node.written layout depth n) [⟨before, depth, n⟩] := by
  refine ⟨?_, List.pairwise_singleton _ _⟩
  intro o ho
  obtain rfl := List.mem_singleton.1 ho
  exact ⟨List.prefix_refl _, List.prefix_refl _⟩

theorem cons {depth : Nat} {n : Node α} (hn : Node.written layout depth n = t ++ u) (ht : t ≠ [])
    (h : Within layout (before ++ t) u occs) :
    Within layout before (Node.written layout depth n) (⟨before, depth, n⟩ :: occs) := by
  have hall := h.skip
  rw [← hn] at hall
  refine ⟨?_, List.pairwise_cons.2 ⟨?_, h.ordered⟩⟩
  · intro o ho
    rcases List.mem_cons.1 ho with rfl | ho
    · exact ⟨List.prefix_refl _, List.prefix_refl _⟩
    · exact hall.stands o ho
  · intro o ho
    have hstart := (h.stands o ho).1.length_le
    have hpos := List.length_pos_iff.2 ht
    rw [List.length_append] at hstart
    show before.length < o.before.length
    omega

end Within

namespace Node

mutual

theorem within_placed (depth : Nat) (before : Text) (n : Node α) :
    Within layout before (written layout depth n) (placed layout depth before n) := by
  cases n with
  | rule selectors children o =>
    have hn : written layout depth (rule selectors children o) =
        (layout.header depth selectors ++ ['{']) ++
          (writtenItems layout (depth + 1) false children ++
            layout.closeBrace depth children.isEmpty) := by
      simp [written_rule]
    rw [placed]
    exact .cons hn (by simp) ((within_placedItems _ _ _ children).extend _)
  | group name prelude children o =>
    have hn : written layout depth (group name prelude children o) =
        (Layout.atHeader name prelude ++ (layout.openGap ++ ['{'])) ++
          (writtenItems layout (depth + 1) false children ++
            layout.closeBrace depth children.isEmpty) := by
      simp [written_group, Layout.atHeader, Layout.afterName]
    rw [placed]
    exact .cons hn (by simp) ((within_placedItems _ _ _ children).extend _)
  | statement | declaration | comment => exact .single layout depth before _

theorem within_placedItems (depth : Nat) (before : Text) (afterDeclaration : Bool)
    (ns : List (Node α)) : Within layout before (writtenItems layout depth afterDeclaration ns)
      (placedItems layout depth before afterDeclaration ns) := by
  cases ns with
  | nil => exact .nil layout before _
  | cons n ns =>
    rw [placedItems, writtenItems_cons]
    exact ((within_placed depth _ n).append (within_placedItems depth _ _ ns)).skip

end

theorem within_placedLater (before : Text) (afterStatement : Bool) (ns : List (Node α)) :
    Within layout before (writtenLater layout afterStatement ns)
      (placedLater layout before afterStatement ns) := by
  induction ns generalizing before afterStatement with
  | nil => exact .nil layout before _
  | cons n ns ih =>
    rw [placedLater, writtenLater_cons]
    exact ((within_placed 0 _ n).append (ih _ _)).skip

theorem within_placedSheet (ns : List (Node α)) :
    Within layout [] (Stylesheet.render layout ns) (placedSheet layout ns) := by
  cases ns with
  | nil => exact .nil layout [] _
  | cons n ns =>
    rw [placedSheet, render_cons, ← List.append_assoc]
    exact ((within_placed 0 [] n).append (within_placedLater _ _ ns)).extend _

def mark (p : Position) (o : Occurrence α) : Position × α := (Piece.advance p o.before, o.node.origin)

mutual

theorem marks_pieces (p : Position) (depth : Nat) (before : Text) (n : Node α) :
    Piece.marks (Piece.advance p before) (pieces layout depth n) =
      (placed layout depth before n).map (mark p) := by
  cases n with
  | rule selectors children o =>
    have hopen : layout.header depth selectors ++ ['{'] =
        Text.join (layout.selectorGap depth) selectors ++ layout.openBrace := by
      rw [Layout.header, List.append_assoc, Layout.openBrace_eq]
    have hitems := marks_placedItems p (depth + 1)
      (before ++ (layout.header depth selectors ++ ['{'])) false children
    rw [hopen, Piece.advance_append, Piece.advance_append] at hitems
    simp only [pieces, Piece.marks, Piece.marks_append, List.append_nil]
    rw [hitems, placed, hopen]
    rfl
  | group name prelude children o =>
    have hitems := marks_placedItems p (depth + 1)
      (before ++ (Layout.atHeader name prelude ++ (layout.openGap ++ ['{']))) false children
    rw [← Layout.openBrace_eq, Piece.advance_append, Piece.advance_append] at hitems
    simp only [pieces, Piece.marks, Piece.marks_append, List.append_nil]
    rw [hitems, placed, ← Layout.openBrace_eq]
    rfl
  | statement | declaration | comment => rfl

theorem marks_placedItems (p : Position) (depth : Nat) (before : Text) (afterDeclaration : Bool)
    (ns : List (Node α)) :
    Piece.marks (Piece.advance p before) (itemPieces layout depth afterDeclaration ns) =
      (placedItems layout depth before afterDeclaration ns).map (mark p) := by
  cases ns with
  | nil => rfl
  | cons n ns =>
    rw [itemPieces, Piece.marks, ← Piece.advance_append, Piece.marks_append, marks_pieces, ← written,
      ← Piece.advance_append, marks_placedItems, placedItems, List.map_append]

end

theorem marks_laterPieces (p : Position) (before : Text) (afterStatement : Bool)
    (ns : List (Node α)) :
    Piece.marks (Piece.advance p before) (laterPieces layout afterStatement ns) =
      (placedLater layout before afterStatement ns).map (mark p) := by
  induction ns generalizing before afterStatement with
  | nil => rfl
  | cons n ns ih =>
    rw [laterPieces, Piece.marks, ← Piece.advance_append, Piece.marks_append, marks_pieces, ← written,
      ← Piece.advance_append, ih, placedLater, List.map_append]

/-- The marks of a sheet are where its nodes are written. -/
theorem marks_sheetPieces (p : Position) (ns : List (Node α)) :
    Piece.marks p (sheetPieces layout ns) = (placedSheet layout ns).map (mark p) := by
  cases ns with
  | nil => rfl
  | cons n ns =>
    have hhead := @marks_pieces _ layout p 0 [] n
    have hlater := @marks_laterPieces _ layout p (written layout 0 n) n.isStatement ns
    rw [sheetPieces, Piece.marks_append, Piece.marks_append, placedSheet, List.map_append, ← hhead,
      ← hlater]
    exact List.append_nil _

end Node

end Stylesmith
