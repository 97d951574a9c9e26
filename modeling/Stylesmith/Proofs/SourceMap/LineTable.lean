import Mathlib.Data.List.Forall2
import Stylesmith.Proofs.SourceMap.Skeleton
import Stylesmith.Proofs.Stylesheet.Locations

/-!
# Written nodes in the line table

A text that is read has line ends of four kinds, and its lines are kept in one table. The printer
ends a line at each line feed and nowhere else, so a node is where the table has it exactly if no
other line end stands before it.
-/

set_option autoImplicit false

namespace Stylesmith

variable {α β : Type} {layout : Layout}

namespace Text

theorem count_le_withLineFeeds (t : Text) : t.count '\n' ≤ t.withLineFeeds.count '\n' := by
  induction t with
  | nil => exact le_rfl
  | cons c t ih =>
    rw [withLineFeeds, List.count_cons, List.count_cons]
    refine Nat.add_le_add ih ?_
    by_cases hc : c = '\n'
    · subst hc
      exact le_rfl
    · simp [hc]

/-- Only line feeds end lines exactly if there are as many of them as line ends. -/
theorem count_withLineFeeds_eq_iff (t : Text) :
    t.withLineFeeds.count '\n' = t.count '\n' ↔ t.withLineFeeds = t := by
  constructor
  · intro h
    induction t with
    | nil => rfl
    | cons c t ih =>
      have hle := count_le_withLineFeeds t
      rw [withLineFeeds] at h ⊢
      by_cases hends : Position.endsLine c t.head? = true
      · rw [if_pos hends, List.count_cons_self] at h
        rw [if_pos hends]
        by_cases hc : c = '\n'
        · subst hc
          rw [List.count_cons_self] at h
          rw [ih (Nat.succ_injective h)]
        · rw [List.count_cons_of_ne hc] at h
          omega
      · have hc : c ≠ '\n' := by
          rintro rfl
          exact hends rfl
        rw [if_neg hends, List.count_cons_of_ne hc, List.count_cons_of_ne hc] at h
        rw [if_neg hends, ih h]
  · intro h
    rw [h]

end Text

namespace Position

/-- The place at which a suffix of a text begins, as the lines of the text have it: the line, and a
column in UTF-16 units. -/
def tabled (t rest : Text) : Position :=
  ⟨(ofSuffix t rest).line, Text.column16 t.lines.toArray (ofSuffix t rest) + 1⟩

/-- The table counts as the printer would if every line end were a line feed. -/
theorem tabled_append {t rest : Text} (h : rest.head? ≠ some '\n') :
    tabled (t ++ rest) rest = generated t.withLineFeeds := by
  have hspot := congrArg Spot.column (spot_ofSuffix (List.suffix_append t rest) h)
  dsimp only [Spot.ofSuffix] at hspot
  rw [Text.before_append] at hspot
  rw [tabled, hspot, ofSuffix_append h, afterText, generated, Text.lastLine_withLineFeeds,
    ← Text.count_withLineFeeds, Nat.add_comm, Nat.add_comm (Text.units16 _)]

theorem generated_line_eq_tabled_iff {t rest : Text} (h : rest.head? ≠ some '\n') :
    (generated t).line = (tabled (t ++ rest) rest).line ↔ t.withLineFeeds = t := by
  rw [tabled_append h, ← Text.count_withLineFeeds_eq_iff, generated, generated]
  dsimp only
  omega

end Position

namespace Node

theorem written_mapOrigin (f : α → β) (depth : Nat) (n : Node α) :
    written layout depth (mapOrigin f n) = written layout depth n := by
  rw [written, pieces_mapOrigin, Piece.texts_map, written]

/-- No node that was read is written with a line feed at its start. -/
theorem head_written_ne (depth : Nat) {n : Node Text} (h : n.Begins) :
    (written layout depth n).head? ≠ some '\n' := by
  cases n with
  | rule selectors children o =>
    obtain ⟨⟨raw, body, rfl, rfl⟩, _⟩ := h
    rw [written_rule]
    cases hheader : layout.header depth (Reader.selectors raw) with
    | nil => exact fun he => absurd (Option.some.inj he) (by decide)
    | cons d v =>
      intro he
      obtain rfl : d = '\n' := Option.some.inj he
      by_cases hsel : Reader.selectors raw = []
      · rw [hsel] at hheader
        cases layout <;> cases hheader
      · cases head_header hsel hheader
  | group => simp [written_group]
  | statement => simp [written_statement]
  | declaration property value important o =>
    obtain ⟨⟨raw, _, _, hread⟩, _⟩ := h
    obtain ⟨name, _, _, _, _, _, hname, hne, _, _, he⟩ := Reader.declaration_eq_ok_iff.1 hread
    cases he
    have hwritten : ∃ u, written layout depth (declaration property value important o) =
        property ++ u := by
      rw [written_declaration]
      cases layout <;> exact ⟨_, by simp only [Layout.assignment, List.append_assoc]; rfl⟩
    obtain ⟨u, hu⟩ := hwritten
    rw [hu]
    cases property with
    | nil => exact absurd rfl hne
    | cons d v =>
      intro he
      obtain rfl : d = '\n' := Option.some.inj he
      cases head_collapse (t := name) hname
  | comment => simp [written_comment]

end Node

def Occurrence.tabled (t : Text) (o : Occurrence α) : Position :=
  .tabled t (t.drop o.before.length)

theorem Occurrence.tabled_append {o : Occurrence α} {rest : Text} (h : rest.head? ≠ some '\n') :
    o.tabled (o.before ++ rest) = .generated o.before.withLineFeeds := by
  rw [tabled, List.drop_left, Position.tabled_append h]

namespace Stylesheet

theorem mappings_eq (layout : Layout) (ns : List (Node Provenance)) :
    mappings layout ns = (Node.placedSheet layout ns).map Occurrence.mapping := by
  rw [mappings, Node.marks_sheetPieces, List.map_map]
  refine List.map_congr_left fun o _ => ?_
  rw [Function.comp_apply, Node.mark, Position.advance_first_eq]
  rfl

/-- What a node that was read is written as stands behind what is written before it, and does not begin
with a line feed. -/
theorem exists_rest_of_placed {f : Text → β} {ns : List (Node Text)}
    (h : ∀ n ∈ Node.allSubnodes ns, n.Begins) {o : Occurrence β}
    (ho : o ∈ Node.placedSheet layout (Node.mapOrigins f ns)) :
    ∃ rest, render layout (Node.mapOrigins f ns) = o.before ++ rest ∧ o.text layout <+: rest ∧
      rest.head? ≠ some '\n' := by
  obtain ⟨post, hpost⟩ := ((Node.within_placedSheet _).stands o ho).2
  have hnode : o.node ∈ Node.allSubnodes (Node.mapOrigins f ns) := by
    rw [← @Node.map_node_placedSheet _ layout]
    exact List.mem_map_of_mem ho
  rw [Node.allSubnodes_mapOrigins] at hnode
  obtain ⟨n, hn, hmap⟩ := List.mem_map.1 hnode
  have hhead := @Node.head_written_ne layout o.depth n (h n hn)
  rw [← Node.written_mapOrigin f, hmap] at hhead
  have hpos : 0 < (o.text layout).length := Within.written_pos o.depth o.node
  refine ⟨o.text layout ++ post, ?_, List.prefix_append _ _, ?_⟩
  · rw [← List.append_assoc, hpost, List.nil_append]
  · rwa [List.head?_append_of_ne_nil _ (List.length_pos_iff.1 hpos)]

/-- The printer and the line table agree on a node that was read and printed exactly if each line end
before it, where it is printed, is a line feed; where they differ, they differ in the line. -/
theorem mappings_tabled_iff (layout : Layout) {source t : Text} {positions : Bool} {s : Stylesheet}
    (h : parse source t positions = .ok s) :
    (Node.placedSheet layout s.children).map (·.node) = Node.allSubnodes s.children ∧
      ∃ ms, (print layout true s.children).mappings = some ms ∧
        List.Forall₂ (fun m o => o.before ++ o.text layout <+: (print layout true s.children).text ∧
            (m.generated.line = (o.tabled (print layout true s.children).text).line ↔
              o.before.withLineFeeds = o.before) ∧
            (o.before.withLineFeeds = o.before →
              m.generated = o.tabled (print layout true s.children).text))
          ms (Node.placedSheet layout s.children) := by
  obtain ⟨ns, hns, rfl⟩ := parse_eq_ok_iff.1 h
  have hbegins := begins_of_spells (nodes_eq_ok_iff.1 hns)
  refine ⟨Node.map_node_placedSheet _, _, congrArg some (mappings_eq layout _), ?_⟩
  rw [List.forall₂_map_left_iff, List.forall₂_same]
  intro o ho
  obtain ⟨rest, htext, hstart, hhead⟩ :=
    exists_rest_of_placed (fun n hn => (hbegins n hn).1) ho
  have hprinted : (print layout true _).text = o.before ++ rest := htext
  rw [hprinted, Occurrence.tabled_append hhead]
  refine ⟨List.prefix_append_right_inj _ |>.2 hstart, ?_, fun hfeeds => ?_⟩
  · rw [← Position.tabled_append hhead]
    exact Position.generated_line_eq_tabled_iff hhead
  · rw [hfeeds]
    rfl

/-- The line ends before the second rule are a line feed with a carriage return before it, and then a
carriage return by itself. -/
theorem mappings_tabled_twoRules :
    ∃ s ms, parse "a.css" "/*\r\n😀*/a\x7bb:c\x7d/*\r*/d\x7b\x7d" true = .ok s ∧
      (print .compact true s.children).mappings = some ms ∧
      ms.map (·.generated) = [⟨1, 1⟩, ⟨2, 5⟩, ⟨2, 7⟩, ⟨2, 11⟩, ⟨2, 16⟩] ∧
      (Node.placedSheet .compact s.children).map
          (·.tabled (print .compact true s.children).text) =
        [⟨1, 1⟩, ⟨2, 5⟩, ⟨2, 7⟩, ⟨2, 11⟩, ⟨3, 3⟩] ∧
      List.Forall₂ (fun m o => o.before ++ o.text .compact <+: (print .compact true s.children).text ∧
          (m.generated.line = (o.tabled (print .compact true s.children).text).line ↔
            o.before.withLineFeeds = o.before) ∧
          (o.before.withLineFeeds = o.before →
            m.generated = o.tabled (print .compact true s.children).text))
        ms (Node.placedSheet .compact s.children) := by
  have hread : (parse "a.css" "/*\r\n😀*/a\x7bb:c\x7d/*\r*/d\x7b\x7d" true).toOption.any (fun s =>
      (mappings .compact s.children).map (·.generated) == [⟨1, 1⟩, ⟨2, 5⟩, ⟨2, 7⟩, ⟨2, 11⟩, ⟨2, 16⟩] &&
      (Node.placedSheet .compact s.children).map (·.tabled (render .compact s.children)) ==
        [⟨1, 1⟩, ⟨2, 5⟩, ⟨2, 7⟩, ⟨2, 11⟩, ⟨3, 3⟩]) = true := by
    decide +kernel
  obtain ⟨s, hs, hplaces⟩ := exists_ok_of_any hread
  rw [Bool.and_eq_true, beq_iff_eq, beq_iff_eq] at hplaces
  obtain ⟨_, ms, hms, hall⟩ := mappings_tabled_iff .compact hs
  obtain rfl : mappings .compact s.children = ms := Option.some.inj hms
  exact ⟨s, _, hs, rfl, hplaces.1, hplaces.2, hall⟩

/-- A form feed in a comment ends a line of the table, but not of the printer. -/
theorem mappings_not_tabled : ¬ ∀ (layout : Layout) (source t : Text) (positions : Bool)
    (s s' : Stylesheet), parse source t positions = .ok s →
      parse source (render layout s.children) positions = .ok s' →
        ∀ ms, (print layout true s.children).mappings = some ms →
          List.Forall₂ (fun m o => m.generated = o.tabled (print layout true s.children).text) ms
            (Node.placedSheet layout s.children) := by
  intro h
  have hread : (parse "a.css" "/*\x0c*/a\x7b\x7d" true).toOption.any (fun s =>
      (parse "a.css" (render .compact s.children) true).toOption.any (fun _ => true) &&
      (mappings .compact s.children).map (·.generated) == [⟨1, 1⟩, ⟨1, 6⟩] &&
      (Node.placedSheet .compact s.children).map (·.tabled (render .compact s.children)) ==
        [⟨1, 1⟩, ⟨2, 3⟩]) = true := by
    decide +kernel
  obtain ⟨s, hs, hplaces⟩ := exists_ok_of_any hread
  rw [Bool.and_eq_true, Bool.and_eq_true, beq_iff_eq, beq_iff_eq] at hplaces
  obtain ⟨⟨hagain, hgenerated⟩, htabled⟩ := hplaces
  obtain ⟨s', hs', _⟩ := exists_ok_of_any hagain
  have hall := h .compact _ _ _ s s' hs hs' _ rfl
  -- Both lists of places would be the same.
  have heq : (mappings .compact s.children).map (·.generated) =
      (Node.placedSheet .compact s.children).map (·.tabled (render .compact s.children)) := by
    rw [← List.forall₂_eq_eq_eq, List.forall₂_map_left_iff, List.forall₂_map_right_iff]
    exact hall
  rw [hgenerated, htabled] at heq
  cases heq

end Stylesheet

end Stylesmith
