import Stylesmith.Proofs.Stylesheet.Sequences

set_option autoImplicit false

namespace Stylesmith.Stylesheet

open Scan (AtStop atStop_cons)

/-- The text between the braces of a group is read as if it stood alone. -/
theorem nodes_group {header name after t : Text} {ns : List (Node Text)} (h : nodes t = .ok ns)
    (hname : Text.spanName header = (name, after)) (hne : name ≠ [])
    (hheader : header.getLast? ≠ some '\\') (hstop : Scan.toStop ⟨false, []⟩ after = .ok [])
    (hmarks : Markless t) (hend : t.getLast? ≠ some '\\') :
    nodes ('@' :: (header ++ '{' :: (t ++ ['}']))) =
      .ok [.group (Text.lowerAscii name) (Text.collapseSpaced after)
        (Node.mapOrigins (· ++ ['}']) ns) ('@' :: (header ++ '{' :: (t ++ ['}'])))] := by
  have hbrace : AtStop ('{' :: (t ++ ['}'])) := atStop_cons.2 rfl
  have hafter : after <:+ header := ⟨name, (spanName_append hname).symm⟩
  have hname' := spanName_extend (endsName_of_atStop hbrace) hheader hname
  have hstop' : Scan.toStop ⟨false, []⟩ (after ++ '{' :: (t ++ ['}'])) = .ok ('{' :: (t ++ ['}'])) :=
    Scan.toStop_extend hbrace (getLast?_of_suffix hafter hheader) (.refl _) hstop
  have hspells := nodes_eq_ok_iff.1 h
  -- The block is open, so the text may have no marks.
  have hbody : ∀ b : OpenBlock, ∃ a', Reader.run ⟨[b], [], false, t ++ ['}']⟩ =
      Reader.run ⟨[b], (Node.mapOrigins (· ++ ['}']) ns).reverse ++ [], a', ['}']⟩ := fun b =>
    Reader.run_extend hspells hend (.inr ⟨rfl, hmarks⟩) (atStop_cons.2 rfl) (by decide)
  rw [nodes, Reader.ofText, Reader.run_group hname' hne hstop', Reader.run_block (hbody _),
    Text.before_append]
  exact Reader.run_of_done rfl

/-- In a block for some medium, a style sheet text is read as it is read by itself. -/
theorem parse_inBlock {source t : Text} {positions : Bool} {s : Stylesheet}
    (h : parse source t positions = .ok s) (hopen : ¬ ("<!--" : Text) <:+: t)
    (hclose : ¬ ("-->" : Text) <:+: t) (hend : t.getLast? ≠ some '\\') :
    ∃ s' children origin,
      parse source (("@media x\x7b" : Text) ++ t ++ ("\x7d" : Text)) positions = .ok s' ∧
        s'.source = some source ∧ s'.children = [.group "media" "x" children origin] ∧
        Node.unplaced children = Node.unplaced s.children := by
  obtain ⟨ns, hns, rfl⟩ := parse_eq_ok_iff.1 h
  have hscan : Scan.toStop ⟨false, []⟩ (" x" : Text) = .ok [] := by decide +kernel
  have hname : Text.spanName "media x" = (("media" : Text), (" x" : Text)) := by decide
  have hgroup := nodes_group hns hname (by decide) (by decide) hscan ⟨hopen, hclose⟩ hend
  have hnames : Text.lowerAscii "media" = "media" ∧ Text.collapseSpaced " x" = "x" := by
    decide +kernel
  rw [hnames.1, hnames.2] at hgroup
  refine ⟨_, _, _, parse_eq_ok_iff.2 ⟨_, hgroup, rfl⟩, rfl, rfl, ?_⟩
  rw [Node.unplaced_provenance, Node.unplaced_provenance, Node.mapOrigins_mapOrigins]

/-- The brace ends the statement at the end of the text. -/
theorem parse_inBlock_statementAtEnd :
    let t : Text := "/*é*/b\x7bc:d\x7d\r\n@x y"
    ∃ s s' children origin, parse "a.css" t true = .ok s ∧ s.children.length = 3 ∧
      ¬ ("<!--" : Text) <:+: t ∧ ¬ ("-->" : Text) <:+: t ∧ t.getLast? ≠ some '\\' ∧
      parse "a.css" (("@media x\x7b" : Text) ++ t ++ ("\x7d" : Text)) true = .ok s' ∧
      s'.children = [.group "media" "x" children origin] ∧
      Node.unplaced children = Node.unplaced s.children := by
  intro t
  have hread : (parse "a.css" t true).toOption.any (·.children.length == 3) = true := by
    decide +kernel
  have hmarks : ¬ ("<!--" : Text) <:+: t ∧ ¬ ("-->" : Text) <:+: t := by decide +kernel
  obtain ⟨s, hs, hlength⟩ := exists_ok_of_any hread
  obtain ⟨s', children, origin, hs', _, hchildren, heq⟩ :=
    parse_inBlock hs hmarks.1 hmarks.2 (by decide)
  exact ⟨s, s', children, origin, hs, beq_iff_eq.1 hlength, hmarks.1, hmarks.2, by decide, hs',
    hchildren, heq⟩

end Stylesmith.Stylesheet
