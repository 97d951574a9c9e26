import Stylesmith.Proofs.Stylesheet.Collapsed
import Stylesmith.Proofs.Stylesheet.Selectors
import Stylesmith.Proofs.Stylesheet.Subnodes

set_option autoImplicit false

namespace Stylesmith

variable {α β : Type}

namespace Text

def IsAtName (t : Text) : Prop := t ≠ [] ∧ ∀ c ∈ t, c.isUpper = false

theorem isAtName_lowerAscii {t : Text} (h : t ≠ []) : IsAtName (lowerAscii t) := by
  refine ⟨?_, ?_⟩
  · rw [lowerAscii, ne_eq, List.map_eq_nil_iff]
    exact h
  · intro c hc
    obtain ⟨d, -, rfl⟩ := List.mem_map.1 hc
    exact Char.isUpper_toLower_eq_false d

end Text

namespace Node

/-- A node whose texts are as they are stored; of its block nothing is said. -/
def WellFormed : Node α → Prop
  | rule selectors _ _ => selectors ≠ [] ∧ ∀ s ∈ selectors, s.IsSelector
  | group name prelude _ _ => name.IsAtName ∧ prelude.IsCollapsed
  | statement name prelude _ => name.IsAtName ∧ prelude.IsCollapsed
  | declaration property value _ _ => property ≠ [] ∧ ' ' ∉ property ∧
      (¬ ("--" : Text) <+: property → value.IsCollapsed)
  | comment text _ => ¬ ['*', '/'] <:+: text

theorem wellFormed_mapOrigin (f : α → β) (n : Node α) :
    (n.mapOrigin f).WellFormed ↔ n.WellFormed := by
  cases n <;> rfl

theorem wellFormed_of_declaration {start raw : Text} {n : Node Text}
    (h : Reader.declaration start raw = .ok n) : n.WellFormed := by
  obtain ⟨name, rawValue, property, value, important, -, -, hne, hspace, hvalue, rfl⟩ :=
    Reader.declaration_eq_ok_iff.1 h
  refine ⟨hne, hspace, fun hcustom => ?_⟩
  rw [Reader.fullValue, if_neg (by rwa [List.isPrefixOf_iff_prefix])] at hvalue
  have hcollapsed := (Text.isCollapsed_collapseSpaced rawValue).cutImportant
  rwa [hvalue] at hcollapsed

end Node

/-- Every node that a text spells is well formed, at any depth. -/
theorem wellFormed_of_spells {top a : Bool} {t rest : Text} {ns : List (Node Text)}
    (h : Spells top a t ns rest) : ∀ n ∈ Node.allSubnodes ns, n.WellFormed := by
  induction h with
  | endOfText | endOfBlock => exact fun n hn => absurd hn List.not_mem_nil
  | skip _ _ ih => exact ih
  | comment hspan _ ih =>
    exact List.forall_mem_cons.2 ⟨(Lexeme.not_infix_of_spanComment hspan).1, ih⟩
  | statement _ hne _ _ _ ih =>
    exact List.forall_mem_cons.2
      ⟨⟨Text.isAtName_lowerAscii hne, Text.isCollapsed_collapseSpaced _⟩, ih⟩
  | group _ hne _ _ _ ihc ih =>
    rw [Node.allSubnodes, Node.subnodes, List.cons_append, List.forall_mem_cons,
      List.forall_mem_append]
    exact ⟨⟨Text.isAtName_lowerAscii hne, Text.isCollapsed_collapseSpaced _⟩, ihc, ih⟩
  | rule _ _ hselectors _ _ ihc ih =>
    rw [Node.allSubnodes, Node.subnodes, List.cons_append, List.forall_mem_cons,
      List.forall_mem_append]
    exact ⟨⟨hselectors, fun s hs => Reader.isSelector_of_mem hs⟩, ihc, ih⟩
  | declaration _ _ _ hread _ ih =>
    have hn := Node.wellFormed_of_declaration hread
    obtain ⟨_, _, _, _, _, _, _, _, _, _, rfl⟩ := Reader.declaration_eq_ok_iff.1 hread
    exact List.forall_mem_cons.2 ⟨hn, ih⟩

/-- Outside all blocks a declaration is not an item. -/
theorem isDeclaration_eq_false_of_spells {top a : Bool} {t rest : Text} {ns : List (Node Text)}
    (h : Spells top a t ns rest) (htop : top = true) : ∀ n ∈ ns, n.isDeclaration = false := by
  induction h with
  | endOfText | endOfBlock => exact fun n hn => absurd hn List.not_mem_nil
  | skip _ _ ih => exact ih htop
  | comment _ _ ih | statement _ _ _ _ _ ih | group _ _ _ _ _ _ ih | rule _ _ _ _ _ _ ih =>
    exact List.forall_mem_cons.2 ⟨rfl, ih htop⟩
  | declaration => cases htop

namespace Stylesheet

/-- A sheet that is read holds no declarations outside its blocks. All its nodes are well formed and
carry its source. -/
theorem parse_wellFormed {source t : Text} {positions : Bool} {s : Stylesheet}
    (h : parse source t positions = .ok s) :
    (∀ n ∈ s.children, n.isDeclaration = false) ∧
      ∀ n ∈ Node.allSubnodes s.children, n.WellFormed ∧ n.origin.source = source := by
  obtain ⟨ns, hns, rfl⟩ := parse_eq_ok_iff.1 h
  have hspells := nodes_eq_ok_iff.1 hns
  constructor
  · rw [Node.mapOrigins_eq_map, List.forall_mem_map]
    intro n hn
    rw [Node.isDeclaration_mapOrigin]
    exact isDeclaration_eq_false_of_spells hspells rfl n hn
  · rw [Node.allSubnodes_mapOrigins, List.forall_mem_map]
    intro n hn
    refine ⟨(Node.wellFormed_mapOrigin _ n).2 (wellFormed_of_spells hspells n hn), ?_⟩
    cases n <;> rfl

/-- Capitals in a name, blanks around a comma and a mark, and a comment within a prelude. -/
theorem parse_wellFormed_media :
    let t : Text := "@Media x/**/ y\x7ba , b[c,d]\x7be:f ! Important;--g: h \x7d\x7d"
    ∃ s, parse "a.css" t true = .ok s ∧
      render .compact s.children = "@media x y\x7ba,b[c,d]\x7be:f!important;--g:h\x7d\x7d" ∧
      (∀ n ∈ s.children, n.isDeclaration = false) ∧
      ∀ n ∈ Node.allSubnodes s.children, n.WellFormed ∧ n.origin.source = ("a.css" : Text) := by
  intro t
  have hread : (parse "a.css" t true).toOption.any (fun s => render .compact s.children ==
      ("@media x y\x7ba,b[c,d]\x7be:f!important;--g:h\x7d\x7d" : Text)) = true := by
    decide +kernel
  obtain ⟨s, hs, hprinted⟩ := exists_ok_of_any hread
  exact ⟨s, hs, beq_iff_eq.1 hprinted, parse_wellFormed hs⟩

end Stylesheet

end Stylesmith
