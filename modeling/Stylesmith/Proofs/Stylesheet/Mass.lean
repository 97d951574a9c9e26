import Stylesmith.Proofs.Stylesheet.Ink

set_option autoImplicit false

namespace Stylesmith

variable {α β : Type} {layout : Layout}

namespace Node

mutual

def mass : Node α → Nat
  | rule selectors children _ => Stylesmith.mass (Text.join [','] selectors) + 2 + masses children
  | group name prelude children _ =>
    1 + Stylesmith.mass name + Stylesmith.mass prelude + 2 + masses children
  | statement name prelude _ => 1 + Stylesmith.mass name + Stylesmith.mass prelude
  | declaration property value important _ =>
    Stylesmith.mass (property ++ ':' :: (value ++ Text.markOf important))
  | comment text _ => 4 + Stylesmith.mass text

def masses : List (Node α) → Nat
  | [] => 0
  | n :: ns => mass n + masses ns

end

mutual

theorem mass_mapOrigin (f : α → β) (n : Node α) : (mapOrigin f n).mass = n.mass := by
  cases n <;> simp only [mapOrigin, mass] <;> rw [masses_mapOrigins]

theorem masses_mapOrigins (f : α → β) (ns : List (Node α)) :
    masses (mapOrigins f ns) = masses ns := by
  cases ns with
  | nil => rfl
  | cons n ns => rw [mapOrigins, masses, masses, mass_mapOrigin, masses_mapOrigins]

end

theorem masses_eq_of_bare {ns : List (Node α)} {ms : List (Node β)} (h : bare ms = bare ns) :
    masses ms = masses ns := by
  rw [← masses_mapOrigins (fun _ => ()) ms, ← masses_mapOrigins (fun _ => ()) ns]
  exact congrArg masses h

end Node

theorem ink_join {sep sep' : Text} (h : ink sep = ink sep') (parts : List Text) :
    ink (Text.join sep parts) = ink (Text.join sep' parts) := by
  induction parts with
  | nil => rfl
  | cons part parts ih =>
    cases parts with
    | nil => rfl
    | cons next parts => simp only [Text.join, ink_append, h, ih]

theorem ink_newLine (depth : Nat) : ink (Layout.newLine depth) = [] := by
  rw [ink_eq_nil_iff]
  intro c hc
  rcases List.mem_cons.1 hc with rfl | hc
  · rfl
  · rw [List.eq_of_mem_replicate hc]
    rfl

theorem ink_header (depth : Nat) (selectors : List Text) :
    ink (layout.header depth selectors) = ink (Text.join [','] selectors) := by
  have hgap : ink layout.openGap = [] := by cases layout <;> rfl
  rw [Layout.header, ink_append, hgap, List.append_nil]
  apply ink_join
  cases layout with
  | pretty => rw [Layout.selectorGap, ink_cons, ink_newLine, List.append_nil]
  | compact => rfl

theorem ink_afterName {gap : Text} (hgap : gap = [] ∨ gap = [' ']) (prelude : Text) :
    ink (Layout.afterName gap prelude) = ink prelude := by
  have hg : ink gap = [] := by rcases hgap with rfl | rfl <;> rfl
  rw [Layout.afterName, ink_append, hg, List.append_nil]
  cases prelude with
  | nil => rfl
  | cons c prelude => rfl

theorem ink_assignment (property value : Text) (important : Bool) :
    ink (layout.assignment property value important) =
      ink (property ++ ':' :: (value ++ Text.markOf important)) := by
  cases layout <;> cases important <;>
    simp [Layout.assignment, Text.markOf, ink, Text.lowerAscii, Text.isBlank]

theorem mass_eq_of_ink {t u : Text} (h : ink t = ink u) : mass t = mass u := by
  rw [mass, mass, h]

theorem mass_closeBrace (depth : Nat) (childless : Bool) :
    mass (layout.closeBrace depth childless) = 1 := by
  obtain ⟨gap, hgap, hclose, _⟩ := closeBrace_eq layout depth childless
  rw [hclose, mass_append, slack_iff_mass.1 hgap]
  rfl

namespace Node

mutual

theorem mass_written (depth : Nat) (n : Node α) :
    Stylesmith.mass (written layout depth n) = n.mass := by
  cases n with
  | rule selectors children o =>
    have hheader := mass_eq_of_ink (@ink_header layout depth selectors)
    have hopen : Stylesmith.mass ['{'] = 1 := rfl
    rw [written_rule, mass_append, mass_cons, mass_append, mass_writtenItems, mass_closeBrace, mass]
    omega
  | group name prelude children o =>
    have hafter := mass_eq_of_ink (ink_afterName (openGap_eq layout) prelude)
    have hopen : Stylesmith.mass ['{'] = 1 := rfl
    have hat : Stylesmith.mass ['@'] = 1 := rfl
    rw [written_group, mass_cons, mass_append, mass_append, mass_cons '{', mass_append,
      mass_writtenItems, mass_closeBrace, mass]
    omega
  | statement name prelude o =>
    have hafter := mass_eq_of_ink (ink_afterName (.inl rfl) prelude)
    have hat : Stylesmith.mass ['@'] = 1 := rfl
    have hsemi : Stylesmith.mass [';'] = 0 := rfl
    rw [written_statement, mass_cons, mass_append, mass_append, mass]
    omega
  | declaration property value important o =>
    rw [written_declaration, mass_append, slack_iff_mass.1 (slack_endMark layout), mass,
      mass_eq_of_ink (ink_assignment property value important), Nat.add_zero]
  | comment text o =>
    have hslash : Stylesmith.mass ['/'] = 1 := rfl
    have hstar : Stylesmith.mass ['*'] = 1 := rfl
    have hend : Stylesmith.mass ['*', '/'] = 2 := rfl
    rw [written_comment, mass_cons, mass_cons '*', mass_append, mass]
    omega

theorem mass_writtenItems (depth : Nat) (afterDeclaration : Bool) (ns : List (Node α)) :
    Stylesmith.mass (writtenItems layout depth afterDeclaration ns) = masses ns := by
  cases ns with
  | nil => rfl
  | cons n ns =>
    rw [writtenItems_cons, mass_append, mass_append, slack_iff_mass.1 (slack_itemGap _ _ _),
      mass_written, mass_writtenItems, masses, Nat.zero_add]

end

theorem mass_writtenLater (afterStatement : Bool) (ns : List (Node α)) :
    Stylesmith.mass (writtenLater layout afterStatement ns) = masses ns := by
  induction ns generalizing afterStatement with
  | nil => rfl
  | cons n ns ih =>
    rw [writtenLater_cons, mass_append, mass_append, slack_iff_mass.1 (slack_topGap _ _),
      mass_written, ih, masses, Nat.zero_add]

end Node

theorem spanName_append {t name rest : Text} (h : Text.spanName t = (name, rest)) :
    t = name ++ rest := by
  have happ : ∀ t, (Text.spanName t).1 ++ (Text.spanName t).2 = t := by
    intro t
    fun_induction Text.spanName t <;> simp_all
  have ht := happ t
  rw [h] at ht
  exact ht.symm

theorem mass_lowerAscii (t : Text) : mass (Text.lowerAscii t) = mass t :=
  mass_eq_of_ink (ink_lowerAscii t)

theorem mass_comment (body after : Text) :
    mass ('/' :: '*' :: (body ++ '*' :: '/' :: after)) = 4 + mass body + mass after := by
  have hopen : mass ("/*" : Text) = 2 := rfl
  have hclose : mass ("*/" : Text) = 2 := rfl
  have ht : mass (("/*" : Text) ++ (body ++ (("*/" : Text) ++ after))) =
      mass ("/*" : Text) + (mass body + (mass ("*/" : Text) + mass after)) := by
    rw [mass_append, mass_append, mass_append]
  refine ht.trans ?_
  omega

theorem mass_le_of_spells {top a : Bool} {t rest : Text} {ns : List (Node Text)}
    (h : Spells top a t ns rest) : Node.masses ns + mass rest ≤ mass t := by
  induction h with
  | endOfText => exact Nat.le_of_eq (Nat.zero_add _)
  | endOfBlock => exact Nat.le_of_eq (Nat.zero_add _)
  | @skip _ _ _ t t' _ _ hs _ ih =>
    have hskip : mass t' ≤ mass t := by
      cases hs with
      | blank | semicolon => exact (Nat.le_add_left _ _).trans (mass_cons _ t').ge
      | openMark => exact (Nat.le_add_left _ _).trans (mass_append ("<!--" : Text) t').ge
      | closeMark => exact (Nat.le_add_left _ _).trans (mass_append ("-->" : Text) t').ge
    exact ih.trans hskip
  | @comment _ _ t body after _ _ hs _ ih =>
    obtain ⟨_, rfl⟩ := Lexeme.spanComment_eq_some_iff.1 hs
    rw [Node.masses, Node.mass, mass_comment]
    omega
  | @statement _ _ t name after stop _ _ hname _ hstop _ _ ih =>
    obtain ⟨raw, rfl⟩ := Scan.suffix_of_toStop hstop
    have ht := spanName_append hname
    have hraw := (Text.reduces_collapseSpaced raw).mass_le
    have hat : mass ['@'] = 1 := rfl
    rw [Text.before_append, Node.masses, Node.mass, mass_lowerAscii, mass_cons, ht, mass_append,
      mass_append]
    omega
  | @group _ _ t name after body close _ cs _ hname _ hstop _ _ ihc ih =>
    obtain ⟨raw, rfl⟩ := Scan.suffix_of_toStop hstop
    have ht := spanName_append hname
    have hraw := (Text.reduces_collapseSpaced raw).mass_le
    have hat : mass ['@'] = 1 := rfl
    have hopen : mass ['{'] = 1 := rfl
    have hclose : mass ['}'] = 1 := rfl
    rw [mass_cons] at ihc
    rw [Text.before_append, Node.masses, Node.mass, mass_lowerAscii, mass_cons, ht, mass_append,
      mass_append, mass_cons '{']
    omega
  | @rule _ a start body close _ cs _ _ hstop _ _ _ ihc ih =>
    obtain ⟨raw, rfl⟩ := Scan.suffix_of_toStop hstop
    have hraw := (Text.reduces_selectors raw).mass_le
    have hopen : mass ['{'] = 1 := rfl
    have hclose : mass ['}'] = 1 := rfl
    rw [mass_cons] at ihc
    rw [Text.before_append, Node.masses, Node.mass, mass_append, mass_cons '{']
    omega
  | @declaration a start stop _ n _ _ hstop _ hn _ ih =>
    obtain ⟨raw, rfl⟩ := Scan.suffix_of_toStop hstop
    rw [Text.before_append] at hn
    obtain ⟨_, _, property, value, important, _, _, _, _, _, rfl⟩ :=
      Reader.declaration_eq_ok_iff.1 hn
    have hraw := (Reader.reduces_declaration hn).mass_le
    rw [Node.masses, Node.mass, mass_append raw]
    omega

end Stylesmith
