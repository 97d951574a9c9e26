import Stylesmith.Proofs.Minify.Paths

set_option autoImplicit false

namespace Stylesmith

variable {α β : Type}

/-- What nothing is collected from may be left out. -/
theorem flatMap_filter {p : α → Bool} {f : α → List β} {l : List α}
    (h : ∀ a ∈ l, p a = false → f a = []) : (l.filter p).flatMap f = l.flatMap f := by
  induction l with
  | nil => rfl
  | cons a l ih =>
    rw [List.forall_mem_cons] at h
    cases hp : p a with
    | true => rw [List.filter_cons_of_pos hp, List.flatMap_cons, List.flatMap_cons, ih h.2]
    | false =>
      rw [List.filter_cons_of_neg (by simp [hp]), List.flatMap_cons, ih h.2, h.1 hp, List.nil_append]

namespace Node

mutual

def subnodes : Node α → List (Node α)
  | rule selectors children o => rule selectors children o :: allSubnodes children
  | group name prelude children o => group name prelude children o :: allSubnodes children
  | statement name prelude o => [statement name prelude o]
  | declaration property value important o => [declaration property value important o]
  | comment text o => [comment text o]

/-- Some nodes and the nodes inside them, in the order in which they begin. -/
def allSubnodes : List (Node α) → List (Node α)
  | [] => []
  | n :: ns => subnodes n ++ allSubnodes ns

end

theorem mem_allSubnodes {ns : List (Node α)} {m : Node α} :
    m ∈ allSubnodes ns ↔ ∃ n ∈ ns, m ∈ subnodes n := by
  induction ns with
  | nil => simp [allSubnodes]
  | cons n ns ih => simp [allSubnodes, ih]

mutual

theorem subnodes_mapOrigin (f : α → β) (n : Node α) :
    subnodes (mapOrigin f n) = (subnodes n).map (mapOrigin f) := by
  cases n with
  | rule selectors children o =>
    rw [mapOrigin, subnodes, subnodes, allSubnodes_mapOrigins f children, List.map_cons, mapOrigin]
  | group name prelude children o =>
    rw [mapOrigin, subnodes, subnodes, allSubnodes_mapOrigins f children, List.map_cons, mapOrigin]
  | statement | declaration | comment => rfl

theorem allSubnodes_mapOrigins (f : α → β) (ns : List (Node α)) :
    allSubnodes (mapOrigins f ns) = (allSubnodes ns).map (mapOrigin f) := by
  cases ns with
  | nil => rfl
  | cons n ns =>
    rw [mapOrigins, allSubnodes, allSubnodes, subnodes_mapOrigin f n, allSubnodes_mapOrigins f ns,
      List.map_append]

end

mutual

theorem subnodes_anchorReferences (source : Text) (n : Node α) :
    subnodes (anchorReferences source n) = (subnodes n).map (anchorReferences source) := by
  cases n with
  | rule selectors children o =>
    rw [anchorReferences, subnodes, subnodes, allSubnodes_anchorReferences source children,
      List.map_cons, anchorReferences]
  | group name prelude children o =>
    rw [anchorReferences, subnodes, subnodes, allSubnodes_anchorReferences source children,
      List.map_cons, anchorReferences]
  | statement | declaration | comment => rfl

theorem allSubnodes_anchorReferences (source : Text) (ns : List (Node α)) :
    allSubnodes (anchorAllReferences source ns) =
      (allSubnodes ns).map (anchorReferences source) := by
  cases ns with
  | nil => rfl
  | cons n ns =>
    rw [anchorAllReferences, allSubnodes, allSubnodes, subnodes_anchorReferences source n,
      allSubnodes_anchorReferences source ns, List.map_append]

end

theorem mem_subnodes_self (n : Node α) : n ∈ subnodes n := by
  cases n <;> simp [subnodes]

theorem eq_of_minify?_rule {selectors : List Text} {children : List (Node α)} {o : α} {k : Node α}
    (h : minify? (rule selectors children o) = some k) :
    k = rule (selectors.map Selector.compact) (minifyAll children) o := by
  rw [minify?] at h
  cases hc : minifyAll children <;> rw [hc] at h <;> cases h
  rfl

theorem eq_of_minify?_group {name prelude : Text} {children : List (Node α)} {o : α} {k : Node α}
    (h : minify? (group name prelude children o) = some k) :
    k = group name (Prelude.compact prelude) (minifyAll children) o := by
  rw [minify?] at h
  cases hc : minifyAll children with
  | nil =>
    rw [hc] at h
    dsimp only at h
    split at h <;> cases h
    rfl
  | cons d ds =>
    rw [hc] at h
    cases h
    rfl

mutual

/-- What is left of the nodes inside a node is what minifying makes of each of them. -/
theorem exists_of_mem_minify? {n k m : Node α} (h : minify? n = some k) (hm : m ∈ subnodes k) :
    ∃ n' ∈ subnodes n, minify? n' = some m := by
  have head : m = k → ∃ n' ∈ subnodes n, minify? n' = some m :=
    fun he => ⟨n, mem_subnodes_self n, he ▸ h⟩
  cases n with
  | rule selectors children o =>
    have hk := eq_of_minify?_rule h
    rw [hk, subnodes, ← hk, List.mem_cons] at hm
    rcases hm with hm | hm
    · exact head hm
    · obtain ⟨n', hn', hmin⟩ := exists_of_mem_minifyAll hm
      exact ⟨n', List.mem_cons_of_mem _ hn', hmin⟩
  | group name prelude children o =>
    have hk := eq_of_minify?_group h
    rw [hk, subnodes, ← hk, List.mem_cons] at hm
    rcases hm with hm | hm
    · exact head hm
    · obtain ⟨n', hn', hmin⟩ := exists_of_mem_minifyAll hm
      exact ⟨n', List.mem_cons_of_mem _ hn', hmin⟩
  | statement | declaration =>
    cases h
    exact head (List.mem_singleton.1 hm)
  | comment text o =>
    rw [minify?] at h
    split at h <;> cases h
    exact head (List.mem_singleton.1 hm)

theorem exists_of_mem_minifyAll {ns : List (Node α)} {m : Node α}
    (h : m ∈ allSubnodes (minifyAll ns)) : ∃ n ∈ allSubnodes ns, minify? n = some m := by
  cases ns with
  | nil => simp [minifyAll, allSubnodes] at h
  | cons n ns =>
    have later : m ∈ allSubnodes (minifyAll ns) →
        ∃ n' ∈ allSubnodes (n :: ns), minify? n' = some m := by
      intro h
      obtain ⟨n', hn', hmin⟩ := exists_of_mem_minifyAll h
      exact ⟨n', List.mem_append_right _ hn', hmin⟩
    rw [minifyAll] at h
    cases hn : minify? n with
    | none =>
      rw [hn] at h
      exact later h
    | some k =>
      rw [hn, allSubnodes, List.mem_append] at h
      rcases h with h | h
      · obtain ⟨n', hn', hmin⟩ := exists_of_mem_minify? hn h
        exact ⟨n', List.mem_append_left _ hn', hmin⟩
      · exact later h

end

end Node

namespace Chunk

theorem mem_of_mem_runs {budget : Nat} {run : List (Node α)} {count : Nat} {ns chunk : List (Node α)}
    (h : chunk ∈ runs budget run count ns) {n : Node α} (hn : n ∈ chunk) : n ∈ run ∨ n ∈ ns := by
  induction ns generalizing run count with
  | nil =>
    rw [runs, List.mem_singleton] at h
    exact .inl (h ▸ hn)
  | cons m ns ih =>
    rw [runs] at h
    split at h
    · rcases List.mem_cons.1 h with rfl | h
      · exact .inl hn
      · rcases ih h with hn | hn
        · exact .inr (List.mem_singleton.1 hn ▸ List.mem_cons_self)
        · exact .inr (List.mem_cons_of_mem m hn)
    · rcases ih h with hn | hn
      · rcases List.mem_append.1 hn with hn | hn
        · exact .inl hn
        · exact .inr (List.mem_singleton.1 hn ▸ List.mem_cons_self)
      · exact .inr (List.mem_cons_of_mem m hn)

theorem mem_of_mem_split {budget : Option Nat} {ns chunk : List (Node α)}
    (h : chunk ∈ split budget ns) {n : Node α} (hn : n ∈ chunk) : n ∈ ns := by
  unfold split at h
  simp only at h
  split at h
  · exact List.mem_singleton.1 h ▸ hn
  · have hrun : ∀ {run : List (Node α)},
        run ∈ runs (budget.getD 0) [] 0 (ns.filter (·.isBody)) → n ∈ run → n ∈ ns := by
      intro run hr hn
      rcases mem_of_mem_runs hr hn with hn | hn
      · exact absurd hn List.not_mem_nil
      · exact (List.mem_filter.1 hn).1
    split at h
    · exact absurd h List.not_mem_nil
    · rename_i first others heq
      rw [heq] at hrun
      rcases List.mem_cons.1 h with rfl | h
      · simp only [List.mem_append, List.mem_filter] at hn
        rcases hn with ((hn | hn) | hn) | hn
        · exact hn.1
        · exact hn.1
        · exact hn.1
        · exact hrun List.mem_cons_self hn
      · obtain ⟨run, hr, rfl⟩ := List.mem_map.1 h
        simp only [List.mem_append, List.mem_filter] at hn
        rcases hn with (hn | hn) | hn
        · exact hn.1
        · exact hn.1
        · exact hrun (List.mem_cons_of_mem _ hr) hn

end Chunk

theorem Merge.mem_allSubnodes_children {sheets : List Stylesheet} {n : Node Provenance} :
    n ∈ Node.allSubnodes (children sheets) ↔ ∃ s ∈ sheets, n ∈ Node.allSubnodes s.children := by
  simp only [Node.mem_allSubnodes, mem_children]
  constructor
  · rintro ⟨m, ⟨s, hs, hm⟩, hn⟩
    exact ⟨s, hs, m, hm, hn⟩
  · rintro ⟨s, hs, m, hm, hn⟩
    exact ⟨m, ⟨s, hs, hm⟩, hn⟩

namespace Node

/-- Whether a node that was read begins where its origin does: what is there is read as the node, or
as its header if it has a block. -/
def Begins : Node Text → Prop
  | rule selectors _ o => (∃ header body, o = header ++ '{' :: body ∧
      Reader.selectors header = selectors) ∧ ∀ c ∈ o.head?, Text.isBlank c = false
  | group name prelude _ o => ∃ word between body, o = '@' :: (word ++ (between ++ '{' :: body)) ∧
      Text.lowerAscii word = name ∧ Text.collapseSpaced between = prelude
  | statement name prelude o => ∃ word between stop, o = '@' :: (word ++ (between ++ stop)) ∧
      Text.lowerAscii word = name ∧ Text.collapseSpaced between = prelude
  | declaration property value important o => (∃ raw stop, o = raw ++ stop ∧
      Reader.declaration o raw = .ok (declaration property value important o)) ∧
        ∀ c ∈ o.head?, Text.isBlank c = false
  | comment text o => ∃ rest, o = '/' :: '*' :: (text ++ '*' :: '/' :: rest)

end Node

theorem head_ne_of_begins {n : Node Text} (h : n.Begins) : n.origin.head? ≠ some '\n' := by
  have blank : ∀ {o : Text}, (∀ c ∈ o.head?, Text.isBlank c = false) → o.head? ≠ some '\n' := by
    intro o ho he
    have hblank := ho '\n' he
    cases hblank
  cases n with
  | rule | declaration => exact blank h.2
  | group =>
    obtain ⟨_, _, _, rfl, _⟩ := h
    simp [Node.origin]
  | statement =>
    obtain ⟨_, _, _, rfl, _⟩ := h
    simp [Node.origin]
  | comment =>
    obtain ⟨_, rfl⟩ := h
    simp [Node.origin]

theorem head_of_startsItem {top : Bool} {t : Text} (h : StartsItem top t) :
    ∀ c ∈ t.head?, Text.isBlank c = false := by
  obtain ⟨c, t, rfl, hc, _⟩ := h
  intro d hd
  obtain rfl : c = d := Option.some.inj hd
  exact hc

theorem suffix_of_skips {top a a' : Bool} {t t' : Text} (h : Skips top a t a' t') : t' <:+ t := by
  cases h with
  | blank | semicolon => exact List.suffix_cons _ _
  | openMark => exact ⟨['<', '!', '-', '-'], rfl⟩
  | closeMark => exact ⟨['-', '-', '>'], rfl⟩

theorem suffix_of_spells {top a : Bool} {t rest : Text} {ns : List (Node Text)}
    (h : Spells top a t ns rest) : rest <:+ t := by
  induction h with
  | endOfText | endOfBlock => exact List.suffix_refl _
  | skip hs _ ih => exact ih.trans (suffix_of_skips hs)
  | @comment _ _ t body after _ _ hspan _ ih =>
    obtain ⟨_, ht⟩ := Lexeme.spanComment_eq_some_iff.1 hspan
    exact ih.trans ⟨'/' :: '*' :: (body ++ ['*', '/']), by simp [ht]⟩
  | @statement _ _ t name after stop _ _ hname _ hstop _ _ ih =>
    refine (ih.trans (Scan.suffix_of_toStop hstop)).trans ?_
    rw [spanName_append hname]
    exact ⟨'@' :: name, rfl⟩
  | @group _ _ t name after body close _ _ _ hname _ hstop _ _ ihc ih =>
    have hclose := ((List.suffix_cons _ _).trans ihc).trans (List.suffix_cons '{' body)
    refine ((ih.trans hclose).trans (Scan.suffix_of_toStop hstop)).trans ?_
    rw [spanName_append hname]
    exact ⟨'@' :: name, rfl⟩
  | @rule _ _ start body close _ _ _ _ hstop _ _ _ ihc ih =>
    have hclose := ((List.suffix_cons _ _).trans ihc).trans (List.suffix_cons '{' body)
    exact (ih.trans hclose).trans (Scan.suffix_of_toStop hstop)
  | declaration _ hstop _ _ _ ih => exact ih.trans (Scan.suffix_of_toStop hstop)

theorem begins_block {n : Node Text} {cs ns : List (Node Text)} {top : Bool}
    {t body close : Text} (hn : n.subnodes = n :: Node.allSubnodes cs)
    (hbegins : n.Begins ∧ n.origin <:+ t) (hbody : body <:+ t)
    (hspells : Spells top false body cs ('}' :: close))
    (hcs : ∀ m ∈ Node.allSubnodes cs, m.Begins ∧ m.origin <:+ body)
    (hns : ∀ m ∈ Node.allSubnodes ns, m.Begins ∧ m.origin <:+ close) :
    ∀ m ∈ Node.allSubnodes (n :: ns), m.Begins ∧ m.origin <:+ t := by
  have hclose : close <:+ body := (List.suffix_cons _ _).trans (suffix_of_spells hspells)
  intro m hm
  rw [Node.allSubnodes, hn, List.cons_append, List.mem_cons, List.mem_append] at hm
  rcases hm with rfl | hm | hm
  · exact hbegins
  · exact ⟨(hcs m hm).1, (hcs m hm).2.trans hbody⟩
  · exact ⟨(hns m hm).1, ((hns m hm).2.trans hclose).trans hbody⟩

/-- Every node that a text spells begins at its origin, which is a suffix of the text. -/
theorem begins_of_spells {top a : Bool} {t rest : Text} {ns : List (Node Text)}
    (h : Spells top a t ns rest) :
    ∀ n ∈ Node.allSubnodes ns, n.Begins ∧ n.origin <:+ t := by
  have outer : ∀ {u t : Text} {ms : List (Node Text)}, u <:+ t →
      (∀ n ∈ Node.allSubnodes ms, n.Begins ∧ n.origin <:+ u) →
        ∀ n ∈ Node.allSubnodes ms, n.Begins ∧ n.origin <:+ t :=
    fun hu hall n hn => ⟨(hall n hn).1, (hall n hn).2.trans hu⟩
  induction h with
  | endOfText | endOfBlock => exact fun n hn => absurd hn List.not_mem_nil
  | skip hs _ ih => exact outer (suffix_of_skips hs) ih
  | @comment _ _ t body after _ ns hspan hns ih =>
    obtain ⟨_, rfl⟩ := Lexeme.spanComment_eq_some_iff.1 hspan
    intro n hn
    rcases List.mem_cons.1 hn with rfl | hn
    · exact ⟨⟨after, rfl⟩, List.suffix_refl _⟩
    · exact outer ⟨'/' :: '*' :: (body ++ ['*', '/']), by simp⟩ ih n hn
  | @statement _ _ t name after stop _ ns hname _ hstop _ _ ih =>
    obtain ⟨raw, rfl⟩ := Scan.suffix_of_toStop hstop
    obtain rfl := spanName_append hname
    rw [Text.before_append]
    intro n hn
    rcases List.mem_cons.1 hn with rfl | hn
    · exact ⟨⟨name, raw, stop, rfl, rfl, rfl⟩, List.suffix_refl _⟩
    · exact outer ⟨'@' :: (name ++ raw), by simp⟩ ih n hn
  | @group _ _ t name after body close _ children ns hname _ hstop hchildren _ ihc ih =>
    obtain ⟨raw, rfl⟩ := Scan.suffix_of_toStop hstop
    obtain rfl := spanName_append hname
    have hbody : body <:+ '@' :: (name ++ (raw ++ '{' :: body)) :=
      ⟨'@' :: (name ++ (raw ++ ['{'])), by simp⟩
    rw [Text.before_append]
    exact begins_block rfl ⟨⟨name, raw, body, rfl, rfl, rfl⟩, List.suffix_refl _⟩ hbody hchildren
      ihc ih
  | @rule _ _ start body close _ children ns hstart hstop _ hchildren _ ihc ih =>
    obtain ⟨raw, rfl⟩ := Scan.suffix_of_toStop hstop
    have hbody : body <:+ raw ++ '{' :: body :=
      (List.suffix_cons '{' body).trans (List.suffix_append _ _)
    rw [Text.before_append]
    exact begins_block rfl ⟨⟨⟨raw, body, rfl, rfl⟩, head_of_startsItem hstart⟩, List.suffix_refl _⟩
      hbody hchildren ihc ih
  | @declaration _ start stop _ n ns hstart hstop _ hread _ ih =>
    obtain ⟨raw, rfl⟩ := Scan.suffix_of_toStop hstop
    rw [Text.before_append] at hread
    obtain ⟨_, _, _, _, _, _, _, _, _, _, rfl⟩ := Reader.declaration_eq_ok_iff.1 hread
    intro n hn
    rcases List.mem_cons.1 hn with rfl | hn
    · exact ⟨⟨⟨raw, stop, rfl, hread⟩, head_of_startsItem hstart⟩, List.suffix_refl _⟩
    · exact outer (List.suffix_append raw stop) ih n hn

end Stylesmith
