import Stylesmith.Proofs.Minify.Liveness
import Stylesmith.Proofs.Minify.Marks
import Stylesmith.Proofs.Minify.Paths
import Stylesmith.Proofs.Minify.WellFormed

set_option autoImplicit false

namespace Stylesmith

variable {α β : Type}

namespace Node

/-- Whether compacting leaves the texts of a node as they are. The nodes of its block do not
count. -/
def IsCompact : Node α → Prop
  | rule selectors _ _ => ∀ s ∈ selectors, Selector.compact s = s
  | group _ prelude _ _ | statement _ prelude _ => Prelude.compact prelude = prelude
  | declaration property value _ _ => compactValue property value = value
  | comment _ _ => True

mutual

theorem compact_eq_self_iff {n : Node α} : compact n = n ↔ ∀ m ∈ subnodes n, m.IsCompact := by
  cases n with
  | rule selectors children o =>
    have hmap : selectors.map Selector.compact = selectors ↔
        ∀ s ∈ selectors, Selector.compact s = s := by
      conv_lhs => rhs; rw [← List.map_id selectors]
      exact List.map_inj_left
    rw [compact, rule.injEq, compactAll_eq_self_iff, subnodes, List.forall_mem_cons,
      IsCompact, hmap]
    simp
  | group name prelude children o =>
    rw [compact, group.injEq, compactAll_eq_self_iff, subnodes, List.forall_mem_cons, IsCompact]
    simp
  | statement | declaration | comment => simp [compact, subnodes, IsCompact]

theorem compactAll_eq_self_iff {ns : List (Node α)} :
    compactAll ns = ns ↔ ∀ m ∈ allSubnodes ns, m.IsCompact := by
  cases ns with
  | nil => simp [compactAll, allSubnodes]
  | cons n ns =>
    rw [compactAll, List.cons.injEq, compact_eq_self_iff, compactAll_eq_self_iff, allSubnodes]
    simp only [List.mem_append, or_imp, forall_and]

end

mutual

theorem compact_mapOrigin (f : α → β) (n : Node α) :
    compact (mapOrigin f n) = mapOrigin f (compact n) := by
  cases n with
  | rule _ children _ | group _ _ children _ =>
    simp only [mapOrigin, compact, compactAll_mapOrigins f children]
  | statement | declaration | comment => rfl

theorem compactAll_mapOrigins (f : α → β) (ns : List (Node α)) :
    compactAll (mapOrigins f ns) = mapOrigins f (compactAll ns) := by
  cases ns with
  | nil => rfl
  | cons n ns =>
    simp only [mapOrigins, compactAll, compact_mapOrigin f n, compactAll_mapOrigins f ns]

end

theorem isCompact_mapOrigin (f : α → β) {n : Node α} : (mapOrigin f n).IsCompact ↔ n.IsCompact := by
  cases n <;> rfl

mutual

theorem isLive_compact (n : Node α) : isLive (compact n) = isLive n := by
  cases n with
  | rule _ children _ => exact anyLive_compactAll children
  | group name _ children _ => rw [compact, isLive, isLive, anyLive_compactAll children]
  | statement | declaration | comment => rfl

theorem anyLive_compactAll (ns : List (Node α)) : anyLive (compactAll ns) = anyLive ns := by
  cases ns with
  | nil => rfl
  | cons n ns => rw [compactAll, anyLive, anyLive, isLive_compact n, anyLive_compactAll ns]

end

mutual

theorem isLive_keepLive (n : Node α) : isLive (keepLive n) = isLive n := by
  cases n with
  | rule _ children _ => exact anyLive_keepAllLive children
  | group name _ children _ => rw [keepLive, isLive, isLive, anyLive_keepAllLive children]
  | statement | declaration | comment => rfl

theorem anyLive_keepAllLive (ns : List (Node α)) : anyLive (keepAllLive ns) = anyLive ns := by
  cases ns with
  | nil => rfl
  | cons n ns =>
    rw [keepAllLive, anyLive]
    cases h : isLive n with
    | true => rw [if_pos rfl, anyLive, isLive_keepLive n, h, Bool.true_or, Bool.true_or]
    | false =>
      rw [if_neg Bool.false_ne_true, anyLive_keepAllLive ns, Bool.false_or]

end

mutual

theorem keepLive_compact (n : Node α) : keepLive (compact n) = compact (keepLive n) := by
  cases n with
  | rule _ children _ | group _ _ children _ =>
    simp only [compact, keepLive, keepAllLive_compactAll children]
  | statement | declaration | comment => rfl

theorem keepAllLive_compactAll (ns : List (Node α)) :
    keepAllLive (compactAll ns) = compactAll (keepAllLive ns) := by
  cases ns with
  | nil => rfl
  | cons n ns =>
    rw [compactAll, keepAllLive, keepAllLive, isLive_compact, keepLive_compact n,
      keepAllLive_compactAll ns]
    split <;> rfl

end

mutual

theorem keepLive_keepLive (n : Node α) : keepLive (keepLive n) = keepLive n := by
  cases n with
  | rule _ children _ | group _ _ children _ =>
    simp only [keepLive, keepAllLive_keepAllLive children]
  | statement | declaration | comment => rfl

theorem keepAllLive_keepAllLive (ns : List (Node α)) :
    keepAllLive (keepAllLive ns) = keepAllLive ns := by
  cases ns with
  | nil => rfl
  | cons n ns =>
    rw [keepAllLive]
    split
    next h => rw [keepAllLive, isLive_keepLive, if_pos h, keepLive_keepLive n,
        keepAllLive_keepAllLive ns]
    next => exact keepAllLive_keepAllLive ns

end

theorem minifyAll_minifyAll (ns : List (Node α)) :
    minifyAll (minifyAll ns) = compactAll (minifyAll ns) := by
  rw [minifyAll_eq (minifyAll ns), minifyAll_eq ns, keepAllLive_compactAll, keepAllLive_keepAllLive]

/-- Whether the pieces of a value stay apart, if it is compacted at all. -/
def ApartValue (property value : Text) : Prop :=
  isCustomProperty property = true ∨ Text.lowerAscii property = "unicode-range" ∨
    Value.Apart ⟨Value.unitKeepers.contains (Text.lowerAscii property), 0, none⟩ value

mutual

def Apart : Node α → Prop
  | rule selectors children _ => (∀ s ∈ selectors, Selector.Apart s) ∧ AllApart children
  | group _ _ children _ => AllApart children
  | declaration property value _ _ => ApartValue property value
  | statement _ _ _ | comment _ _ => True

/-- Whether nothing in the texts of some nodes comes to be read together when they are compacted. -/
def AllApart : List (Node α) → Prop
  | [] => True
  | n :: ns => Apart n ∧ AllApart ns

end

/-- A value is kept, or compacted from the start of a value on. -/
theorem compactValue_cases {property value : Text} (h : ApartValue property value) :
    (∀ v, compactValue property v = v) ∨
      isCustomProperty property = false ∧ ∃ p : Value.Place, p.last = none ∧ Value.Apart p value ∧
        ∀ v, compactValue property v = p.compact v := by
  cases hcustom : isCustomProperty property with
  | true => exact .inl fun v => by rw [compactValue, hcustom, if_pos rfl]
  | false =>
    have hvalue : ∀ v, compactValue property v = Value.compact property v := fun v => by
      rw [compactValue, hcustom, if_neg Bool.false_ne_true]
    by_cases hrange : Text.lowerAscii property = "unicode-range"
    · exact .inl fun v => by rw [hvalue, Value.compact, if_pos hrange]
    · rcases h with h | h | h
      · rw [hcustom] at h
        cases h
      · exact absurd h hrange
      · refine .inr ⟨rfl, _, rfl, h, fun v => ?_⟩
        rw [hvalue, Value.compact, if_neg hrange]
        rfl

theorem compactValue_compactValue {property value : Text} (h : ApartValue property value) :
    compactValue property (compactValue property value) = compactValue property value := by
  rcases compactValue_cases h with hkeep | ⟨_, p, _, hapart, hcompact⟩
  · rw [hkeep, hkeep]
  · rw [hcompact, hcompact, Value.compact_compact hapart]

theorem printableDeclaration_compact {property value : Text} {important : Bool}
    (h : PrintableDeclaration property value important) (ha : ApartValue property value) :
    PrintableDeclaration property (compactValue property value) important := by
  rcases compactValue_cases ha with hkeep | ⟨hcustom, p, hlast, hapart, hcompact⟩
  · rwa [hkeep]
  · rw [hcompact]
    refine { h with
      of_value := ?_
      no_mark := fun hi hm => h.no_mark hi (Value.isMark_of_compact hapart hm) }
    have hvalue := h.of_value
    rw [isCustomProperty] at hcustom
    rw [PrintableValue, hcustom, if_neg Bool.false_ne_true] at hvalue ⊢
    rcases hvalue with rfl | hvalue
    · exact .inl p.compact_nil
    · exact .inr (Value.clean_compact hlast hvalue hapart)

theorem printableSelectors_compact {top : Bool} {selectors : List Text}
    (h : PrintableSelectors top selectors) (ha : ∀ s ∈ selectors, Selector.Apart s) :
    PrintableSelectors top (selectors.map Selector.compact) where
  ne_nil := by simpa using h.ne_nil
  clean := by
    intro _ hs
    obtain ⟨s, hmem, rfl⟩ := List.mem_map.1 hs
    exact Selector.clean_compact (h.clean s hmem) (ha s hmem)
  head := by
    intro _ hs
    rw [List.head?_map, Option.mem_def, Option.map_eq_some_iff] at hs
    obtain ⟨s, hs, rfl⟩ := hs
    have hmem := List.mem_of_head? hs
    obtain ⟨hat, htop⟩ := h.head s hs
    obtain ⟨hopen, hclose⟩ := Selector.start_compact (ha s hmem)
    rw [Selector.head_compact (h.clean s hmem)]
    exact ⟨hat, fun ht => ⟨fun hp => (htop ht).1 (hopen hp), fun hp => (htop ht).2 (hclose hp)⟩⟩

theorem printablePrelude_compact {prelude : Text} (h : PrintablePrelude prelude) :
    PrintablePrelude (Prelude.compact prelude) := by
  rcases h with rfl | h
  · exact .inl rfl
  · exact .inr (Prelude.clean_compact h)

theorem prelude_compact_compact {prelude : Text} (h : PrintablePrelude prelude) :
    Prelude.compact (Prelude.compact prelude) = Prelude.compact prelude := by
  rcases h with rfl | h
  · rfl
  · exact Prelude.compact_compact h

mutual

theorem printable_compact {top : Bool} :
    (n : Node α) → Printable top n → Apart n → Printable top (compact n)
  | rule _ children _, h, ha =>
    ⟨printableSelectors_compact h.1 ha.1, allPrintable_compactAll children h.2 ha.2⟩
  | group _ _ children _, h, ha =>
    ⟨h.1, printablePrelude_compact h.2.1, allPrintable_compactAll children h.2.2 ha⟩
  | statement _ _ _, h, _ => ⟨h.1, printablePrelude_compact h.2⟩
  | declaration _ _ _ _, h, ha => ⟨h.1, printableDeclaration_compact h.2 ha⟩
  | comment _ _, h, _ => h

theorem allPrintable_compactAll {top : Bool} :
    (ns : List (Node α)) → AllPrintable top ns → AllApart ns → AllPrintable top (compactAll ns)
  | [], _, _ => trivial
  | n :: ns, h, ha => ⟨printable_compact n h.1 ha.1, allPrintable_compactAll ns h.2 ha.2⟩

end

mutual

theorem compact_compact {top : Bool} :
    (n : Node α) → Printable top n → Apart n → compact (compact n) = compact n
  | rule selectors children _, h, ha => by
    have hs : (selectors.map Selector.compact).map Selector.compact =
        selectors.map Selector.compact := by
      rw [List.map_map]
      exact List.map_congr_left fun s hs => Selector.compact_compact (h.1.clean s hs)
    rw [compact, compact, hs, compactAll_compactAll children h.2 ha.2]
  | group _ _ children _, h, ha => by
    rw [compact, compact, prelude_compact_compact h.2.1, compactAll_compactAll children h.2.2 ha]
  | statement _ _ _, h, _ => by rw [compact, compact, prelude_compact_compact h.2]
  | declaration _ _ _ _, _, ha => by rw [compact, compact, compactValue_compactValue ha]
  | comment _ _, _, _ => rfl

theorem compactAll_compactAll {top : Bool} :
    (ns : List (Node α)) → AllPrintable top ns → AllApart ns →
      compactAll (compactAll ns) = compactAll ns
  | [], _, _ => rfl
  | n :: ns, h, ha => by
    rw [compactAll, compactAll, compact_compact n h.1 ha.1, compactAll_compactAll ns h.2 ha.2]

end

mutual

theorem printable_keepLive {top : Bool} :
    (n : Node α) → Printable top n → Apart n → Printable top (keepLive n) ∧ Apart (keepLive n)
  | rule _ children _, h, ha =>
    have hc := allPrintable_keepAllLive children h.2 ha.2
    ⟨⟨h.1, hc.1⟩, ha.1, hc.2⟩
  | group _ _ children _, h, ha =>
    have hc := allPrintable_keepAllLive children h.2.2 ha
    ⟨⟨h.1, h.2.1, hc.1⟩, hc.2⟩
  | statement _ _ _, h, ha | declaration _ _ _ _, h, ha | comment _ _, h, ha => ⟨h, ha⟩

theorem allPrintable_keepAllLive {top : Bool} :
    (ns : List (Node α)) → AllPrintable top ns → AllApart ns →
      AllPrintable top (keepAllLive ns) ∧ AllApart (keepAllLive ns)
  | [], _, _ => ⟨trivial, trivial⟩
  | n :: ns, h, ha => by
    have hns := allPrintable_keepAllLive ns h.2 ha.2
    have hn := printable_keepLive n h.1 ha.1
    rw [keepAllLive]
    split
    · exact ⟨⟨hn.1, hns.1⟩, hn.2, hns.2⟩
    · exact hns

end

end Node

namespace Stylesheet

open Node

/-- A minified sheet is read as itself and then minified to itself exactly if each part of it is
legible and compact. -/
theorem parse_minified_iff {source : Text} {positions : Bool} {ns : List (Node α)} :
    (∃ s, parse source (render .compact (minifyAll ns)) positions = .ok s ∧
        bare s.children = bare (minifyAll ns) ∧ bare (minifyAll s.children) = bare s.children) ↔
      AllLegible .compact 0 (minifyAll ns) ∧ ∀ n ∈ allSubnodes (minifyAll ns), n.IsCompact := by
  have again : ∀ {s : Stylesheet}, bare s.children = bare (minifyAll ns) →
      (bare (minifyAll s.children) = bare s.children ↔
        ∀ n ∈ allSubnodes (minifyAll ns), n.IsCompact) := by
    intro s hs
    calc bare (minifyAll s.children) = bare s.children
        ↔ compactAll (bare (minifyAll ns)) = bare (minifyAll ns) := by
          rw [bare, ← minifyAll_mapOrigins, ← bare, hs, bare, minifyAll_mapOrigins,
            minifyAll_minifyAll, compactAll_mapOrigins]
      _ ↔ ∀ n ∈ allSubnodes (minifyAll ns), n.IsCompact := by
          rw [compactAll_eq_self_iff, bare, allSubnodes_mapOrigins, List.forall_mem_map]
          simp only [isCompact_mapOrigin]
  rw [← @parse_render_iff _ _ source positions]
  constructor
  · rintro ⟨s, hs, hbare, hagain⟩
    exact ⟨⟨s, hs, hbare⟩, (again hbare).1 hagain⟩
  · rintro ⟨⟨s, hs, hbare⟩, hcompact⟩
    exact ⟨s, hs, hbare, (again hbare).2 hcompact⟩

/-- Whatever the budget, every chunk of a minified sheet is read as itself exactly if each part of
the sheet is legible. -/
theorem parse_chunks_iff {source : Text} {positions : Bool} {ns : List (Node α)} :
    (∀ budget, ∀ chunk ∈ minifiedChunks budget ns,
        ∃ s, parse source (render .compact chunk) positions = .ok s ∧ bare s.children = bare chunk) ↔
      AllLegible .compact 0 (minifyAll ns) := by
  simp only [parse_render_iff]
  constructor
  · intro h
    exact h none (minifyAll ns) (by simp [minifiedChunks, Chunk.split])
  · intro h budget chunk hchunk
    rw [allLegible_iff_forall] at h ⊢
    exact fun n hn => h n (Chunk.mem_of_mem_split hchunk hn)

/-- Whether each part of a minified sheet is legible and compact. -/
def Settled (ns : List (Node α)) : Prop :=
  AllLegible .compact 0 (minifyAll ns) ∧ ∀ n ∈ allSubnodes (minifyAll ns), n.IsCompact

/-- A minified sheet whose parts are legible and compact is a fixed point. -/
theorem minifyText_minified {ns : List (Node α)} (h : Settled ns) :
    minifyText none (render .compact (minifyAll ns)) =
      .ok (.text (render .compact (minifyAll ns))) := by
  obtain ⟨s, hs, hbare, hagain⟩ := (@parse_minified_iff _ mergedName false ns).2 h
  refine minifyText_render_iff.2 ⟨s, hs, ?_⟩
  rw [← render_eq_of_bare (hagain.trans hbare)]
  rfl

/-- Printable sheets are settled where compacting does not bring together what is then read
together. -/
theorem settled_of_apart {ns : List (Node α)} (h : AllPrintable true ns) (ha : AllApart ns) :
    Settled ns := by
  obtain ⟨hlive, halive⟩ := allPrintable_keepAllLive ns h ha
  rw [Settled, minifyAll_eq]
  exact ⟨allLegible_of_printable 0 _ (allPrintable_compactAll _ hlive halive),
    compactAll_eq_self_iff.1 (compactAll_compactAll _ hlive halive)⟩

/-- What is minified from a text is a fixed point if the tree that the text is read as is
settled. -/
theorem minifyText_again {ns : List (Node α)} (h : Settled ns) {t m : Text} {s : Stylesheet}
    (hs : parse mergedName t false = .ok s) (hbare : bare s.children = bare ns)
    (hm : minifyText none t = .ok (.text m)) : minifyText none m = .ok (.text m) := by
  rw [minifyText] at hm
  split at hm
  · obtain rfl : [] = m := Minified.text.inj (Except.ok.inj hm)
    rfl
  · rw [hs] at hm
    obtain rfl : render .compact (minifyAll s.children) = m := Minified.text.inj (Except.ok.inj hm)
    have hsame : render .compact (minifyAll s.children) = render .compact (minifyAll ns) := by
      refine render_eq_of_bare ?_
      rw [bare, ← minifyAll_mapOrigins, ← bare, hbare, bare, minifyAll_mapOrigins, ← bare]
    rw [hsame]
    exact minifyText_minified h

/-- A minified sheet is read as itself and then minified to itself exactly if each part of it is
legible and compact, and each text that was read as the sheet is minified to a fixed point then.
Whatever the budget, the chunks of the sheet are read as themselves exactly if each part is legible.
All this holds of printable sheets where compacting does not bring together what is then read
together. -/
theorem minify_stable_iff (ns : List (Node α)) :
    ((∃ s, parse mergedName (render .compact (minifyAll ns)) false = .ok s ∧
        bare s.children = bare (minifyAll ns) ∧ bare (minifyAll s.children) = bare s.children) ↔
      Settled ns) ∧
    (Settled ns → ∀ t m s, parse mergedName t false = .ok s → bare s.children = bare ns →
      minifyText none t = .ok (.text m) → minifyText none m = .ok (.text m)) ∧
    ((∀ budget, ∀ chunk ∈ minifiedChunks budget ns,
        ∃ s, parse mergedName (render .compact chunk) false = .ok s ∧ bare s.children = bare chunk) ↔
      AllLegible .compact 0 (minifyAll ns)) ∧
    (AllPrintable true ns → AllApart ns → Settled ns) :=
  ⟨parse_minified_iff, fun h _ _ _ hs hbare hm => minifyText_again h hs hbare hm, parse_chunks_iff,
    settled_of_apart⟩

def looseRule : Node Unit := .rule ["a > b"] [.declaration "c" "0.50px" false ()] ()

theorem minify_stable_looseRule : AllPrintable true [looseRule] ∧ AllApart [looseRule] ∧
    minifyText none "a > b\x7bc:0.50px\x7d" = .ok (.text "a>b\x7bc:.5px\x7d") ∧
    minifyText none "a>b\x7bc:.5px\x7d" = .ok (.text "a>b\x7bc:.5px\x7d") := by
  have hclean : ∀ {ok : Char → Bool} {w : Text}, w ≠ [] → (∀ c ∈ w, c ∈ ("c0.5px" : Text)) →
      (∀ c ∈ w, ok c = true) → Clean ok w := by
    have hall : ∀ c ∈ ("c0.5px" : Text), Lexeme.isQuote c = false ∧ isBracket c = false ∧ c ≠ '\\' ∧
        Scan.isStop c = false ∧ Text.isWide c = false ∧ c ≠ '*' ∧ c ≠ ' ' := Text.forall_of_all rfl
    intro ok w hne hw hok
    have solid : ∀ c ∈ w, c ≠ ' ' := fun c hc => (hall c (hw c hc)).2.2.2.2.2.2
    refine ⟨Value.tokens_of_wordChar (fun c hc => ?_) hok, hne, ?_, ?_⟩
    · obtain ⟨hq, hb, he, hs, hwide, hstar, _⟩ := hall c (hw c hc)
      exact ⟨⟨hq, hb, he⟩, hs, hwide, hstar⟩
    · exact fun h => solid ' ' (List.mem_of_head? h) rfl
    · exact fun h => solid ' ' (List.mem_of_getLast? h) rfl
  have hselector : Clean (· != ',') ("a > b" : Text) :=
    ⟨.char rfl (by decide) rfl rfl rfl (by decide) (by decide)
      (.char rfl (by decide) rfl rfl rfl (by decide) (by decide)
      (.char rfl (by decide) rfl rfl rfl (by decide) (by decide)
      (.char rfl (by decide) rfl rfl rfl (by decide) (by decide)
      (.char rfl (by decide) rfl rfl rfl (by decide) (by decide) .nil)))),
      by decide, by decide, by decide⟩
  have hprintable : AllPrintable true [looseRule] := by
    refine ⟨⟨⟨by decide, ?_, ?_⟩,
      ⟨rfl, hclean (by decide) (Text.forall_of_all rfl) (Text.forall_of_all rfl),
      by decide, by decide,
      .inr (hclean (by decide) (Text.forall_of_all rfl) (Text.forall_of_all rfl)),
      fun _ => ?_⟩, trivial⟩, trivial⟩
    · intro s hs
      rw [List.mem_singleton.1 hs]
      exact hselector
    · intro s hs
      cases hs
      decide
    · rintro ⟨v, _, hv, before, between, word, after, _, _, _, _, rfl⟩
      have hmem : '!' ∈ ("0.50px" : Text) := by
        rw [hv]
        simp
      revert hmem
      decide
  have hfirst : Value.first none '0' ".50px" = (.number "0.50" "px", []) := by decide +kernel
  have hapart : AllApart [looseRule] := by
    refine ⟨⟨?_, .inr (.inr (.cons ?_ ?_)), trivial⟩, trivial⟩
    · intro s hs
      rw [List.mem_singleton.1 hs]
      exact ⟨by decide, by decide⟩
    · show (Value.first none '0' ".50px").1.Apart none (Value.first none '0' ".50px").2
      rw [hfirst]
      exact ⟨by decide, by decide⟩
    · show Value.Apart _ (Value.first none '0' ".50px").2
      rw [hfirst]
      exact .nil
  refine ⟨hprintable, hapart, by decide +kernel, ?_⟩
  obtain ⟨s, hs, _, hbare⟩ :=
    parse_render_of_printable .compact mergedName false [looseRule] hprintable
  obtain ⟨_, hagain, _, hsettled⟩ := minify_stable_iff [looseRule]
  exact hagain (hsettled hprintable hapart) _ _ s hs hbare (by decide +kernel)

/-- Minifying a minified text may fail: an escaped space at the end of a group is dropped, and what
closes the group is escaped instead. -/
theorem minify_not_stable : ¬ ((∀ t m, minifyText none t = .ok (.text m) →
      minifyText none m = .ok (.text m)) ∧
    ∀ (budget : Option Nat) (source t : Text) (s : Stylesheet), parse source t false = .ok s →
      ∀ chunk ∈ (s.minify budget false).map (·.text), ∃ s', parse source chunk false = .ok s') := by
  intro h
  have once : minifyText none ":is(a\\ )\x7bb:c\x7d" = .ok (.text ":is(a\\)\x7bb:c\x7d") := by
    decide +kernel
  have twice : (minifyText none ":is(a\\)\x7bb:c\x7d").toOption.isSome = false := by
    decide +kernel
  rw [h.1 _ _ once] at twice
  cases twice

end Stylesheet

end Stylesmith
