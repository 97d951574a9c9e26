import Stylesmith.Proofs.Stylesheet.Clean
import Stylesmith.Proofs.Stylesheet.Idempotence

set_option autoImplicit false

namespace Stylesmith

open Scan (AtStop atStop_cons isStop)

variable {α : Type} {layout : Layout}

def PrintableName (name : Text) : Prop :=
  name ≠ [] ∧ ∀ c ∈ name, Lexeme.isIdent c = true ∧ c.isUpper = false

/-- A value that is empty or clean. The value of a custom property may hold comments, escapes and
any white space inside. -/
def PrintableValue (property value : Text) : Prop :=
  if ("--" : Text).isPrefixOf property then
    Tokens true (fun _ => true) [] value ∧ Text.trim value = value
  else value = [] ∨ Clean (fun _ => true) value

/-- A declaration whose property is clean, without spaces and, outside literals and groups, without
colons. Its value ends with a mark of importance only if the declaration has a further one. -/
structure PrintableDeclaration (property value : Text) (important : Bool) : Prop where
  clean : Clean (· != ':') property
  no_space : ' ' ∉ property
  head : property.head? ≠ some '@'
  of_value : PrintableValue property value
  no_mark : important = false → ¬ ∃ v mark, value = v ++ mark ∧ Text.IsMark mark

/-- Clean selectors without commas outside literals and groups, at least one. The first does not
start like another item. -/
structure PrintableSelectors (top : Bool) (selectors : List Text) : Prop where
  ne_nil : selectors ≠ []
  clean : ∀ s ∈ selectors, Clean (· != ',') s
  head : ∀ s ∈ selectors.head?, s.head? ≠ some '@' ∧
    (top = true → ¬ ("<!--" : Text) <+: s ∧ ¬ ("-->" : Text) <+: s)

/-- A prelude that is empty or clean. -/
def PrintablePrelude (prelude : Text) : Prop := prelude = [] ∨ Clean (fun _ => true) prelude

namespace Node

mutual

def Printable (top : Bool) : Node α → Prop
  | rule selectors children _ => PrintableSelectors top selectors ∧ AllPrintable false children
  | group name prelude children _ =>
    PrintableName name ∧ PrintablePrelude prelude ∧ AllPrintable false children
  | statement name prelude _ => PrintableName name ∧ PrintablePrelude prelude
  | declaration property value important _ =>
    top = false ∧ PrintableDeclaration property value important
  | comment text _ => ¬ ['*', '/'] <:+: text

def AllPrintable (top : Bool) : List (Node α) → Prop
  | [] => True
  | n :: ns => Printable top n ∧ AllPrintable top ns

end

end Node

namespace Scan

def inert (c : Char) : Bool :=
  !Lexeme.isQuote c && c != '\\' && c != '/' && !isBracket c && !isStop c && c.toLower != 'u'

theorem toStop_inert {a : Bool} {b : List (Char × Text)} {u : Text} (h : ∀ c ∈ u, inert c = true)
    (k : Text) : toStop ⟨a, b⟩ (u ++ k) = toStop ⟨u.getLast?.elim a Lexeme.isIdent, b⟩ k := by
  induction u generalizing a with
  | nil => rfl
  | cons c u ih =>
    have hc := h c List.mem_cons_self
    simp only [inert, Bool.and_eq_true, Bool.not_eq_true', bne_iff_ne] at hc
    obtain ⟨⟨⟨⟨⟨hq, hesc⟩, hslash⟩, hbracket⟩, hstop⟩, hu⟩ := hc
    have hscan := toStop_plain (s := ⟨a, b⟩) (t := u ++ k) hq hesc (fun h => absurd h hslash)
      hbracket hstop (opensReference_ne hu)
    rw [List.cons_append, hscan, ih fun d hd => h d (List.mem_cons_of_mem c hd),
      List.getLast?_cons]
    cases u.getLast? <;> rfl

def IsGap (u : Text) : Prop := ∀ c ∈ u, c = ' ' ∨ c = '\n' ∨ c = ',' ∨ c = ':' ∨ c = '!'

theorem toStop_gap {a : Bool} {b : List (Char × Text)} {u : Text} (hne : u ≠ []) (h : IsGap u)
    (k : Text) : toStop ⟨a, b⟩ (u ++ k) = toStop ⟨false, b⟩ k := by
  rw [toStop_inert]
  · rw [List.getLast?_eq_some_getLast hne]
    rcases h _ (List.getLast_mem hne) with hc | hc | hc | hc | hc <;>
      rw [hc] <;> rfl
  · intro c hc
    rcases h c hc with rfl | rfl | rfl | rfl | rfl <;> rfl

theorem toStop_gap_stop {a : Bool} {u k : Text} (h : IsGap u) (hk : AtStop k) :
    toStop ⟨a, []⟩ (u ++ k) = .ok k := by
  by_cases hu : u = []
  · rw [hu, List.nil_append, toStop_of_isStop rfl hk]
  · rw [toStop_gap hu h, toStop_of_isStop rfl hk]

end Scan

namespace Lexeme

theorem ofText_wide {c : Char} (hc : Text.isWide c = true) (t : Text) :
    ofText (c :: t) = plain c :: ofText t := by
  rw [ofText, first_of_isWide t hc]

theorem ofText_blank {c : Char} (hc : Text.isBlank c = true) (t : Text) :
    ofText (c :: t) = plain c :: ofText t := by
  exact ofText_wide (Text.isWide_of_isBlank hc) t

theorem collapse_blanks {spaced started gap : Bool} {u : Text} (hu : ∀ c ∈ u, Text.isBlank c = true)
    (k : Text) : collapse spaced started gap (ofText (u ++ k)) =
      collapse spaced started (gap || !u.isEmpty) (ofText k) := by
  induction u generalizing gap with
  | nil => simp
  | cons c u ih =>
    have hc := hu c List.mem_cons_self
    rw [List.cons_append, ofText_blank hc, collapse, if_pos hc,
      ih fun d hd => hu d (List.mem_cons_of_mem c hd)]
    simp

theorem collapse_blank {spaced started gap : Bool} {u : Text}
    (hu : ∀ c ∈ u, Text.isBlank c = true) : collapse spaced started gap (ofText u) = [] := by
  rw [← List.append_nil u, collapse_blanks hu, ofText]
  rfl

theorem collapse_comma (spaced : Bool) (ls : List Lexeme) :
    collapse spaced true false (plain ',' :: ls) = ',' :: collapse spaced true false ls := rfl

theorem ofText_comma (t : Text) : ofText (',' :: t) = plain ',' :: ofText t :=
  ofText_of_starts (.plain rfl (by decide) fun h => absurd h (by decide))

end Lexeme

theorem breaks_of_atStop {k : Text} (hk : AtStop k) : Breaks k := by
  obtain ⟨c, t, rfl, hc⟩ := hk
  rcases Scan.isStop_iff.1 hc with rfl | rfl | rfl <;> exact breaks_cons (by decide)

theorem tokens_head {ok : Char → Bool} {before t k : Text} {c : Char}
    (h : Tokens false ok before (c :: t)) (hk : Breaks k) :
    isStop c = false ∧ ¬ (c = '/' ∧ (t ++ k).head? = some '*') := by
  cases h with
  | literal hq => rcases Lexeme.isQuote_iff.1 hq with rfl | rfl <;> exact ⟨rfl, by simp⟩
  | group hencloses => rcases hencloses with ⟨rfl, _⟩ | ⟨rfl, _⟩ <;> exact ⟨rfl, by simp⟩
  | char _ _ _ hstop _ _ _ ht =>
    refine ⟨hstop, ?_⟩
    rintro ⟨rfl, hstar⟩
    exact Scan.head_ne_star ht hk hstar
  | escape _ h => cases h
  | comment h => cases h

theorem Clean.startsItem_append {ok : Char → Bool} {t k : Text} {top : Bool} (h : Clean ok t)
    (hat : t.head? ≠ some '@')
    (htop : top = true → ¬ ("<!--" : Text) <+: t ∧ ¬ ("-->" : Text) <+: t) (hk : Breaks k)
    (hmark : ∀ c ∈ k.head?, c ∉ ("<!->" : Text)) : StartsItem top (t ++ k) := by
  obtain ⟨c, t, rfl⟩ := List.exists_cons_of_ne_nil h.ne_nil
  have hwide := h.not_wide_head c rfl
  obtain ⟨hstop, hcomment⟩ := tokens_head h.tokens hk
  refine ⟨c, t ++ k, rfl, ?_, ?_, ?_, ?_, hcomment, fun ht => ⟨?_, ?_⟩⟩
  · rw [← Bool.not_eq_true]
    intro hb
    rw [Text.isWide_of_isBlank hb] at hwide
    cases hwide
  · rintro rfl
    cases hstop
  · rintro rfl
    cases hstop
  · rintro rfl
    exact hat rfl
  · refine fun hp => (htop ht).1 (prefix_of_prefix_append (fun d hd hm => hmark d hd ?_) hp)
    revert hm
    simp
    tauto
  · refine fun hp => (htop ht).2 (prefix_of_prefix_append (fun d hd hm => hmark d hd ?_) hp)
    revert hm
    simp
    tauto

theorem PrintableValue.tokens {property value : Text}
    (h : PrintableValue property value) :
    ∃ raw, Tokens raw (fun _ => true) [] value := by
  unfold PrintableValue at h
  split at h
  · exact ⟨true, h.1⟩
  · rcases h with rfl | h
    · exact ⟨false, .nil⟩
    · exact ⟨false, h.tokens⟩

namespace Text

theorem cutImportant_mark {v gap : Text} (hv : ∀ c ∈ v.getLast?, isWide c = false)
    (hgap : ∀ c ∈ gap, isWide c = true) :
    cutImportant (v ++ (gap ++ ("!important" : Text))) = (v, true) := by
  refine cutImportant_append_mark hv ⟨gap, [], "important", [], hgap, ?_, ?_, rfl, rfl⟩ <;>
    exact fun _ hc => absurd hc List.not_mem_nil

theorem trim_gap {gap t : Text} (hgap : ∀ c ∈ gap, isWide c = true)
    (hhead : ∀ c ∈ t.head?, isWide c = false) (hlast : ∀ c ∈ t.getLast?, isWide c = false) :
    trim (gap ++ t) = t :=
  trimWhile_eq_iff.2 ⟨gap, [], by simp, by simpa using hgap, hhead, hlast⟩

end Text

namespace Layout

def commaBlanks (layout : Layout) (depth : Nat) : Text := (layout.selectorGap depth).tail

theorem selectorGap_eq (layout : Layout) (depth : Nat) :
    layout.selectorGap depth = ',' :: layout.commaBlanks depth := by
  cases layout <;> rfl

theorem isBlank_commaBlanks (layout : Layout) (depth : Nat) :
    ∀ c ∈ layout.commaBlanks depth, Text.isBlank c = true := by
  cases layout with
  | pretty =>
    intro c hc
    rcases List.mem_cons.1 hc with rfl | hc
    · rfl
    · rw [List.eq_of_mem_replicate hc]
      rfl
  | compact => exact fun c hc => absurd hc List.not_mem_nil

theorem isGap_commaBlanks (layout : Layout) (depth : Nat) :
    Scan.IsGap (',' :: layout.commaBlanks depth) := by
  intro c hc
  rcases List.mem_cons.1 hc with rfl | hc
  · simp
  · cases layout with
    | pretty =>
      rcases List.mem_cons.1 hc with rfl | hc
      · simp
      · rw [List.eq_of_mem_replicate hc]
        simp
    | compact => exact absurd hc List.not_mem_nil

theorem isGap_openGap (layout : Layout) : Scan.IsGap layout.openGap := by
  cases layout <;> simp [openGap, Scan.IsGap]

theorem isBlank_openGap (layout : Layout) : ∀ c ∈ layout.openGap, Text.isBlank c = true := by
  cases layout <;> simp [openGap, Text.isBlank]

def collapsedGap (layout : Layout) (depth : Nat) : Text :=
  ',' :: (if (layout.commaBlanks depth).isEmpty then [] else [' '])

variable {depth : Nat} {ok : Char → Bool}

theorem header_cons (s : Text) {selectors : List Text} (h : selectors ≠ []) :
    layout.header depth (s :: selectors) =
      s ++ ',' :: (layout.commaBlanks depth ++ layout.header depth selectors) := by
  rw [header, header, Text.join_cons_of_ne_nil _ _ h, selectorGap_eq]
  simp

theorem header_singleton (s : Text) : layout.header depth [s] = s ++ layout.openGap := rfl

theorem breaks_openGap (layout : Layout) : Breaks layout.openGap := by
  cases layout
  · exact breaks_cons (by decide)
  · exact breaks_nil

theorem collapse_header {selectors : List Text} (hne : selectors ≠ [])
    (hclean : ∀ s ∈ selectors, Clean ok s) (started gap : Bool) :
    Lexeme.collapse false started gap (Lexeme.ofText (layout.header depth selectors)) =
      (if started && gap then [' '] else []) ++ Text.join (layout.collapsedGap depth) selectors := by
  have hend : Lexeme.collapse false true false (Lexeme.ofText layout.openGap) = [] :=
    Lexeme.collapse_blank layout.isBlank_openGap
  induction selectors generalizing started gap with
  | nil => exact absurd rfl hne
  | cons s selectors ih =>
    have hs := hclean s List.mem_cons_self
    by_cases hrest : selectors = []
    · subst hrest
      rw [header_singleton, hs.collapse_append layout.breaks_openGap, hend, List.append_nil]
      rfl
    · have hih := ih hrest fun s' hs' => hclean s' (List.mem_cons_of_mem s hs')
      rw [header_cons s hrest, hs.collapse_append (breaks_cons (by decide)),
        Lexeme.ofText_comma, Lexeme.collapse_comma,
        Lexeme.collapse_blanks (layout.isBlank_commaBlanks depth), hih,
        Text.join_cons_of_ne_nil _ _ hrest, collapsedGap]
      cases layout.commaBlanks depth <;> simp

theorem map_trim_glue_space {parts : List Text} (h : parts ≠ []) :
    (Lexeme.split.glue [' '] parts).map Text.trim = parts.map Text.trim := by
  cases parts with
  | nil => exact absurd rfl h
  | cons part parts => rfl

theorem split_join {selectors : List Text} (hne : selectors ≠ [])
    (hclean : ∀ s ∈ selectors, Clean (· != ',') s) :
    (Lexeme.split ',' 0 (Lexeme.ofText (Text.join (layout.collapsedGap depth) selectors))).map
      Text.trim = selectors := by
  induction selectors with
  | nil => exact absurd rfl hne
  | cons s selectors ih =>
    have hs := hclean s List.mem_cons_self
    by_cases hrest : selectors = []
    · subst hrest
      rw [Text.join, ← List.append_nil (Lexeme.ofText s),
        Lexeme.split_tokens hs.tokens rfl (fun _ => rfl)]
      simp [Lexeme.split, Lexeme.split.glue, hs.trim_eq]
    · have hih := ih hrest fun s' hs' => hclean s' (List.mem_cons_of_mem s hs')
      rw [Text.join_cons_of_ne_nil _ _ hrest, collapsedGap, List.cons_append,
        Lexeme.ofText_tokens hs.tokens (breaks_cons (by decide)), Lexeme.ofText_comma,
        Lexeme.split_tokens hs.tokens rfl (fun _ => rfl), Lexeme.split, if_pos ⟨rfl, rfl⟩,
        Lexeme.split.glue, List.map_cons, List.append_nil, hs.trim_eq, ← collapsedGap]
      congr 1
      split
      · exact hih
      · rw [List.singleton_append, Lexeme.ofText_blank rfl, Lexeme.split_plain (by decide),
          map_trim_glue_space (Lexeme.split_ne_nil _ _ _)]
        exact hih

theorem toStop_header {selectors : List Text} (hclean : ∀ s ∈ selectors, Clean ok s) {k : Text}
    (hk : AtStop k) : Scan.toStop ⟨false, []⟩ (layout.header depth selectors ++ k) = .ok k := by
  induction selectors with
  | nil => exact Scan.toStop_gap_stop layout.isGap_openGap hk
  | cons s selectors ih =>
    have hs := hclean s List.mem_cons_self
    have hbreaks : Breaks (layout.openGap ++ k) := by
      cases layout
      · exact breaks_cons (by decide)
      · exact breaks_of_atStop hk
    by_cases hrest : selectors = []
    · subst hrest
      rw [header_singleton, List.append_assoc, hs.toStop_append hbreaks]
      exact Scan.toStop_gap_stop layout.isGap_openGap hk
    · rw [header_cons s hrest, List.append_assoc, List.cons_append,
        hs.toStop_append (breaks_cons (by decide)), List.append_assoc, ← List.cons_append,
        Scan.toStop_gap (List.cons_ne_nil _ _) (layout.isGap_commaBlanks depth)]
      exact ih fun s' hs' => hclean s' (List.mem_cons_of_mem s hs')

theorem legibleSelectors_of_printable {selectors : List Text}
    (h : PrintableSelectors (depth == 0) selectors) : layout.LegibleSelectors depth selectors := by
  obtain ⟨s, rest, rfl⟩ := List.exists_cons_of_ne_nil h.ne_nil
  refine ⟨?_, toStop_header h.clean (atStop_cons.2 rfl), ?_⟩
  · obtain ⟨hat, hmarks⟩ := h.head s rfl
    have hs := h.clean s List.mem_cons_self
    by_cases hrest : rest = []
    · subst hrest
      refine hs.startsItem_append hat hmarks layout.breaks_openGap ?_
      cases layout <;> simp [openGap]
    · rw [header_cons s hrest]
      exact hs.startsItem_append hat hmarks (breaks_cons (by decide)) (by simp)
  · rw [Reader.selectors, Text.splitTop, Text.collapse, collapse_header h.ne_nil h.clean]
    simp only [Bool.false_and, Bool.false_eq_true, if_false, List.nil_append]
    rw [split_join h.ne_nil h.clean, List.filter_eq_self]
    intro s hs
    simpa using (h.clean s hs).ne_nil

section AtRule

variable {gap name prelude : Text}

theorem spanName_of_printable (h : ∀ c ∈ name, Lexeme.isIdent c = true) {k : Text}
    (hk : EndsName k) : Text.spanName (name ++ k) = (name, k) := by
  induction name with
  | nil =>
    obtain ⟨c, t, rfl, hc, hesc⟩ := hk
    rw [List.nil_append, Text.spanName, if_neg (by simp [hc, hesc])]
    exact fun d u he => absurd he hesc
  | cons c name ih =>
    have hc := h c List.mem_cons_self
    have hesc : c ≠ '\\' := by
      rintro rfl
      cases hc
    rw [List.cons_append, Text.spanName, if_pos (by simp [hc]),
      ih fun d hd => h d (List.mem_cons_of_mem c hd)]
    exact fun d u he => absurd he hesc

theorem lowerAscii_of_printable (h : ∀ c ∈ name, c.isUpper = false) :
    Text.lowerAscii name = name := by
  have hlower : ∀ c ∈ name, c.toLower = c := by
    intro c hc
    exact Char.toLower_eq_of_not_isUpper (Bool.eq_false_iff.1 (h c hc))
  rw [Text.lowerAscii, List.map_congr_left hlower, List.map_id']

theorem afterName_whole (hgap : Scan.IsGap gap) (hbreaks : Breaks (gap ++ [';']))
    (h : PrintablePrelude prelude) : Scan.Whole (afterName gap prelude) := by
  have hstop : AtStop [';'] := atStop_cons.2 rfl
  rw [Scan.Whole, afterName]
  rcases h with rfl | h
  · exact Scan.toStop_gap_stop hgap hstop
  · rw [if_neg (by simpa using h.ne_nil), List.append_assoc, ← List.singleton_append,
      List.append_assoc, Scan.toStop_gap (List.cons_ne_nil _ _) (by simp [Scan.IsGap]),
      h.toStop_append hbreaks]
    exact Scan.toStop_gap_stop hgap hstop

theorem collapse_afterName (hgap : ∀ c ∈ gap, Text.isBlank c = true) (hbreaks : Breaks gap)
    (h : PrintablePrelude prelude) : Text.collapseSpaced (afterName gap prelude) = prelude := by
  rw [Text.collapseSpaced, afterName]
  rcases h with rfl | h
  · exact Lexeme.collapse_blank hgap
  · have hspace : Text.isBlank ' ' = true := rfl
    rw [if_neg (by simpa using h.ne_nil), List.cons_append, Lexeme.ofText_blank hspace,
      Lexeme.collapse, if_pos hspace, h.collapse_append hbreaks, Lexeme.collapse_blank hgap,
      List.append_nil]
    rfl

theorem legibleAtRule_of_printable (hgap : gap = [] ∨ gap = [' ']) (hname : PrintableName name)
    (hprelude : PrintablePrelude prelude) : LegibleAtRule gap name prelude where
  name_ne_nil := hname.1
  spanName := spanName_of_printable (fun c hc => (hname.2 c hc).1) (endsName_cons.2 (by decide))
  lowerAscii := lowerAscii_of_printable fun c hc => (hname.2 c hc).2
  whole := by
    refine afterName_whole ?_ ?_ hprelude
    · rcases hgap with rfl | rfl <;> simp [Scan.IsGap]
    · rcases hgap with rfl | rfl <;> exact breaks_cons (by decide)
  reads := by
    refine collapse_afterName ?_ ?_ hprelude
    · rcases hgap with rfl | rfl <;> simp [Text.isBlank]
    · rcases hgap with rfl | rfl
      · exact breaks_nil
      · exact breaks_cons (by decide)

end AtRule

section Declaration

variable {property value : Text} {important : Bool}

def importance (layout : Layout) (important : Bool) : Text :=
  if important then layout.openGap ++ "!important" else []

theorem assignment_eq (layout : Layout) (property value : Text) (important : Bool) :
    layout.assignment property value important =
      property ++ ':' :: (layout.openGap ++ (value ++ layout.importance important)) := by
  cases layout <;> cases important <;> simp [assignment, importance, openGap]

theorem isInert_importance (layout : Layout) (important : Bool) :
    ∀ c ∈ layout.importance important, Scan.inert c = true := by
  cases layout <;> cases important <;> exact List.all_eq_true.1 rfl

theorem breaks_importance (layout : Layout) (important : Bool) {k : Text} (hk : Breaks k) :
    Breaks (layout.importance important ++ k) := by
  cases layout <;> cases important <;> first | exact hk | exact breaks_cons (by decide)

theorem whole_assignment (h : PrintableDeclaration property value important) :
    Scan.Whole (layout.assignment property value important) := by
  have hstop : AtStop [';'] := atStop_cons.2 rfl
  obtain ⟨raw, hvalue⟩ := h.of_value.tokens
  have hgap : Scan.IsGap (':' :: layout.openGap) := by
    cases layout <;> simp [openGap, Scan.IsGap]
  have hbreaks := layout.breaks_importance important (breaks_of_atStop hstop)
  rw [Scan.Whole, assignment_eq, List.append_assoc, List.cons_append,
    h.clean.toStop_append (breaks_cons (by decide)), List.append_assoc, ← List.cons_append,
    Scan.toStop_gap (List.cons_ne_nil _ _) hgap, List.append_assoc,
    Scan.toStop_tokens (a := false) hvalue rfl hbreaks,
    Scan.toStop_inert (layout.isInert_importance important)]
  exact Scan.toStop_of_isStop rfl hstop

theorem cutTop?_assignment (h : Clean (· != ':') property) :
    Text.cutTop? ':' (layout.assignment property value important) =
      some (property, layout.openGap ++ (value ++ layout.importance important)) := by
  rw [Text.cutTop?, assignment_eq, Lexeme.ofText_tokens h.tokens (breaks_cons (by decide)),
    Lexeme.ofText_of_starts (.plain rfl (by decide) fun h => absurd h (by decide)),
    Lexeme.cut?_tokens h.tokens rfl (fun _ => rfl), Lexeme.cut?, if_pos ⟨rfl, rfl⟩,
    Lexeme.flatMap_ofText]
  simp

theorem collapse_property (h : Clean (· != ':') property) : Text.collapse property = property := by
  have hcollapse := h.collapse_append breaks_nil false false false
  rw [List.append_nil] at hcollapse
  rw [Text.collapse, hcollapse, Lexeme.ofText]
  simp [Lexeme.collapse]

theorem cutImportant_importance (hlast : ∀ c ∈ value.getLast?, Text.isWide c = false)
    (hmark : important = false → ¬ ∃ v mark, value = v ++ mark ∧ Text.IsMark mark) :
    Text.cutImportant (value ++ layout.importance important) = (value, important) := by
  cases important with
  | true =>
    refine Text.cutImportant_mark hlast fun c hc => ?_
    exact Text.isWide_of_isBlank (layout.isBlank_openGap c hc)
  | false =>
    rw [importance, if_neg Bool.false_ne_true, List.append_nil]
    rcases Text.cutImportant_cases value with h | ⟨v, mark, _, hvalue, hm⟩
    · exact h
    · exact absurd ⟨v, mark, hvalue, hm⟩ (hmark rfl)

theorem cutImportant_of_empty (layout : Layout) (property : Text) (important : Bool) :
    Text.cutImportant (Reader.fullValue property (layout.openGap ++ layout.importance important)) =
      ([], important) := by
  unfold Reader.fullValue
  cases layout <;> cases important <;> split <;> decide +kernel

theorem fullValue_assignment (h : PrintableValue property value) (hne : value ≠ []) :
    (∀ c ∈ value.getLast?, Text.isWide c = false) ∧
      Reader.fullValue property (layout.openGap ++ (value ++ layout.importance important)) =
        value ++ layout.importance important := by
  have hblank := layout.isBlank_openGap
  have hmark : ∀ c ∈ (layout.importance important).getLast?, Text.isWide c = false := by
    intro c hc
    cases important with
    | false => cases hc
    | true =>
      cases layout <;> cases hc <;> rfl
  unfold PrintableValue at h
  unfold Reader.fullValue
  split at h
  · rename_i hcustom
    obtain ⟨hhead, hlast⟩ := Text.not_wide_trim value
    rw [h.2] at hhead hlast
    refine ⟨hlast, ?_⟩
    rw [if_pos hcustom]
    refine Text.trim_gap (fun c hc => Text.isWide_of_isBlank (hblank c hc)) ?_ ?_
    · rwa [List.head?_append_of_ne_nil _ hne]
    · intro c hc
      rw [List.getLast?_append] at hc
      rcases Option.or_eq_some_iff.1 hc with hc | ⟨_, hc⟩
      · exact hmark c hc
      · exact hlast c hc
  · rename_i hcustom
    rcases h with rfl | h
    · exact absurd rfl hne
    · refine ⟨h.not_wide_last, ?_⟩
      have hbreaks := layout.breaks_importance important breaks_nil
      rw [List.append_nil] at hbreaks
      have hend : Lexeme.collapse true true false (Lexeme.ofText (layout.importance important)) =
          layout.importance important := by
        cases layout <;> cases important <;> decide +kernel
      rw [if_neg hcustom, Text.collapseSpaced, Lexeme.collapse_blanks hblank,
        h.collapse_append hbreaks, hend]
      rfl

theorem legibleDeclaration_of_printable (h : PrintableDeclaration property value important) :
    layout.LegibleDeclaration property value important where
  starts := by
    rw [assignment_eq]
    exact h.clean.startsItem_append h.head (fun h => by cases h) (breaks_cons (by decide)) (by simp)
  whole := whole_assignment h
  reads start := by
    rw [Reader.declaration_eq_ok_iff]
    refine ⟨_, _, property, value, important, cutTop?_assignment h.clean, collapse_property h.clean,
      h.clean.ne_nil, h.no_space, ?_, rfl⟩
    by_cases hne : value = []
    · subst hne
      exact cutImportant_of_empty layout property important
    · obtain ⟨hlast, hfull⟩ := fullValue_assignment h.of_value hne
      rw [hfull]
      exact cutImportant_importance hlast h.no_mark

end Declaration


end Layout

namespace Node

mutual

theorem legible_of_printable (depth : Nat) :
    (n : Node α) → Printable (depth == 0) n → Legible layout depth n
  | rule _ children _, h =>
    ⟨Layout.legibleSelectors_of_printable h.1, allLegible_of_printable (depth + 1) children h.2⟩
  | group _ _ children _, h =>
    ⟨Layout.legibleAtRule_of_printable (openGap_eq layout) h.1 h.2.1,
      allLegible_of_printable (depth + 1) children h.2.2⟩
  | statement _ _ _, h => Layout.legibleAtRule_of_printable (.inl rfl) h.1 h.2
  | declaration _ _ _ _, h => by
    refine ⟨?_, Layout.legibleDeclaration_of_printable h.2⟩
    simpa using h.1
  | comment _ _, h => h

theorem allLegible_of_printable (depth : Nat) :
    (ns : List (Node α)) → AllPrintable (depth == 0) ns → AllLegible layout depth ns
  | [], _ => trivial
  | n :: ns, h => ⟨legible_of_printable depth n h.1, allLegible_of_printable depth ns h.2⟩

end

end Node

namespace Stylesheet

/-- Printing a printable tree and parsing the text gives the tree, in both layouts. -/
theorem parse_render_of_printable (layout : Layout) (source : Text) (positions : Bool)
    (ns : List (Node α)) (h : Node.AllPrintable true ns) :
    ∃ s, parse source (render layout ns) positions = .ok s ∧ s.source = some source ∧
      Node.bare s.children = Node.bare ns := by
  obtain ⟨s, hs, hbare⟩ := parse_render_iff.2 (Node.allLegible_of_printable 0 ns h)
  obtain ⟨_, _, rfl⟩ := parse_eq_ok_iff.1 hs
  exact ⟨_, hs, rfl, hbare⟩

def quotedRule : Node Unit :=
  .rule ["a[x=\";\"]"] [.declaration "b" "c" true (), .comment "d" ()] ()

theorem parse_render_quotedRule : Node.AllPrintable true [quotedRule] ∧
    ∃ s, parse "a.css" (render .compact [quotedRule]) true = .ok s ∧ s.source = some "a.css" ∧
      Node.bare s.children = Node.bare [quotedRule] := by
  have hliteral : Tokens false (fun _ => true) ("=x[a" : Text) ("\";\"" : Text) :=
    @Tokens.literal _ _ _ [';'] [] _ rfl (.char (by decide) (by decide) .nil) .nil
  have hbody : Tokens false (fun _ => true) ("[a" : Text) ("x=\";\"" : Text) :=
    .char rfl (by decide) rfl rfl rfl (by decide) (by decide)
      (.char rfl (by decide) rfl rfl rfl (by decide) (by decide) hliteral)
  have hselector : Tokens false (· != ',') [] ("a[x=\";\"]" : Text) :=
    .char rfl (by decide) rfl rfl rfl (by decide) (by decide)
      (@Tokens.group _ _ _ "x=\";\"" [] _ _ (.inr ⟨rfl, rfl⟩) (fun h => by cases h.1) hbody .nil)
  have hname : ∀ {ok : Char → Bool} {c : Char}, ok c = true → c = 'b' ∨ c = 'c' → Clean ok [c] := by
    rintro ok c hok (rfl | rfl) <;>
      exact ⟨.char rfl (by decide) rfl rfl hok (by decide) (by decide) .nil, by decide, by decide,
        by decide⟩
  have h : Node.AllPrintable true [quotedRule] := by
    refine ⟨⟨⟨by decide, ?_, ?_⟩, ⟨rfl, ?_⟩, ?_, trivial⟩, trivial⟩
    · intro s hs
      rw [List.mem_singleton.1 hs]
      exact ⟨hselector, by decide, by decide, by decide⟩
    · intro s hs
      cases hs
      decide
    · exact ⟨hname rfl (.inl rfl), by decide, by decide, .inr (hname rfl (.inr rfl)), by simp⟩
    · show ¬ _
      decide
  exact ⟨h, parse_render_of_printable .compact "a.css" true [quotedRule] h⟩

end Stylesheet

end Stylesmith
