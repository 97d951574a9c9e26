import Stylesmith.Proofs.Stylesheet.Grammar
import Stylesmith.Proofs.Stylesheet.Pieces

/-!
# Legible trees

A tree is legible in a layout when each header, declaration and comment of it, written by itself, is
read as what it was written from. Written legible trees spell themselves, whatever stands around.
-/

set_option autoImplicit false

namespace Stylesmith

variable {α : Type}

namespace Node

def written (layout : Layout) (depth : Nat) (n : Node α) : Text :=
  Piece.texts (pieces layout depth n)

def writtenItems (layout : Layout) (depth : Nat) (afterDeclaration : Bool) (ns : List (Node α)) :
    Text :=
  Piece.texts (itemPieces layout depth afterDeclaration ns)

def writtenLater (layout : Layout) (afterStatement : Bool) (ns : List (Node α)) : Text :=
  Piece.texts (laterPieces layout afterStatement ns)

end Node

namespace Layout

def openGap : Layout → Text
  | pretty => [' ']
  | compact => []

theorem openBrace_eq (layout : Layout) : layout.openBrace = layout.openGap ++ ['{'] := by
  cases layout <;> rfl

def header (layout : Layout) (depth : Nat) (selectors : List Text) : Text :=
  Text.join (layout.selectorGap depth) selectors ++ layout.openGap

def afterName (gap prelude : Text) : Text := (if prelude.isEmpty then [] else ' ' :: prelude) ++ gap

def assignment (property value : Text) (important : Bool) : Layout → Text
  | pretty => property ++ ": " ++ value ++ (if important then (" !important" : Text) else [])
  | compact => property ++ ":" ++ value ++ (if important then ("!important" : Text) else [])

def endMark : Layout → Text
  | pretty => [';']
  | compact => []

theorem declaration_eq (layout : Layout) (property value : Text) (important : Bool) :
    layout.declaration property value important =
      layout.assignment property value important ++ layout.endMark := by
  cases layout
  · rfl
  · exact (List.append_nil _).symm

structure LegibleSelectors (layout : Layout) (depth : Nat) (selectors : List Text) : Prop where
  starts : StartsItem (depth == 0) (layout.header depth selectors)
  whole : Scan.Whole (layout.header depth selectors)
  reads : Reader.selectors (layout.header depth selectors) = selectors

/-- The name and prelude of an at-rule are read as such; `gap` stands after them. -/
structure LegibleAtRule (gap name prelude : Text) : Prop where
  name_ne_nil : name ≠ []
  spanName : Text.spanName (name ++ [';']) = (name, [';'])
  lowerAscii : Text.lowerAscii name = name
  whole : Scan.Whole (afterName gap prelude)
  reads : Text.collapseSpaced (afterName gap prelude) = prelude

structure LegibleDeclaration (layout : Layout) (property value : Text) (important : Bool) : Prop where
  starts : StartsItem false (layout.assignment property value important)
  whole : Scan.Whole (layout.assignment property value important)
  reads (start : Text) : Reader.declaration start (layout.assignment property value important) =
    .ok (.declaration property value important start)

end Layout

namespace Node

mutual

def Legible (layout : Layout) (depth : Nat) : Node α → Prop
  | rule selectors children _ =>
    layout.LegibleSelectors depth selectors ∧ AllLegible layout (depth + 1) children
  | group name prelude children _ =>
    Layout.LegibleAtRule layout.openGap name prelude ∧ AllLegible layout (depth + 1) children
  | statement name prelude _ => Layout.LegibleAtRule [] name prelude
  | declaration property value important _ =>
    depth ≠ 0 ∧ layout.LegibleDeclaration property value important
  | comment text _ => ¬ ['*', '/'] <:+: text

def AllLegible (layout : Layout) (depth : Nat) : List (Node α) → Prop
  | [] => True
  | n :: ns => Legible layout depth n ∧ AllLegible layout depth ns

end

end Node

/-- Text that may stand between items everywhere. -/
def Slack (g : Text) : Prop := ∀ c ∈ g, Text.isBlank c = true ∨ c = ';'

theorem slack_nil : Slack [] := fun _ hc => absurd hc List.not_mem_nil

theorem slack_cons {c : Char} {g : Text} :
    Slack (c :: g) ↔ (Text.isBlank c = true ∨ c = ';') ∧ Slack g := List.forall_mem_cons

theorem slack_newLine (depth : Nat) : Slack (Layout.newLine depth) := by
  intro c hc
  rcases List.mem_cons.1 hc with rfl | hc
  · exact .inl rfl
  · rw [List.eq_of_mem_replicate hc]
    exact .inl rfl

theorem slack_itemGap (layout : Layout) (depth : Nat) (afterDeclaration : Bool) :
    Slack (layout.itemGap depth afterDeclaration) := by
  cases layout
  · exact slack_newLine depth
  · cases afterDeclaration <;> simp [Layout.itemGap, Slack]

theorem slack_topGap (layout : Layout) (bothStatements : Bool) :
    Slack (layout.topGap bothStatements) := by
  cases layout <;> cases bothStatements <;> simp [Layout.topGap, Slack, Text.isBlank]

theorem slack_topEnd (layout : Layout) (childless : Bool) : Slack (layout.topEnd childless) := by
  cases layout <;> cases childless <;> simp [Layout.topEnd, Slack, Text.isBlank]

theorem slack_endMark (layout : Layout) : Slack layout.endMark := by
  cases layout <;> simp [Layout.endMark, Slack]

theorem closeBrace_eq (layout : Layout) (depth : Nat) (childless : Bool) :
    ∃ gap, Slack gap ∧ layout.closeBrace depth childless = gap ++ ['}'] ∧
      (layout = .compact → gap = []) := by
  cases layout with
  | pretty =>
    cases childless
    · exact ⟨Layout.newLine depth, slack_newLine depth, rfl, by simp⟩
    · exact ⟨[], slack_nil, rfl, by simp⟩
  | compact => exact ⟨[], slack_nil, rfl, by simp⟩

theorem spells_of_slack {top : Bool} {g t rest : Text} {ns : List (Node Text)} (hg : Slack g)
    (h : Spells top false t ns rest) : Spells top false (g ++ t) ns rest := by
  induction g with
  | nil => exact h
  | cons c g ih =>
    obtain ⟨hc, hg'⟩ := slack_cons.1 hg
    rcases hc with hc | rfl
    · exact .skip (.blank _ _ hc) (ih hg')
    · exact .skip (.semicolon _ _) (ih hg')

theorem prefix_of_prefix_append {p t k : Text} (hk : ∀ c ∈ k.head?, c ∉ p) (h : p <+: t ++ k) :
    p <+: t := by
  rcases List.prefix_or_prefix_of_prefix h (List.prefix_append t k) with h | ⟨q, rfl⟩
  · exact h
  · cases q with
    | nil => exact (List.append_nil t).symm ▸ List.prefix_refl t
    | cons d q =>
      rw [List.prefix_append_right_inj] at h
      obtain ⟨u, rfl⟩ := h
      exact absurd (by simp) (hk d rfl)

theorem startsItem_append {top : Bool} {t k : Text} (hk : Scan.AtStop k) (h : StartsItem top t) :
    StartsItem top (t ++ k) := by
  obtain ⟨c, t', rfl, hblank, hclose, hsemi, hat, hcomment, htop⟩ := h
  refine ⟨c, t' ++ k, rfl, hblank, hclose, hsemi, hat, ?_, ?_⟩
  · rintro ⟨hc, ht⟩
    cases t' with
    | nil =>
      obtain ⟨d, k, rfl, hd⟩ := hk
      obtain rfl : d = '*' := by simpa using ht
      cases hd
    | cons d t' => exact hcomment ⟨hc, ht⟩
  · intro ht
    have hhead : ∀ {p : Text}, (∀ c ∈ p, Scan.isStop c = false) → ∀ c ∈ k.head?, c ∉ p := by
      intro p hp c hc hcp
      obtain ⟨d, u, rfl, hd⟩ := hk
      obtain rfl : d = c := Option.some.inj hc
      rw [hp d hcp] at hd
      cases hd
    have hopen : ∀ c ∈ ("<!--" : Text), Scan.isStop c = false := by simp [Scan.isStop]
    have hclose : ∀ c ∈ ("-->" : Text), Scan.isStop c = false := by simp [Scan.isStop]
    exact ⟨fun hp => (htop ht).1 (prefix_of_prefix_append (hhead hopen) hp),
      fun hp => (htop ht).2 (prefix_of_prefix_append (hhead hclose) hp)⟩

theorem startsItem_of_append {top : Bool} {t k : Text} (ht : t ≠ []) (h : StartsItem top (t ++ k)) :
    StartsItem top t := by
  obtain ⟨c, t', he, hblank, hclose, hsemi, hat, hcomment, htop⟩ := h
  cases t with
  | nil => exact absurd rfl ht
  | cons d t =>
    rw [List.cons_append, List.cons.injEq] at he
    obtain ⟨rfl, rfl⟩ := he
    refine ⟨d, t, rfl, hblank, hclose, hsemi, hat, ?_, ?_⟩
    · rintro ⟨hd, ht⟩
      obtain ⟨u, rfl⟩ := List.head?_eq_some_iff.1 ht
      exact hcomment ⟨hd, rfl⟩
    · intro ht
      exact ⟨fun hp => (htop ht).1 (hp.trans (List.prefix_append _ k)),
        fun hp => (htop ht).2 (hp.trans (List.prefix_append _ k))⟩

theorem Layout.LegibleSelectors.ne_nil {layout : Layout} {depth : Nat} {selectors : List Text}
    (h : layout.LegibleSelectors depth selectors) : selectors ≠ [] := by
  rintro rfl
  obtain ⟨c, t, he, hc, _⟩ := h.starts
  cases layout <;> simp [header, Text.join, openGap] at he
  rw [← he.1] at hc
  cases hc

def EndsName (k : Text) : Prop := ∃ c t, k = c :: t ∧ Lexeme.isIdent c = false ∧ c ≠ '\\'

theorem spanName_swap {name k k' : Text} (hk : EndsName k) (hk' : EndsName k')
    (h : Text.spanName (name ++ k) = (name, k)) : Text.spanName (name ++ k') = (name, k') := by
  generalize hx : name ++ k = x at h
  fun_induction Text.spanName x generalizing name with
  | case1 =>
    obtain ⟨c, t, rfl, _⟩ := hk
    simp at hx
  | case2 c t n r hs ih =>
    rw [Prod.mk.injEq] at h
    obtain ⟨rfl, rfl⟩ := h
    rw [List.cons_append, List.cons_append, List.cons.injEq, List.cons.injEq] at hx
    rw [List.cons_append, List.cons_append, Text.spanName, ih hx.2.2 hs]
  | case3 c t hne hc n r hs ih =>
    rw [Prod.mk.injEq] at h
    obtain ⟨rfl, rfl⟩ := h
    rw [List.cons_append, List.cons.injEq] at hx
    have hpair : ∀ d u, c = '\\' → n ++ k' = d :: u → False := by
      rintro _ _ rfl _
      obtain ⟨d, u, rfl, _⟩ := hk
      cases n with
      | nil => exact hne _ _ rfl hx.2.symm
      | cons e n => exact hne _ _ rfl hx.2.symm
    rw [List.cons_append, Text.spanName, if_pos hc, ih hx.2 hs]
    exact hpair
  | case4 c t hne hc =>
    rw [Prod.mk.injEq] at h
    obtain ⟨rfl, rfl⟩ := h
    obtain ⟨d, u, rfl, hd, hb⟩ := hk'
    have hpair : ∀ e v, d = '\\' → u = e :: v → False := fun _ _ he => absurd he hb
    rw [List.nil_append, Text.spanName, if_neg (by simp [hd, hb])]
    exact hpair

theorem endsName_cons {c : Char} {t : Text} :
    EndsName (c :: t) ↔ Lexeme.isIdent c = false ∧ c ≠ '\\' := by
  constructor
  · rintro ⟨d, u, he, hd⟩
    cases he
    exact hd
  · intro hc
    exact ⟨c, t, rfl, hc⟩

theorem endsName_afterName {gap prelude k : Text} (hgap : gap = [] ∨ gap = [' '])
    (hk : Scan.AtStop k) : EndsName (Layout.afterName gap prelude ++ k) := by
  obtain ⟨c, t, rfl, hc⟩ := hk
  have hstop : EndsName (c :: t) := by
    rw [endsName_cons]
    rcases Scan.isStop_iff.1 hc with rfl | rfl | rfl <;> decide
  have hspace : ∀ t, EndsName (' ' :: t) := fun t => endsName_cons.2 (by decide)
  unfold Layout.afterName
  cases prelude with
  | cons p prelude => exact hspace _
  | nil =>
    rcases hgap with rfl | rfl
    · exact hstop
    · exact hspace _

theorem openGap_eq (layout : Layout) : layout.openGap = [] ∨ layout.openGap = [' '] := by
  cases layout
  · exact .inr rfl
  · exact .inl rfl

namespace Node

open Scan (AtStop atStop_cons whole_iff_toStop)

variable {layout : Layout} {depth : Nat}

theorem written_rule (selectors : List Text) (children : List (Node α)) (o : α) :
    written layout depth (rule selectors children o) = layout.header depth selectors ++
      '{' :: (writtenItems layout (depth + 1) false children ++
        layout.closeBrace depth children.isEmpty) := by
  simp [written, writtenItems, pieces, Piece.texts, Layout.header, Layout.openBrace_eq]

theorem written_group (name prelude : Text) (children : List (Node α)) (o : α) :
    written layout depth (group name prelude children o) =
      '@' :: (name ++ (Layout.afterName layout.openGap prelude ++
        '{' :: (writtenItems layout (depth + 1) false children ++
          layout.closeBrace depth children.isEmpty))) := by
  simp [written, writtenItems, pieces, Piece.texts, Layout.atHeader, Layout.afterName,
    Layout.openBrace_eq]

theorem written_statement (name prelude : Text) (o : α) :
    written layout depth (statement name prelude o) =
      '@' :: (name ++ (Layout.afterName [] prelude ++ [';'])) := by
  simp [written, pieces, Piece.texts, Layout.atHeader, Layout.afterName]

theorem written_declaration (property value : Text) (important : Bool) (o : α) :
    written layout depth (declaration property value important o) =
      layout.assignment property value important ++ layout.endMark := by
  simp [written, pieces, Piece.texts, Layout.declaration_eq]

theorem written_comment (text : Text) (o : α) :
    written layout depth (comment text o) = '/' :: '*' :: (text ++ ['*', '/']) := by
  simp [written, pieces, Piece.texts]

theorem writtenItems_cons (afterDeclaration : Bool) (n : Node α) (ns : List (Node α)) :
    writtenItems layout depth afterDeclaration (n :: ns) = layout.itemGap depth afterDeclaration ++
      (written layout depth n ++ writtenItems layout depth n.isDeclaration ns) := by
  simp [writtenItems, written, itemPieces, Piece.texts]

theorem writtenLater_cons (afterStatement : Bool) (n : Node α) (ns : List (Node α)) :
    writtenLater layout afterStatement (n :: ns) =
      layout.topGap (afterStatement && n.isStatement) ++
        (written layout 0 n ++ writtenLater layout n.isStatement ns) := by
  simp [writtenLater, written, laterPieces, Piece.texts]

theorem render_nil : Stylesheet.render layout ([] : List (Node α)) = layout.topEnd true := by
  simp [Stylesheet.render, sheetPieces, Piece.texts]

theorem render_cons (n : Node α) (ns : List (Node α)) :
    Stylesheet.render layout (n :: ns) =
      written layout 0 n ++ (writtenLater layout n.isStatement ns ++ layout.topEnd false) := by
  simp [Stylesheet.render, sheetPieces, Piece.texts, written, writtenLater]

def EndsItem (layout : Layout) (k : Text) : Prop :=
  layout = .compact → ∃ t, k = ';' :: t ∨ k = '}' :: t

theorem endMark_of_endsItem {k : Text} (hk : EndsItem layout k) :
    ∃ t, layout.endMark ++ k = ';' :: t ∨ layout.endMark ++ k = '}' :: t := by
  cases layout
  · exact ⟨k, .inl rfl⟩
  · exact hk rfl

theorem atStop_of_endsItem {k : Text} (hk : EndsItem layout k) : AtStop (layout.endMark ++ k) := by
  obtain ⟨t, ht | ht⟩ := endMark_of_endsItem hk <;> rw [ht] <;> exact atStop_cons.2 rfl

theorem endsItem_writtenItems {k : Text} {afterDeclaration : Bool} (ha : afterDeclaration = true)
    {ns : List (Node α)} (hk : EndsItem layout k) :
    EndsItem layout (writtenItems layout depth afterDeclaration ns ++ k) := by
  intro hl
  cases ns with
  | nil => exact hk hl
  | cons n ns =>
    rw [writtenItems_cons, hl, ha]
    exact ⟨_, .inl rfl⟩

/-- A text spells a node like `n` before whatever its rest `k` spells. -/
def SpellsLike (top : Bool) (t : Text) (n : Node α) (k : Text) : Prop :=
  ∀ ms rest, Spells top false k ms rest →
    ∃ m, Spells top false (t ++ k) (m :: ms) rest ∧ bare [m] = bare [n]

def SpellsAllLike (top : Bool) (t : Text) (ns : List (Node α)) (k : Text) : Prop :=
  ∀ ms rest, Spells top false k ms rest →
    ∃ ns', Spells top false (t ++ k) (ns' ++ ms) rest ∧ bare ns' = bare ns

theorem spellsAllLike_nil {top : Bool} {g k : Text} (hg : Slack g) :
    SpellsAllLike top g ([] : List (Node α)) k :=
  fun _ _ hms => ⟨[], spells_of_slack hg hms, rfl⟩

theorem spellsAllLike_cons {top : Bool} {g t u k : Text} {n : Node α} {ns : List (Node α)}
    (hg : Slack g) (hn : SpellsLike top t n (u ++ k)) (hns : SpellsAllLike top u ns k) :
    SpellsAllLike top (g ++ (t ++ u)) (n :: ns) k := by
  intro ms rest hms
  obtain ⟨ns', hs', hb'⟩ := hns ms rest hms
  obtain ⟨m, hs, hb⟩ := hn (ns' ++ ms) rest hs'
  refine ⟨m :: ns', ?_, ?_⟩
  · rw [List.append_assoc, List.append_assoc]
    exact spells_of_slack hg hs
  · rw [bare_cons, bare_cons, hb']
    exact congrArg (· ++ bare ns) hb

theorem reads_atHeader {gap name prelude k : Text} (h : Layout.LegibleAtRule gap name prelude)
    (hgap : gap = [] ∨ gap = [' ']) (hk : AtStop k) :
    Text.spanName (name ++ (Layout.afterName gap prelude ++ k)) =
        (name, Layout.afterName gap prelude ++ k) ∧
      Scan.toStop ⟨false, []⟩ (Layout.afterName gap prelude ++ k) = .ok k :=
  ⟨spanName_swap (endsName_cons.2 (by decide)) (endsName_afterName hgap hk) h.spanName,
    (whole_iff_toStop hk).1 h.whole⟩

theorem spellsLike_statement {name prelude : Text} (o : α) (k : Text)
    (h : Layout.LegibleAtRule [] name prelude) :
    SpellsLike (depth == 0) (written layout depth (statement name prelude o))
      (statement name prelude o) k := by
  intro ms rest hms
  obtain ⟨hname, hstop⟩ := reads_atHeader (k := ';' :: k) h (.inl rfl) (atStop_cons.2 rfl)
  have hs := Spells.statement (a := false) hname h.name_ne_nil hstop (by simp)
    (.skip (.semicolon _ _) hms)
  rw [Text.before_append, h.lowerAscii, h.reads] at hs
  have ht : written layout depth (statement name prelude o) ++ k =
      '@' :: (name ++ (Layout.afterName [] prelude ++ ';' :: k)) := by
    simp [written_statement]
  rw [ht]
  exact ⟨_, hs, rfl⟩

/-- What stands after the brace that opens a block is read as the block. -/
theorem spells_block {children : List (Node α)}
    (hc : ∀ k, EndsItem layout k →
      SpellsAllLike false (writtenItems layout (depth + 1) false children) children k) (k : Text) :
    ∃ cs, Spells false false (writtenItems layout (depth + 1) false children ++
        (layout.closeBrace depth children.isEmpty ++ k)) cs ('}' :: k) ∧ bare cs = bare children := by
  obtain ⟨gap, hgap, hclose, hcompact⟩ := closeBrace_eq layout depth children.isEmpty
  rw [hclose, List.append_assoc]
  have hends : EndsItem layout (gap ++ (['}'] ++ k)) := by
    intro hl
    rw [hcompact hl]
    exact ⟨k, .inr rfl⟩
  obtain ⟨cs, hcs, hb⟩ := hc _ hends [] ('}' :: k) (spells_of_slack hgap .endOfBlock)
  rw [List.append_nil] at hcs
  exact ⟨cs, hcs, hb⟩

theorem spellsLike_group {name prelude : Text} {children : List (Node α)} (o : α) (k : Text)
    (h : Layout.LegibleAtRule layout.openGap name prelude)
    (hc : ∀ k, EndsItem layout k →
      SpellsAllLike false (writtenItems layout (depth + 1) false children) children k) :
    SpellsLike (depth == 0) (written layout depth (group name prelude children o))
      (group name prelude children o) k := by
  intro ms rest hms
  obtain ⟨cs, hcs, hb⟩ := spells_block hc k
  obtain ⟨hname, hstop⟩ := reads_atHeader
    (k := '{' :: (writtenItems layout (depth + 1) false children ++
      (layout.closeBrace depth children.isEmpty ++ k))) h (openGap_eq layout) (atStop_cons.2 rfl)
  have hs := Spells.group (a := false) hname h.name_ne_nil hstop hcs hms
  rw [Text.before_append, h.lowerAscii, h.reads] at hs
  have ht : written layout depth (group name prelude children o) ++ k =
      '@' :: (name ++ (Layout.afterName layout.openGap prelude ++
        '{' :: (writtenItems layout (depth + 1) false children ++
          (layout.closeBrace depth children.isEmpty ++ k)))) := by
    simp [written_group]
  rw [ht]
  exact ⟨_, hs, bare_group_eq _ o hb⟩

theorem spellsLike_rule {selectors : List Text} {children : List (Node α)} (o : α) (k : Text)
    (h : layout.LegibleSelectors depth selectors)
    (hc : ∀ k, EndsItem layout k →
      SpellsAllLike false (writtenItems layout (depth + 1) false children) children k) :
    SpellsLike (depth == 0) (written layout depth (rule selectors children o))
      (rule selectors children o) k := by
  intro ms rest hms
  obtain ⟨cs, hcs, hb⟩ := spells_block hc k
  have hk : AtStop ('{' :: (writtenItems layout (depth + 1) false children ++
      (layout.closeBrace depth children.isEmpty ++ k))) := atStop_cons.2 rfl
  have hs := Spells.rule (startsItem_append hk h.starts) ((whole_iff_toStop hk).1 h.whole)
    (by rw [Text.before_append, h.reads]; exact h.ne_nil) hcs hms
  rw [Text.before_append, h.reads] at hs
  have ht : written layout depth (rule selectors children o) ++ k =
      layout.header depth selectors ++ '{' :: (writtenItems layout (depth + 1) false children ++
        (layout.closeBrace depth children.isEmpty ++ k)) := by
    simp [written_rule]
  rw [ht]
  exact ⟨_, hs, bare_rule_eq _ o hb⟩

theorem spellsLike_declaration {property value : Text} {important : Bool} (o : α) {k : Text}
    (h : layout.LegibleDeclaration property value important) (hk : EndsItem layout k) :
    SpellsLike false (written layout depth (declaration property value important o))
      (declaration property value important o) k := by
  intro ms rest hms
  obtain ⟨t, ht⟩ := endMark_of_endsItem hk
  have hstop := atStop_of_endsItem hk
  have hopen : (layout.endMark ++ k).head? ≠ some '{' := by
    rcases ht with ht | ht <;> rw [ht] <;> simp
  have hs := Spells.declaration (startsItem_append hstop h.starts)
    ((whole_iff_toStop hstop).1 h.whole) hopen (by rw [Text.before_append]; exact h.reads _)
    (spells_of_slack (slack_endMark layout) hms)
  rw [written_declaration, List.append_assoc]
  exact ⟨_, hs, rfl⟩

theorem spellsLike_comment {top : Bool} {text : Text} (o : α) (k : Text)
    (h : ¬ ['*', '/'] <:+: text) :
    SpellsLike top (written layout depth (comment text o)) (comment text o) k := by
  intro ms rest hms
  have hs := Spells.comment (a := false) (Lexeme.spanComment_of_not_infix h k) hms
  have ht : written layout depth (comment text o) ++ k =
      '/' :: '*' :: (text ++ '*' :: '/' :: k) := by
    simp [written_comment]
  rw [ht]
  exact ⟨_, hs, rfl⟩

mutual

theorem spellsLike_of_legible {depth : Nat} {n : Node α} (h : Legible layout depth n) {k : Text}
    (hk : n.isDeclaration → EndsItem layout k) :
    SpellsLike (depth == 0) (written layout depth n) n k := by
  cases n with
  | rule selectors children o =>
    rw [Legible] at h
    exact spellsLike_rule o k h.1 fun _ => spellsAllLike_of_allLegible h.2
  | group name prelude children o =>
    rw [Legible] at h
    exact spellsLike_group o k h.1 fun _ => spellsAllLike_of_allLegible h.2
  | statement name prelude o =>
    rw [Legible] at h
    exact spellsLike_statement o k h
  | declaration property value important o =>
    rw [Legible] at h
    rw [beq_false_of_ne h.1]
    exact spellsLike_declaration o h.2 (hk rfl)
  | comment text o =>
    rw [Legible] at h
    exact spellsLike_comment o k h

theorem spellsAllLike_of_allLegible {depth : Nat} {ns : List (Node α)}
    (h : AllLegible layout (depth + 1) ns) {afterDeclaration : Bool} {k : Text}
    (hk : EndsItem layout k) :
    SpellsAllLike false (writtenItems layout (depth + 1) afterDeclaration ns) ns k := by
  cases ns with
  | nil => exact spellsAllLike_nil slack_nil
  | cons n ns =>
    rw [AllLegible] at h
    rw [writtenItems_cons]
    exact spellsAllLike_cons (slack_itemGap _ _ _)
      (spellsLike_of_legible h.1 fun hn => endsItem_writtenItems hn hk)
      (spellsAllLike_of_allLegible h.2 hk)

end

theorem isDeclaration_of_legible_zero {n : Node α} (h : Legible layout 0 n) :
    ¬ n.isDeclaration = true := by
  cases n with
  | declaration =>
    rw [Legible] at h
    exact absurd rfl h.1
  | _ => exact Bool.false_ne_true

theorem spellsAllLike_later {afterStatement : Bool} {ns : List (Node α)}
    (h : AllLegible layout 0 ns) (k : Text) :
    SpellsAllLike true (writtenLater layout afterStatement ns) ns k := by
  induction ns generalizing afterStatement with
  | nil => exact spellsAllLike_nil slack_nil
  | cons n ns ih =>
    rw [AllLegible] at h
    rw [writtenLater_cons]
    exact spellsAllLike_cons (slack_topGap _ _)
      (spellsLike_of_legible h.1 fun hn => absurd hn (isDeclaration_of_legible_zero h.1)) (ih h.2)

end Node

namespace Stylesheet

open Node

/-- A legible sheet that is written and read is the same but for where its nodes come from. -/
theorem nodes_render {layout : Layout} {ns : List (Node α)} (h : AllLegible layout 0 ns) :
    ∃ ms, nodes (render layout ns) = .ok ms ∧ bare ms = bare ns := by
  have hend : ∀ childless, Spells true false (layout.topEnd childless) [] [] := by
    intro childless
    have hs := spells_of_slack (slack_topEnd layout childless) (.endOfText (a := false))
    rwa [List.append_nil] at hs
  cases ns with
  | nil =>
    refine ⟨[], ?_, rfl⟩
    rw [nodes_eq_ok_iff, render_nil]
    exact hend true
  | cons n ns =>
    rw [AllLegible] at h
    have hn : SpellsLike true (written layout 0 n) n
        (writtenLater layout n.isStatement ns ++ layout.topEnd false) :=
      spellsLike_of_legible h.1 fun hn => absurd hn (isDeclaration_of_legible_zero h.1)
    obtain ⟨ms, hs, hb⟩ := spellsAllLike_cons slack_nil hn (spellsAllLike_later h.2 _) _ _ (hend false)
    refine ⟨ms, ?_, hb⟩
    rw [nodes_eq_ok_iff, render_cons]
    simpa using hs

end Stylesheet

end Stylesmith
