import Stylesmith.Proofs.Stylesheet.Mass

/-!
# What is read again is legible

If a sheet is read again from what was written of it, then what is read has the mass of what was
written. So no ink is lost in between, each item is read from where it was written, and each is
legible.
-/

set_option autoImplicit false

namespace Stylesmith

open Scan (AtStop atStop_cons isStop whole_iff_toStop)

variable {α : Type} {layout : Layout}

inductive ReadsItem : Bool → Bool → Text → Node Text → Text → Prop
  | comment {top a : Bool} {t body after : Text} : Lexeme.spanComment t = (body, some after) →
      ReadsItem top a ('/' :: '*' :: t) (.comment body ('/' :: '*' :: t)) after
  | statement {top a : Bool} {t name raw stop : Text} : Text.spanName t = (name, raw ++ stop) →
      name ≠ [] → Scan.toStop ⟨false, []⟩ (raw ++ stop) = .ok stop →
      ReadsItem top a ('@' :: t)
        (.statement (Text.lowerAscii name) (Text.collapseSpaced raw) ('@' :: t)) stop
  | group {top a : Bool} {t name raw body after : Text} {children : List (Node Text)} :
      Text.spanName t = (name, raw ++ '{' :: body) → name ≠ [] →
      Scan.toStop ⟨false, []⟩ (raw ++ '{' :: body) = .ok ('{' :: body) →
      Spells false false body children ('}' :: after) →
      ReadsItem top a ('@' :: t)
        (.group (Text.lowerAscii name) (Text.collapseSpaced raw) children ('@' :: t)) after
  | rule {top a : Bool} {raw body after : Text} {children : List (Node Text)} :
      StartsItem top (raw ++ '{' :: body) →
      Scan.toStop ⟨a, []⟩ (raw ++ '{' :: body) = .ok ('{' :: body) → Reader.selectors raw ≠ [] →
      Spells false false body children ('}' :: after) →
      ReadsItem top a (raw ++ '{' :: body)
        (.rule (Reader.selectors raw) children (raw ++ '{' :: body)) after
  | declaration {a : Bool} {raw stop property value : Text} {important : Bool} :
      StartsItem false (raw ++ stop) → Scan.toStop ⟨a, []⟩ (raw ++ stop) = .ok stop →
      Reader.declaration (raw ++ stop) raw =
        .ok (.declaration property value important (raw ++ stop)) →
      ReadsItem false a (raw ++ stop) (.declaration property value important (raw ++ stop)) stop

theorem readsItem_of_spells {top a : Bool} {t rest : Text} {m : Node Text} {ms : List (Node Text)}
    (h : Spells top a t (m :: ms) rest) :
    ∃ skipped a' start after, t = skipped ++ start ∧ ReadsItem top a' start m after ∧
      Spells top false after ms rest ∧ (Slack skipped → a = false → a' = false) := by
  generalize hl : m :: ms = l at h
  induction h with
  | endOfText => cases hl
  | endOfBlock => cases hl
  | @skip _ a a₁ t t' _ _ hs _ ih =>
    obtain ⟨skipped, a', start, after, rfl, hitem, hafter, ha⟩ := ih hl
    cases hs with
    | @blank c _ _ hc =>
      refine ⟨c :: skipped, a', start, after, rfl, hitem, hafter, ?_⟩
      exact fun hslack _ => ha (slack_cons.1 hslack).2 rfl
    | semicolon =>
      refine ⟨';' :: skipped, a', start, after, rfl, hitem, hafter, ?_⟩
      exact fun hslack _ => ha (slack_cons.1 hslack).2 rfl
    | openMark =>
      refine ⟨('<' :: '!' :: '-' :: '-' :: skipped), a', start, after, rfl, hitem, hafter, ?_⟩
      exact fun hslack _ => absurd (slack_cons.1 hslack).1 (by decide)
    | closeMark =>
      refine ⟨('-' :: '-' :: '>' :: skipped), a', start, after, rfl, hitem, hafter, ?_⟩
      exact fun hslack _ => absurd (slack_cons.1 hslack).1 (by decide)
  | comment hs hrest =>
    cases hl
    exact ⟨[], _, _, _, rfl, .comment hs, hrest, fun _ => id⟩
  | statement hname hne hstop _ hrest =>
    cases hl
    obtain ⟨raw, rfl⟩ := Scan.suffix_of_toStop hstop
    rw [Text.before_append]
    exact ⟨[], _, _, _, rfl, .statement hname hne hstop, hrest, fun _ => id⟩
  | group hname hne hstop hc hrest =>
    cases hl
    obtain ⟨raw, rfl⟩ := Scan.suffix_of_toStop hstop
    rw [Text.before_append]
    exact ⟨[], _, _, _, rfl, .group hname hne hstop hc, hrest, fun _ => id⟩
  | rule hs hstop hsel hc hrest =>
    cases hl
    obtain ⟨raw, rfl⟩ := Scan.suffix_of_toStop hstop
    rw [Text.before_append] at hsel ⊢
    exact ⟨[], _, _, _, rfl, .rule hs hstop hsel hc, hrest, fun _ => id⟩
  | declaration hs hstop _ hn hrest =>
    cases hl
    obtain ⟨raw, rfl⟩ := Scan.suffix_of_toStop hstop
    rw [Text.before_append] at hn
    obtain ⟨_, _, _, _, _, _, _, _, _, _, rfl⟩ := Reader.declaration_eq_ok_iff.1 hn
    exact ⟨[], _, _, _, rfl, .declaration hs hstop hn, hrest, fun _ => id⟩

/-- Two ways to cut a text before a stop agree if they cut off the same ink. -/
theorem cut_unique {raw stop x k : Text} (h : raw ++ stop = x ++ k) (hink : ink raw = ink x)
    (hstop : ∀ c u, stop = c :: u → isStop c = true) (hk : AtStop k) : raw = x ∧ stop = k := by
  have hblank : ∀ {c : Char} {y : Text}, isStop c = true → ink (c :: y) ≠ [] := by
    intro c y hc hy
    have hb := ink_eq_nil_iff.1 hy c List.mem_cons_self
    rcases Scan.isStop_iff.1 hc with rfl | rfl | rfl <;> cases hb
  have hnil : ∀ {t y : Text}, ink (t ++ y) = ink t → ink y = [] := by
    intro t y hy
    rw [ink_append] at hy
    exact List.append_right_eq_self.1 hy
  rcases List.append_eq_append_iff.1 h with ⟨y, rfl, rfl⟩ | ⟨y, rfl, rfl⟩
  · cases y with
    | nil => exact ⟨(List.append_nil _).symm, rfl⟩
    | cons c y => exact absurd (hnil hink.symm) (hblank (hstop c _ rfl))
  · cases y with
    | nil => exact ⟨List.append_nil _, rfl⟩
    | cons c y => exact absurd (hnil hink) (hblank (atStop_cons.1 hk))

/-- Whether a text starts with a character that may not stand between items. -/
def Solid (t : Text) : Prop := ∃ c u, t = c :: u ∧ Text.isBlank c = false ∧ c ≠ ';'

theorem slack_unique {g g' t t' : Text} (h : g ++ t = g' ++ t') (hg : Slack g) (hg' : Slack g')
    (ht : Solid t) (ht' : Solid t') : g = g' ∧ t = t' := by
  have hnil : ∀ {y u : Text}, Slack y → Solid (y ++ u) → y = [] := by
    rintro y u hy ⟨c, v, hc, hblank, hsemi⟩
    cases y with
    | nil => rfl
    | cons d y =>
      cases hc
      rcases (slack_cons.1 hy).1 with hb | hb
      · rw [hb] at hblank
        cases hblank
      · exact absurd hb hsemi
  rcases List.append_eq_append_iff.1 h with ⟨y, rfl, rfl⟩ | ⟨y, rfl, rfl⟩
  · obtain rfl := hnil (fun c hc => hg' c (List.mem_append_right _ hc)) ht
    exact ⟨(List.append_nil _).symm, rfl⟩
  · obtain rfl := hnil (fun c hc => hg c (List.mem_append_right _ hc)) ht'
    exact ⟨List.append_nil _, rfl⟩

theorem solid_of_startsItem {top : Bool} {t : Text} (h : StartsItem top t) : Solid t := by
  obtain ⟨c, u, rfl, hblank, _, hsemi, _⟩ := h
  exact ⟨c, u, rfl, hblank, hsemi⟩

/-- A text is solid if it has the ink of one that is and no blank at its start. -/
theorem solid_of_ink {t t' u : Text} (ht : Solid (t ++ t')) (hne : t ≠ []) (h : ink t = ink u)
    (hu : ∀ d v, u = d :: v → Text.isBlank d = false) (k : Text) : Solid (u ++ k) := by
  obtain ⟨c, t, rfl⟩ := List.exists_cons_of_ne_nil hne
  obtain ⟨_, _, he, hblank, hsemi⟩ := ht
  cases he
  rw [ink_cons, ink_singleton, if_neg (by simp [hblank])] at h
  cases u with
  | nil => cases h
  | cons d v =>
    have hd := hu d v rfl
    refine ⟨d, v ++ k, rfl, hd, ?_⟩
    rintro rfl
    rw [ink_cons ';', ink_singleton, if_neg (by simp [hd]), List.singleton_append,
      List.singleton_append, List.cons.injEq] at h
    exact hsemi (Text.eq_of_toLower_eq h.1 rfl)

theorem first_of_isWide {c : Char} (t : Text) (hc : Text.isWide c = true) :
    Lexeme.first c t = (.plain c, t) := by
  refine Lexeme.first_eq_of_starts (.plain ?_ ?_ ?_)
  · rw [← Bool.not_eq_true]
    intro hq
    rcases Lexeme.isQuote_iff.1 hq with rfl | rfl <;> cases hc
  · rintro rfl
    cases hc
  · rintro rfl
    cases hc

theorem head_first_text {c : Char} {t : Text} : (Lexeme.first c t).1.text.head? = some c := by
  have htext := Lexeme.first_text c t
  cases hl : (Lexeme.first c t).1.text with
  | nil => exact absurd hl (Lexeme.text_ne_nil _)
  | cons d u =>
    rw [hl] at htext
    rw [List.head?_cons, (List.cons.inj htext).1]

theorem head_collapse {spaced gap : Bool} {t : Text} {d : Char} {v : Text}
    (h : Lexeme.collapse spaced false gap (Lexeme.ofText t) = d :: v) : Text.isBlank d = false := by
  fun_induction Lexeme.ofText t generalizing gap with
  | case1 => cases h
  | case2 c t ih =>
    have hhead := head_first_text (c := c) (t := t)
    have hblank : Text.isBlank c = true → Lexeme.first c t = (.plain c, t) :=
      fun hc => first_of_isWide t (Text.isWide_of_isBlank hc)
    cases hl : (Lexeme.first c t).1 with
    | comment body closed =>
      rw [hl] at h
      exact ih h
    | plain c' =>
      rw [hl, Lexeme.collapse] at h
      by_cases hc : Text.isBlank c' = true
      · rw [if_pos hc] at h
        exact ih h
      · rw [if_neg hc] at h
        cases h
        simpa using hc
    | _ =>
      rw [hl] at h hhead
      have hd : c = d := by
        have hh := congrArg List.head? h
        rw [Lexeme.collapse, Bool.false_and, if_neg Bool.false_ne_true, List.nil_append,
          List.head?_append, hhead] at hh
        · simpa using hh
        all_goals simp
      rw [← hd, ← Bool.not_eq_true]
      intro hc
      rw [hblank hc] at hl
      cases hl

theorem head_trim {t v : Text} {d : Char} (h : Text.trim t = d :: v) : Text.isBlank d = false := by
  have hwide := (Text.not_wide_trim t).1 d (by rw [h]; rfl)
  rw [← Bool.not_eq_true]
  intro hd
  rw [Text.isWide_of_isBlank hd] at hwide
  cases hwide

theorem ne_nil_of_mem_selectors {raw sel : Text} (h : sel ∈ Reader.selectors raw) :
    ∃ part, sel = Text.trim part ∧ sel ≠ [] := by
  rw [Reader.selectors, List.mem_filter, Text.splitTop, List.mem_map] at h
  obtain ⟨⟨part, _, rfl⟩, hne⟩ := h
  exact ⟨part, rfl, by simpa using hne⟩

theorem selectors_nil : Reader.selectors [] = [] := by
  simp [Reader.selectors, Text.splitTop, Text.collapse, Lexeme.ofText, Lexeme.collapse,
    Lexeme.split, Text.trim, Text.trimWhile, Text.trimEndWhile]

theorem head_header {raw : Text} (hne : Reader.selectors raw ≠ []) {depth : Nat} {d : Char}
    {v : Text} (h : layout.header depth (Reader.selectors raw) = d :: v) :
    Text.isBlank d = false := by
  cases hsel : Reader.selectors raw with
  | nil => exact absurd hsel hne
  | cons sel sels =>
    obtain ⟨part, hpart, hsel'⟩ := ne_nil_of_mem_selectors (hsel ▸ List.mem_cons_self : sel ∈ _)
    rw [hsel] at h
    cases sel with
    | nil => exact absurd rfl hsel'
    | cons c sel =>
      have hcd : c = d := by
        cases sels <;> exact (List.cons.inj h).1
      rw [← hcd]
      exact head_trim hpart.symm

/-- The parts of an at-rule are legible if its text is read as them without loss. -/
theorem legibleAtRule_of_reads {gap t name raw stop k : Text} (hgap : gap = [] ∨ gap = [' '])
    (hk : AtStop k) (hname : Text.spanName t = (name, raw ++ stop)) (hne : name ≠ [])
    (hstop : Scan.toStop ⟨false, []⟩ (raw ++ stop) = .ok stop)
    (hmass : mass raw ≤ mass (Text.collapseSpaced raw))
    (ht : t = Text.lowerAscii name ++ (Layout.afterName gap (Text.collapseSpaced raw) ++ k)) :
    Layout.LegibleAtRule gap (Text.lowerAscii name) (Text.collapseSpaced raw) ∧ stop = k := by
  have hsplit := spanName_append hname
  rw [ht] at hsplit
  have hlen : (Text.lowerAscii name).length = name.length := List.length_map _
  obtain ⟨hlower, hrest⟩ := List.append_inj hsplit hlen
  have hink : ink raw = ink (Layout.afterName gap (Text.collapseSpaced raw)) := by
    rw [ink_afterName hgap, (Text.reduces_collapseSpaced raw).ink_eq hmass]
  have hisStop : ∀ c u, stop = c :: u → isStop c = true := by
    rintro c u rfl
    exact Scan.isStop_of_toStop hstop
  obtain ⟨hraw, rfl⟩ := cut_unique hrest.symm hink hisStop hk
  rw [ht, ← hraw, hlower] at hname
  refine ⟨⟨?_, ?_, ?_, ?_, ?_⟩, rfl⟩
  · rwa [hlower]
  · rw [hlower]
    exact spanName_swap (hraw ▸ endsName_afterName hgap hk) (endsName_cons.2 (by decide)) hname
  · rw [hlower, hlower]
  · rw [← hraw]
    exact (whole_iff_toStop hk).2 hstop
  · rw [← hraw]

namespace Node

theorem slack_append {g g' : Text} (hg : Slack g) (hg' : Slack g') : Slack (g ++ g') := by
  intro c hc
  rcases List.mem_append.1 hc with hc | hc
  · exact hg c hc
  · exact hg' c hc

theorem spells_nil_of_slack {g k rest : Text} (hg : Slack g)
    (h : Spells false false (g ++ '}' :: k) [] rest) : rest = '}' :: k := by
  induction g with
  | nil =>
    cases h with
    | endOfBlock => rfl
    | skip hs =>
      cases hs with
      | blank _ _ hc => cases hc
  | cons c g ih =>
    obtain ⟨hc, hg'⟩ := slack_cons.1 hg
    have hrest := ih hg'
    rw [List.cons_append] at h
    generalize g ++ '}' :: k = t at h hrest
    cases h with
    | endOfBlock => exact absurd hc (by decide)
    | skip hs hs' =>
      cases hs with
      | blank => exact hrest hs'
      | semicolon => exact hrest hs'
      | openMark _ _ htop => cases htop
      | closeMark _ _ htop => cases htop

/-- What has to be shown of the items of a block so that the block is read from where it was
written. -/
def Rereads (layout : Layout) (depth : Nat) (children : List (Node α)) : Prop :=
  ∀ {g tail rest : Text} {ms : List (Node Text)} {afterDeclaration : Bool}, Slack g →
    Spells false false (g ++ (writtenItems layout depth afterDeclaration children ++ tail)) ms rest →
    bare ms = bare children → Stylesmith.mass tail ≤ Stylesmith.mass rest → EndsItem layout tail →
    AllLegible layout depth children ∧ ∃ g', Slack g' ∧ Spells false false (g' ++ tail) [] rest

theorem legible_block {depth : Nat} {children : List (Node α)} {cs : List (Node Text)}
    {after later : Text} (hc : Rereads layout (depth + 1) children)
    (hs : Spells false false (writtenItems layout (depth + 1) false children ++
      (layout.closeBrace depth children.isEmpty ++ later)) cs ('}' :: after))
    (hb : bare cs = bare children) (hmass : Stylesmith.mass later ≤ Stylesmith.mass after) :
    AllLegible layout (depth + 1) children ∧ after = later := by
  obtain ⟨gap, hgap, hclose, hcompact⟩ := closeBrace_eq layout depth children.isEmpty
  rw [hclose, List.append_assoc] at hs
  have hends : EndsItem layout (gap ++ (['}'] ++ later)) := by
    intro hl
    rw [hcompact hl]
    exact ⟨later, .inr rfl⟩
  have htail : Stylesmith.mass (gap ++ (['}'] ++ later)) ≤ Stylesmith.mass ('}' :: after) := by
    rw [mass_append, mass_append, mass_cons '}' after, slack_iff_mass.1 hgap]
    omega
  obtain ⟨hl, g', hg', hs'⟩ := hc slack_nil hs hb htail hends
  rw [← List.append_assoc] at hs'
  exact ⟨hl, (List.cons.inj (spells_nil_of_slack (slack_append hg' hgap) hs')).2⟩

def RereadsItem (layout : Layout) (depth : Nat) (n : Node α) : Prop :=
  ∀ {skipped g start later after : Text} {m : Node Text} {a : Bool}, Slack g →
    skipped ++ start = g ++ (written layout depth n ++ later) →
    ReadsItem (depth == 0) a start m after → (Slack skipped → a = false) → bare [m] = bare [n] →
    Stylesmith.mass later ≤ Stylesmith.mass after → (n.isDeclaration → EndsItem layout later) →
    Legible layout depth n ∧ ∃ g', Slack g' ∧ after = g' ++ later

variable {depth : Nat}

theorem mass_cut {skipped start g later : Text} {n : Node α} (hg : Slack g)
    (ht : skipped ++ start = g ++ (written layout depth n ++ later)) :
    Stylesmith.mass skipped + Stylesmith.mass start = n.mass + Stylesmith.mass later := by
  have hm := congrArg Stylesmith.mass ht
  rwa [mass_append, mass_append, mass_append, mass_written, slack_iff_mass.1 hg, Nat.zero_add] at hm

theorem rereadsItem_comment (text : Text) (o : α) : RereadsItem layout depth (comment text o) := by
  intro skipped g start later after m a hg ht hitem _ hb hmass _
  have hm := mass_cut hg ht
  generalize (depth == 0) = top at hitem
  cases hitem with
  | @comment _ _ t body _ hs =>
    obtain rfl : body = text := by
      simpa [bare, mapOrigins, mapOrigin] using hb
    obtain ⟨hbody, rfl⟩ := Lexeme.spanComment_eq_some_iff.1 hs
    rw [mass_comment, mass] at hm
    have hskipped : Slack skipped := slack_iff_mass.2 (by omega)
    rw [written_comment] at ht
    obtain ⟨-, ht⟩ := slack_unique ht hskipped hg ⟨_, _, rfl, rfl, by decide⟩ ⟨_, _, rfl, rfl, by decide⟩
    rw [Legible]
    refine ⟨hbody, [], slack_nil, ?_⟩
    simpa using ht
  | _ => cases hb

theorem rereadsItem_statement (name prelude : Text) (o : α) :
    RereadsItem layout depth (statement name prelude o) := by
  intro skipped g start later after m a hg ht hitem _ hb hmass _
  have hm := mass_cut hg ht
  generalize (depth == 0) = top at hitem
  cases hitem with
  | @statement _ _ t name' raw _ hname hne hstop =>
    obtain ⟨rfl, rfl⟩ : Text.lowerAscii name' = name ∧ Text.collapseSpaced raw = prelude := by
      simpa [bare, mapOrigins, mapOrigin] using hb
    have hraw := (Text.reduces_collapseSpaced raw).mass_le
    have hat : Stylesmith.mass ['@'] = 1 := rfl
    rw [mass_cons, spanName_append hname, mass_append, mass_append, mass, mass_lowerAscii] at hm
    have hskipped : Slack skipped := slack_iff_mass.2 (by omega)
    rw [written_statement] at ht
    obtain ⟨-, ht⟩ := slack_unique ht hskipped hg ⟨_, _, rfl, rfl, by decide⟩ ⟨_, _, rfl, rfl, by decide⟩
    obtain ⟨hl, rfl⟩ := legibleAtRule_of_reads (.inl rfl) (k := ';' :: later) (atStop_cons.2 rfl)
      hname hne hstop (by omega) (by simpa using ht)
    rw [Legible]
    exact ⟨hl, [';'], by simp [Slack], rfl⟩
  | _ => cases hb

theorem rereadsItem_group (name prelude : Text) {children : List (Node α)} (o : α)
    (hc : Rereads layout (depth + 1) children) :
    RereadsItem layout depth (group name prelude children o) := by
  intro skipped g start later after m a hg ht hitem _ hb hmass _
  have hm := mass_cut hg ht
  generalize (depth == 0) = top at hitem
  cases hitem with
  | @group _ _ t name' raw body _ cs hname hne hstop hs =>
    obtain ⟨rfl, rfl, hcs⟩ : Text.lowerAscii name' = name ∧ Text.collapseSpaced raw = prelude ∧
        bare cs = bare children := by
      simpa [bare, mapOrigins, mapOrigin] using hb
    have hraw := (Text.reduces_collapseSpaced raw).mass_le
    have hle := mass_le_of_spells hs
    have hat : Stylesmith.mass ['@'] = 1 := rfl
    have hopen : Stylesmith.mass ['{'] = 1 := rfl
    have hclose : Stylesmith.mass ['}'] = 1 := rfl
    rw [mass_cons, masses_eq_of_bare hcs] at hle
    rw [mass_cons, spanName_append hname, mass_append, mass_append, mass_cons '{', mass,
      mass_lowerAscii] at hm
    have hskipped : Slack skipped := slack_iff_mass.2 (by omega)
    rw [written_group] at ht
    obtain ⟨-, ht⟩ := slack_unique ht hskipped hg ⟨_, _, rfl, rfl, by decide⟩ ⟨_, _, rfl, rfl, by decide⟩
    obtain ⟨hl, hbody⟩ := legibleAtRule_of_reads (openGap_eq layout)
      (k := '{' :: (writtenItems layout (depth + 1) false children ++
        (layout.closeBrace depth children.isEmpty ++ later))) (atStop_cons.2 rfl)
      hname hne hstop (by omega) (by simpa using ht)
    rw [(List.cons.inj hbody).2] at hs
    obtain ⟨hall, rfl⟩ := legible_block hc hs hcs hmass
    rw [Legible]
    exact ⟨⟨hl, hall⟩, [], slack_nil, rfl⟩
  | _ => cases hb

theorem rereadsItem_rule (selectors : List Text) {children : List (Node α)} (o : α)
    (hc : Rereads layout (depth + 1) children) :
    RereadsItem layout depth (rule selectors children o) := by
  intro skipped g start later after m a hg ht hitem ha hb hmass _
  have hm := mass_cut hg ht
  generalize htop : (depth == 0) = top at hitem
  cases hitem with
  | @rule _ _ raw body _ cs hstart hstop hsel hs =>
    obtain ⟨rfl, hcs⟩ : Reader.selectors raw = selectors ∧ bare cs = bare children := by
      simpa [bare, mapOrigins, mapOrigin] using hb
    have hle := mass_le_of_spells hs
    have hraw := (Text.reduces_selectors raw).mass_le
    have hopen : Stylesmith.mass ['{'] = 1 := rfl
    have hclose : Stylesmith.mass ['}'] = 1 := rfl
    rw [mass_cons, masses_eq_of_bare hcs] at hle
    rw [mass_append, mass_cons '{', mass] at hm
    have hskipped : Slack skipped := slack_iff_mass.2 (by omega)
    have hink : ink raw = ink (layout.header depth (Reader.selectors raw)) := by
      rw [ink_header, (Text.reduces_selectors raw).ink_eq (by omega)]
    have hsolid := solid_of_startsItem hstart
    rw [written_rule, List.append_assoc] at ht
    have hne : raw ≠ [] := by
      rintro rfl
      exact hsel selectors_nil
    have hsolid' := solid_of_ink hsolid hne hink (fun _ _ => head_header hsel)
    obtain ⟨-, ht⟩ := slack_unique ht hskipped hg hsolid (hsolid' _)
    obtain ⟨hheader, hbody⟩ := cut_unique ht hink (fun c u he => (List.cons.inj he).1 ▸ rfl)
      (atStop_cons.2 rfl)
    rw [ha hskipped] at hstop
    have hs' := hs
    rw [(List.cons.inj hbody).2] at hs'
    rw [hheader] at hstart hstop hne
    obtain ⟨hall, rfl⟩ := legible_block hc (by simpa using hs') hcs hmass
    subst htop
    rw [Legible]
    refine ⟨⟨⟨startsItem_of_append hne hstart, (whole_iff_toStop (atStop_cons.2 rfl)).2 hstop, ?_⟩,
      hall⟩, [], slack_nil, rfl⟩
    rw [← hheader]
  | _ => cases hb

theorem rereadsItem_declaration (property value : Text) (important : Bool) (o : α) :
    RereadsItem layout depth (declaration property value important o) := by
  intro skipped g start later after m a hg ht hitem ha hb hmass hk
  have hm := mass_cut hg ht
  generalize htop : (depth == 0) = top at hitem
  cases hitem with
  | @declaration _ raw _ property' value' important' hstart hstop hn =>
    obtain ⟨rfl, rfl, rfl⟩ : property' = property ∧ value' = value ∧ important' = important := by
      simpa [bare, mapOrigins, mapOrigin] using hb
    have hraw := Reader.reduces_declaration hn
    have hle := hraw.mass_le
    rw [mass_append, mass] at hm
    have hskipped : Slack skipped := slack_iff_mass.2 (by omega)
    have hink : ink raw = ink (layout.assignment property' value' important') := by
      rw [ink_assignment, hraw.ink_eq (by omega)]
    obtain ⟨name, rawValue, _, _, _, hcut, hname, hproperty, hspace, hvalue, he⟩ :=
      Reader.declaration_eq_ok_iff.1 hn
    cases he
    have hne : raw ≠ [] := by
      have htext := Lexeme.cut?_text hcut
      rw [Lexeme.flatMap_ofText] at htext
      simp [htext]
    have hhead : ∀ d v, layout.assignment property' value' important' = d :: v →
        Text.isBlank d = false := by
      intro d v hd
      obtain ⟨c, p, rfl⟩ := List.exists_cons_of_ne_nil hproperty
      obtain rfl : c = d := by cases layout <;> exact (List.cons.inj hd).1
      exact head_collapse hname
    have hsolid := solid_of_startsItem hstart
    rw [written_declaration, List.append_assoc] at ht
    obtain ⟨-, ht⟩ := slack_unique ht hskipped hg hsolid (solid_of_ink hsolid hne hink hhead _)
    have hisStop : ∀ c u, after = c :: u → isStop c = true := by
      rintro c u rfl
      exact Scan.isStop_of_toStop hstop
    have hend : AtStop (layout.endMark ++ later) := atStop_of_endsItem (hk rfl)
    obtain ⟨hraw', rfl⟩ := cut_unique ht hink hisStop hend
    rw [ha hskipped] at hstop
    rw [hraw'] at hstart hstop hne hcut
    rw [Legible]
    refine ⟨⟨by simpa using htop, startsItem_of_append hne hstart, (whole_iff_toStop hend).2 hstop,
      fun start => ?_⟩, layout.endMark, slack_endMark layout, rfl⟩
    exact Reader.declaration_eq_ok_iff.2
      ⟨name, rawValue, _, _, _, hcut, hname, hproperty, hspace, hvalue, rfl⟩
  | _ => cases hb

/-- The first of some nodes that are read again from what was written of them. -/
theorem reread_cons (layout : Layout) (depth : Nat) {n : Node α} {ns : List (Node α)}
    {m : Node Text} {ms : List (Node Text)} {g gap later tail rest : Text} (hn : RereadsItem layout depth n) (hg : Slack g)
    (hgap : Slack gap)
    (hs : Spells (depth == 0) false (g ++ ((gap ++ (written layout depth n ++ later)) ++ tail))
      (m :: ms) rest)
    (hb : bare (m :: ms) = bare (n :: ns)) (hlater : Stylesmith.mass later = masses ns)
    (hmass : Stylesmith.mass tail ≤ Stylesmith.mass rest)
    (hk : n.isDeclaration → EndsItem layout (later ++ tail)) :
    Legible layout depth n ∧
      ∃ g', Slack g' ∧ Spells (depth == 0) false (g' ++ (later ++ tail)) ms rest := by
  obtain ⟨skipped, a, start, after, ht, hitem, hafter, ha⟩ := readsItem_of_spells hs
  have hle := mass_le_of_spells hafter
  rw [masses_eq_of_bare (bare_tail hb)] at hle
  have ht' : skipped ++ start = (g ++ gap) ++ (written layout depth n ++ (later ++ tail)) := by
    rw [← ht]
    simp
  have hrest : Stylesmith.mass (later ++ tail) ≤ Stylesmith.mass after := by
    rw [mass_append]
    omega
  obtain ⟨hl, g', hg', rfl⟩ := hn (slack_append hg hgap) ht' hitem (fun h => ha h rfl)
    (bare_head hb) hrest hk
  exact ⟨hl, g', hg', hafter⟩

theorem not_isDeclaration_of_spells {a : Bool} {t k rest : Text} {m : Node Text}
    {ms : List (Node Text)} {n : Node α} {ns : List (Node α)} (hs : Spells true a t (m :: ms) rest)
    (hb : bare (m :: ms) = bare (n :: ns)) : n.isDeclaration = true → EndsItem layout k := by
  obtain ⟨_, _, _, _, _, hitem, _⟩ := readsItem_of_spells hs
  have hm := bare_head hb
  cases n with
  | declaration => cases hitem <;> cases hm
  | _ => exact fun hn => absurd hn Bool.false_ne_true

mutual

theorem rereadsItem {depth : Nat} (n : Node α) : RereadsItem layout depth n := by
  cases n with
  | rule selectors children o => exact rereadsItem_rule selectors o (rereads children)
  | group name prelude children o => exact rereadsItem_group name prelude o (rereads children)
  | statement name prelude o => exact rereadsItem_statement name prelude o
  | declaration property value important o =>
    exact rereadsItem_declaration property value important o
  | comment text o => exact rereadsItem_comment text o

theorem rereads {depth : Nat} (ns : List (Node α)) : Rereads layout (depth + 1) ns := by
  intro g tail rest ms afterDeclaration hg hs hb hmass hk
  cases ns with
  | nil =>
    cases ms with
    | nil => exact ⟨trivial, g, hg, hs⟩
    | cons m ms => cases hb
  | cons n ns =>
    cases ms with
    | nil => cases hb
    | cons m ms =>
      rw [writtenItems_cons] at hs
      obtain ⟨hl, g', hg', hs'⟩ := reread_cons layout (depth + 1) (rereadsItem n) hg
        (slack_itemGap _ _ _) hs hb (mass_writtenItems _ _ _) hmass fun hn => endsItem_writtenItems hn hk
      obtain ⟨hls, hrest⟩ := rereads ns hg' hs' (bare_tail hb) hmass hk
      rw [AllLegible]
      exact ⟨⟨hl, hls⟩, hrest⟩

end

theorem allLegible_of_later {g tail rest : Text} {ms : List (Node Text)} {afterStatement : Bool}
    {ns : List (Node α)} (hg : Slack g)
    (hs : Spells true false (g ++ (writtenLater layout afterStatement ns ++ tail)) ms rest)
    (hb : bare ms = bare ns) (hmass : Stylesmith.mass tail ≤ Stylesmith.mass rest) :
    AllLegible layout 0 ns := by
  induction ns generalizing g ms afterStatement with
  | nil => trivial
  | cons n ns ih =>
    cases ms with
    | nil => cases hb
    | cons m ms =>
      rw [writtenLater_cons] at hs
      obtain ⟨hl, g', hg', hs'⟩ := reread_cons layout 0 (rereadsItem n) hg (slack_topGap _ _) hs hb
        (mass_writtenLater _ _) hmass (not_isDeclaration_of_spells hs hb)
      rw [AllLegible]
      exact ⟨hl, ih hg' hs' (bare_tail hb)⟩

end Node

namespace Stylesheet

open Node

/-- A sheet that is written and read as itself is legible. -/
theorem allLegible_of_nodes_render {ns : List (Node α)} {ms : List (Node Text)}
    (h : nodes (render layout ns) = .ok ms) (hb : bare ms = bare ns) : AllLegible layout 0 ns := by
  rw [nodes_eq_ok_iff] at h
  cases ns with
  | nil => trivial
  | cons n ns =>
    cases ms with
    | nil => cases hb
    | cons m ms =>
      have hend : mass (layout.topEnd false) ≤ mass [] :=
        (slack_iff_mass.1 (slack_topEnd layout false)).le
      have hs : Spells true false
          ([] ++ (([] ++ (written layout 0 n ++ writtenLater layout n.isStatement ns)) ++
            layout.topEnd false)) (m :: ms) [] := by
        rw [render_cons] at h
        simpa using h
      obtain ⟨hl, g', hg', hs'⟩ := reread_cons layout 0 (rereadsItem n) slack_nil slack_nil hs hb
        (mass_writtenLater _ _) hend (not_isDeclaration_of_spells hs hb)
      rw [AllLegible]
      exact ⟨hl, allLegible_of_later hg' hs' (bare_tail hb) hend⟩

/-- Exactly the legible sheets are read as themselves from what is written of them. -/
theorem reread_iff_allLegible {ns : List (Node α)} :
    (∃ ms, nodes (render layout ns) = .ok ms ∧ bare ms = bare ns) ↔ AllLegible layout 0 ns := by
  constructor
  · rintro ⟨ms, h, hb⟩
    exact allLegible_of_nodes_render h hb
  · exact nodes_render

end Stylesheet

end Stylesmith
