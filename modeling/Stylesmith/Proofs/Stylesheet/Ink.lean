import Mathlib.Data.List.Infix
import Stylesmith.Proofs.Stylesheet.Legible
import Stylesmith.Proofs.Text.Trimming

/-!
# What reading keeps of a text

The ink of a text is what it holds besides blanks. Selectors, names, preludes and values hold
nothing that the text which they are read from does not hold, in the same order. Where they hold as
many characters besides semicolons, nothing was left out at all: what is left out of a text, such as
a comment, never consists of semicolons alone.
-/

set_option autoImplicit false

namespace Stylesmith

open Text (isBlank isWide)

/-- The characters of a text besides blanks, in lower case. -/
def ink (t : Text) : Text := Text.lowerAscii (t.filter fun c => !isBlank c)

/-- The number of characters besides blanks and semicolons. -/
def mass (t : Text) : Nat := (ink t).countP (· != ';')

theorem ink_append (t u : Text) : ink (t ++ u) = ink t ++ ink u := by
  simp [ink, Text.lowerAscii]

theorem ink_cons (c : Char) (t : Text) : ink (c :: t) = ink [c] ++ ink t := ink_append [c] t

theorem mass_append (t u : Text) : mass (t ++ u) = mass t + mass u := by
  rw [mass, ink_append, List.countP_append]
  rfl

theorem mass_cons (c : Char) (t : Text) : mass (c :: t) = mass [c] + mass t := mass_append [c] t

theorem ink_singleton (c : Char) : ink [c] = if isBlank c = true then [] else [c.toLower] := by
  by_cases hc : isBlank c = true <;> simp [ink, Text.lowerAscii, hc]

theorem mass_singleton (c : Char) :
    mass [c] = if isBlank c = true ∨ c = ';' then 0 else 1 := by
  rw [mass, ink_singleton]
  by_cases hc : isBlank c = true
  · simp [hc]
  · by_cases hs : c = ';'
    · subst hs
      rfl
    · have hl : c.toLower ≠ ';' := fun hl => hs (Text.eq_of_toLower_eq hl rfl)
      simp [hc, hs, hl]

theorem slack_iff_mass {g : Text} : Slack g ↔ mass g = 0 := by
  induction g with
  | nil => exact ⟨fun _ => rfl, fun _ => slack_nil⟩
  | cons c g ih =>
    rw [slack_cons, ih, mass_cons, mass_singleton]
    split_ifs with hc
    · simp [hc]
    · simp [hc]

theorem ink_eq_nil_iff {t : Text} : ink t = [] ↔ ∀ c ∈ t, isBlank c = true := by
  simp [ink, Text.lowerAscii]

theorem isBlank_toLower (c : Char) : isBlank c.toLower = isBlank c := by
  rcases Text.toLower_eq_or c with hc | hc
  · rw [hc]
  · have hlower : ∀ d : Char, isBlank d = true → d.isLower = false := by
      intro d hd
      simp only [isBlank, Bool.or_eq_true, beq_iff_eq] at hd
      rcases hd with (((rfl | rfl) | rfl) | rfl) | rfl <;> rfl
    rw [Bool.eq_iff_iff]
    constructor
    · intro hd
      rw [hlower _ hd] at hc
      cases hc
    · intro hd
      simp only [isBlank, Bool.or_eq_true, beq_iff_eq] at hd
      rcases hd with (((rfl | rfl) | rfl) | rfl) | rfl <;> rfl

theorem ink_lowerAscii (t : Text) : ink (Text.lowerAscii t) = ink t := by
  induction t with
  | nil => rfl
  | cons c t ih =>
    rw [Text.lowerAscii, List.map_cons, ink_cons, ← Text.lowerAscii, ih, ink_cons c,
      ink_singleton, ink_singleton, isBlank_toLower, Char.toLower_toLower_eq_toLower]

/-- `u` has no ink that `t` has not, and all of it if it has all its mass. -/
def Reduces (t u : Text) : Prop := (ink u).Sublist (ink t) ∧ (mass u = mass t → ink u = ink t)

namespace Reduces

variable {t t' u u' v : Text}

theorem of_ink_eq (h : ink u = ink t) : Reduces t u := ⟨h ▸ List.Sublist.refl _, fun _ => h⟩

theorem refl (t : Text) : Reduces t t := of_ink_eq rfl

theorem mass_le (h : Reduces t u) : mass u ≤ mass t := h.1.countP_le

theorem trans (h : Reduces t u) (h' : Reduces u v) : Reduces t v := by
  refine ⟨h'.1.trans h.1, ?_⟩
  intro hm
  have hut := h.mass_le
  have hvu := h'.mass_le
  rw [h'.2 (by omega), h.2 (by omega)]

theorem append (h : Reduces t u) (h' : Reduces t' u') : Reduces (t ++ t') (u ++ u') := by
  refine ⟨?_, ?_⟩
  · rw [ink_append, ink_append]
    exact h.1.append h'.1
  · intro hm
    have hut := h.mass_le
    have hut' := h'.mass_le
    rw [mass_append, mass_append] at hm
    rw [ink_append, ink_append, h.2 (by omega), h'.2 (by omega)]

theorem nil_of_mass_ne_zero (h : mass t ≠ 0) : Reduces t [] :=
  ⟨List.nil_sublist _, fun hm => absurd hm.symm h⟩

theorem nil_of_wide (h : ∀ c ∈ t, isWide c = true) : Reduces t [] := by
  refine ⟨List.nil_sublist _, ?_⟩
  intro hm
  rw [show ink [] = [] from rfl, eq_comm, ink_eq_nil_iff]
  intro c hc
  rcases slack_iff_mass.2 hm.symm c hc with hb | rfl
  · exact hb
  · exact absurd (h _ hc) (by decide)

theorem ink_eq (h : Reduces t u) (hm : mass t ≤ mass u) : ink u = ink t :=
  h.2 (Nat.le_antisymm h.mass_le hm)

end Reduces

theorem wide_takeWhile (t : Text) : ∀ c ∈ t.takeWhile isWide, isWide c = true :=
  List.all_eq_true.1 List.all_takeWhile

theorem wide_takeWhile_reverse (t : Text) :
    ∀ c ∈ (t.takeWhile isWide).reverse, isWide c = true :=
  fun c hc => wide_takeWhile t c (List.mem_reverse.1 hc)

theorem reduces_dropWhile_wide (t : Text) : Reduces t (t.dropWhile isWide) := by
  have hw : Reduces (t.takeWhile isWide) [] := .nil_of_wide (wide_takeWhile t)
  have h := hw.append (.refl (t.dropWhile isWide))
  rwa [List.takeWhile_append_dropWhile, List.nil_append] at h

theorem trimEnd_append (t : Text) :
    ∃ w, (∀ c ∈ w, isWide c = true) ∧ t = Text.trimEnd t ++ w := by
  refine ⟨(t.reverse.takeWhile isWide).reverse, wide_takeWhile_reverse _, ?_⟩
  rw [Text.trimEnd, Text.trimEndWhile, ← List.reverse_append, List.takeWhile_append_dropWhile,
    List.reverse_reverse]

theorem Text.not_wide_trim (t : Text) :
    (∀ c ∈ (trim t).head?, isWide c = false) ∧ ∀ c ∈ (trim t).getLast?, isWide c = false := by
  obtain ⟨_, _, _, _, hends⟩ := trimWhile_eq_iff.1 (rfl : trim t = trim t)
  exact hends

theorem reduces_trimEnd (t : Text) : Reduces t (Text.trimEnd t) := by
  obtain ⟨w, hw, ht⟩ := trimEnd_append t
  have h := (Reduces.refl (Text.trimEnd t)).append (Reduces.nil_of_wide hw)
  rwa [← ht, List.append_nil] at h

theorem reduces_trim (t : Text) : Reduces t (Text.trim t) :=
  (reduces_dropWhile_wide t).trans (reduces_trimEnd _)

namespace Lexeme

theorem mass_comment_text (body : Text) (closed : Bool) : mass (comment body closed).text ≠ 0 := by
  have hslash : mass ['/'] = 1 := rfl
  cases closed <;> rw [text, mass_cons] <;> omega

theorem ink_gap (b : Bool) : ink (if b = true then [' '] else []) = [] := by
  cases b <;> rfl

theorem reduces_collapse (spaced started gap : Bool) (ls : List Lexeme) :
    Reduces (ls.flatMap text) (collapse spaced started gap ls) := by
  have front : ∀ (b : Bool) (t u u' : Text), Reduces t u' →
      Reduces (u ++ t) ((if b = true then [' '] else []) ++ u ++ u') := by
    intro b t u u' h
    refine Reduces.append (.of_ink_eq ?_) h
    rw [ink_append, ink_gap, List.nil_append]
  induction ls generalizing started gap with
  | nil => exact .refl _
  | cons l ls ih =>
    rw [List.flatMap_cons]
    cases l with
    | comment body closed =>
      exact (Reduces.nil_of_mass_ne_zero (mass_comment_text body closed)).append (ih _ _)
    | plain c =>
      rw [collapse]
      by_cases hc : isBlank c = true
      · rw [if_pos hc]
        have hink : ink [] = ink (plain c).text := by
          rw [text, ink_singleton, if_pos hc]
          rfl
        exact (Reduces.of_ink_eq hink).append (ih started true)
      · rw [if_neg hc]
        have h := front (started && gap) _ [c] _ (ih true false)
        rwa [List.append_assoc] at h
    | literal quote body closed => exact front _ _ _ _ (ih _ _)
    | escape c => exact front _ _ _ _ (ih _ _)

theorem split_ne_nil (sep : Char) (depth : Nat) (ls : List Lexeme) : split sep depth ls ≠ [] := by
  fun_induction split sep depth ls with
  | case1 => simp
  | case2 => simp
  | case3 depth c ls hc ih =>
    generalize split sep (deepen depth c) ls = parts
    cases parts <;> simp [split.glue]
  | case4 depth l ls hl ih =>
    generalize split sep depth ls = parts
    cases parts <;> simp [split.glue]

theorem join_glue (sep t : Text) {parts : List Text} (h : parts ≠ []) :
    Text.join sep (split.glue t parts) = t ++ Text.join sep parts := by
  cases parts with
  | nil => exact absurd rfl h
  | cons part parts => cases parts <;> simp [split.glue, Text.join]

theorem join_split (sep : Char) (depth : Nat) (ls : List Lexeme) :
    Text.join [sep] (split sep depth ls) = ls.flatMap text := by
  fun_induction split sep depth ls with
  | case1 => rfl
  | case2 depth c ls hc ih =>
    rw [List.flatMap_cons, ← ih, hc.1]
    cases hp : split sep depth ls with
    | nil => exact absurd hp (split_ne_nil sep depth ls)
    | cons part parts => simp [Text.join, text]
  | case3 depth c ls hc ih =>
    rw [join_glue _ _ (split_ne_nil _ _ _), ih]
    rfl
  | case4 depth l ls hl ih =>
    rw [join_glue _ _ (split_ne_nil _ _ _), ih]
    rfl

theorem cut?_text {sep : Char} {depth : Nat} {ls : List Lexeme} {a b : Text}
    (h : cut? sep depth ls = some (a, b)) : ls.flatMap text = a ++ sep :: b := by
  fun_induction cut? sep depth ls generalizing a with
  | case1 => cases h
  | case2 depth c ls hc =>
    cases h
    rw [hc.1]
    rfl
  | case3 depth c ls hc ih =>
    obtain ⟨⟨a', b'⟩, hcut, he⟩ := Option.map_eq_some_iff.1 h
    cases he
    rw [List.flatMap_cons, ih hcut]
    rfl
  | case4 depth l ls hl ih =>
    obtain ⟨⟨a', b'⟩, hcut, he⟩ := Option.map_eq_some_iff.1 h
    cases he
    rw [List.flatMap_cons, ih hcut, List.append_assoc]

end Lexeme

namespace Text

theorem reduces_collapse (t : Text) : Reduces t (collapse t) := by
  have h := Lexeme.reduces_collapse false false false (Lexeme.ofText t)
  rwa [Lexeme.flatMap_ofText] at h

theorem reduces_collapseSpaced (t : Text) : Reduces t (collapseSpaced t) := by
  have h := Lexeme.reduces_collapse true false false (Lexeme.ofText t)
  rwa [Lexeme.flatMap_ofText] at h

theorem join_cons_of_ne_nil (sep part : Text) {parts : List Text} (h : parts ≠ []) :
    join sep (part :: parts) = part ++ (sep ++ join sep parts) := by
  cases parts with
  | nil => exact absurd rfl h
  | cons next parts => rw [join, List.append_assoc]

theorem reduces_join_filter {sep : Char} (hsep : mass [sep] ≠ 0) (parts : List Text) :
    Reduces (join [sep] parts) (join [sep] (parts.filter (!·.isEmpty))) := by
  induction parts with
  | nil => exact .refl _
  | cons part parts ih =>
    by_cases hp : parts = []
    · subst hp
      cases part <;> exact .refl _
    · rw [join_cons_of_ne_nil _ _ hp]
      cases part with
      | nil => exact (Reduces.nil_of_mass_ne_zero hsep).append ih
      | cons c part =>
        rw [List.filter_cons_of_pos rfl]
        by_cases hk : parts.filter (!·.isEmpty) = []
        · rw [hk]
          have hmass : mass ([sep] ++ join [sep] parts) ≠ 0 := by
            rw [mass_append]
            omega
          have h := (Reduces.refl (c :: part)).append (Reduces.nil_of_mass_ne_zero hmass)
          rwa [List.append_nil] at h
        · rw [join_cons_of_ne_nil _ _ hk]
          exact (Reduces.refl _).append ((Reduces.refl _).append ih)

theorem reduces_join_trim (sep : Text) (parts : List Text) :
    Reduces (join sep parts) (join sep (parts.map trim)) := by
  induction parts with
  | nil => exact .refl _
  | cons part parts ih =>
    by_cases hp : parts = []
    · subst hp
      exact reduces_trim part
    · rw [List.map_cons, join_cons_of_ne_nil _ _ hp, join_cons_of_ne_nil _ _ (by simpa using hp)]
      exact (reduces_trim part).append ((Reduces.refl sep).append ih)

theorem reduces_selectors (raw : Text) : Reduces raw (join [','] (Reader.selectors raw)) := by
  refine (reduces_collapse raw).trans ?_
  have h := reduces_join_trim [','] (Lexeme.split ',' 0 (Lexeme.ofText (collapse raw)))
  rw [Lexeme.join_split, Lexeme.flatMap_ofText] at h
  exact h.trans (reduces_join_filter (by decide) _)

/-- The mark of importance as it may end a value: in any case, with white space around its parts. -/
def IsMark (mark : Text) : Prop :=
  ∃ before between word after : Text, (∀ c ∈ before, isWide c = true) ∧
    (∀ c ∈ between, isWide c = true) ∧ (∀ c ∈ after, isWide c = true) ∧
    lowerAscii word = ("important" : Text) ∧
    mark = before ++ ('!' :: between ++ (word ++ after))

theorem reduces_mark {mark : Text} (h : IsMark mark) : Reduces mark ("!important" : Text) := by
  obtain ⟨before, between, word, after, hbefore, hbetween, hafter, hword, rfl⟩ := h
  have hw : Reduces word ("important" : Text) := .of_ink_eq (by rw [← hword, ink_lowerAscii])
  have hbang : Reduces ('!' :: between) ['!'] := (Reduces.refl ['!']).append (.nil_of_wide hbetween)
  have htail := hbang.append (hw.append (.nil_of_wide hafter))
  exact (Reduces.nil_of_wide hbefore).append htail

theorem cutImportant_cases (value : Text) :
    cutImportant value = (value, false) ∨
      ∃ v mark, cutImportant value = (v, true) ∧ value = v ++ mark ∧ IsMark mark := by
  unfold cutImportant
  simp only
  split
  · rename_i hword
    split
    · rename_i rest hrest
      right
      obtain ⟨after, hafter, hvalue⟩ := trimEnd_append value
      have hrev : trimEnd value = (trimEnd value).reverse.reverse := (List.reverse_reverse _).symm
      rw [hrev] at hvalue
      generalize (trimEnd value).reverse = e at hvalue hword hrest
      have he : e = e.take 9 ++ ((e.drop 9).takeWhile isWide ++
          '!' :: (rest.takeWhile isWide ++ rest.dropWhile isWide)) := by
        rw [List.takeWhile_append_dropWhile, ← hrest, List.takeWhile_append_dropWhile,
          List.take_append_drop]
      have hlower : lowerAscii (e.take 9).reverse = ("important" : Text) := by
        have hl : ("tnatropmi" : Text) = lowerAscii (e.take 9) := by
          rw [startsIgnoringCase, eqIgnoringCase, beq_iff_eq] at hword
          exact hword
        rw [lowerAscii, List.map_reverse, ← lowerAscii, ← hl]
        rfl
      refine ⟨_, _, rfl, ?_, (rest.takeWhile isWide).reverse, ((e.drop 9).takeWhile isWide).reverse,
        (e.take 9).reverse, after, wide_takeWhile_reverse _, wide_takeWhile_reverse _, hafter,
        hlower, rfl⟩
      have hsplit := congrArg List.reverse he
      simp only [List.reverse_append, List.reverse_cons, List.append_assoc] at hsplit
      rw [hvalue, hsplit]
      simp
    · exact .inl rfl
  · exact .inl rfl

theorem not_wide_of_important {word : Text} (h : lowerAscii word = ("important" : Text)) :
    ∀ c ∈ word, isWide c = false := by
  intro c hc
  by_cases hupper : c.isUpper = true
  · simp only [Char.isUpper, decide_eq_true_eq, ge_iff_le, UInt32.le_iff_toNat_le] at hupper
    have hlow : 65 ≤ c.toNat := hupper.1
    have hhigh : c.toNat ≤ 90 := hupper.2
    simp only [isWide, Bool.or_eq_false_iff, Bool.and_eq_false_iff, decide_eq_false_iff_not,
      beq_eq_false_iff_ne]
    omega
  · have hmem : c ∈ ("important" : Text) := by
      rw [← h, ← Char.toLower_eq_of_not_isUpper hupper]
      exact List.mem_map_of_mem hc
    have hall : ("important" : Text).all (!isWide ·) = true := rfl
    exact (Bool.not_eq_true' _).mp (List.all_eq_true.1 hall c hmem)

theorem length_of_important {word : Text} (h : lowerAscii word = ("important" : Text)) :
    word.length = 9 := by
  have hlen := congrArg List.length h
  rwa [lowerAscii, List.length_map] at hlen

theorem head_not_wide {t u : Text} (hne : t ≠ []) (h : ∀ c ∈ t, isWide c = false) :
    (t ++ u).head?.any isWide = false := by
  cases t with
  | nil => exact absurd rfl hne
  | cons c t => exact h c List.mem_cons_self

/-- A mark is cut off with all the white space before it. -/
theorem cutImportant_append_mark {v mark : Text} (hv : ∀ c ∈ v.getLast?, isWide c = false)
    (hmark : IsMark mark) : cutImportant (v ++ mark) = (v, true) := by
  obtain ⟨before, between, word, after, hbefore, hbetween, hafter, hword, rfl⟩ := hmark
  have hnine := length_of_important hword
  have hwide := not_wide_of_important hword
  have hrev : ∀ {u : Text}, (∀ c ∈ u, isWide c = true) → ∀ c ∈ u.reverse, isWide c = true :=
    fun hu c hc => hu c (List.mem_reverse.1 hc)
  have hend : (trimEnd (v ++ (before ++ ('!' :: between ++ (word ++ after))))).reverse =
      word.reverse ++ (between.reverse ++ '!' :: (before.reverse ++ v.reverse)) := by
    rw [trimEnd, trimEndWhile, List.reverse_reverse]
    simp only [List.reverse_append, List.reverse_cons, List.append_assoc, List.singleton_append]
    refine (run_append (hrev hafter) (head_not_wide ?_ fun c hc => ?_)).2
    · exact List.ne_nil_of_length_pos (by rw [List.length_reverse]; omega)
    · exact hwide c (List.mem_reverse.1 hc)
  have hstarts : startsIgnoringCase "tnatropmi"
      (word.reverse ++ (between.reverse ++ '!' :: (before.reverse ++ v.reverse))) = true := by
    rw [startsIgnoringCase, eqIgnoringCase, beq_iff_eq]
    have htake : (word.reverse ++ (between.reverse ++ '!' :: (before.reverse ++ v.reverse))).take 9
        = word.reverse := List.take_left' (by rw [List.length_reverse, hnine])
    have hlower : lowerAscii word.reverse = ("important" : Text).reverse := by
      rw [lowerAscii, List.map_reverse, ← lowerAscii, hword]
    rw [show ("tnatropmi" : Text).length = 9 from rfl, htake, hlower]
    rfl
  have hdrop : (word.reverse ++ (between.reverse ++ '!' :: (before.reverse ++ v.reverse))).drop 9 =
      between.reverse ++ '!' :: (before.reverse ++ v.reverse) :=
    List.drop_left' (by rw [List.length_reverse, hnine])
  have hgap := (run_append (t := '!' :: (before.reverse ++ v.reverse)) (hrev hbetween) rfl).2
  have hvalue : (before.reverse ++ v.reverse).dropWhile isWide = v.reverse := by
    refine (run_append (hrev hbefore) ?_).2
    rw [List.head?_reverse, ← Bool.not_eq_true, Option.any_eq_true]
    rintro ⟨c, hc, hcw⟩
    rw [hv c hc] at hcw
    cases hcw
  unfold cutImportant
  simp only [hend, hstarts, hdrop, hgap, hvalue, if_true, List.reverse_reverse]

def markOf (important : Bool) : Text := if important then "!important" else []

theorem reduces_cutImportant (value : Text) :
    Reduces value ((cutImportant value).1 ++ markOf (cutImportant value).2) := by
  rcases cutImportant_cases value with h | ⟨v, mark, h, rfl, hmark⟩
  · rw [h, markOf, if_neg Bool.false_ne_true, List.append_nil]
    exact .refl value
  · rw [h]
    exact (Reduces.refl v).append (reduces_mark hmark)

end Text

namespace Reader

def fullValue (property rawValue : Text) : Text :=
  if ("--" : Text).isPrefixOf property then Text.trim rawValue else Text.collapseSpaced rawValue

theorem reduces_fullValue (property rawValue : Text) :
    Reduces rawValue (fullValue property rawValue) := by
  unfold fullValue
  split
  · exact reduces_trim rawValue
  · exact Text.reduces_collapseSpaced rawValue

theorem declaration_eq_ok_iff {start raw : Text} {n : Node Text} :
    declaration start raw = .ok n ↔ ∃ name rawValue property value important,
      Text.cutTop? ':' raw = some (name, rawValue) ∧ Text.collapse name = property ∧
      property ≠ [] ∧ ' ' ∉ property ∧
      Text.cutImportant (fullValue property rawValue) = (value, important) ∧
      n = .declaration property value important start := by
  unfold declaration
  cases hcut : Text.cutTop? ':' raw with
  | none => simp
  | some p =>
    obtain ⟨name, rawValue⟩ := p
    simp only
    constructor
    · intro h
      by_cases hempty : (Text.collapse name).isEmpty = true
      · rw [if_pos hempty] at h
        cases h
      by_cases hspace : (Text.collapse name).contains ' ' = true
      · rw [if_neg hempty, if_pos hspace] at h
        cases h
      rw [if_neg hempty, if_neg hspace] at h
      refine ⟨name, rawValue, _, _, _, rfl, rfl, ?_, ?_, rfl, (Except.ok.inj h).symm⟩
      · simpa using hempty
      · simpa using hspace
    · rintro ⟨name', rawValue', property, value, important, hp, rfl, hempty, hspace, hvalue, rfl⟩
      cases hp
      rw [if_neg (by simpa using hempty), if_neg (by simpa using hspace)]
      rw [fullValue] at hvalue
      rw [hvalue]

/-- What a declaration holds but for its layout. -/
theorem reduces_declaration {start raw property value : Text} {important : Bool} {o : Text}
    (h : declaration start raw = .ok (.declaration property value important o)) :
    Reduces raw (property ++ ':' :: (value ++ Text.markOf important)) := by
  obtain ⟨name, rawValue, _, _, _, hcut, hname, _, _, hvalue, hn⟩ := declaration_eq_ok_iff.1 h
  cases hn
  have htext := Lexeme.cut?_text hcut
  rw [Lexeme.flatMap_ofText] at htext
  rw [htext, ← hname]
  have hfull := (reduces_fullValue property rawValue).trans (Text.reduces_cutImportant _)
  rw [hvalue] at hfull
  exact (Text.reduces_collapse name).append ((Reduces.refl [':']).append hfull)

end Reader

end Stylesmith
