import Stylesmith.Proofs.Stylesheet.References

/-!
# Anchored references

A reader walks through a value and cuts it into pieces: characters that stay, and relative
references. The rewriting of references does so by its pattern, wherever no word goes on; a scanner
reads references where no identifier goes on, and literals, comments and escapes as units. What the
rewriting makes of a value is what the pieces of the pattern become; it is what the tokens become,
whatever the sheet, where both readers find the same pieces.
-/

set_option autoImplicit false

namespace Stylesmith.Reference

open Lexeme (isQuote)
open Text (isWide isWord isWide_of_isBlank)

/-- A part of a value: a character that stays, or a relative reference as it is written. -/
inductive Piece where
  | kept (c : Char)
  | relative (written : Text) (r : Reference)
  deriving DecidableEq, Repr

def Piece.text : Piece → Text
  | kept c => [c]
  | relative written _ => written

def Piece.anchored (base : Text) : Piece → Text
  | kept c => [c]
  | relative _ r => r.resolved base

def cut (r : Reference) (written : Text) : List Piece :=
  if isAbsolute r.target then written.map .kept else [.relative written r]

def HasQuote (r : Reference) : Prop := ∀ quote ∈ r.quote, isQuote quote = true

theorem IsName.eq {name : Text} (h : IsName name) : ∃ u r l, name = [u, r, l, '('] ∧
    u.toLower = 'u' ∧ r.toLower = 'r' ∧ l.toLower = 'l' := by
  have hstart := startsIgnoringCase_iff.2 ⟨name, [], h, (List.append_nil name).symm⟩
  obtain ⟨u, r, l, rest, rfl, hu, hr, hl⟩ := Scan.startsIgnoringCase_url_iff.1 hstart
  cases rest with
  | nil => exact ⟨u, r, l, rfl, hu, hr, hl⟩
  | cons c rest => simp [IsName, Text.lowerAscii] at h

theorem exists_resolved (base : Text) (r : Reference) :
    ∃ k, r.resolved base = 'u' :: 'r' :: 'l' :: '(' :: (r.quote.toList ++ '/' :: k) := by
  refine ⟨(Path.resolve base r.target).tail ++ (r.quote.toList ++ [')']), ?_⟩
  delta resolved Path.resolve
  simp

theorem exists_of_relative {target : Text} (h : isAbsolute target = false) :
    ∃ c t, target = c :: t ∧ c ≠ '/' := by
  cases target with
  | nil => cases h
  | cons c t =>
    refine ⟨c, t, rfl, ?_⟩
    rintro rfl
    cases h

theorem hasQuote_of_isSimple {r : Reference} (h : r.isSimple = true) : HasQuote r := by
  rcases r with ⟨_ | quote, target⟩
  · simp [HasQuote]
  · rw [isSimple, Bool.and_eq_true] at h
    simpa [HasQuote] using h.1

theorem hasQuote_of_isToken {r : Reference} (h : IsToken r) : HasQuote r := by
  rcases r with ⟨_ | quote, target⟩
  · simp [HasQuote]
  · simpa [HasQuote] using h.1

/-- A way to read references: those that a text may start with, and elsewhere the unit that is
passed, with whether a name behind it would continue it. -/
structure Reader where
  read? : Text → Option (Reference × Text)
  pass : Char → Text → Bool × Text
  reads {t rest : Text} {r : Reference} : read? t = some (r, rest) →
    ∃ w, Written isWide HasQuote r w ∧ t = w ++ rest
  passes (c : Char) (t : Text) : ∃ unit, unit ≠ [] ∧ c :: t = unit ++ (pass c t).2

namespace Reader

variable (R : Reader)

def readAt? (inside : Bool) (t : Text) : Option (Reference × Text) :=
  if inside then none else R.read? t

variable {R}

theorem read?_of_readAt? {inside : Bool} {t rest : Text} {r : Reference}
    (h : R.readAt? inside t = some (r, rest)) : R.read? t = some (r, rest) := by
  cases inside
  · exact h
  · cases h

theorem readAt?_length_lt {inside : Bool} {t rest : Text} {r : Reference}
    (h : R.readAt? inside t = some (r, rest)) : rest.length < t.length := by
  obtain ⟨w, hw, rfl⟩ := R.reads (read?_of_readAt? h)
  have hpos := List.length_pos_iff.2 hw.ne_nil
  rw [List.length_append]
  omega

variable (R)

theorem pass_length_lt (c : Char) (t : Text) : (R.pass c t).2.length < (c :: t).length := by
  obtain ⟨unit, hunit, h⟩ := R.passes c t
  have hpos := List.length_pos_iff.2 hunit
  rw [h, List.length_append]
  omega

def pieces (inside : Bool) : Text → List Piece
  | [] => []
  | c :: t =>
    match h : R.readAt? inside (c :: t) with
    | some (r, rest) =>
      have := readAt?_length_lt h
      r.cut (Text.before (c :: t) rest) ++ pieces false rest
    | none =>
      have := R.pass_length_lt c t
      (Text.before (c :: t) (R.pass c t).2).map .kept ++ pieces (R.pass c t).1 (R.pass c t).2
termination_by t => t.length
decreasing_by all_goals exact this

variable {R}

theorem pieces_nil (inside : Bool) : R.pieces inside [] = [] := by rw [pieces]

theorem pieces_read {inside : Bool} {w rest : Text} {r : Reference}
    (h : R.readAt? inside (w ++ rest) = some (r, rest)) :
    R.pieces inside (w ++ rest) = r.cut w ++ R.pieces false rest := by
  have hlength := readAt?_length_lt h
  have hbefore := Text.before_append w rest
  generalize w ++ rest = t at h hlength hbefore ⊢
  cases t with
  | nil => cases hlength
  | cons c t =>
    rw [pieces]
    split
    · rename_i h'
      cases h.symm.trans h'
      rw [hbefore]
    · rename_i h'
      cases h.symm.trans h'

theorem pieces_pass {inside : Bool} {c : Char} {t : Text} (h : R.readAt? inside (c :: t) = none) :
    R.pieces inside (c :: t) =
      (Text.before (c :: t) (R.pass c t).2).map .kept ++ R.pieces (R.pass c t).1 (R.pass c t).2 := by
  rw [pieces]
  split
  · rename_i h'
    cases h.symm.trans h'
  · rfl

end Reader

/-- The reading of the rewriting: a name must not continue a word. -/
def pattern : Reader where
  read? := read?
  pass c t := (isWord c, t)
  reads := by
    intro t rest r h
    obtain ⟨w, hw, ht⟩ := read?_eq_some_iff.1 h
    exact ⟨w, hw.mono (fun _ _ => id) hasQuote_of_isSimple, ht⟩
  passes c t := ⟨[c], List.cons_ne_nil c [], rfl⟩

/-- The reading of a scanner: a name must not continue an identifier. -/
def tokens : Reader where
  read? := token?
  pass c t :=
    ((Scan.State.past ⟨false, []⟩ [] (Lexeme.first c t).1).afterIdent, (Lexeme.first c t).2)
  reads := by
    intro t rest r h
    obtain ⟨w, hw, ht⟩ := token?_eq_some_iff.1 h
    exact ⟨w, hw.mono (fun _ _ => isWide_of_isBlank) hasQuote_of_isToken, ht⟩
  passes c t := ⟨(Lexeme.first c t).1.text, Lexeme.text_ne_nil _, (Lexeme.first_text c t).symm⟩

theorem flatMap_kept (base t : Text) : (t.map .kept).flatMap (Piece.anchored base) = t := by
  induction t with
  | nil => rfl
  | cons c t ih => rw [List.map_cons, List.flatMap_cons, ih, Piece.anchored, List.singleton_append]

theorem anchorFrom_eq (base : Text) (afterWord : Bool) (t : Text) :
    anchorFrom base afterWord t = (pattern.pieces afterWord t).flatMap (Piece.anchored base) := by
  fun_induction anchorFrom base afterWord t with
  | case1 => rw [Reader.pieces_nil, List.flatMap_nil]
  | case2 afterWord c t r rest h _ ih =>
    obtain ⟨w, _, ht⟩ := pattern.reads (Reader.read?_of_readAt? (R := pattern) h)
    rw [ht] at h ⊢
    rw [Reader.pieces_read (R := pattern) h, List.flatMap_append, ih, Text.before_append, cut]
    split_ifs
    · rw [flatMap_kept]
    · simp [Piece.anchored]
  | case3 afterWord c t h ih =>
    have hbefore : Text.before (c :: t) t = [c] := Text.before_append [c] t
    rw [Reader.pieces_pass (R := pattern) h, List.flatMap_append, flatMap_kept, ih]
    simp only [pattern, hbefore, List.singleton_append]

namespace Reader

variable {R R' : Reader} {base t : Text} {ps qs : List Piece}

inductive Splits (R : Reader) : Text → List Piece → Prop
  | nil : Splits R [] []
  | kept {t : Text} {ps : List Piece} (c : Char) : Splits R t ps → Splits R (c :: t) (.kept c :: ps)
  | relative {w rest : Text} {r : Reference} {ps : List Piece} :
      R.read? (w ++ rest) = some (r, rest) → isAbsolute r.target = false → Splits R rest ps →
      Splits R (w ++ rest) (.relative w r :: ps)

theorem Splits.flatMap_text (h : R.Splits t ps) : ps.flatMap Piece.text = t := by
  induction h with
  | nil => rfl
  | kept c _ ih => rw [List.flatMap_cons, ih, Piece.text, List.singleton_append]
  | relative _ _ _ ih => rw [List.flatMap_cons, ih, Piece.text]

theorem Splits.append_kept (u : Text) (h : R.Splits t ps) :
    R.Splits (u ++ t) (u.map .kept ++ ps) := by
  induction u with
  | nil => exact h
  | cons c u ih => exact .kept c ih

theorem splits_pieces (R : Reader) (inside : Bool) (t : Text) : R.Splits t (R.pieces inside t) := by
  fun_induction R.pieces inside t with
  | case1 => exact .nil
  | case2 inside c t r rest h _ ih =>
    have hread := read?_of_readAt? h
    obtain ⟨w, _, ht⟩ := R.reads hread
    rw [ht] at hread ⊢
    rw [Text.before_append, cut]
    split_ifs with hr
    · exact ih.append_kept w
    · exact .relative hread (Bool.eq_false_iff.2 hr) ih
  | case3 inside c t h _ ih =>
    obtain ⟨unit, _, ht⟩ := R.passes c t
    generalize (R.pass c t).2 = rest at ht ih ⊢
    rw [ht, Text.before_append]
    exact ih.append_kept unit

theorem Splits.of_kept {c : Char} (h : R.Splits t (.kept c :: ps)) :
    ∃ u, t = c :: u ∧ R.Splits u ps := by
  cases h with
  | kept _ h => exact ⟨_, rfl, h⟩

theorem head_of_read? {c : Char} {rest : Text} {r : Reference}
    (h : R.read? (c :: t) = some (r, rest)) : c.toLower = 'u' := by
  obtain ⟨_, @⟨name, gap, tail, hname, _, _, _⟩, ht⟩ := R.reads h
  obtain ⟨u, _, _, rfl, hu, _, _⟩ := hname.eq
  cases ht
  exact hu

theorem Splits.kept_of_ne {c : Char} (h : R.Splits (c :: t) ps) (hc : c.toLower ≠ 'u') :
    ∃ qs, ps = .kept c :: qs ∧ R.Splits t qs := by
  generalize hu : c :: t = u at h
  cases h with
  | nil => cases hu
  | kept d h =>
    cases hu
    exact ⟨_, rfl, h⟩
  | relative hread _ h =>
    rw [← hu] at hread
    exact absurd (head_of_read? hread) hc

/-- The first character stays unless a reference starts there. -/
theorem Splits.head_ne {c d : Char} {s : Text} (h : R.Splits (c :: t) ps) (hd : d ≠ c)
    (hu : d ≠ 'u') : ps.flatMap (Piece.anchored base) ≠ d :: s := by
  intro hs
  generalize ht : c :: t = v at h
  cases h with
  | nil => cases ht
  | kept e h =>
    cases ht
    exact hd (List.cons.inj hs).1.symm
  | @relative _ _ r =>
    obtain ⟨k, hk⟩ := exists_resolved base r
    rw [List.flatMap_cons, Piece.anchored, hk] at hs
    exact hu (List.cons.inj hs).1.symm

theorem Splits.kept_name {name : Text} {c : Char} (h : R.Splits (name ++ t) (.kept c :: ps))
    (hname : IsName name) : ∃ qs, .kept c :: ps = name.map .kept ++ qs ∧ R.Splits t qs := by
  obtain ⟨u, v, l, rfl, hu, hv, hl⟩ := hname.eq
  obtain ⟨_, hcons, h₁⟩ := h.of_kept
  cases hcons
  obtain ⟨ps₂, rfl, h₂⟩ := h₁.kept_of_ne (by rw [hv]; decide)
  obtain ⟨ps₃, rfl, h₃⟩ := h₂.kept_of_ne (by rw [hl]; decide)
  obtain ⟨ps₄, rfl, h₄⟩ := h₃.kept_of_ne (by decide)
  exact ⟨ps₄, rfl, h₄⟩

/-- Behind a name that stays there is no slash in front of a relative target, but a gap or the
target itself. -/
theorem Splits.slash_ne {gap target k s : Text} {quote : Option Char}
    (h : R.Splits (gap ++ (quote.toList ++ (target ++ k))) ps)
    (hgap : ∀ c ∈ gap, isWide c = true) (hquote : ∀ q ∈ quote, isQuote q = true)
    (htarget : isAbsolute target = false) :
    ps.flatMap (Piece.anchored base) ≠ quote.toList ++ '/' :: s := by
  intro heq
  obtain ⟨d, target, rfl, hd⟩ := exists_of_relative htarget
  cases quote with
  | none =>
    cases gap with
    | nil => exact h.head_ne (Ne.symm hd) (by decide) heq
    | cons g gap =>
      refine h.head_ne ?_ (by decide) heq
      rintro rfl
      cases hgap '/' List.mem_cons_self
  | some q =>
    have hq := hquote q rfl
    cases gap with
    | nil =>
      have hlower : q.toLower ≠ 'u' := by
        rcases Lexeme.isQuote_iff.1 hq with rfl | rfl <;> decide
      obtain ⟨qs, rfl, h'⟩ := h.kept_of_ne hlower
      exact h'.head_ne (Ne.symm hd) (by decide) (List.cons.inj heq).2
    | cons g gap =>
      refine h.head_ne ?_ ?_ heq
      · rintro rfl
        cases (isWide_of_isQuote hq).symm.trans (hgap q List.mem_cons_self)
      · rintro rfl
        cases hq

/-- Where a relative reference is resolved, the text differs from any other in which the first
letter of its name stays. -/
theorem Splits.anchored_ne {w rest s : Text} {r : Reference} {c : Char}
    (h : R.Splits (w ++ rest) (.kept c :: ps)) (hw : Written isWide HasQuote r w)
    (hr : isAbsolute r.target = false) :
    (Piece.kept c :: ps).flatMap (Piece.anchored base) ≠ r.resolved base ++ s := by
  intro heq
  obtain ⟨k, hk⟩ := exists_resolved base r
  obtain @⟨name, gap, tail, hname, hgap, _, hquote⟩ := hw
  simp only [List.append_assoc] at h
  obtain ⟨qs, hqs, h'⟩ := h.kept_name hname
  obtain ⟨u, v, l, rfl, _⟩ := hname.eq
  rw [hqs, List.flatMap_append, flatMap_kept, hk] at heq
  simp only [List.cons_append, List.nil_append, List.append_assoc, List.cons.injEq,
    true_and] at heq
  exact h'.slash_ne hgap hquote hr heq.2.2.2

theorem written_of_read? {w rest : Text} {r : Reference}
    (h : R.read? (w ++ rest) = some (r, rest)) : Written isWide HasQuote r w := by
  obtain ⟨w', hw, heq⟩ := R.reads h
  rwa [List.append_cancel_right heq]

/-- Pieces of one text that become the same are the same, as far as what starts a reference for both
readers is the same reference. -/
theorem Splits.eq_of_anchored (h : R.Splits t ps) (h' : R'.Splits t qs)
    (hagree : ∀ u, u <:+ t → ∀ x y, R.read? u = some x → R'.read? u = some y → x = y)
    (heq : ps.flatMap (Piece.anchored base) = qs.flatMap (Piece.anchored base)) : ps = qs := by
  induction h generalizing qs with
  | nil =>
    generalize ht : ([] : Text) = t at h'
    cases h' with
    | nil => rfl
    | kept => cases ht
    | relative hread =>
      have hw := (written_of_read? hread).ne_nil
      rw [eq_comm, List.append_eq_nil_iff] at ht
      exact absurd ht.1 hw
  | @kept t ps c h ih =>
    generalize hu : c :: t = u at h'
    cases h' with
    | nil => cases hu
    | kept _ h' =>
      cases hu
      have hagree' := fun v (hv : v <:+ t) => hagree v (hv.trans (List.suffix_cons c t))
      rw [ih h' hagree' (List.cons.inj heq).2]
    | relative hread hr h' =>
      exact absurd heq ((hu ▸ h.kept c).anchored_ne (written_of_read? hread) hr)
  | @relative w rest r ps hread hr h ih =>
    generalize hu : w ++ rest = u at h'
    cases h' with
    | nil =>
      rw [List.append_eq_nil_iff] at hu
      exact absurd hu.1 (written_of_read? hread).ne_nil
    | kept c h' =>
      exact absurd heq.symm ((hu ▸ h'.kept c).anchored_ne (written_of_read? hread) hr)
    | @relative w' rest' r' ps' hread' hr' h' =>
      cases hagree _ (List.suffix_refl _) _ _ hread (hu ▸ hread')
      obtain rfl := List.append_cancel_right hu
      have hagree' := fun v (hv : v <:+ rest) => hagree v (hv.trans (List.suffix_append w rest))
      rw [ih h' hagree' (List.append_cancel_left heq)]

end Reader

/-! ## Values on which the readers agree -/

/-- Whether a text ends in a word, or is empty behind one. -/
def wordAfter (afterWord : Bool) (t : Text) : Bool := t.foldl (fun _ c => isWord c) afterWord

/-- Whether no word starts in `unit` that the name of a reference starts with; `rest` is the text
behind it. -/
def lacksName (afterWord : Bool) : Text → Text → Bool
  | [], _ => true
  | c :: unit, rest =>
    (afterWord || !Text.startsIgnoringCase "url(" (c :: (unit ++ rest))) &&
      lacksName (isWord c) unit rest

/-- Whether the names of references start only what a scanner reads as references, and these have
simple targets. -/
def isTame (afterWord afterIdent : Bool) : Text → Bool
  | [] => true
  | c :: t =>
    match h : tokens.readAt? afterIdent (c :: t) with
    | some (r, rest) =>
      have := Reader.readAt?_length_lt h
      !afterWord && r.isSimple && isTame false false rest
    | none =>
      have := tokens.pass_length_lt c t
      let unit := (Lexeme.first c t).1.text
      lacksName afterWord unit (tokens.pass c t).2 &&
        isTame (wordAfter afterWord unit) (tokens.pass c t).1 (tokens.pass c t).2
termination_by t => t.length
decreasing_by all_goals exact this

theorem pieces_of_lacksName {afterWord : Bool} {unit rest : Text}
    (h : lacksName afterWord unit rest = true) :
    pattern.pieces afterWord (unit ++ rest) =
      unit.map .kept ++ pattern.pieces (wordAfter afterWord unit) rest := by
  induction unit generalizing afterWord with
  | nil => rfl
  | cons c unit ih =>
    rw [lacksName, Bool.and_eq_true, Bool.or_eq_true, Bool.not_eq_true'] at h
    have hread : pattern.readAt? afterWord (c :: (unit ++ rest)) = none := by
      rcases h.1 with hword | hname
      · rw [hword]
        rfl
      · unfold Reader.readAt?
        split_ifs
        · rfl
        · exact if_neg (Bool.eq_false_iff.1 hname)
    have hbefore : Text.before (c :: (unit ++ rest)) (unit ++ rest) = [c] :=
      Text.before_append [c] _
    rw [List.cons_append, Reader.pieces_pass hread]
    simp only [pattern, hbefore, List.map_cons, List.map_nil, List.cons_append, List.nil_append]
    exact congrArg (Piece.kept c :: ·) (ih h.2)

theorem pieces_of_isTame {afterWord afterIdent : Bool} {t : Text}
    (h : isTame afterWord afterIdent t = true) :
    pattern.pieces afterWord t = tokens.pieces afterIdent t := by
  fun_induction isTame afterWord afterIdent t with
  | case1 => rw [Reader.pieces_nil, Reader.pieces_nil]
  | case2 afterWord afterIdent c t r rest hread _ ih =>
    simp only [Bool.and_eq_true, Bool.not_eq_true'] at h
    obtain ⟨⟨rfl, hsimple⟩, htame⟩ := h
    obtain ⟨w, _, ht⟩ := tokens.reads (Reader.read?_of_readAt? hread)
    have hpattern : pattern.readAt? false (c :: t) = some (r, rest) :=
      read?_of_token? (Reader.read?_of_readAt? hread) hsimple
    rw [ht] at hread hpattern ⊢
    rw [Reader.pieces_read hread, Reader.pieces_read hpattern, ih htame]
  | case3 afterWord afterIdent c t hread _ unit ih =>
    rw [Bool.and_eq_true] at h
    have ht : unit ++ (tokens.pass c t).2 = c :: t := Lexeme.first_text c t
    have hbefore : Text.before (c :: t) (tokens.pass c t).2 = unit := by
      rw [← ht, Text.before_append]
    rw [Reader.pieces_pass hread, hbefore, ← ih h.2, ← pieces_of_lacksName h.1, ht]

/-! ## What the rewriting does to a value -/

/-- The text with the relative references that a reader finds in it seen from the directory of
`source`. -/
def Reader.anchor (R : Reader) (source t : Text) : Text :=
  (R.pieces false t).flatMap (Piece.anchored (Path.directory source))

theorem anchor_pattern (source t : Text) : pattern.anchor source t = Text.anchorReferences source t :=
  (anchorFrom_eq _ _ _).symm

/-- The tokens of a value make it up. Its rewriting does what they ask for if the pattern finds the
same relative references as a scanner; in a value without escapes and of no white space but blanks,
only then. It does if every name of a reference at the start of a word starts a reference with a
simple target. -/
theorem anchorReferences_tokens (source value : Text) :
    (tokens.pieces false value).flatMap Piece.text = value ∧
    (pattern.pieces false value = tokens.pieces false value →
      Text.anchorReferences source value = tokens.anchor source value) ∧
    (isOrdinary value = true → Text.anchorReferences source value = tokens.anchor source value →
      pattern.pieces false value = tokens.pieces false value) ∧
    (isTame false false value = true →
      pattern.pieces false value = tokens.pieces false value) := by
  have hpattern := Reader.splits_pieces pattern false value
  have htokens := Reader.splits_pieces tokens false value
  refine ⟨htokens.flatMap_text, fun h => ?_, fun hordinary h => ?_, pieces_of_isTame⟩
  · rw [← anchor_pattern, Reader.anchor, h, Reader.anchor]
  · rw [← anchor_pattern] at h
    refine hpattern.eq_of_anchored htokens ?_ h
    intro u hu x y hx hy
    have hu' : isOrdinary u = true := List.all_eq_true.2 fun c hc =>
      List.all_eq_true.1 hordinary c (hu.subset hc)
    exact Option.some.inj ((token?_of_read? hu' hx).symm.trans hy)

theorem anchorReferences_tokens_list :
    isOrdinary "url(../a.png) \"x\", URL( 'b.svg' )" = true ∧
    isTame false false "url(../a.png) \"x\", URL( 'b.svg' )" = true ∧
    pattern.pieces false "url(../a.png) \"x\", URL( 'b.svg' )" =
      tokens.pieces false "url(../a.png) \"x\", URL( 'b.svg' )" ∧
    Text.anchorReferences "ui/css/m.css" "url(../a.png) \"x\", URL( 'b.svg' )" =
      tokens.anchor "ui/css/m.css" "url(../a.png) \"x\", URL( 'b.svg' )" ∧
    tokens.anchor "ui/css/m.css" "url(../a.png) \"x\", URL( 'b.svg' )" =
      "url(/ui/a.png) \"x\", url('/ui/css/b.svg')" := by
  have hordinary : isOrdinary "url(../a.png) \"x\", URL( 'b.svg' )" = true := by decide +kernel
  have htame : isTame false false "url(../a.png) \"x\", URL( 'b.svg' )" = true := by decide +kernel
  obtain ⟨_, hanchor, hpieces, hsame⟩ :=
    anchorReferences_tokens "ui/css/m.css" "url(../a.png) \"x\", URL( 'b.svg' )"
  refine ⟨hordinary, htame, hpieces hordinary (hanchor (hsame htame)), hanchor (hsame htame), ?_⟩
  decide +kernel

/-- The pattern knows no identifiers and no literals: it takes a reference out of a function whose
name ends like one, and out of a literal. -/
theorem anchorReferences_ne_tokens :
    (Text.anchorReferences "css/a.css" "my-url(b.png)" = "my-url(/css/b.png)" ∧
      tokens.anchor "css/a.css" "my-url(b.png)" = "my-url(b.png)") ∧
    (Text.anchorReferences "css/a.css" "\"url(b.png)\"" = "\"url(/css/b.png)\"" ∧
      tokens.anchor "css/a.css" "\"url(b.png)\"" = "\"url(b.png)\"") := by
  refine ⟨⟨?_, ?_⟩, ?_, ?_⟩ <;> decide +kernel

end Stylesmith.Reference
