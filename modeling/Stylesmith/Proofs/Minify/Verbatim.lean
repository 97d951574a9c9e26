import Stylesmith.Proofs.Minify.Steady

/-!
# Literals and references in compact values

A scan of a text, character by character, picks out its literals and references. A compact value has
the same ones as the value: what is written in another way between them neither opens nor closes one,
and what stands before a reference ends a word in both or in none.
-/

set_option autoImplicit false

namespace Stylesmith.Value

open Lexeme (isIdent isQuote)

/-- Where a scan for literals and references stands. -/
inductive Mode where
  /-- Outside of both. `word` says that an identifier character stands before, and `hash` that a
  hash sign does, with letters and digits at most in between. -/
  | outside (word hash : Bool)
  | literal (quote : Char)
  | reference (quote : Option Char)

namespace Mode

def isInside : Mode → Bool
  | outside _ _ => false
  | literal _ | reference _ => true

def next (c : Char) (t : Text) : Mode → Mode
  | outside word hash =>
    if hash && c.isAlphanum then outside true true
    else if isQuote c then literal c
    else if c = '#' then outside false true
    else if Text.startsIgnoringCase "url(" (c :: t) && !word then reference none
    else outside (isIdent c) false
  | literal quote => if c = quote then outside false false else literal quote
  | reference (some quote) => reference (if c = quote then none else some quote)
  | reference none =>
    if c = ')' then outside false false else reference (if isQuote c then some c else none)

def escaped (c : Char) : Mode → Mode
  | outside _ _ => outside (isIdent c) false
  | literal quote => literal quote
  | reference quote => reference quote

end Mode

/-- The tokens with `part` before them, which goes from one mode to another: it begins or continues
the first token, or is the end of a token, or belongs to none. -/
def lead (m : Mode) (part : Text) (m' : Mode) (tokens : List Text) : List Text :=
  if m'.isInside then (part ++ tokens.head?.getD []) :: tokens.tail
  else if m.isInside then part :: tokens
  else tokens

/-- The literals and references of a text, scanned from some mode on. The first one is what is left of
it if the scan starts inside. -/
def extract (m : Mode) : Text → List Text
  | [] => if m.isInside then [[]] else []
  | '\\' :: c :: t => lead m ['\\', c] (m.escaped c) (extract (m.escaped c) t)
  | c :: t => lead m [c] (m.next c t) (extract (m.next c t) t)

def verbatims (t : Text) : List Text := extract (.outside false false) t

section Extract

variable {c : Char} {t k : Text} {word : Bool}

theorem extract_cons (m : Mode) (hne : ∀ d u, c = '\\' → t = d :: u → False) :
    extract m (c :: t) = lead m [c] (m.next c t) (extract (m.next c t) t) := by
  rw [extract]
  exact hne

theorem extract_plain (m : Mode) (hc : c ≠ '\\') :
    extract m (c :: t) = lead m [c] (m.next c t) (extract (m.next c t) t) :=
  extract_cons m fun _ _ h => absurd h hc

theorem extract_literal (quote : Char) (t : Text) : extract (.literal quote) t =
    (spanLiteral quote t).1 :: extract (.outside false false) (spanLiteral quote t).2 := by
  fun_induction Lexeme.spanLiteral quote t with
  | case1 => rfl
  | case2 c t body rest h ih =>
    rw [extract, Mode.escaped, ih, spanLiteral, spanLiteral, Lexeme.spanLiteral, h]
    cases rest <;> rfl
  | case3 t hne =>
    rw [extract_cons _ hne, Mode.next, if_pos rfl, spanLiteral, Lexeme.spanLiteral, if_pos rfl]
    · rfl
    · exact hne
  | case4 c t hne hc body rest h ih =>
    rw [extract_cons _ hne, Mode.next, if_neg hc, ih, spanLiteral, spanLiteral, h,
      Lexeme.spanLiteral, if_neg hc, h]
    · cases rest <;> rfl
    · exact hne

theorem extract_reference (quote : Option Char) (t : Text) : extract (.reference quote) t =
    (spanReference quote t).1 :: extract (.outside false false) (spanReference quote t).2 := by
  fun_induction spanReference quote t with
  | case1 => rfl
  | case2 quote c t body rest h ih =>
    rw [extract, Mode.escaped, ih, h]
    rfl
  | case3 c t hne q body rest h ih =>
    rw [extract_cons _ hne, Mode.next, ih, h]
    rfl
  | case4 t hne =>
    rw [extract_cons _ hne]
    rfl
  | case5 c t hne hc body rest h ih =>
    rw [extract_cons _ hne, Mode.next, if_neg hc, ih, h]
    rfl

theorem next_outside {word hash : Bool} (hhash : (hash && c.isAlphanum) = false)
    (hq : isQuote c = false) (hh : c ≠ '#')
    (hurl : (Text.startsIgnoringCase "url(" (c :: t) && !word) = false) :
    (Mode.outside word hash).next c t = .outside (isIdent c) false := by
  rw [Mode.next, hhash, hq, hurl, if_neg Bool.false_ne_true, if_neg Bool.false_ne_true, if_neg hh,
    if_neg Bool.false_ne_true]

/-- Outside, a character that begins nothing only tells whether a word stands before what follows. -/
theorem extract_other (hs : isSpecial c = false)
    (hurl : (Text.startsIgnoringCase "url(" (c :: t) && !word) = false) :
    extract (.outside word false) (c :: t) = extract (.outside (isIdent c) false) t := by
  obtain ⟨hq, _, hh, he⟩ := isSpecial_eq_false_iff.1 hs
  rw [extract_plain _ he, next_outside rfl hq hh hurl]
  rfl

theorem not_url_of_ne (h : c.toLower ≠ 'u') : Text.startsIgnoringCase "url(" (c :: t) = false := by
  have ho := @opensReference_ne c t none h
  rwa [opensReference, Option.any_none, Bool.not_false, Bool.and_true] at ho

/-- What stands before matters only to the name of a reference and to what goes on with it. -/
theorem extract_of_head {hash : Bool} (word word' : Bool)
    (h : ∀ d ∈ t.head?, d.toLower ≠ 'u' ∧ (hash && d.isAlphanum) = false) :
    extract (.outside word hash) t = extract (.outside word' false) t := by
  cases t with
  | nil => rfl
  | cons c t =>
    obtain ⟨hu, hhash⟩ := h c rfl
    have hurl := @not_url_of_ne c t hu
    have hnext : (Mode.outside word hash).next c t = (Mode.outside word' false).next c t := by
      rw [Mode.next, Mode.next, hurl, hhash]
      rfl
    by_cases hc : c = '\\'
    · subst hc
      cases t with
      | nil => rw [extract_cons _ (by simp), extract_cons _ (by simp), hnext]; rfl
      | cons d t => rfl
    · rw [extract_plain _ hc, extract_plain _ hc, hnext]
      rfl

theorem extract_mark (word : Bool) (hc : c = ' ' ∨ c = '(' ∨ c = ')') :
    extract (.outside word false) (c :: t) = extract (.outside false false) t := by
  have hurl : Text.startsIgnoringCase "url(" (c :: t) = false :=
    not_url_of_ne (by rcases hc with rfl | rfl | rfl <;> decide)
  rw [extract_plain _ (by rcases hc with rfl | rfl | rfl <;> decide), next_outside rfl
    (by rcases hc with rfl | rfl | rfl <;> rfl) (by rcases hc with rfl | rfl | rfl <;> decide)
    (by rw [hurl, Bool.false_and])]
  rcases hc with rfl | rfl | rfl <;> rfl

theorem extract_run {run : Text} (hrun : ∀ d ∈ run, d.isAlphanum = true)
    (hk : k.head?.any Char.isAlphanum = false) (word word' : Bool) :
    extract (.outside word true) (run ++ k) = extract (.outside word' false) k := by
  induction run generalizing word with
  | nil =>
    refine extract_of_head word word' fun d hd => ?_
    have hd : d.isAlphanum = false := by
      rw [show k.head? = some d from hd] at hk
      exact hk
    refine ⟨fun hu => ?_, hd⟩
    rw [Char.isAlphanum, Scan.isAlpha_of_toLower hu rfl] at hd
    cases hd
  | cons c run ih =>
    rw [List.forall_mem_cons] at hrun
    have hne : c ≠ '\\' := by
      rintro rfl
      exact absurd hrun.1 (by decide)
    rw [List.cons_append, extract_plain _ hne, Mode.next, Bool.true_and, if_pos hrun.1]
    exact ih hrun.2 true

/-- What holds no letter `u` and nothing special is passed over. -/
theorem extract_solid {w : Text} (hs : ∀ d ∈ w, isSpecial d = false ∧ d.toLower ≠ 'u') :
    extract (.outside word false) (w ++ k) =
      extract (.outside ((w.getLast?.map isIdent).getD word) false) k := by
  induction w generalizing word with
  | nil => rfl
  | cons c w ih =>
    rw [List.forall_mem_cons] at hs
    rw [List.cons_append, extract_other hs.1.1 (by rw [not_url_of_ne hs.1.2, Bool.false_and]),
      ih hs.2, List.getLast?_cons]
    cases w.getLast? <;> rfl

theorem extract_word {w : Text} (hw : ∀ d ∈ w, isIdent d = true) :
    extract (.outside true false) (w ++ k) = extract (.outside true false) k := by
  induction w with
  | nil => rfl
  | cons c w ih =>
    rw [List.forall_mem_cons] at hw
    rw [List.cons_append, extract_other (isSpecial_of_isIdent hw.1) (Bool.and_false _), hw.1,
      ih hw.2]

theorem extract_enters_literal (hq : isQuote c = true) (word : Bool) :
    extract (.outside word false) (c :: t) =
      (c :: (spanLiteral c t).1) :: extract (.outside false false) (spanLiteral c t).2 := by
  rw [extract_plain _ (Lexeme.ne_backslash_of_isQuote hq), Mode.next, Bool.false_and,
    if_neg Bool.false_ne_true, if_pos hq, extract_literal]
  rfl

theorem extract_enters_reference (ho : opensReference none (c :: t) = true) :
    extract (.outside false false) (c :: t) =
      (c :: (spanReference none t).1) :: extract (.outside false false) (spanReference none t).2 := by
  rw [opensReference, Option.any_none] at ho
  obtain ⟨u, r, l, rest, he, hu, _⟩ :=
    Scan.startsIgnoringCase_url_iff.1 (Bool.and_eq_true_iff.1 ho).1
  obtain ⟨rfl, rfl⟩ := List.cons.inj he
  obtain ⟨hq, _, hh, hne⟩ := isSpecial_eq_false_iff.1
    (isSpecial_of_isIdent (UrlPart.isIdent_of_toLower hu rfl))
  rw [extract_plain _ hne, Mode.next, Bool.false_and, if_neg Bool.false_ne_true, hq,
    if_neg Bool.false_ne_true, if_neg hh, if_pos ho, extract_reference]
  rfl

theorem getLast_spanLiteral {quote : Char} (h : (spanLiteral quote t).2 ≠ []) :
    (spanLiteral quote t).1.getLast? = some quote := by
  unfold spanLiteral at *
  split at *
  · simp
  · exact absurd rfl h

theorem getLast_spanReference {quote : Option Char} (h : (spanReference quote t).2 ≠ []) :
    (spanReference quote t).1.getLast? = some ')' := by
  fun_induction spanReference quote t with
  | case1 => exact absurd rfl h
  | case4 => rfl
  | case2 _ _ _ _ _ hspan ih | case3 _ _ _ _ _ _ hspan ih | case5 _ _ _ _ _ _ hspan ih =>
    rw [hspan] at ih
    simp [List.getLast?_cons, ih h]

end Extract

section Compact

variable {p : Place} {c : Char} {t : Text}

def Place.mode (p : Place) : Mode := .outside (p.last.any isIdent) false

theorem Place.mode_eq {d : Char} (h : p.last = some d) : p.mode = .outside (isIdent d) false := by
  rw [mode, h]
  rfl

theorem last_after_token {d : Char} {token : Text} (hw : p.written c t = c :: token)
    (hd : token.getLast? = some d) : (p.after c t).last = some d := by
  show ((p.written c t).getLast?.or p.last) = some d
  rw [hw, List.getLast?_cons, hd]
  rfl

def Agrees (p : Place) (t : Text) : Prop := extract p.mode (p.compact t) = extract p.mode t

/-- Behind a token, the scan goes on outside of words. -/
theorem extract_behind {token rest : Text} {d : Char} (hd : isIdent d = false)
    (hw : p.written c t = c :: token) (hlast : rest ≠ [] → token.getLast? = some d)
    (ih : Agrees (p.after c t) rest) :
    extract (.outside false false) ((p.after c t).compact rest) =
      extract (.outside false false) rest := by
  by_cases hrest : rest = []
  · rw [hrest, Place.compact_nil]
  · rwa [Agrees, Place.mode_eq (last_after_token hw (hlast hrest)), hd] at ih

theorem agrees_literal (hq : isQuote c = true)
    (ih : Agrees (p.after c t) (first p.last c t).2) : Agrees p (c :: t) := by
  have hw : p.written c t = c :: (spanLiteral c t).1 := by
    rw [Place.written, first_literal hq]
    rfl
  rw [first_literal hq] at ih
  have hk : (spanLiteral c t).2 = [] → (p.after c t).compact (spanLiteral c t).2 = [] :=
    fun h => by rw [h, Place.compact_nil]
  have hident : isIdent c = false := by
    rcases Lexeme.isQuote_iff.1 hq with rfl | rfl <;> rfl
  rw [Agrees, Place.compact_cons, first_literal hq, hw, List.cons_append, Place.mode,
    extract_enters_literal hq, extract_enters_literal hq, spanLiteral_again hq t hk,
    extract_behind hident hw getLast_spanLiteral ih]

theorem agrees_reference (hs : isSpecial c = false) (ho : opensReference p.last (c :: t) = true)
    (ih : Agrees (p.after c t) (first p.last c t).2) : Agrees p (c :: t) := by
  have hw : p.written c t = c :: (spanReference none t).1 := by
    rw [Place.written, first_reference hs ho]
    rfl
  rw [first_reference hs ho] at ih
  have hk : (spanReference none t).2 = [] → (p.after c t).compact (spanReference none t).2 = [] :=
    fun h => by rw [h, Place.compact_nil]
  have hname : Text.startsIgnoringCase "url(" (c :: t) = true := (Bool.and_eq_true_iff.1 ho).1
  have hword : p.last.any isIdent = false := by simpa using (Bool.and_eq_true_iff.1 ho).2
  obtain ⟨u, r, l, rest, he, hu, hr, hl⟩ := Scan.startsIgnoringCase_url_iff.1 hname
  obtain ⟨rfl, rfl⟩ := List.cons.inj he
  have hopens : ∀ rest, opensReference none (c :: r :: l :: '(' :: rest) = true := fun rest => by
    rw [opensReference, Bool.and_eq_true]
    exact ⟨Scan.startsIgnoringCase_url_iff.2 ⟨c, r, l, rest, rfl, hu, hr, hl⟩, rfl⟩
  have hagain : opensReference none (c :: ((spanReference none (r :: l :: '(' :: rest)).1 ++
      (p.after c (r :: l :: '(' :: rest)).compact
        (spanReference none (r :: l :: '(' :: rest)).2)) = true := by
    rw [spanReference_name rest hr hl]
    exact hopens _
  rw [Agrees, Place.compact_cons, first_reference hs ho, hw, List.cons_append, Place.mode, hword,
    extract_enters_reference hagain, extract_enters_reference (hopens rest),
    spanReference_again none _ hk, extract_behind rfl hw getLast_spanReference ih]

theorem agrees_hash (ih : Agrees (p.after '#' t) (first p.last '#' t).2) : Agrees p ('#' :: t) := by
  have hw : p.written '#' t = '#' :: shortenHash (t.takeWhile Char.isAlphanum) := by
    rw [Place.written, first_hash]
    rfl
  have hsharp : ∀ u, extract p.mode ('#' :: u) = extract (.outside false true) u := fun u => by
    rw [extract_plain _ (by decide)]
    rfl
  have hrest : (first p.last '#' t).2.head?.any Char.isAlphanum = false :=
    Text.head_dropWhile Char.isAlphanum t
  have htext : t = t.takeWhile Char.isAlphanum ++ (first p.last '#' t).2 :=
    List.takeWhile_append_dropWhile.symm
  rw [Agrees, Place.compact_cons, hw, List.cons_append, hsharp, hsharp,
    extract_run (isAlphanum_shortenHash fun d hd => List.mem_takeWhile_imp hd) follows_hash false
      ((p.after '#' t).last.any isIdent)]
  conv => rhs; rw [htext, extract_run (fun d hd => List.mem_takeWhile_imp hd) hrest false
    ((p.after '#' t).last.any isIdent)]
  exact ih

theorem agrees_escape (ih : Agrees (p.after '\\' t) (first p.last '\\' t).2) :
    Agrees p ('\\' :: t) := by
  rw [Agrees, Place.compact_cons]
  cases t with
  | nil => rw [first_escape, Place.written, first_escape, List.drop_nil, Place.compact_nil]; rfl
  | cons d t =>
    have hw : p.written '\\' (d :: t) = ['\\', d] := by
      rw [Place.written, first_escape]
      rfl
    rw [Agrees, Place.mode_eq (last_after_token hw rfl)] at ih
    rw [hw]
    exact ih

theorem agrees_plain (hs : isSpecial c = false) (ho : opensReference p.last (c :: t) = false)
    (hn : opensNumber p.last (c :: t) = false)
    (ih : Agrees (p.after c t) (first p.last c t).2) : Agrees p (c :: t) := by
  have hfirst := first_plain hs ho hn
  have hspace : c ≠ ' ' := by
    rintro rfl
    cases hs
  have hagain : opensReference p.last (c :: (p.after c t).compact t) = false :=
    Bool.eq_false_iff.2 fun h => Bool.eq_false_iff.1 ho (opensReference_compact hfirst h)
  rw [hfirst, Agrees, Place.mode_eq (last_after_of_first hfirst hspace)] at ih
  rw [Agrees, compact_of_first hfirst hspace, Place.mode, extract_other hs hagain,
    extract_other hs ho]
  exact ih

theorem mode_of_dropsSpace (h : dropsSpace p.last t.head? = true) :
    extract p.mode t = extract (.outside false false) t := by
  rw [dropsSpace, Bool.or_eq_true, Option.any_eq_true, Option.any_eq_true] at h
  rcases h with ⟨d, hlast, hd⟩ | ⟨d, hhead, hd⟩
  · rw [Place.mode_eq hlast]
    simp only [Bool.or_eq_true, beq_iff_eq] at hd
    rcases hd with (rfl | rfl) | rfl <;> rfl
  · refine extract_of_head _ _ fun e he => ?_
    obtain rfl := Option.some.inj (hhead.symm.trans he)
    simp only [Bool.or_eq_true, beq_iff_eq] at hd
    rcases hd with (rfl | rfl) | rfl <;> decide

theorem agrees_mark (hc : c = ' ' ∨ c = '(' ∨ c = ')')
    (ih : Agrees (p.after c t) (first p.last c t).2) : Agrees p (c :: t) := by
  have hfirst := @first_mark p.last c t hc
  have hident : isIdent c = false := by rcases hc with rfl | rfl | rfl <;> rfl
  rw [hfirst] at ih
  have kept : p.written c t = [c] → Agrees p (c :: t) := by
    intro hw
    have hlast : (p.after c t).last = some c := by
      show ((p.written c t).getLast?.or p.last) = some c
      rw [hw]
      rfl
    rw [Agrees, Place.mode_eq hlast, hident] at ih
    rw [Agrees, Place.compact_cons, hw, hfirst, Place.mode, extract_mark _ hc]
    exact (extract_mark _ hc).trans ih
  by_cases hspace : c = ' '
  · subst hspace
    by_cases hdrop : dropsSpace p.last t.head? = true
    · have hw := written_dropped hdrop
      have hmode : (p.after ' ' t).mode = p.mode := by
        rw [Place.mode, Place.after, hw]
        rfl
      rw [Agrees, hmode, mode_of_dropsSpace hdrop] at ih
      rw [Agrees, Place.compact_cons, hw, hfirst, List.nil_append, ih]
      exact (extract_mark _ hc).symm
    · exact kept (written_kept hdrop)
  · exact kept (written_of_first hfirst hspace)

theorem extract_number {n v k : Text} (hn : ∀ d ∈ n, Numeral.isPart d = true)
    (hlast : ∃ d ∈ n.getLast?, d.isDigit = true) (hv : v = ['%'] ∨ ∀ d ∈ v, isIdent d = true)
    (word : Bool) : extract (.outside word false) (n ++ v ++ k) =
      extract (.outside (v != ['%']) false) k := by
  obtain ⟨d, hd, hdigit⟩ := hlast
  rw [List.append_assoc,
    extract_solid fun d hd => ⟨isSpecial_of_isPart (hn d hd), toLower_ne_of_isPart (hn d hd)⟩,
    Option.mem_def.1 hd, Option.map_some, Option.getD_some, isIdent_of_isDigit hdigit]
  rcases hv with rfl | hv
  · exact extract_other rfl (Bool.and_false _)
  · rw [extract_word hv]
    have hne : (v != ['%']) = true := by
      refine bne_iff_ne.2 ?_
      rintro rfl
      exact absurd (hv '%' List.mem_cons_self) (by decide)
    rw [hne]

theorem agrees_number (hs : isSpecial c = false) (ho : opensReference p.last (c :: t) = false)
    (hn : opensNumber p.last (c :: t) = true)
    (ih : Agrees (p.after c t) (first p.last c t).2) : Agrees p (c :: t) := by
  have hstarts := starts_of_opensNumber hn
  obtain ⟨v, hv, hw⟩ := written_unit hs ho hn
  have hunit : (spanUnit (Numeral.span (c :: t)).2).1 = ['%'] ∨
      ∀ d ∈ (spanUnit (Numeral.span (c :: t)).2).1, isIdent d = true :=
    (spanUnit_cases (Numeral.span (c :: t)).2).imp (·.2) (·.1)
  have htext : (Numeral.span (c :: t)).1 ++ (spanUnit (Numeral.span (c :: t)).2).1 ++
      (spanUnit (Numeral.span (c :: t)).2).2 = c :: t := by
    rw [List.append_assoc, spanUnit_text, Numeral.span_text]
  rw [first_number hs ho hn] at ih
  generalize (spanUnit (Numeral.span (c :: t)).2).1 = unit at *
  have hword : v = ['%'] ∨ ∀ d ∈ v, isIdent d = true := by
    rcases hv with rfl | ⟨rfl, _⟩
    · exact hunit
    · exact .inr (by simp)
  have hsame : (v != ['%']) = (unit != ['%']) := by
    rcases hv with rfl | ⟨rfl, hne⟩
    · rfl
    · exact (bne_iff_ne.2 hne).symm
  have hmode : (p.after c t).mode = .outside (v != ['%']) false := by
    have hlast : (p.after c t).last = (Numeral.shorten (Numeral.span (c :: t)).1 ++ v).getLast?.or
        p.last := by
      rw [← hw]
      rfl
    rw [Place.mode, hlast]
    rcases hword with rfl | hword
    · simp [isIdent]
    · rw [isIdent_getLast_append (Numeral.getLast_shorten hstarts) hword]
      have hne : v ≠ ['%'] := by
        rintro rfl
        exact absurd (hword '%' List.mem_cons_self) (by decide)
      rw [bne_iff_ne.2 hne]
  have hvalue : extract p.mode (c :: t) = extract (.outside (unit != ['%']) false)
      (spanUnit (Numeral.span (c :: t)).2).2 := by
    have hpass := @extract_number _ _ (spanUnit (Numeral.span (c :: t)).2).2
      (fun _ => Numeral.isPart_of_mem_span hstarts) (Numeral.getLast_span hstarts) hunit
      (p.last.any isIdent)
    rwa [htext] at hpass
  rw [Agrees, hmode] at ih
  rw [Agrees, Place.compact_cons, first_number hs ho hn, hw, hvalue, Place.mode,
    extract_number (fun _ => Numeral.isPart_of_mem_shorten hstarts)
      (Numeral.getLast_shorten hstarts) hword, ← hsame]
  exact ih

/-- Scanning a value and its compact text picks out the same. -/
theorem agrees (p : Place) (t : Text) : Agrees p t := by
  match t with
  | [] => rw [Agrees, Place.compact_nil]
  | c :: t =>
    have ih := agrees (p.after c t) (first p.last c t).2
    rcases kind p.last c t with hq | hc | rfl | rfl | ⟨hs, ho⟩ | ⟨hs, ho, hn⟩ | ⟨hs, ho, hn⟩
    · exact agrees_literal hq ih
    · exact agrees_mark hc ih
    · exact agrees_hash ih
    · exact agrees_escape ih
    · exact agrees_reference hs ho ih
    · exact agrees_number hs ho hn ih
    · exact agrees_plain hs ho hn ih
  termination_by t.length
  decreasing_by simpa using Nat.lt_succ_of_le (first_length_le p.last c t)

/-- The literals and references of a value are those of its compact text, character by character. -/
theorem verbatims_compact (property value : Text) :
    verbatims (compact property value) = verbatims value := by
  rw [compact]
  show verbatims (if _ then _ else _) = _
  split_ifs
  · rfl
  · exact agrees ⟨unitKeepers.contains (Text.lowerAscii property), 0, none⟩ value

example : verbatims "\"a , b\" 1.0px, no-url(c) URL( 'd)' )" = ["\"a , b\"", "URL( 'd)' )"] := by
  decide +kernel

end Compact

end Stylesmith.Value
