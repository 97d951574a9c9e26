import Stylesmith.Proofs.Minify.Quantities

set_option autoImplicit false

namespace Stylesmith.Value

open Lexeme (isIdent isQuote)
open Numeral (ofParts Parts)

/-- Whether no numeral is read behind a character. -/
def blocks (last : Option Char) : Bool := last.any fun c => isIdent c || c == '.' || c == '#'

/-- Whether a value has no literals, references, escapes or hash signs. -/
structure Plain (t : Text) : Prop where
  characters : ∀ c ∈ t, isQuote c = false ∧ c ≠ '\\' ∧ c ≠ '#'
  references : ∀ s ∈ t.tails, Text.startsIgnoringCase "url(" s = false

instance (t : Text) : Decidable (Plain t) :=
  decidable_of_iff ((t.all fun c => decide (isQuote c = false ∧ c ≠ '\\' ∧ c ≠ '#')) ∧
    t.tails.all fun s => decide (Text.startsIgnoringCase "url(" s = false))
    ⟨fun h => ⟨fun c hc => of_decide_eq_true (List.all_eq_true.1 h.1 c hc),
      fun s hs => of_decide_eq_true (List.all_eq_true.1 h.2 s hs)⟩,
    fun h => ⟨List.all_eq_true.2 fun c hc => decide_eq_true (h.characters c hc),
      List.all_eq_true.2 fun s hs => decide_eq_true (h.references s hs)⟩⟩

namespace Plain

variable {c : Char} {t w : Text}

theorem append_right (h : Plain (w ++ t)) : Plain t where
  characters c hc := h.characters c (List.mem_append_right _ hc)
  references s hs := h.references s ((List.mem_tails s _).2
    (((List.mem_tails s t).1 hs).trans (List.suffix_append w t)))

theorem tail (h : Plain (c :: t)) : Plain t := append_right (w := [c]) h

theorem not_reference (h : Plain (c :: t)) (last : Option Char) :
    opensReference last (c :: t) = false := by
  rw [opensReference, h.references _ ((List.mem_tails _ _).2 List.suffix_rfl), Bool.false_and]

theorem first_plain (h : Plain (c :: t)) {last : Option Char}
    (hn : opensNumber last (c :: t) = false) : first last c t = (.plain c, t) := by
  obtain ⟨hq, he, hh⟩ := h.characters c List.mem_cons_self
  by_cases hm : c = ' ' ∨ c = '(' ∨ c = ')'
  · exact first_mark hm
  · exact Value.first_plain (isSpecial_eq_false_iff.2 ⟨hq, hm, hh, he⟩) (h.not_reference last) hn

end Plain

def keptUnit (keepUnit : Bool) (depth : ℕ) (numeral unit : Text) : Text :=
  if !keepUnit && depth == 0 && Numeral.shorten numeral == ['0'] &&
      lengthUnits.contains (Text.lowerAscii unit) then [] else unit

section Compact

variable {p : Place} {c : Char} {t k w : Text}

def Place.behind (p : Place) (w : Text) : Place := ⟨p.keepUnit, p.depth, w.getLast?.or p.last⟩

theorem blocks_of_isIdent {last : Option Char} (h : last.any isIdent = true) :
    blocks last = true := by
  obtain ⟨d, rfl, hd⟩ := (Option.any_eq_true _ _).1 h
  simp [blocks, hd]

theorem not_mark_of_blocks (h : blocks (some c) = true) : ¬ (c = ' ' ∨ c = '(' ∨ c = ')') := by
  rintro (rfl | rfl | rfl) <;> revert h <;> decide

theorem deepen_of_blocks (h : blocks (some c) = true) (depth : ℕ) :
    (Token.char c).deepen depth = depth := by
  have hmark := not_mark_of_blocks h
  rw [Token.deepen, if_neg fun hc => hmark (.inr (.inl hc)),
    if_neg fun hc => hmark (.inr (.inr hc))]

theorem opensNumber_of_blocks {last : Option Char} (h : blocks last = true) (t : Text) :
    opensNumber last t = false := by
  change (!blocks last && Numeral.starts t) = false
  rw [h, Bool.not_true, Bool.false_and]

theorem opensNumber_of_not_starts {last : Option Char} (h : Numeral.starts t = false) :
    opensNumber last t = false := by
  rw [opensNumber, h, Bool.and_false]

theorem compact_plain (h : Plain (c :: t)) (hn : opensNumber p.last (c :: t) = false)
    (hc : c ≠ ' ') : p.compact (c :: t) =
      c :: Place.compact ⟨p.keepUnit, (Token.char c).deepen p.depth, some c⟩ t := by
  have hfirst := h.first_plain hn
  rw [compact_of_first hfirst hc, Place.after, written_of_first hfirst hc, hfirst]
  rfl

theorem getLast_cons_or (c : Char) (w : Text) (last : Option Char) :
    (c :: w).getLast?.or last = w.getLast?.or (some c) := by
  rw [List.getLast?_cons]
  cases w.getLast? <;> rfl

theorem behind_cons (p : Place) (c : Char) (w : Text) :
    Place.behind ⟨p.keepUnit, p.depth, some c⟩ w = p.behind (c :: w) := by
  rw [Place.behind, Place.behind, getLast_cons_or]

theorem compact_blocked (hp : blocks p.last = true)
    (hw : ∀ d ∈ w, isIdent d = true ∨ d = '.') (h : Plain (w ++ k)) :
    p.compact (w ++ k) = w ++ (p.behind w).compact k := by
  induction w generalizing p with
  | nil => rfl
  | cons d w ih =>
    rw [List.forall_mem_cons] at hw
    have hblocks : blocks (some d) = true := by
      rcases hw.1 with hd | rfl
      · simp [blocks, hd]
      · rfl
    have hspace : d ≠ ' ' := fun hd => not_mark_of_blocks hblocks (.inl hd)
    rw [List.cons_append] at h ⊢
    rw [compact_plain h (opensNumber_of_blocks hp _) hspace, deepen_of_blocks hblocks,
      ih hblocks hw.2 h.tail, behind_cons]
    rfl

theorem startsFraction_compact (hp : p.last.any isIdent = true) (h : Plain t)
    (ht : t.head?.any isIdent = false) :
    Numeral.StartsFraction (p.compact t) ↔ Numeral.StartsFraction t := by
  have hnone : opensNumber p.last t = false := opensNumber_of_isIdent hp
  constructor
  · intro hk
    have hstarts : Numeral.startsUnsigned t = true :=
      startsUnsigned_compact (ne_separator_of_isIdent hp)
        (fun ho => absurd (hnone.symm.trans ho) Bool.false_ne_true)
        (Numeral.startsUnsigned_iff.2 (.inr hk))
    rcases Numeral.startsUnsigned_iff.1 hstarts with hd | hf
    · rw [not_digit_of_not_isIdent ht] at hd
      cases hd
    · exact hf
  · rintro ⟨d, rest, rfl, hd⟩
    have hspace : d ≠ ' ' := by
      rintro rfl
      cases hd
    rw [compact_plain h hnone (by decide), compact_plain h.tail rfl hspace]
    exact ⟨d, _, rfl, hd⟩

theorem compact_word (hc : isIdent c = true) (hw : ∀ d ∈ w, isIdent d = true)
    (h : Plain (c :: (w ++ k))) (hstarts : Numeral.starts (c :: (w ++ k)) = false) :
    p.compact (c :: (w ++ k)) = c :: (w ++ (p.behind (c :: w)).compact k) := by
  have hblocks : blocks (some c) = true := blocks_of_isIdent hc
  have hspace : c ≠ ' ' := fun hspace => not_mark_of_blocks hblocks (.inl hspace)
  rw [compact_plain h (opensNumber_of_not_starts hstarts) hspace, deepen_of_blocks hblocks,
    compact_blocked hblocks (fun d hd => .inl (hw d hd)) h.tail, behind_cons]

/-- What is written for the text behind a word does not make a number of it. -/
theorem not_starts_word (hc : isIdent c = true) (hw : ∀ d ∈ w, isIdent d = true)
    (hp : p.last.any isIdent = true) (hstarts : Numeral.starts (c :: (w ++ k)) = false) :
    Numeral.starts (c :: (w ++ p.compact k)) = false := by
  rw [Numeral.starts] at hstarts ⊢
  split_ifs at hstarts ⊢ with hsign
  · cases w with
    | nil =>
      refine Bool.eq_false_iff.2 fun hout => Bool.eq_false_iff.1 hstarts ?_
      refine startsUnsigned_compact (ne_separator_of_isIdent hp) (fun ho => ?_) hout
      rw [opensNumber_of_isIdent hp] at ho
      cases ho
    | cons d w =>
      rw [List.cons_append, startsUnsigned_of_isIdent (hw d List.mem_cons_self)] at hstarts ⊢
      exact hstarts
  · rw [startsUnsigned_of_isIdent hc] at hstarts ⊢
    exact hstarts

end Compact

section Number

variable {q : Place} {sign whole fraction exponent unit rest : Text}
  {sign' whole' fraction' left : Text}

/-- What is left of a number before the text `rest`: a numeral with the same exponent, and the unit
or nothing. -/
structure Leaves (sign whole fraction exponent unit rest sign' whole' fraction' left : Text) :
    Prop where
  reading : Reading sign whole fraction exponent unit rest
  parts : Parts sign' whole' fraction' exponent
  unit : left = unit ∨ left = [] ∧ unit ≠ ['%']
  plain : Plain rest

namespace Leaves

variable (h : Leaves sign whole fraction exponent unit rest sign' whole' fraction' left)

include h

theorem isIdent_left (hne : unit ≠ ['%']) : ∀ d ∈ left, isIdent d = true := by
  rcases h.unit with rfl | ⟨rfl, _⟩
  · exact (h.reading.isIdent_unit hne).1
  · simp

theorem isIdent_behind (p : Place) (hne : unit ≠ ['%']) :
    (p.behind (ofParts sign' whole' fraction' exponent ++ left)).last.any isIdent = true :=
  isIdent_getLast_append h.parts.getLast_ofParts (h.isIdent_left hne) p.last

/-- What is left of a number ends before the compact text, unless that goes on with its digits. -/
theorem ends_compact (hne : unit ≠ ['%']) (hq : q.last.any isIdent = true)
    (hplus : unit = ['e'] ∨ unit = ['E'] → exponent = [] → rest.head? ≠ some '+')
    (hfraction : left = [] → exponent = [] → fraction' = [] → ¬ Numeral.StartsFraction rest) :
    Numeral.Ends fraction' exponent (left ++ q.compact rest) where
  not_digit := by
    cases left with
    | nil => exact not_digit_of_not_isIdent (not_isIdent_compact hq (h.reading.isIdent_unit hne).2)
    | cons d left =>
      obtain rfl : d :: left = unit := h.unit.resolve_right fun hnil => by cases hnil.1
      exact h.reading.ends.not_digit
  not_exponent := by
    intro hexponent hstarts
    have hk := not_isIdent_compact hq (h.reading.isIdent_unit hne).2
    rcases h.unit with rfl | ⟨rfl, _⟩
    · rcases startsExponent_append hk rest hstarts with hbefore | ⟨e, out, rfl, hE, hout, _⟩
      · exact h.reading.ends.not_exponent hexponent hbefore
      · obtain ⟨u, rfl, _⟩ := compact_eq_plus hq hout
        refine hplus ?_ hexponent rfl
        simpa using Numeral.isE_iff.1 hE
    · exact not_startsExponent_of_not_isIdent hk hstarts
  not_fraction := by
    intro hexponent hnone hstarts
    cases left with
    | nil =>
      exact hfraction rfl hexponent hnone
        ((startsFraction_compact hq h.plain (h.reading.isIdent_unit hne).2).1 hstarts)
    | cons d left =>
      obtain ⟨_, _, he, _⟩ := hstarts
      have hd := h.isIdent_left hne d List.mem_cons_self
      rw [(List.cons.inj he).1] at hd
      cases hd

/-- Where nothing is read together, what is left of a number is read before the compact text. -/
theorem reading_compact (hlast : unit ≠ ['%'] → q.last.any isIdent = true)
    (hplus : unit = ['e'] ∨ unit = ['E'] → exponent = [] → rest.head? ≠ some '+')
    (hfraction : left = [] → exponent = [] → fraction' = [] → ¬ Numeral.StartsFraction rest)
    (hpercent : left ≠ unit → rest.head? ≠ some '%') :
    Reading sign' whole' fraction' exponent left (q.compact rest) := by
  by_cases hne : unit = ['%']
  · obtain rfl : left = ['%'] := hne ▸ h.unit.resolve_right fun hleft => hleft.2 hne
    exact reading_percent h.parts _
  have hq := hlast hne
  have hk := not_isIdent_compact hq (h.reading.isIdent_unit hne).2
  refine ⟨h.parts, h.ends_compact hne hq hplus hfraction,
    spanUnit_append (h.isIdent_left hne) hk fun hnil hhead => ?_⟩
  rcases head_compact_of_isIdent hq rest with hsame | ⟨d, hd, hsep⟩
  -- The percent sign is that of the value, where it would be the unit if there were no other.
  · rw [hsame] at hhead
    refine hpercent (fun hu => ?_) hhead
    obtain ⟨u, rfl⟩ : ∃ u, rest = '%' :: u := ⟨rest.tail, (List.cons_head?_tail hhead).symm⟩
    have hspans := h.reading.spans
    rw [← hu, hnil] at hspans
    cases hspans
  · rw [hsep] at hhead
    rcases hd with rfl | rfl | rfl <;> cases hhead

end Leaves

theorem keptUnit_cases (keepUnit : Bool) (depth : ℕ) (numeral unit : Text) :
    keptUnit keepUnit depth numeral unit = unit ∨
      keptUnit keepUnit depth numeral unit = [] ∧ unit ≠ ['%'] := by
  unfold keptUnit
  split_ifs with hdrop
  · exact .inr ⟨rfl, ne_percent_of_lengthUnits (Bool.and_eq_true_iff.1 hdrop).2⟩
  · exact .inl rfl

variable {p : Place}

theorem compact_number (h : Reading sign whole fraction exponent unit rest)
    (hp : blocks p.last = false)
    (hplain : Plain (ofParts sign whole fraction exponent ++ (unit ++ rest))) :
    let numeral := ofParts sign whole fraction exponent
    let left := Numeral.shorten numeral ++ keptUnit p.keepUnit p.depth numeral unit
    p.compact (numeral ++ (unit ++ rest)) = left ++ (p.behind left).compact rest := by
  intro numeral left
  obtain ⟨hstarts, hspan⟩ := h.parts.span_append h.ends
  cases htext : numeral ++ (unit ++ rest) with
  | nil =>
    rw [htext] at hstarts
    cases hstarts
  | cons c t =>
    rw [htext] at hstarts hspan hplain
    have hs : isSpecial c = false := by
      obtain ⟨w, hw⟩ := head_span hstarts
      exact isSpecial_of_isPart (Numeral.isPart_of_mem_span hstarts (hw ▸ List.mem_cons_self))
    have hn : opensNumber p.last (c :: t) = true := by
      change (!blocks p.last && Numeral.starts (c :: t)) = true
      rw [hp, hstarts]
      rfl
    have hfirst : first p.last c t = (.number numeral unit, rest) := by
      rw [first_number hs (hplain.not_reference p.last) hn, hspan]
      dsimp only
      rw [h.spans]
    have hwritten : p.written c t = left := by
      rw [Place.written, hfirst, Piece.compact]
      dsimp only [left]
      unfold keptUnit
      split_ifs
      · rw [List.append_nil]
      · rfl
    rw [Place.compact_cons, Place.after, hwritten, hfirst]
    rfl

theorem compact_number_blocked (h : Reading sign whole fraction exponent unit rest)
    (hp : blocks p.last = true)
    (hplus : '+' ∉ ofParts sign whole fraction exponent)
    (hplain : Plain (ofParts sign whole fraction exponent ++ (unit ++ rest))) :
    let numeral := ofParts sign whole fraction exponent
    p.compact (numeral ++ (unit ++ rest)) =
      numeral ++ unit ++ (p.behind (numeral ++ unit)).compact rest := by
  intro numeral
  have hnumeral : ∀ d ∈ numeral, isIdent d = true ∨ d = '.' := by
    intro d hd
    rcases isPart_iff.1 (h.parts.isPart_of_mem hd) with hdigit | rfl | rfl | rfl | rfl | rfl
    · exact .inl (isIdent_of_isDigit hdigit)
    · exact absurd hd hplus
    all_goals simp [isIdent]
  by_cases hne : unit = ['%']
  · subst hne
    have hbehind : Place.mk p.keepUnit p.depth (some '%') = p.behind (numeral ++ ['%']) := by
      rw [Place.behind, List.getLast?_append]
      rfl
    have hpercent : Plain ('%' :: rest) := hplain.append_right
    rw [compact_blocked hp hnumeral hplain, List.singleton_append, compact_plain
      hpercent (opensNumber_of_not_starts rfl) (by decide), ← hbehind, List.append_assoc]
    rfl
  · have hall : ∀ d ∈ numeral ++ unit, isIdent d = true ∨ d = '.' := by
      intro d hd
      rcases List.mem_append.1 hd with hd | hd
      · exact hnumeral d hd
      · exact .inl ((h.isIdent_unit hne).1 d hd)
    rw [← List.append_assoc] at hplain
    rw [← List.append_assoc, compact_blocked hp hall hplain]

end Number

end Stylesmith.Value
