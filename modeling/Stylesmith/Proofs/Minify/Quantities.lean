import Stylesmith.Proofs.Minify.Amounts
import Stylesmith.Proofs.Minify.Steady

/-!
# The quantities of a value

A value is read from left to right, always the longest token first: a number with its unit, a word,
or a single character. Its quantities are what its numbers stand for.
-/

set_option autoImplicit false

namespace Stylesmith.Value

open Lexeme (isIdent)
open Numeral (ofParts Parts)

inductive Token where
  | number (numeral unit : Text)
  | word (t : Text)
  | char (c : Char)
  deriving DecidableEq, Repr

namespace Token

def text : Token → Text
  | number numeral unit => numeral ++ unit
  | word t => t
  | char c => [c]

def deepen (depth : ℕ) : Token → ℕ
  | char c => if c = '(' then depth + 1 else if c = ')' then depth - 1 else depth
  | _ => depth

def first (c : Char) (t : Text) : Token × Text :=
  if Numeral.starts (c :: t) then
    let (numeral, rest) := Numeral.span (c :: t)
    (number numeral (spanUnit rest).1, (spanUnit rest).2)
  else if isIdent c then (word (c :: t.takeWhile isIdent), t.dropWhile isIdent)
  else (char c, t)

theorem first_length_le (c : Char) (t : Text) : (first c t).2.length ≤ t.length := by
  unfold first
  split
  · rename_i h
    have hnumeral := Numeral.span_length_lt h
    have hunit := spanUnit_length_le (Numeral.span (c :: t)).2
    simp only [List.length_cons] at *
    omega
  split
  · exact (List.dropWhile_sublist _).length_le
  · exact Nat.le_refl _

/-- Whether a token is a number that begins with its point. -/
def isFraction : Token → Bool
  | number numeral _ => numeral.head? == some '.'
  | _ => false

theorem first_text (c : Char) (t : Text) : (first c t).1.text ++ (first c t).2 = c :: t := by
  unfold first
  split_ifs with h hc
  · rw [text, List.append_assoc, spanUnit_text, Numeral.span_text]
  · rw [text, List.cons_append, List.takeWhile_append_dropWhile]
  · rfl

theorem first_text_ne_nil (c : Char) (t : Text) : (first c t).1.text ≠ [] := by
  unfold first
  split_ifs with h hc
  · exact fun hnil => Numeral.span_ne_nil h (List.append_eq_nil_iff.1 hnil).1
  · exact List.cons_ne_nil _ _
  · exact List.cons_ne_nil _ _

theorem head_first (c : Char) (t : Text) : (first c t).1.text.head? = some c := by
  obtain ⟨d, w, hw⟩ := List.exists_cons_of_ne_nil (first_text_ne_nil c t)
  have htext := first_text c t
  rw [hw] at htext
  rw [hw, List.head?_cons, (List.cons.inj htext).1]

end Token

def tokens : Text → List Token
  | [] => []
  | c :: t => (Token.first c t).1 :: tokens (Token.first c t).2
termination_by t => t.length
decreasing_by simpa using Nat.lt_succ_of_le (Token.first_length_le c t)

/-- What a number stands for, and how many parentheses are open around it. -/
structure Quantity where
  amount : ℚ
  unit : Text
  depth : ℕ
  deriving DecidableEq

def quantities (depth : ℕ) : List Token → List Quantity
  | [] => []
  | .number numeral unit :: rest => ⟨Numeral.amount numeral, unit, depth⟩ :: quantities depth rest
  | .word _ :: rest => quantities depth rest
  | .char c :: rest => quantities ((Token.char c).deepen depth) rest

section Tokens

variable {c : Char} {t k unit sign whole fraction exponent : Text}

@[simp] theorem tokens_nil : tokens [] = [] := by
  rw [tokens]

theorem tokens_of_starts (h : Numeral.starts (c :: t) = true) : tokens (c :: t) =
    .number (Numeral.span (c :: t)).1 (spanUnit (Numeral.span (c :: t)).2).1 ::
      tokens (spanUnit (Numeral.span (c :: t)).2).2 := by
  rw [tokens, Token.first, if_pos h]

theorem startsUnsigned_of_isIdent (hc : isIdent c = true) :
    Numeral.startsUnsigned (c :: t) = c.isDigit := by
  unfold Numeral.startsUnsigned
  split
  · rename_i heq
    cases heq
    cases hc
  · rename_i heq
    cases heq
    rfl
  · rename_i heq
    cases heq

theorem tokens_of_isIdent (h : Numeral.starts (c :: t) = false) (hc : isIdent c = true) :
    tokens (c :: t) = .word (c :: t.takeWhile isIdent) :: tokens (t.dropWhile isIdent) := by
  rw [tokens, Token.first, h, if_neg Bool.false_ne_true, if_pos hc]

theorem tokens_of_not_isIdent (h : Numeral.starts (c :: t) = false) (hc : isIdent c = false) :
    tokens (c :: t) = .char c :: tokens t := by
  rw [tokens, Token.first, h, hc, if_neg Bool.false_ne_true, if_neg Bool.false_ne_true]

theorem head_tokens {d : Char} : t.head? = some d ↔
    ∃ token ∈ (tokens t).head?, token.text.head? = some d := by
  cases t with
  | nil => simp
  | cons c t => simp [tokens, Token.head_first]

theorem head_span (h : Numeral.starts (c :: t) = true) :
    ∃ w, (Numeral.span (c :: t)).1 = c :: w := by
  obtain ⟨d, w, hw⟩ := List.exists_cons_of_ne_nil (Numeral.span_ne_nil h)
  have htext := Numeral.span_text (c :: t)
  rw [hw] at htext
  exact ⟨w, by rw [hw, (List.cons.inj htext).1]⟩

theorem head_percent : (tokens t).head? = some (.char '%') ↔ t.head? = some '%' := by
  constructor
  · exact fun h => head_tokens.2 ⟨_, h, rfl⟩
  · intro h
    obtain ⟨u, rfl⟩ : ∃ u, t = '%' :: u := ⟨t.tail, (List.cons_head?_tail h).symm⟩
    rw [tokens_of_not_isIdent rfl rfl]
    rfl

theorem head_fraction : (tokens t).head?.any Token.isFraction = true ↔
    Numeral.StartsFraction t := by
  cases t with
  | nil =>
    constructor
    · exact fun h => by simp at h
    · rintro ⟨_, _, h, _⟩
      cases h
  | cons c t =>
    cases hstarts : Numeral.starts (c :: t) with
    | false =>
      have hnone : ¬ Numeral.StartsFraction (c :: t) := by
        rintro ⟨d, rest, h, hd⟩
        rw [h] at hstarts
        exact absurd (hstarts.symm.trans hd) Bool.false_ne_true
      have hfirst : (Token.first c t).1.isFraction = false := by
        rw [Token.first, hstarts, if_neg Bool.false_ne_true]
        split <;> rfl
      simp [tokens, hfirst, hnone]
    | true =>
      obtain ⟨w, hw⟩ := head_span hstarts
      have hfirst : (tokens (c :: t)).head?.any Token.isFraction = (c == '.') := by
        rw [tokens_of_starts hstarts, List.head?_cons, Option.any_some, Token.isFraction, hw]
        rfl
      rw [hfirst, beq_iff_eq]
      constructor
      · rintro rfl
        rcases Numeral.startsUnsigned_iff.1 (show Numeral.startsUnsigned ('.' :: t) = true from
          hstarts) with h | h
        · cases h
        · exact h
      · rintro ⟨_, _, h, _⟩
        exact (List.cons.inj h).1

structure Reading (sign whole fraction exponent unit rest : Text) : Prop where
  parts : Parts sign whole fraction exponent
  ends : Numeral.Ends fraction exponent (unit ++ rest)
  spans : spanUnit (unit ++ rest) = (unit, rest)

theorem Reading.plus (h : Reading [] whole fraction exponent unit k) :
    Reading ['+'] whole fraction exponent unit k where
  __ := h
  parts := h.parts.plus

theorem reading_of_starts (h : Numeral.starts t = true) :
    ∃ sign whole fraction exponent unit rest : Text,
      Reading sign whole fraction exponent unit rest ∧
        t = ofParts sign whole fraction exponent ++ (unit ++ rest) := by
  obtain ⟨sign, whole, fraction, exponent, hparts, hspan, hends⟩ := Numeral.parts_span h
  have hunit := spanUnit_text (Numeral.span t).2
  refine ⟨sign, whole, fraction, exponent, (spanUnit (Numeral.span t).2).1,
    (spanUnit (Numeral.span t).2).2, ⟨hparts, ?_, ?_⟩, ?_⟩
  · rwa [hunit]
  · rw [hunit]
  · rw [hunit, ← hspan, Numeral.span_text]

theorem tokens_ofParts (h : Reading sign whole fraction exponent unit k) :
    tokens (ofParts sign whole fraction exponent ++ (unit ++ k)) =
      .number (ofParts sign whole fraction exponent) unit :: tokens k := by
  obtain ⟨hstarts, hspan⟩ := h.parts.span_append h.ends
  cases htext : ofParts sign whole fraction exponent ++ (unit ++ k) with
  | nil =>
    rw [htext] at hstarts
    cases hstarts
  | cons c t =>
    rw [htext] at hstarts hspan
    rw [tokens_of_starts hstarts, hspan]
    dsimp only
    rw [h.spans]

/-- A percent sign is the unit of the number before it. -/
theorem reading_percent (h : Parts sign whole fraction exponent) (k : Text) :
    Reading sign whole fraction exponent ['%'] k := by
  refine ⟨h, ⟨rfl, ?_, ?_⟩, rfl⟩
  · rintro - ⟨e, _, he, hE, _⟩
    cases he
    cases hE
  · rintro - - ⟨_, _, he, _⟩
    cases he

/-- Any other unit is a word, or there is none. -/
theorem Reading.isIdent_unit (h : Reading sign whole fraction exponent unit k)
    (hne : unit ≠ ['%']) : (∀ d ∈ unit, isIdent d = true) ∧ k.head?.any isIdent = false := by
  have hcases := spanUnit_cases (unit ++ k)
  rw [h.spans] at hcases
  rcases hcases with ⟨_, hpercent⟩ | ⟨hunit, _, hk⟩
  · exact absurd hpercent hne
  · exact ⟨hunit, hk⟩

theorem tokens_word_append (h : Numeral.starts (c :: (t ++ k)) = false) (hc : isIdent c = true)
    (ht : ∀ d ∈ t, isIdent d = true) (hk : k.head?.any isIdent = false) :
    tokens (c :: (t ++ k)) = .word (c :: t) :: tokens k := by
  obtain ⟨htake, hdrop⟩ := Text.run_append ht hk
  rw [tokens_of_isIdent h hc, htake, hdrop]

theorem reading_of_startsUnsigned (h : Numeral.startsUnsigned t = true) :
    ∃ whole fraction exponent unit rest : Text, Reading [] whole fraction exponent unit rest ∧
      t = ofParts [] whole fraction exponent ++ (unit ++ rest) := by
  have hsign : Numeral.spanSign t = ([], t) := by
    rcases Numeral.startsUnsigned_iff.1 h with hd | ⟨d, rest, rfl, _⟩
    · cases t with
      | nil => rfl
      | cons c t =>
        refine if_neg fun hs => ?_
        rw [List.head?_cons, Option.any_some, Numeral.not_isDigit_of_isSign hs] at hd
        cases hd
    · rfl
  have hstarts : Numeral.starts t = true := by
    rwa [Numeral.starts_iff, hsign]
  obtain ⟨sign, whole, fraction, exponent, unit, rest, hreading, rfl⟩ := reading_of_starts hstarts
  rcases hreading.parts.of_sign with rfl | ⟨d, hd, rfl⟩
  · exact ⟨whole, fraction, exponent, unit, rest, hreading, rfl⟩
  · rw [ofParts, List.append_assoc, List.singleton_append, Numeral.spanSign,
      if_pos hd] at hsign
    cases hsign

/-- A plus sign is a part of the number behind it, or a token that holds no number. -/
theorem quantities_plus (depth : ℕ) (t : Text) :
    quantities depth (tokens ('+' :: t)) = quantities depth (tokens t) := by
  cases h : Numeral.startsUnsigned t with
  | false =>
    have hnone : Numeral.starts ('+' :: t) = false := h
    rw [tokens_of_not_isIdent hnone rfl]
    rfl
  | true =>
    obtain ⟨whole, fraction, exponent, unit, rest, hreading, rfl⟩ := reading_of_startsUnsigned h
    have htext : '+' :: (ofParts [] whole fraction exponent ++ (unit ++ rest)) =
        ofParts ['+'] whole fraction exponent ++ (unit ++ rest) := rfl
    rw [htext, tokens_ofParts hreading.plus, tokens_ofParts hreading, quantities, quantities,
      hreading.parts.amount_plus]

/-- What is no part of a word or a numeral is a token that holds no number. -/
theorem quantities_char (hc : isIdent c = false)
    (hpoint : c = '.' → t.head?.any Char.isDigit = false) (depth : ℕ) :
    quantities depth (tokens (c :: t)) =
      quantities ((Token.char c).deepen depth) (tokens t) := by
  by_cases hplus : c = '+'
  · subst hplus
    exact quantities_plus depth t
  have hsign : ¬ Numeral.isSign c = true := by
    intro hsign
    rcases Numeral.isSign_iff.1 hsign with rfl | rfl
    · exact hplus rfl
    · cases hc
  have hstarts : Numeral.starts (c :: t) = false := by
    rw [Numeral.starts, if_neg hsign]
    refine Bool.eq_false_iff.2 fun h => ?_
    rcases Numeral.startsUnsigned_iff.1 h with hd | ⟨d, rest, he, hd⟩
    · rw [isIdent_of_isDigit hd] at hc
      cases hc
    · cases he
      exact absurd hd (Bool.eq_false_iff.1 (hpoint rfl))
  rw [tokens_of_not_isIdent hstarts hc]
  rfl

theorem length_quantities_fused (hs : Numeral.IsSignText sign) (hw : Numeral.Digits whole)
    (hk : Numeral.StartsFraction k) (depth : ℕ) :
    (quantities depth (tokens (sign ++ whole ++ k))).length =
      (quantities depth (tokens k)).length := by
  obtain ⟨whole', fraction, exponent, unit, rest, hreading, htext⟩ :=
    reading_of_startsUnsigned (Numeral.startsUnsigned_iff.2 (.inr hk))
  obtain ⟨d, k', rfl, _⟩ := hk
  -- The text begins with the point, so that no digit of it stands before the fraction.
  obtain rfl : whole' = [] := by
    cases whole' with
    | nil => rfl
    | cons e whole' =>
      have he := hreading.parts.of_whole e List.mem_cons_self
      rw [← (List.cons.inj htext).1] at he
      cases he
  have hparts : Parts sign whole fraction exponent :=
    { hreading.parts with
      of_sign := hs
      of_whole := hw
      some_digit := fun hnil => hreading.parts.some_digit (List.append_eq_nil_iff.1 hnil).2 }
  have hfused : Reading sign whole fraction exponent unit rest := { hreading with parts := hparts }
  have hjoined : sign ++ whole ++ (ofParts [] [] fraction exponent ++ (unit ++ rest)) =
      ofParts sign whole fraction exponent ++ (unit ++ rest) := by
    simp [ofParts]
  rw [htext, hjoined, tokens_ofParts hfused, tokens_ofParts hreading, quantities, quantities,
    List.length_cons, List.length_cons]

end Tokens

end Stylesmith.Value
