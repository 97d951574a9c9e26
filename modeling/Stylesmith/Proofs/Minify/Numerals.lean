import Mathlib.Data.List.DropRight
import Stylesmith.Minify.Numeral
import Stylesmith.Proofs.Text.Splitting

set_option autoImplicit false

namespace Stylesmith.Numeral

def isE (c : Char) : Bool := c == 'e' || c == 'E'

def isPart (c : Char) : Bool := c.isDigit || isSign c || c == '.' || isE c

def StartsFraction (t : Text) : Prop := ∃ c rest, t = '.' :: c :: rest ∧ c.isDigit = true

def StartsExponent (t : Text) : Prop :=
  ∃ c rest, t = c :: rest ∧ isE c = true ∧ (spanSign rest).2.head?.any Char.isDigit = true

def point (fraction : Text) : Text := if fraction = [] then [] else '.' :: fraction

def ofParts (sign whole fraction exponent : Text) : Text :=
  sign ++ (whole ++ (point fraction ++ exponent))

def IsSignText (sign : Text) : Prop := sign = [] ∨ ∃ c, isSign c = true ∧ sign = [c]

def Digits (t : Text) : Prop := ∀ c ∈ t, c.isDigit = true

def IsExponent (exponent : Text) : Prop :=
  exponent = [] ∨ ∃ c sign digits, isE c = true ∧ IsSignText sign ∧ Digits digits ∧ digits ≠ [] ∧
    exponent = c :: (sign ++ digits)

structure Parts (sign whole fraction exponent : Text) : Prop where
  of_sign : IsSignText sign
  of_whole : Digits whole
  of_fraction : Digits fraction
  some_digit : whole ++ fraction ≠ []
  of_exponent : IsExponent exponent

structure Ends (fraction exponent k : Text) : Prop where
  not_digit : k.head?.any Char.isDigit = false
  not_exponent : exponent = [] → ¬ StartsExponent k
  not_fraction : exponent = [] → fraction = [] → ¬ StartsFraction k

theorem digits_nil : Digits [] := fun _ hc => absurd hc List.not_mem_nil

theorem Digits.append {a b : Text} (ha : Digits a) (hb : Digits b) : Digits (a ++ b) := fun c hc =>
  (List.mem_append.1 hc).elim (ha c) (hb c)

theorem ends_nil (fraction exponent : Text) : Ends fraction exponent [] where
  not_digit := rfl
  not_exponent := by
    rintro - ⟨_, _, he, _⟩
    cases he
  not_fraction := by
    rintro - - ⟨_, _, he, _⟩
    cases he

theorem isSign_iff {c : Char} : isSign c = true ↔ c = '+' ∨ c = '-' := by
  simp [isSign]

theorem isE_iff {c : Char} : isE c = true ↔ c = 'e' ∨ c = 'E' := by
  simp [isE]

theorem not_isDigit_of_isSign {c : Char} (h : isSign c = true) : c.isDigit = false := by
  rcases isSign_iff.1 h with rfl | rfl <;> rfl

theorem not_isDigit_of_isE {c : Char} (h : isE c = true) : c.isDigit = false := by
  rcases isE_iff.1 h with rfl | rfl <;> rfl

theorem spanDigits_append {digits k : Text} (hd : Digits digits)
    (hk : k.head?.any Char.isDigit = false) : spanDigits (digits ++ k) = (digits, k) := by
  obtain ⟨htake, hdrop⟩ := Text.run_append hd hk
  rw [spanDigits, htake, hdrop]

theorem spanDigits_digits (t : Text) : Digits (spanDigits t).1 :=
  fun _ hc => List.mem_takeWhile_imp hc

theorem spanDigits_rest (t : Text) : (spanDigits t).2.head?.any Char.isDigit = false :=
  Text.head_dropWhile Char.isDigit t

theorem spanSign_append {sign k : Text} (hs : IsSignText sign)
    (hk : k.head?.any isSign = false) : spanSign (sign ++ k) = (sign, k) := by
  rcases hs with rfl | ⟨c, hc, rfl⟩
  · cases k with
    | nil => rfl
    | cons d k => simp_all [spanSign]
  · simp [spanSign, hc]

theorem isSignText_spanSign (t : Text) : IsSignText (spanSign t).1 := by
  fun_cases spanSign t
  · exact .inl rfl
  · exact .inr ⟨_, ‹_›, rfl⟩
  · exact .inl rfl

theorem spanFraction_append {fraction k : Text} (hf : Digits fraction)
    (hk : k.head?.any Char.isDigit = false) (hp : fraction = [] → ¬ StartsFraction k) :
    spanFraction (point fraction ++ k) = (point fraction, k) := by
  cases fraction with
  | nil =>
    rw [point, if_pos rfl, List.nil_append]
    fun_cases spanFraction k
    · exact absurd ⟨_, _, rfl, ‹_›⟩ (hp rfl)
    · rfl
    · rfl
  | cons c fraction =>
    have hspan := spanDigits_append hf hk
    rw [List.cons_append] at hspan
    rw [point, if_neg (List.cons_ne_nil _ _), List.cons_append, List.cons_append, spanFraction,
      if_pos (hf c List.mem_cons_self), hspan]

theorem spanFraction_eq (t : Text) : ∃ fraction, Digits fraction ∧
    (spanFraction t).1 = point fraction ∧ (fraction = [] → ¬ StartsFraction (spanFraction t).2) ∧
    (t.head?.any Char.isDigit = false → (spanFraction t).2.head?.any Char.isDigit = false) := by
  fun_cases spanFraction t with
  | case1 c rest hc =>
    refine ⟨(spanDigits (c :: rest)).1, spanDigits_digits _, ?_, ?_, fun _ => spanDigits_rest _⟩
    all_goals simp [point, spanDigits, hc]
  | case2 c rest hc =>
    refine ⟨[], digits_nil, rfl, ?_, id⟩
    rintro - ⟨d, rest', he, hd⟩
    cases he
    exact hc hd
  | case3 t hne =>
    refine ⟨[], digits_nil, rfl, ?_, id⟩
    rintro - ⟨d, rest', rfl, hd⟩
    exact hne d rest' rfl

theorem spanExponent_append {exponent k : Text} (he : IsExponent exponent)
    (hk : k.head?.any Char.isDigit = false) (hx : exponent = [] → ¬ StartsExponent k) :
    spanExponent (exponent ++ k) = (exponent, k) := by
  rcases he with rfl | ⟨c, sign, digits, hc, hs, hd, hne, rfl⟩
  · cases k with
    | nil => rfl
    | cons c k =>
      rw [List.nil_append, spanExponent]
      dsimp only
      exact if_neg fun h => hx rfl ⟨c, k, rfl, isE_iff.2 h.1, h.2⟩
  · obtain ⟨d, digits, rfl⟩ := List.exists_cons_of_ne_nil hne
    have hdigit := hd d List.mem_cons_self
    have hsign : isSign d = false := by
      rw [← Bool.not_eq_true]
      intro h
      rw [not_isDigit_of_isSign h] at hdigit
      cases hdigit
    have hspan : spanSign (sign ++ (d :: digits ++ k)) = (sign, d :: digits ++ k) :=
      spanSign_append hs (by simpa using hsign)
    rw [List.cons_append, List.append_assoc, spanExponent]
    dsimp only
    rw [hspan]
    dsimp only
    rw [if_pos ⟨isE_iff.1 hc, by simpa using hdigit⟩, spanDigits_append hd hk]

theorem spanExponent_eq (t : Text) : IsExponent (spanExponent t).1 ∧
    ((spanExponent t).1 = [] → (spanExponent t).2 = t ∧ ¬ StartsExponent t) ∧
    (t.head?.any Char.isDigit = false → (spanExponent t).2.head?.any Char.isDigit = false) := by
  cases t with
  | nil => exact ⟨.inl rfl, fun _ => ⟨rfl, by rintro ⟨c, rest, he, _⟩; cases he⟩, id⟩
  | cons c rest =>
    rw [spanExponent]
    dsimp only
    by_cases h : (c = 'e' ∨ c = 'E') ∧ (spanSign rest).2.head?.any Char.isDigit = true
    · rw [if_pos h]
      refine ⟨.inr ⟨c, _, _, isE_iff.2 h.1, isSignText_spanSign rest, spanDigits_digits _, ?_, rfl⟩,
        fun he => absurd he (List.cons_ne_nil _ _), fun _ => spanDigits_rest _⟩
      intro hnil
      have htake : ((spanSign rest).2.takeWhile Char.isDigit) = [] := hnil
      cases hr : (spanSign rest).2 <;> simp_all
    · rw [if_neg h]
      refine ⟨.inl rfl, fun _ => ⟨rfl, ?_⟩, id⟩
      rintro ⟨d, rest', he, hd, hdigit⟩
      cases he
      exact h ⟨isE_iff.1 hd, hdigit⟩

variable {sign whole fraction exponent k : Text}

theorem starts_iff {t : Text} : starts t = true ↔ startsUnsigned (spanSign t).2 = true := by
  cases t with
  | nil => rfl
  | cons c t =>
    rw [starts, spanSign]
    split <;> rfl

theorem startsUnsigned_iff {t : Text} : startsUnsigned t = true ↔
    t.head?.any Char.isDigit = true ∨ StartsFraction t := by
  fun_cases startsUnsigned t with
  | case1 c rest =>
    constructor
    · exact fun h => .inr ⟨c, rest, rfl, h⟩
    · rintro (h | ⟨d, rest', he, hd⟩)
      · cases h
      · cases he
        exact hd
  | case2 c rest hne =>
    constructor
    · exact .inl
    · rintro (h | ⟨d, rest', he, hd⟩)
      · exact h
      · cases he
        exact absurd rfl (hne d rest' rfl)
  | case3 =>
    constructor
    · exact fun h => by cases h
    · rintro (h | ⟨d, rest', he, hd⟩)
      · exact h
      · cases he

namespace Parts

theorem head_unsigned (h : Parts sign whole fraction exponent) (k : Text) :
    startsUnsigned (whole ++ (point fraction ++ k)) = true := by
  rw [startsUnsigned_iff]
  cases whole with
  | cons c whole => exact .inl (h.of_whole c List.mem_cons_self)
  | nil =>
    cases fraction with
    | nil => exact absurd rfl h.some_digit
    | cons c fraction =>
      exact .inr ⟨c, fraction ++ k, by simp [point], h.of_fraction c List.mem_cons_self⟩

theorem spanSign_append (h : Parts sign whole fraction exponent) (k : Text) :
    spanSign (sign ++ (whole ++ (point fraction ++ k))) =
      (sign, whole ++ (point fraction ++ k)) := by
  refine Numeral.spanSign_append h.of_sign ?_
  rcases startsUnsigned_iff.1 (h.head_unsigned k) with hd | ⟨c, rest, he, _⟩
  · rw [← Bool.not_eq_true]
    intro hs
    cases hh : (whole ++ (point fraction ++ k)).head? with
    | none =>
      rw [hh] at hd
      cases hd
    | some c =>
      rw [hh] at hd hs
      exact absurd hd (by simp [not_isDigit_of_isSign hs])
  · rw [he]
    rfl

theorem span_append (h : Parts sign whole fraction exponent) (hk : Ends fraction exponent k) :
    starts (ofParts sign whole fraction exponent ++ k) = true ∧
      span (ofParts sign whole fraction exponent ++ k) =
        (ofParts sign whole fraction exponent, k) := by
  have hexponent : (exponent ++ k).head?.any Char.isDigit = false := by
    rcases h.of_exponent with rfl | ⟨c, _, _, hc, _, _, _, rfl⟩
    · exact hk.not_digit
    · exact not_isDigit_of_isE hc
  have hnofraction : fraction = [] → ¬ StartsFraction (exponent ++ k) := by
    intro hf
    rcases h.of_exponent with he | ⟨c, _, _, hc, _, _, _, rfl⟩
    · rw [he]
      exact hk.not_fraction he hf
    · rintro ⟨d, rest, he, _⟩
      rw [List.cons_append, List.cons.injEq] at he
      rw [he.1] at hc
      cases hc
  have hpoint : (point fraction ++ (exponent ++ k)).head?.any Char.isDigit = false := by
    cases fraction with
    | nil => exact hexponent
    | cons c fraction => simp [point]
  simp only [ofParts, List.append_assoc]
  refine ⟨starts_iff.2 ?_, ?_⟩
  · rw [h.spanSign_append]
    exact h.head_unsigned _
  · rw [span, h.spanSign_append]
    dsimp only
    rw [spanDigits_append h.of_whole hpoint]
    dsimp only
    rw [spanFraction_append h.of_fraction hexponent hnofraction]
    dsimp only
    rw [spanExponent_append h.of_exponent hk.not_digit hk.not_exponent]
    simp

end Parts

theorem parts_span {t : Text} (h : starts t = true) : ∃ sign whole fraction exponent : Text,
    Parts sign whole fraction exponent ∧
      (span t).1 = ofParts sign whole fraction exponent ∧
      Ends fraction exponent (span t).2 := by
  obtain ⟨fraction, hf, hpoint, hnof, hfdigit⟩ := spanFraction_eq (spanDigits (spanSign t).2).2
  obtain ⟨he, hnone, hedigit⟩ := spanExponent_eq (spanFraction (spanDigits (spanSign t).2).2).2
  refine ⟨(spanSign t).1, (spanDigits (spanSign t).2).1, fraction, _,
    ⟨isSignText_spanSign t, spanDigits_digits _, hf, ?_, he⟩, ?_, ?_⟩
  · have hsome := spanDigits_or_spanFraction_ne_nil (starts_iff.1 h)
    rw [hpoint] at hsome
    intro hnil
    obtain ⟨hw, rfl⟩ := List.append_eq_nil_iff.1 hnil
    exact hsome (by rw [hw]; rfl)
  · rw [span]
    simp [ofParts, hpoint]
  · rw [span]
    refine ⟨hedigit (hfdigit (spanDigits_rest _)), fun hnil => ?_, fun hnil hfnil => ?_⟩
    · obtain ⟨hsame, hno⟩ := hnone hnil
      simpa [hsame] using hno
    · obtain ⟨hsame, _⟩ := hnone hnil
      simpa [hsame] using hnof hfnil

theorem Digits.isPart {t : Text} (h : Digits t) {c : Char} (hc : c ∈ t) : isPart c = true := by
  simp [Numeral.isPart, h c hc]

theorem IsSignText.isPart (h : IsSignText sign) {c : Char} (hc : c ∈ sign) : isPart c = true := by
  rcases h with rfl | ⟨d, hd, rfl⟩
  · cases hc
  · rw [List.mem_singleton.1 hc]
    simp [Numeral.isPart, hd]

theorem Digits.getLast {t : Text} (h : Digits t) (hne : t ≠ []) :
    ∃ d ∈ t.getLast?, d.isDigit = true :=
  ⟨t.getLast hne, List.getLast?_eq_some_getLast hne, h _ (List.getLast_mem hne)⟩

theorem getLast_append {t u : Text} (h : ∃ d ∈ u.getLast?, d.isDigit = true) :
    ∃ d ∈ (t ++ u).getLast?, d.isDigit = true := by
  obtain ⟨d, hd, hdigit⟩ := h
  exact ⟨d, by rw [List.getLast?_append, Option.mem_def.1 hd]; rfl, hdigit⟩

namespace Parts

theorem isPart_of_mem (h : Parts sign whole fraction exponent) {c : Char}
    (hc : c ∈ ofParts sign whole fraction exponent) : isPart c = true := by
  rw [ofParts, List.mem_append, List.mem_append, List.mem_append] at hc
  rcases hc with hc | hc | hc | hc
  · exact h.of_sign.isPart hc
  · exact h.of_whole.isPart hc
  · unfold point at hc
    split at hc
    · cases hc
    · rcases List.mem_cons.1 hc with rfl | hc
      · rfl
      · exact h.of_fraction.isPart hc
  · rcases h.of_exponent with rfl | ⟨e, esign, digits, he, hs, hd, _, rfl⟩
    · cases hc
    · rcases List.mem_cons.1 hc with rfl | hc
      · simp [isPart, he]
      · rcases List.mem_append.1 hc with hc | hc
        · exact hs.isPart hc
        · exact hd.isPart hc

theorem getLast_ofParts (h : Parts sign whole fraction exponent) :
    ∃ d ∈ (ofParts sign whole fraction exponent).getLast?, d.isDigit = true := by
  refine getLast_append ?_
  rcases h.of_exponent with rfl | ⟨e, esign, digits, _, _, hd, hne, rfl⟩
  · cases fraction with
    | nil =>
      have hne : whole ≠ [] := by simpa using h.some_digit
      simpa [point] using h.of_whole.getLast hne
    | cons c fraction =>
      refine getLast_append ?_
      have hlast := h.of_fraction.getLast (List.cons_ne_nil c fraction)
      simpa [point] using @getLast_append ['.'] _ hlast
  · refine getLast_append (getLast_append ?_)
    simpa using @getLast_append (e :: esign) _ (hd.getLast hne)

theorem any_isE (h : Parts sign whole fraction []) :
    (ofParts sign whole fraction []).any isE = false := by
  have hdigits : ∀ {t : Text}, Digits t → ∀ c ∈ t, ¬ isE c = true := by
    intro t ht c hc he
    exact absurd (ht c hc) (by simp [not_isDigit_of_isE he])
  refine List.any_eq_false.2 fun c hc => ?_
  rw [ofParts, List.append_nil, List.mem_append, List.mem_append] at hc
  rcases hc with hc | hc | hc
  · rcases h.of_sign with rfl | ⟨d, hd, rfl⟩
    · cases hc
    · rw [List.mem_singleton] at hc
      rcases isSign_iff.1 hd with rfl | rfl <;> rw [hc] <;> decide
  · exact hdigits h.of_whole c hc
  · unfold point at hc
    split at hc
    · cases hc
    · rcases List.mem_cons.1 hc with rfl | hc
      · decide
      · exact hdigits h.of_fraction c hc

theorem any_isE_iff (h : Parts sign whole fraction exponent) :
    (ofParts sign whole fraction exponent).any isE = false ↔ exponent = [] := by
  constructor
  · intro hany
    rcases h.of_exponent with rfl | ⟨e, _, _, he, _, _, _, rfl⟩
    · rfl
    · rw [List.any_eq_false] at hany
      exact absurd he (hany e (by simp [ofParts]))
  · rintro rfl
    exact h.any_isE

theorem any_isE_cons {e : Char} (h : Parts sign whole fraction (e :: exponent)) :
    (ofParts sign whole fraction (e :: exponent)).any isE = true := by
  rw [← Bool.not_eq_false, h.any_isE_iff]
  exact List.cons_ne_nil _ _

theorem point_mem_iff (h : Parts sign whole fraction []) :
    '.' ∈ ofParts sign whole fraction [] ↔ fraction ≠ [] := by
  constructor
  · rintro hmem rfl
    rw [ofParts, point, if_pos rfl, List.append_nil, List.append_nil, List.mem_append] at hmem
    rcases hmem with hmem | hmem
    · rcases h.of_sign with rfl | ⟨c, hc, rfl⟩
      · cases hmem
      · rw [← List.mem_singleton.1 hmem] at hc
        cases hc
    · exact absurd (h.of_whole _ hmem) (by decide)
  · intro hne
    simp [ofParts, point, hne]

theorem sign_of_head (h : Parts sign whole fraction exponent)
    (hhead : (ofParts sign whole fraction exponent).head? = some '+') : sign = ['+'] := by
  rcases h.of_sign with rfl | ⟨d, _, rfl⟩
  · have hunsigned := h.head_unsigned exponent
    rw [show whole ++ _ = ofParts [] whole fraction exponent from rfl] at hunsigned
    cases hn : ofParts [] whole fraction exponent with
    | nil =>
      rw [hn] at hunsigned
      cases hunsigned
    | cons c n =>
      rw [hn] at hunsigned hhead
      rw [Option.some.inj hhead] at hunsigned
      cases hunsigned
  · rw [Option.some.inj hhead]

theorem length_pos (h : Parts sign whole fraction exponent) :
    0 < (ofParts sign whole fraction exponent).length := by
  obtain ⟨d, hd, _⟩ := h.getLast_ofParts
  exact List.length_pos_of_mem (List.mem_of_getLast? hd)

end Parts

theorem Digits.not_mem {t : Text} (h : Digits t) {c : Char} (hc : c.isDigit = false) : c ∉ t := by
  intro hm
  rw [h c hm] at hc
  cases hc

def keptSign (sign : Text) : Text := if sign = ['-'] then ['-'] else []

theorem isSignText_keptSign (sign : Text) : IsSignText (keptSign sign) := by
  unfold keptSign
  split
  · exact .inr ⟨'-', rfl, rfl⟩
  · exact .inl rfl

theorem keptSign_keptSign (sign : Text) : keptSign (keptSign sign) = keptSign sign := by
  unfold keptSign
  split <;> rfl

theorem splitSign_append (hs : IsSignText sign) (hk : k.head?.any isSign = false) :
    splitSign (sign ++ k) = (keptSign sign, k) := by
  rcases hs with rfl | ⟨c, hc, rfl⟩
  · rw [List.nil_append]
    fun_cases splitSign k with
    | case1 | case2 => cases hk
    | case3 => rfl
  · rcases isSign_iff.1 hc with rfl | rfl <;> rfl

def stripStart (t : Text) : Text := t.dropWhile (· == '0')

def stripEnd (t : Text) : Text := t.rdropWhile (· == '0')

theorem digits_stripStart {t : Text} (h : Digits t) : Digits (stripStart t) := fun c hc =>
  h c ((List.dropWhile_sublist _).subset hc)

theorem digits_stripEnd {t : Text} (h : Digits t) : Digits (stripEnd t) := fun c hc =>
  h c ((List.rdropWhile_prefix _ _).subset hc)

/-- How the parts of a numeral without an exponent are shortened. -/
theorem shorten_eq (h : Parts sign whole fraction []) :
    shorten (ofParts sign whole fraction []) =
      if stripStart whole = [] ∧ stripEnd fraction = [] then ['0']
      else ofParts (keptSign sign) (stripStart whole) (stripEnd fraction) [] := by
  have hsign : (whole ++ point fraction).head?.any isSign = false := by
    have hhead := startsUnsigned_iff.1 (h.head_unsigned [])
    rw [List.append_nil] at hhead
    rcases hhead with hd | ⟨c, rest, he, _⟩
    · cases hh : (whole ++ point fraction).head? with
      | none => rfl
      | some c =>
        rw [hh] at hd
        refine Bool.eq_false_iff.2 fun hs => ?_
        exact absurd hd (by simp [not_isDigit_of_isSign hs])
    · rw [he]
      rfl
  have hcut : (Text.cutFirst? '.' (whole ++ point fraction)).getD (whole ++ point fraction, []) =
      (whole, fraction) := by
    have hw : '.' ∉ whole := h.of_whole.not_mem rfl
    cases fraction with
    | nil => rw [point, if_pos rfl, List.append_nil, Text.cutFirst?_eq_none hw, Option.getD_none]
    | cons c fraction =>
      rw [point, if_neg (List.cons_ne_nil _ _), Text.cutFirst?_append hw, Option.getD_some]
  have hsplit : splitSign (ofParts sign whole fraction []) =
        (keptSign sign, whole ++ point fraction) := by
    rw [ofParts, List.append_nil]
    exact splitSign_append h.of_sign hsign
  have hany : ¬ ((ofParts sign whole fraction []).any fun c => c == 'e' || c == 'E') = true :=
    Bool.eq_false_iff.1 h.any_isE
  rw [shorten, if_neg hany, hsplit]
  dsimp only
  rw [hcut]
  dsimp only
  change (match stripStart whole, stripEnd fraction with
    | [], [] => ['0']
    | _ :: _, [] => keptSign sign ++ stripStart whole
    | _, _ :: _ => keptSign sign ++ stripStart whole ++ '.' :: stripEnd fraction) = _
  cases hw : stripStart whole <;> cases hf : stripEnd fraction <;> simp [ofParts, point]

theorem shorten_of_isE {numeral : Text} (h : numeral.any isE = true) : shorten numeral = numeral :=
  if_pos h

theorem Parts.strip (h : Parts sign whole fraction exponent)
    (hne : ¬ (stripStart whole = [] ∧ stripEnd fraction = [])) :
    Parts (keptSign sign) (stripStart whole) (stripEnd fraction) exponent where
  of_sign := isSignText_keptSign sign
  of_whole := digits_stripStart h.of_whole
  of_fraction := digits_stripEnd h.of_fraction
  some_digit := fun hnil => hne (List.append_eq_nil_iff.1 hnil)
  of_exponent := h.of_exponent

/-- A shortened numeral is a numeral that is not shortened any further. -/
theorem shorten_parts (h : Parts sign whole fraction exponent) : ∃ sign' whole' fraction' : Text,
    Parts sign' whole' fraction' exponent ∧
      shorten (ofParts sign whole fraction exponent) = ofParts sign' whole' fraction' exponent ∧
      shorten (ofParts sign' whole' fraction' exponent) =
        ofParts sign' whole' fraction' exponent := by
  cases exponent with
  | nil =>
    rw [shorten_eq h]
    split_ifs with hzero
    · exact ⟨[], ['0'], [], ⟨.inl rfl, by simp [Digits], digits_nil, by simp, .inl rfl⟩,
      rfl, rfl⟩
    · have hparts := h.strip hzero
      refine ⟨_, _, _, hparts, rfl, ?_⟩
      have hstart : stripStart (stripStart whole) = stripStart whole :=
        List.dropWhile_idempotent _ _
      have hend : stripEnd (stripEnd fraction) = stripEnd fraction := List.rdropWhile_idempotent _ _
      rw [shorten_eq hparts, hstart, hend, if_neg hzero, keptSign_keptSign]
  | cons e exponent =>
    have hkeep := shorten_of_isE h.any_isE_cons
    exact ⟨sign, whole, fraction, h, hkeep, hkeep⟩

section Span

variable {t : Text}

theorem shorten_shorten_span (h : starts t = true) :
    shorten (shorten (span t).1) = shorten (span t).1 := by
  obtain ⟨_, _, _, _, hparts, hspan, _⟩ := parts_span h
  obtain ⟨_, _, _, _, hshort, hagain⟩ := shorten_parts hparts
  rw [hspan, hshort, hagain]

/-- A shortened numeral is read as itself where no digit, point or exponent follows. -/
theorem span_shorten (h : starts t = true) (hdigit : k.head?.any Char.isDigit = false)
    (hpoint : k.head? ≠ some '.') (hexponent : ((span t).1.any isE) = false → ¬ StartsExponent k) :
    starts (shorten (span t).1 ++ k) = true ∧
      span (shorten (span t).1 ++ k) = (shorten (span t).1, k) := by
  obtain ⟨sign, whole, fraction, exponent, hparts, hspan, _⟩ := parts_span h
  obtain ⟨_, _, _, hparts', hshort, _⟩ := shorten_parts hparts
  rw [hspan, hshort]
  refine hparts'.span_append ⟨hdigit, ?_, ?_⟩
  · rintro rfl
    exact hexponent (hspan ▸ hparts.any_isE)
  · rintro - - ⟨c, rest, rfl, _⟩
    exact hpoint rfl

theorem not_digit_of_span (h : starts t = true) : (span t).2.head?.any Char.isDigit = false := by
  obtain ⟨_, _, _, _, _, _, hends⟩ := parts_span h
  exact hends.not_digit

theorem not_startsExponent_of_span (h : starts t = true) (hany : ((span t).1.any isE) = false) :
    ¬ StartsExponent (span t).2 := by
  obtain ⟨_, _, _, exponent, hparts, hspan, hends⟩ := parts_span h
  rcases hparts.of_exponent with rfl | ⟨c, _, _, hc, _, _, _, rfl⟩
  · exact hends.not_exponent rfl
  · rw [hspan, List.any_eq_false] at hany
    exact absurd hc (hany c (by simp [ofParts]))

theorem isPart_of_mem_span (h : starts t = true) {c : Char} (hc : c ∈ (span t).1) :
    isPart c = true := by
  obtain ⟨_, _, _, _, hparts, hspan, _⟩ := parts_span h
  exact hparts.isPart_of_mem (hspan ▸ hc)

theorem isPart_of_mem_shorten (h : starts t = true) {c : Char} (hc : c ∈ shorten (span t).1) :
    isPart c = true := by
  obtain ⟨_, _, _, _, hparts, hspan, _⟩ := parts_span h
  obtain ⟨_, _, _, hparts', hshort, _⟩ := shorten_parts hparts
  exact hparts'.isPart_of_mem (hshort ▸ hspan ▸ hc)

theorem getLast_span (h : starts t = true) : ∃ d ∈ (span t).1.getLast?, d.isDigit = true := by
  obtain ⟨_, _, _, _, hparts, hspan, _⟩ := parts_span h
  exact hspan ▸ hparts.getLast_ofParts

theorem getLast_shorten (h : starts t = true) :
    ∃ d ∈ (shorten (span t).1).getLast?, d.isDigit = true := by
  obtain ⟨_, _, _, _, hparts, hspan, _⟩ := parts_span h
  obtain ⟨_, _, _, hparts', hshort, _⟩ := shorten_parts hparts
  rw [hspan, hshort]
  exact hparts'.getLast_ofParts

end Span

end Stylesmith.Numeral
