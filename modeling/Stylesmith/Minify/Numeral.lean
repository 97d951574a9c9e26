import Stylesmith.Text.Basic

set_option autoImplicit false

namespace Stylesmith.Numeral

def isSign (c : Char) : Bool := c == '+' || c == '-'

def spanSign : Text → Text × Text
  | [] => ([], [])
  | c :: t => if isSign c then ([c], t) else ([], c :: t)

def spanDigits (t : Text) : Text × Text := (t.takeWhile Char.isDigit, t.dropWhile Char.isDigit)

def spanFraction (t : Text) : Text × Text :=
  match t with
  | '.' :: c :: rest =>
    if c.isDigit then ('.' :: (spanDigits (c :: rest)).1, (spanDigits (c :: rest)).2) else ([], t)
  | _ => ([], t)

def spanExponent (t : Text) : Text × Text :=
  match t with
  | [] => ([], [])
  | c :: rest =>
    let (sign, digits) := spanSign rest
    if (c = 'e' ∨ c = 'E') ∧ digits.head?.any Char.isDigit then
      (c :: (sign ++ (spanDigits digits).1), (spanDigits digits).2)
    else ([], t)

def startsUnsigned : Text → Bool
  | '.' :: c :: _ => c.isDigit
  | c :: _ => c.isDigit
  | [] => false

def starts : Text → Bool
  | [] => false
  | c :: t => if isSign c then startsUnsigned t else startsUnsigned (c :: t)

def span (t : Text) : Text × Text :=
  let (sign, afterSign) := spanSign t
  let (whole, afterWhole) := spanDigits afterSign
  let (fraction, afterFraction) := spanFraction afterWhole
  let (exponent, rest) := spanExponent afterFraction
  (sign ++ whole ++ fraction ++ exponent, rest)

theorem spanSign_text (t : Text) : (spanSign t).1 ++ (spanSign t).2 = t := by
  fun_cases spanSign t <;> simp

theorem spanDigits_text (t : Text) : (spanDigits t).1 ++ (spanDigits t).2 = t :=
  List.takeWhile_append_dropWhile

theorem spanFraction_text (t : Text) : (spanFraction t).1 ++ (spanFraction t).2 = t := by
  fun_cases spanFraction t
  · rw [List.cons_append, spanDigits_text]
  · simp
  · simp

theorem spanExponent_text (t : Text) : (spanExponent t).1 ++ (spanExponent t).2 = t := by
  unfold spanExponent
  split
  · rfl
  · rename_i c rest
    simp only
    split
    · rw [List.cons_append, List.append_assoc, spanDigits_text, spanSign_text]
    · rfl

theorem span_text (t : Text) : (span t).1 ++ (span t).2 = t := by
  simp only [span, List.append_assoc]
  rw [spanExponent_text, spanFraction_text, spanDigits_text, spanSign_text]

theorem spanDigits_or_spanFraction_ne_nil {t : Text} (h : startsUnsigned t = true) :
    (spanDigits t).1 ++ (spanFraction (spanDigits t).2).1 ≠ [] := by
  cases t with
  | nil => cases h
  | cons c rest =>
    by_cases hc : c.isDigit = true
    · simp [spanDigits, hc]
    · unfold startsUnsigned at h
      split at h
      · rename_i heq
        cases heq
        simp [spanDigits, spanFraction, h]
      · rename_i heq
        cases heq
        exact absurd h hc
      · cases h

theorem span_ne_nil {t : Text} (h : starts t = true) : (span t).1 ≠ [] := by
  have hs : startsUnsigned (spanSign t).2 = true := by
    unfold starts at h
    unfold spanSign
    split at h
    · cases h
    · split at h <;> simp_all
  have := spanDigits_or_spanFraction_ne_nil hs
  simp only [span]
  intro hn
  simp_all

theorem span_length_lt {t : Text} (h : starts t = true) : (span t).2.length < t.length := by
  have ht := congrArg List.length (span_text t)
  have := List.length_pos_iff.2 (span_ne_nil h)
  rw [List.length_append] at ht
  omega

/-- The sign that is kept, and the digits: a plus sign is dropped. -/
def splitSign : Text → Text × Text
  | '-' :: t => (['-'], t)
  | '+' :: t => ([], t)
  | t => ([], t)

/-- The shortest numeral for the same number. Zeros that do not count are dropped, and zero has no
sign. A numeral with an exponent stays as it is. -/
def shorten (numeral : Text) : Text :=
  if numeral.any fun c => c == 'e' || c == 'E' then numeral
  else
    let (sign, digits) := splitSign numeral
    let (whole, fraction) := (Text.cutFirst? '.' digits).getD (digits, [])
    let whole := whole.dropWhile (· == '0')
    let fraction := (fraction.reverse.dropWhile (· == '0')).reverse
    match whole, fraction with
    | [], [] => ['0']
    | _ :: _, [] => sign ++ whole
    | _, _ :: _ => sign ++ whole ++ '.' :: fraction

end Stylesmith.Numeral
