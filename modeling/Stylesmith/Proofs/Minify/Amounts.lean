import Mathlib.Algebra.Order.Field.Rat
import Mathlib.Data.Nat.Digits.Defs
import Mathlib.Tactic.FieldSimp
import Stylesmith.Proofs.Minify.Numerals

set_option autoImplicit false

namespace Stylesmith.Numeral

def natOf (digits : Text) : ℕ := Nat.ofDigits 10 (digits.reverse.map fun c => c.toNat - '0'.toNat)

def signed {α : Type} [Neg α] (sign : Text) (a : α) : α := if sign = ['-'] then -a else a

def powerOf (exponent : Text) : ℤ :=
  let (sign, digits) := spanSign exponent.tail
  signed sign (natOf digits : ℤ)

def ofPartsAmount (sign whole fraction exponent : Text) : ℚ :=
  signed sign ((natOf whole + natOf fraction / 10 ^ fraction.length) * 10 ^ powerOf exponent)

/-- The number that a numeral denotes. -/
def amount (numeral : Text) : ℚ :=
  let (sign, afterSign) := spanSign numeral
  let (whole, afterWhole) := spanDigits afterSign
  let (fraction, exponent) := spanFraction afterWhole
  ofPartsAmount sign whole fraction.tail exponent

theorem natOf_append (a b : Text) : natOf (a ++ b) = natOf a * 10 ^ b.length + natOf b := by
  rw [natOf, List.reverse_append, List.map_append, Nat.ofDigits_append, List.length_map,
    List.length_reverse, Nat.add_comm, Nat.mul_comm]
  rfl

theorem natOf_zeros {t : Text} (h : ∀ c ∈ t, c = '0') : natOf t = 0 := by
  induction t with
  | nil => rfl
  | cons c t ih =>
    rw [List.forall_mem_cons] at h
    rw [← List.singleton_append, natOf_append, ih h.2, h.1]
    simp [natOf]

theorem natOf_stripStart (t : Text) : natOf (stripStart t) = natOf t := by
  have hzeros : natOf (t.takeWhile (· == '0')) = 0 :=
    natOf_zeros fun c hc => eq_of_beq (List.mem_takeWhile_imp (p := (· == '0')) hc)
  have htext : t.takeWhile (· == '0') ++ stripStart t = t := List.takeWhile_append_dropWhile
  calc natOf (stripStart t)
      = natOf (t.takeWhile (· == '0')) * 10 ^ (stripStart t).length + natOf (stripStart t) := by
        rw [hzeros, Nat.zero_mul, Nat.zero_add]
    _ = natOf t := by rw [← natOf_append, htext]

theorem fraction_stripEnd (t : Text) :
    (natOf (stripEnd t) / 10 ^ (stripEnd t).length : ℚ) = natOf t / 10 ^ t.length := by
  have hzeros : natOf (t.rtakeWhile (· == '0')) = 0 :=
    natOf_zeros fun c hc => eq_of_beq (List.mem_rtakeWhile_imp (p := (· == '0')) hc)
  have htext : stripEnd t ++ t.rtakeWhile (· == '0') = t := List.rdropWhile_append_rtakeWhile
  have hnat : natOf t = natOf (stripEnd t) * 10 ^ (t.rtakeWhile (· == '0')).length := by
    conv_lhs => rw [← htext, natOf_append, hzeros, Nat.add_zero]
  have hlength : t.length = (stripEnd t).length + (t.rtakeWhile (· == '0')).length := by
    rw [← List.length_append, htext]
  rw [hnat, hlength, pow_add, Nat.cast_mul, Nat.cast_pow, Nat.cast_ofNat]
  field_simp

variable {sign whole fraction exponent : Text}

theorem signed_keptSign {α : Type} [Neg α] (hs : IsSignText sign) (a : α) :
    signed (keptSign sign) a = signed sign a := by
  rcases hs with rfl | ⟨c, hc, rfl⟩
  · rfl
  · rcases isSign_iff.1 hc with rfl | rfl <;> rfl

theorem ofPartsAmount_nil (sign : Text) : ofPartsAmount sign [] [] [] = 0 := by
  simp [ofPartsAmount, signed, natOf]

@[simp] theorem amount_zero : amount ['0'] = 0 := by
  decide +kernel

theorem Parts.amount_ofParts (h : Parts sign whole fraction exponent) :
    amount (ofParts sign whole fraction exponent) = ofPartsAmount sign whole fraction exponent := by
  have hexponent : exponent.head?.any Char.isDigit = false := by
    rcases h.of_exponent with rfl | ⟨c, _, _, hc, _, _, _, rfl⟩
    · rfl
    · exact not_isDigit_of_isE hc
  have hfraction : fraction = [] → ¬ StartsFraction exponent := by
    rintro - ⟨d, rest, he, _⟩
    rcases h.of_exponent with rfl | ⟨c, _, _, hc, _, _, _, rfl⟩
    · cases he
    · rw [(List.cons.inj he).1] at hc
      cases hc
  have hpoint : (point fraction ++ exponent).head?.any Char.isDigit = false := by
    cases fraction with
    | nil => exact hexponent
    | cons c fraction => simp [point]
  have htail : (point fraction).tail = fraction := by
    cases fraction <;> rfl
  rw [amount, ofParts, h.spanSign_append]
  dsimp only
  rw [spanDigits_append h.of_whole hpoint]
  dsimp only
  rw [spanFraction_append h.of_fraction hexponent hfraction, htail]

theorem Parts.amount_shorten (h : Parts sign whole fraction exponent) :
    amount (shorten (ofParts sign whole fraction exponent)) =
      amount (ofParts sign whole fraction exponent) := by
  cases exponent with
  | nil =>
    have hstrip : ofPartsAmount sign (stripStart whole) (stripEnd fraction) [] =
        ofPartsAmount sign whole fraction [] := by
      rw [ofPartsAmount, ofPartsAmount, natOf_stripStart, fraction_stripEnd]
    rw [h.amount_ofParts, shorten_eq h]
    split_ifs with hzero
    · rw [← hstrip, hzero.1, hzero.2, ofPartsAmount_nil, amount_zero]
    · rw [(h.strip hzero).amount_ofParts, ← hstrip, ofPartsAmount, signed_keptSign h.of_sign,
        ofPartsAmount]
  | cons e exponent => rw [shorten_of_isE h.any_isE_cons]

theorem Parts.plus (h : Parts [] whole fraction exponent) :
    Parts ['+'] whole fraction exponent where
  __ := h
  of_sign := .inr ⟨'+', rfl, rfl⟩

theorem Parts.amount_plus (h : Parts [] whole fraction exponent) :
    amount (ofParts ['+'] whole fraction exponent) = amount (ofParts [] whole fraction exponent) :=
  h.plus.amount_ofParts.trans h.amount_ofParts.symm

end Stylesmith.Numeral
