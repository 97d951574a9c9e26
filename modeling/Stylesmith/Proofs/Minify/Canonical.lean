import Stylesmith.Proofs.Minify.Amounts

set_option autoImplicit false

namespace Stylesmith.Numeral

/-- Digits without a point, on both sides of one, or behind one. -/
inductive IsUnsigned : Text → Prop where
  | whole {digits : Text} (hd : Digits digits) (hne : digits ≠ []) : IsUnsigned digits
  | mixed {whole fraction : Text} (hw : Digits whole) (hwne : whole ≠ [])
      (hf : Digits fraction) (hfne : fraction ≠ []) : IsUnsigned (whole ++ '.' :: fraction)
  | fraction {fraction : Text} (hf : Digits fraction) (hne : fraction ≠ []) :
      IsUnsigned ('.' :: fraction)

def IsDecimal (n : Text) : Prop :=
  ∃ sign digits, IsSignText sign ∧ IsUnsigned digits ∧ n = sign ++ digits

section Decimal

variable {n t sign whole fraction exponent : Text}

theorem Parts.isDecimal (h : Parts sign whole fraction []) :
    IsDecimal (ofParts sign whole fraction []) := by
  refine ⟨sign, whole ++ point fraction, h.of_sign, ?_, by simp [ofParts]⟩
  cases fraction with
  | nil =>
    have hne : whole ≠ [] := by simpa using h.some_digit
    simpa [point] using IsUnsigned.whole h.of_whole hne
  | cons c fraction =>
    have hfne := List.cons_ne_nil c fraction
    rw [point, if_neg hfne]
    cases whole with
    | nil => exact .fraction h.of_fraction hfne
    | cons d whole => exact .mixed h.of_whole (List.cons_ne_nil d whole) h.of_fraction hfne

theorem isDecimal_iff : IsDecimal n ↔ ∃ sign whole fraction : Text,
    Parts sign whole fraction [] ∧ n = ofParts sign whole fraction [] := by
  constructor
  · rintro ⟨sign, digits, hs, hdigits, rfl⟩
    cases hdigits with
    | whole hd hne =>
      exact ⟨sign, digits, [], ⟨hs, hd, digits_nil, by simpa using hne, .inl rfl⟩,
        by simp [ofParts, point]⟩
    | @mixed whole fraction hw hwne hf hfne =>
      exact ⟨sign, whole, fraction, ⟨hs, hw, hf, by simp [hwne], .inl rfl⟩,
        by simp [ofParts, point, hfne]⟩
    | @fraction fraction hf hne =>
      exact ⟨sign, [], fraction, ⟨hs, digits_nil, hf, hne, .inl rfl⟩,
        by simp [ofParts, point, hne]⟩
  · rintro ⟨sign, whole, fraction, h, rfl⟩
    exact h.isDecimal

/-- What is read as a numeral, without a letter of an exponent, is a decimal. -/
theorem isDecimal_span (h : starts t = true) (hany : (span t).1.any isE = false) :
    IsDecimal (span t).1 := by
  obtain ⟨sign, whole, fraction, exponent, hparts, hspan, _⟩ := parts_span h
  rw [hspan, hparts.any_isE_iff] at hany
  subst hany
  rw [hspan]
  exact hparts.isDecimal

theorem isDecimal_iff_span :
    IsDecimal n ↔ starts n = true ∧ (span n).2 = [] ∧ n.any isE = false := by
  constructor
  · intro h
    obtain ⟨sign, whole, fraction, hparts, rfl⟩ := isDecimal_iff.1 h
    obtain ⟨hstarts, hspan⟩ := hparts.span_append (ends_nil fraction [])
    rw [List.append_nil] at hstarts hspan
    exact ⟨hstarts, congrArg Prod.snd hspan, hparts.any_isE⟩
  · rintro ⟨hstarts, hrest, hany⟩
    have htext : (span n).1 = n := by
      have htext := span_text n
      rwa [hrest, List.append_nil] at htext
    have hdecimal : IsDecimal (span n).1 := isDecimal_span hstarts (by rwa [htext])
    rwa [htext] at hdecimal

instance : DecidablePred IsDecimal := fun _ => decidable_of_iff _ isDecimal_iff_span.symm

theorem isDecimal_shorten (h : IsDecimal n) : IsDecimal (shorten n) := by
  obtain ⟨sign, whole, fraction, hparts, rfl⟩ := isDecimal_iff.1 h
  obtain ⟨_, _, _, hparts', hshort, _⟩ := shorten_parts hparts
  rw [hshort]
  exact hparts'.isDecimal

theorem amount_shorten (h : IsDecimal n) : amount (shorten n) = amount n := by
  obtain ⟨sign, whole, fraction, hparts, rfl⟩ := isDecimal_iff.1 h
  exact hparts.amount_shorten

theorem length_keptSign_le (sign : Text) : (keptSign sign).length ≤ sign.length := by
  unfold keptSign
  split
  · rename_i hs
    rw [hs]
  · exact Nat.zero_le _

theorem length_point_stripEnd_le (t : Text) :
    (point (stripEnd t)).length ≤ (point t).length := by
  have hlength : (stripEnd t).length ≤ t.length := (List.rdropWhile_prefix _ t).length_le
  cases hs : stripEnd t with
  | nil => exact Nat.zero_le _
  | cons c s =>
    have hne : t ≠ [] := by
      rintro rfl
      cases hs
    rw [hs] at hlength
    rw [point, point, if_neg (List.cons_ne_nil c s), if_neg hne]
    exact Nat.succ_le_succ hlength

theorem length_shorten_le (h : IsDecimal n) : (shorten n).length ≤ n.length := by
  obtain ⟨sign, whole, fraction, hparts, rfl⟩ := isDecimal_iff.1 h
  rw [shorten_eq hparts]
  split_ifs
  · exact hparts.length_pos
  · have hsign := length_keptSign_le sign
    have hwhole : (stripStart whole).length ≤ whole.length := (List.dropWhile_sublist _).length_le
    have hfraction := length_point_stripEnd_le fraction
    simp only [ofParts, List.length_append]
    omega

theorem shorten_append_exponent (he : IsExponent exponent) (hne : exponent ≠ []) (n : Text) :
    shorten (n ++ exponent) = n ++ exponent := by
  rcases he with rfl | ⟨c, sign, digits, hc, _, _, _, rfl⟩
  · exact absurd rfl hne
  · refine shorten_of_isE ?_
    rw [List.any_append, List.any_cons, hc, Bool.true_or, Bool.or_true]

end Decimal

section Digits

variable {a b : Text}

def digitValue (c : Char) : ℕ := c.toNat - '0'.toNat

theorem digitValue_of_isDigit {c : Char} (h : c.isDigit = true) :
    digitValue c < 10 ∧ Char.ofNat (digitValue c + '0'.toNat) = c := by
  have hnine : '9'.toNat = '0'.toNat + 9 := rfl
  obtain ⟨hlow, hhigh⟩ : '0'.toNat ≤ c.toNat ∧ c.toNat ≤ '9'.toNat := by
    rwa [Char.isDigit, Bool.and_eq_true, decide_eq_true_iff, decide_eq_true_iff] at h
  unfold digitValue
  refine ⟨by omega, ?_⟩
  rw [Nat.sub_add_cancel hlow, Char.ofNat_toNat]

theorem Digits.map_ofNat (h : Digits a) :
    (a.map digitValue).map (fun d => Char.ofNat (d + '0'.toNat)) = a := by
  rw [List.map_map]
  exact (List.map_congr_left fun c hc => (digitValue_of_isDigit (h c hc)).2).trans (List.map_id a)

theorem Digits.lt_of_mem (h : Digits a) : ∀ d ∈ a.reverse.map digitValue, d < 10 := by
  intro d hd
  obtain ⟨c, hc, rfl⟩ := List.mem_map.1 hd
  exact (digitValue_of_isDigit (h c (List.mem_reverse.1 hc))).1

/-- Equally many digits of the same number are the same digits. -/
theorem eq_of_natOf_eq (ha : Digits a) (hb : Digits b) (hlength : a.length = b.length)
    (h : natOf a = natOf b) : a = b := by
  have hvalues : a.reverse.map digitValue = b.reverse.map digitValue :=
    Nat.ofDigits_inj_of_len_eq (by decide) (by simpa using hlength) ha.lt_of_mem hb.lt_of_mem h
  rw [List.map_reverse, List.map_reverse, List.reverse_inj] at hvalues
  rw [← ha.map_ofNat, hvalues, hb.map_ofNat]

end Digits

section Padding

variable {whole whole' fraction fraction' : Text}

def padding (k : ℕ) : Text := List.replicate k '0'

@[simp] theorem length_padding (k : ℕ) : (padding k).length = k := List.length_replicate

theorem eq_of_mem_padding {k : ℕ} {c : Char} (h : c ∈ padding k) : c = '0' :=
  List.eq_of_mem_replicate h

theorem digits_padding (k : ℕ) : Digits (padding k) := by
  intro c hc
  rw [eq_of_mem_padding hc]
  rfl

@[simp] theorem natOf_padding (k : ℕ) : natOf (padding k) = 0 :=
  natOf_zeros fun _ hc => eq_of_mem_padding hc

theorem stripStart_padding_append (k : ℕ) (t : Text) :
    stripStart (padding k ++ t) = stripStart t :=
  List.dropWhile_append_of_pos fun _ hc => beq_iff_eq.2 (eq_of_mem_padding hc)

theorem stripEnd_append_padding (k : ℕ) (t : Text) : stripEnd (t ++ padding k) = stripEnd t := by
  have hreverse : (t ++ padding k).reverse = padding k ++ t.reverse := by
    rw [List.reverse_append, padding, List.reverse_replicate]
  rw [stripEnd, stripEnd, List.rdropWhile, hreverse]
  exact congrArg List.reverse (stripStart_padding_append k t.reverse)

def magnitude (whole fraction : Text) : ℚ := natOf whole + natOf fraction / 10 ^ fraction.length

theorem ofPartsAmount_eq (sign whole fraction : Text) :
    ofPartsAmount sign whole fraction [] = signed sign (magnitude whole fraction) := by
  have hpower : powerOf [] = 0 := rfl
  rw [ofPartsAmount, hpower, zpow_zero, mul_one, magnitude]

theorem magnitude_nil : magnitude [] [] = 0 := by
  simp [magnitude, natOf]

theorem magnitude_nonneg (whole fraction : Text) : 0 ≤ magnitude whole fraction :=
  add_nonneg (Nat.cast_nonneg _) (div_nonneg (Nat.cast_nonneg _) (by positivity))

/-- Without its point, a padded numeral is the number times a power of ten. -/
theorem natOf_padded (j k : ℕ) (whole fraction : Text) :
    (natOf (padding j ++ whole ++ (fraction ++ padding k)) : ℚ) =
      magnitude whole fraction * 10 ^ (fraction.length + k) := by
  have hdigits : natOf (padding j ++ whole ++ (fraction ++ padding k)) =
      natOf whole * 10 ^ (fraction.length + k) + natOf fraction * 10 ^ k := by
    simp [natOf_append]
  rw [hdigits, magnitude]
  push_cast
  rw [pow_add]
  field_simp

/-- Numerals of the same number differ in zeros that do not count. -/
theorem strip_eq_of_magnitude_eq (hw : Digits whole) (hf : Digits fraction) (hw' : Digits whole')
    (hf' : Digits fraction') (h : magnitude whole fraction = magnitude whole' fraction') :
    stripStart whole = stripStart whole' ∧ stripEnd fraction = stripEnd fraction' := by
  -- On each side of the point, one numeral is padded by the length of the other.
  have hnat : natOf (padding whole'.length ++ whole ++ (fraction ++ padding fraction'.length)) =
      natOf (padding whole.length ++ whole' ++ (fraction' ++ padding fraction.length)) := by
    have hcast := natOf_padded whole'.length fraction'.length whole fraction
    rw [h, Nat.add_comm, ← natOf_padded whole.length fraction.length whole' fraction'] at hcast
    exact_mod_cast hcast
  have hpadded : padding whole'.length ++ whole ++ (fraction ++ padding fraction'.length) =
      padding whole.length ++ whole' ++ (fraction' ++ padding fraction.length) := by
    refine eq_of_natOf_eq ?_ ?_ ?_ hnat
    · exact ((digits_padding _).append hw).append (hf.append (digits_padding _))
    · exact ((digits_padding _).append hw').append (hf'.append (digits_padding _))
    · simp only [List.length_append, length_padding]
      omega
  have hlength :
      (padding whole'.length ++ whole).length = (padding whole.length ++ whole').length := by
    simp only [List.length_append, length_padding]
    omega
  obtain ⟨hwhole, hfraction⟩ := List.append_inj hpadded hlength
  constructor
  · calc stripStart whole = stripStart (padding whole'.length ++ whole) :=
          (stripStart_padding_append _ _).symm
      _ = stripStart (padding whole.length ++ whole') := by rw [hwhole]
      _ = stripStart whole' := stripStart_padding_append _ _
  · calc stripEnd fraction = stripEnd (fraction ++ padding fraction'.length) :=
          (stripEnd_append_padding _ _).symm
      _ = stripEnd (fraction' ++ padding fraction.length) := by rw [hfraction]
      _ = stripEnd fraction' := stripEnd_append_padding _ _

end Padding

section Canonical

variable {n m sign sign' : Text}

/-- Equal numbers have the same size, and the same sign unless they are zero. -/
theorem eq_of_signed_eq {a b : ℚ} (ha : 0 ≤ a) (hb : 0 ≤ b) (h : signed sign a = signed sign' b) :
    a = b ∧ (a = 0 ∨ keptSign sign = keptSign sign') := by
  unfold signed at h
  unfold keptSign
  split_ifs at h ⊢
  · exact ⟨neg_injective h, .inr rfl⟩
  · have hzero : a = 0 := by linarith
    exact ⟨by linarith, .inl hzero⟩
  · have hzero : a = 0 := by linarith
    exact ⟨by linarith, .inl hzero⟩
  · exact ⟨h, .inr rfl⟩

theorem shorten_eq_of_amount_eq (hn : IsDecimal n) (hm : IsDecimal m) (h : amount n = amount m) :
    shorten n = shorten m := by
  obtain ⟨sign, whole, fraction, hparts, rfl⟩ := isDecimal_iff.1 hn
  obtain ⟨sign', whole', fraction', hparts', rfl⟩ := isDecimal_iff.1 hm
  rw [hparts.amount_ofParts, hparts'.amount_ofParts, ofPartsAmount_eq, ofPartsAmount_eq] at h
  obtain ⟨hsize, hsign⟩ := eq_of_signed_eq (magnitude_nonneg _ _) (magnitude_nonneg _ _) h
  obtain ⟨hwhole, hfraction⟩ := strip_eq_of_magnitude_eq hparts.of_whole hparts.of_fraction
    hparts'.of_whole hparts'.of_fraction hsize
  rw [shorten_eq hparts, shorten_eq hparts', hwhole, hfraction]
  rcases hsign with hzero | hsign
  · -- Zero is left without its digits, like the numeral that has none.
    have hnone : stripStart whole' = [] ∧ stripEnd fraction' = [] :=
      strip_eq_of_magnitude_eq hparts'.of_whole hparts'.of_fraction digits_nil digits_nil
        (hsize.symm.trans (hzero.trans magnitude_nil.symm))
    rw [if_pos hnone, if_pos hnone]
  · rw [hsign]

/-- A numeral without an exponent is shortened to one of the same number that is no longer, and two
are shortened to the same one exactly if they stand for the same number. A numeral with an exponent
stays as it is. -/
theorem shorten_canonical (hn : IsDecimal n) (hm : IsDecimal m) :
    IsDecimal (shorten n) ∧ amount (shorten n) = amount n ∧ (shorten n).length ≤ n.length ∧
      (shorten n = shorten m ↔ amount n = amount m) ∧
      ∀ exponent, IsExponent exponent → exponent ≠ [] →
        shorten (n ++ exponent) = n ++ exponent := by
  refine ⟨isDecimal_shorten hn, amount_shorten hn, length_shorten_le hn, ?_, ?_⟩
  · constructor
    · intro h
      calc amount n = amount (shorten n) := (amount_shorten hn).symm
        _ = amount (shorten m) := by rw [h]
        _ = amount m := amount_shorten hm
    · exact shorten_eq_of_amount_eq hn hm
  · intro exponent he hne
    exact shorten_append_exponent he hne n

/-- A numeral with zeros at both ends, one without them, and an exponent behind the first. -/
theorem shorten_canonical_zerosAround :
    let n : Text := "-007.250"
    let m : Text := "-7.25"
    IsDecimal n ∧ IsDecimal m ∧ IsExponent "e-03" ∧ ("e-03" : Text) ≠ [] ∧
      shorten n = m ∧ amount n = amount m ∧ shorten (n ++ "e-03") = n ++ "e-03" := by
  intro n m
  have hn : IsDecimal n := by decide
  have hm : IsDecimal m := by decide
  have he : IsExponent "e-03" :=
    .inr ⟨'e', ['-'], ['0', '3'], rfl, .inr ⟨'-', rfl, rfl⟩, by simp [Digits], by simp, rfl⟩
  have hne : ("e-03" : Text) ≠ [] := by decide
  obtain ⟨_, _, _, hiff, hexponent⟩ := shorten_canonical hn hm
  exact ⟨hn, hm, he, hne, by decide, hiff.1 (by decide), hexponent _ he hne⟩

end Canonical

end Stylesmith.Numeral
