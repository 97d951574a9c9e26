import Stylesmith.Proofs.Minify.Values

set_option autoImplicit false

namespace Stylesmith.Value

open Lexeme (isIdent isQuote)

section Hash

theorem mem_hexDigits {c : Char} (h : isHexDigit c = true) :
    c ∈ ("0123456789abcdefABCDEF" : Text) := by
  have hall : ∀ n < 103, isHexDigit (Char.ofNat n) = true →
      Char.ofNat n ∈ ("0123456789abcdefABCDEF" : Text) := by decide +kernel
  have hle : c.toNat < 103 := by
    simp only [isHexDigit, Char.isDigit, Bool.or_eq_true, Bool.and_eq_true, decide_eq_true_eq] at h
    have nat_le : ∀ {a b : Char}, a ≤ b → a.toNat ≤ b.toNat := fun h => UInt32.le_iff_toNat_le.1 h
    rcases h with (⟨_, h⟩ | ⟨_, h⟩) | ⟨_, h⟩
    · exact lt_of_le_of_lt (UInt32.le_iff_toNat_le.1 h) (by decide)
    · exact lt_of_le_of_lt (nat_le h) (by decide)
    · exact lt_of_le_of_lt (nat_le h) (by decide)
  rw [← Char.ofNat_toNat c] at h ⊢
  exact hall _ hle h

theorem isHexDigit_of_isDigit {c : Char} (h : c.isDigit = true) : isHexDigit c = true := by
  rw [isHexDigit, h]
  rfl

theorem isHexDigit_toLower {c : Char} (h : isHexDigit c = true) : isHexDigit c.toLower = true := by
  have hall : ∀ c ∈ ("0123456789abcdefABCDEF" : Text), isHexDigit c.toLower = true :=
    Text.forall_of_all rfl
  exact hall c (mem_hexDigits h)

theorem isAlphanum_of_isHexDigit {c : Char} (h : isHexDigit c = true) : c.isAlphanum = true := by
  have hall : ∀ c ∈ ("0123456789abcdefABCDEF" : Text), c.isAlphanum = true := Text.forall_of_all rfl
  exact hall c (mem_hexDigits h)

theorem halve?_eq_some {t h : Text} (ht : halve? t = some h) :
    t.length = 2 * h.length ∧ ∀ c ∈ h, c ∈ t := by
  fun_induction halve? t generalizing h with
  | case1 =>
    cases ht
    exact ⟨rfl, fun _ hc => hc⟩
  | case2 b t ih =>
    rw [Option.map_eq_some_iff] at ht
    obtain ⟨h, hh, rfl⟩ := ht
    obtain ⟨hlength, hmem⟩ := ih hh
    refine ⟨by simp only [List.length_cons, hlength]; omega, fun c hc => ?_⟩
    rcases List.mem_cons.1 hc with rfl | hc
    · exact List.mem_cons_self
    · exact List.mem_cons_of_mem _ (List.mem_cons_of_mem _ (hmem c hc))
  | case3 => cases ht
  | case4 => cases ht

def IsColor (t : Text) : Prop :=
  (t.length = 3 ∨ t.length = 4 ∨ t.length = 6 ∨ t.length = 8) ∧ ∀ c ∈ t, isHexDigit c = true

theorem shortenHash_of_not_isColor {t : Text} (h : ¬ IsColor t) : shortenHash t = t := by
  refine if_neg fun hc => h ⟨hc.1, ?_⟩
  exact fun c hm => List.all_eq_true.1 hc.2 c hm

theorem shortenHash_eq {t : Text} (h : IsColor t) : shortenHash t =
    if t.length = 6 ∨ t.length = 8 then (halve? (Text.lowerAscii t)).getD (Text.lowerAscii t)
    else Text.lowerAscii t := by
  rw [shortenHash]
  exact if_pos ⟨h.1, List.all_eq_true.2 h.2⟩

theorem isColor_shortenHash {t : Text} (h : IsColor t) : IsColor (shortenHash t) ∧
    Text.lowerAscii (shortenHash t) = shortenHash t ∧
    ((shortenHash t).length = 6 ∨ (shortenHash t).length = 8 → halve? (shortenHash t) = none) := by
  have hlength : (Text.lowerAscii t).length = t.length := List.length_map _
  have hhex : ∀ c ∈ Text.lowerAscii t, isHexDigit c = true := by
    intro c hc
    obtain ⟨d, hd, rfl⟩ := List.mem_map.1 hc
    exact isHexDigit_toLower (h.2 d hd)
  have hlower : ∀ c ∈ Text.lowerAscii t, c.toLower = c := by
    intro c hc
    obtain ⟨d, _, rfl⟩ := List.mem_map.1 hc
    exact Char.toLower_toLower_eq_toLower d
  have lower_eq : ∀ u : Text, (∀ c ∈ u, c ∈ Text.lowerAscii t) → Text.lowerAscii u = u := by
    intro u hu
    rw [Text.lowerAscii, List.map_congr_left fun c hc => hlower c (hu c hc), List.map_id']
  have hcolor : IsColor (Text.lowerAscii t) := ⟨hlength ▸ h.1, hhex⟩
  rw [shortenHash_eq h]
  split_ifs with hlong
  · cases hhalf : halve? (Text.lowerAscii t) with
    | none => exact ⟨hcolor, lower_eq _ fun _ => id, fun _ => hhalf⟩
    | some u =>
      obtain ⟨hhalved, hmem⟩ := halve?_eq_some hhalf
      refine ⟨⟨?_, fun c hc => hhex c (hmem c hc)⟩, lower_eq u hmem, fun hu => ?_⟩
      all_goals simp only [Option.getD_some] at *; omega
  · exact ⟨hcolor, lower_eq _ fun _ => id, fun hl => absurd (hlength ▸ hl) hlong⟩

theorem shortenHash_shortenHash (t : Text) : shortenHash (shortenHash t) = shortenHash t := by
  by_cases h : IsColor t
  · obtain ⟨hcolor, hlower, hnone⟩ := isColor_shortenHash h
    rw [shortenHash_eq hcolor, hlower]
    split_ifs with hlong
    · rw [hnone hlong, Option.getD_none]
    · rfl
  · rw [shortenHash_of_not_isColor h, shortenHash_of_not_isColor h]

theorem isAlphanum_shortenHash {t : Text} (h : ∀ c ∈ t, c.isAlphanum = true) :
    ∀ c ∈ shortenHash t, c.isAlphanum = true := by
  by_cases hc : IsColor t
  · exact fun c hm => isAlphanum_of_isHexDigit ((isColor_shortenHash hc).1.2 c hm)
  · rwa [shortenHash_of_not_isColor hc]

end Hash

section Again

variable {p : Place} {c : Char} {t k : Text}

/-- Whether the text `out`, written at the place `p`, is read there as one piece that is written as
`out` again and leads to the depth `depth`, when `k` follows. -/
def Steady (p : Place) (out k : Text) (depth : Nat) : Prop :=
  ∃ c w piece, out = c :: w ∧ first p.last c (w ++ k) = (piece, k) ∧
    piece.compact (!p.keepUnit && p.depth == 0) p.last k.head? = out ∧ piece.deepen p.depth = depth

/-- A text that is read again as it was. -/
theorem steady_of_first (w : Text) (piece : Piece) (hout : p.written c t = c :: w)
    (hfirst : first p.last c (w ++ k) = (piece, k))
    (hcompact : piece.compact (!p.keepUnit && p.depth == 0) p.last k.head? = c :: w)
    (hdepth : piece.deepen p.depth = (p.after c t).depth) :
    Steady p (p.written c t) k (p.after c t).depth :=
  ⟨c, w, piece, hout, hfirst, hcompact.trans hout.symm, hdepth⟩

theorem steady_literal (hq : isQuote c = true) (hk : (first p.last c t).2 = [] → k = []) :
    Steady p (p.written c t) k (p.after c t).depth := by
  rw [first_literal hq] at hk
  refine steady_of_first (spanLiteral c t).1 (.verbatim (c :: (spanLiteral c t).1)) ?_ ?_ rfl ?_
  · rw [Place.written, first_literal hq]
    rfl
  · rw [first_literal hq, spanLiteral_again hq t hk]
  · rw [Place.after, first_literal hq]

theorem steady_escape (hk : (first p.last '\\' t).2 = [] → k = []) :
    Steady p (p.written '\\' t) k (p.after '\\' t).depth := by
  refine steady_of_first (t.take 1) (.verbatim ('\\' :: t.take 1)) ?_ ?_ rfl ?_
  · rw [Place.written, first_escape]
    rfl
  · cases t with
    | nil =>
      rw [hk rfl, first_escape]
      rfl
    | cons d t => rfl
  · rw [Place.after, first_escape]

theorem steady_reference (hs : isSpecial c = false) (ho : opensReference p.last (c :: t) = true)
    (hk : (first p.last c t).2 = [] → k = []) :
    Steady p (p.written c t) k (p.after c t).depth := by
  rw [first_reference hs ho] at hk
  have hagain : opensReference p.last (c :: ((spanReference none t).1 ++ k)) = true := by
    rw [opensReference, Bool.and_eq_true] at ho ⊢
    refine ⟨?_, ho.2⟩
    obtain ⟨u, r, l, rest, he, hu, hr, hl⟩ := Scan.startsIgnoringCase_url_iff.1 ho.1
    obtain ⟨rfl, rfl⟩ := List.cons.inj he
    rw [spanReference_name rest hr hl]
    exact Scan.startsIgnoringCase_url_iff.2 ⟨c, r, l, _, rfl, hu, hr, hl⟩
  refine steady_of_first (spanReference none t).1 (.verbatim (c :: (spanReference none t).1))
    ?_ ?_ rfl ?_
  · rw [Place.written, first_reference hs ho]
    rfl
  · rw [first_reference hs hagain, spanReference_again none t hk]
  · rw [Place.after, first_reference hs ho]

theorem steady_hash (hk : k.head?.any Char.isAlphanum = false) :
    Steady p (p.written '#' t) k (p.after '#' t).depth := by
  have hdigits : ∀ c ∈ shortenHash (t.takeWhile Char.isAlphanum), c.isAlphanum = true :=
    isAlphanum_shortenHash fun c hc => List.mem_takeWhile_imp hc
  obtain ⟨htake, hdrop⟩ := Text.run_append hdigits hk
  refine steady_of_first (shortenHash (t.takeWhile Char.isAlphanum))
    (.hash (shortenHash (t.takeWhile Char.isAlphanum))) ?_ ?_ ?_ ?_
  · rw [Place.written, first_hash]
    rfl
  · rw [first_hash, htake, hdrop]
  · rw [Piece.compact, shortenHash_shortenHash]
  · rw [Place.after, first_hash]
    rfl

theorem steady_plain (hfirst : first p.last c t = (.plain c, t)) (hc : p.written c t = [c])
    (hagain : first p.last c k = (.plain c, k))
    (hspace : c = ' ' → dropsSpace p.last k.head? = false) :
    Steady p (p.written c t) k (p.after c t).depth := by
  refine steady_of_first [] (.plain c) hc hagain ?_ ?_
  · refine if_neg fun h => ?_
    rw [hspace h.1] at h
    cases h.2
  · rw [Place.after, hfirst]

/-- No numeral is read where there was none. -/
theorem opensNumber_compact (hfirst : first p.last c t = (.plain c, t))
    (hp : (Piece.plain c).Apart p.last t)
    (h : opensNumber p.last (c :: (p.after c t).compact t) = true) :
    opensNumber p.last (c :: t) = true := by
  rw [opensNumber, Bool.and_eq_true] at h ⊢
  refine ⟨h.1, ?_⟩
  have hstarts := h.2
  rw [Numeral.starts] at hstarts ⊢
  split_ifs at hstarts ⊢ with hsign
  -- Behind a sign the compact text may only begin as a numeral if the value does: a plus before
  -- another numeral is what `Apart` rules out, and a minus is part of a word.
  · have hlast : (p.after c t).last = some c :=
      last_after_of_first hfirst (by rintro rfl; cases hsign)
    refine startsUnsigned_compact (ne_separator_of_last hlast ?_) (fun ho => ?_) hstarts
    · rcases Numeral.isSign_iff.1 hsign with rfl | rfl <;> decide
    · rcases Numeral.isSign_iff.1 hsign with rfl | rfl
      · exact hp.2 rfl (starts_of_opensNumber ho)
      · rw [hlast, opensNumber_of_isIdent rfl] at ho
        cases ho
  · rw [Numeral.startsUnsigned_iff] at hstarts ⊢
    rcases hstarts with hdigit | ⟨d, rest, he, hd⟩
    · exact .inl hdigit
    · obtain ⟨rfl, hrest⟩ := List.cons.inj he
      have hlast := last_after_of_first hfirst (by decide)
      have hdigit : t.head?.any Char.isDigit = true := by
        refine digit_compact (ne_separator_of_last hlast (by decide)) (fun ho => ?_)
          (by rw [hrest]; exact hd)
        rw [hlast] at ho
        cases ho
      cases t with
      | nil => cases hdigit
      | cons e t => exact .inr ⟨e, t, rfl, hdigit⟩

theorem steady_single (hs : isSpecial c = false) (ho : opensReference p.last (c :: t) = false)
    (hn : opensNumber p.last (c :: t) = false) (hp : (Piece.plain c).Apart p.last t) :
    Steady p (p.written c t) ((p.after c t).compact t) (p.after c t).depth := by
  have hfirst := first_plain hs ho hn
  have hspace : c ≠ ' ' := by
    rintro rfl
    cases hs
  refine steady_plain hfirst (written_of_first hfirst hspace) (first_plain hs ?_ ?_)
    fun h => absurd h hspace
  · refine Bool.eq_false_iff.2 fun h => ?_
    rw [opensReference_compact hfirst h] at ho
    cases ho
  · refine Bool.eq_false_iff.2 fun h => ?_
    rw [opensNumber_compact hfirst hp h] at hn
    cases hn

theorem steady_space (hp : (Piece.plain ' ').Apart p.last t)
    (hd : dropsSpace p.last t.head? = false) :
    Steady p (p.written ' ' t) ((p.after ' ' t).compact t) (p.after ' ' t).depth := by
  have hfirst : ∀ k, first p.last ' ' k = (.plain ' ', k) := fun k => first_mark (.inl rfl)
  have hwritten : p.written ' ' t = [' '] := by
    rw [Place.written, hfirst, Piece.compact, if_neg fun h => by rw [hd] at h; cases h.2]
  have hlast : (p.after ' ' t).last = some ' ' := by rw [Place.after, hwritten]; rfl
  refine steady_plain (hfirst t) hwritten (hfirst _) fun _ => ?_
  rcases head_compact (ne_separator_of_last hlast (by decide)) t with
    hsame | ⟨hspace, _⟩ | ⟨_, d, hpart, hhead⟩
  · rw [hsame, hd]
  · exact absurd hspace (hp.1 rfl).1
  · rw [dropsSpace, Bool.or_eq_false_iff] at hd ⊢
    refine ⟨hd.1, ?_⟩
    rw [hhead]
    refine Bool.eq_false_iff.2 fun h => ?_
    simp only [Option.any_some, Bool.or_eq_true, beq_iff_eq] at h
    rcases h with (rfl | rfl) | rfl <;> cases hpart

theorem spanUnit_of_ne (h : t.head? ≠ some '%') :
    spanUnit t = (t.takeWhile isIdent, t.dropWhile isIdent) := by
  fun_cases spanUnit t
  · exact absurd rfl h
  · rfl

theorem spanUnit_cases (t : Text) : t = '%' :: (spanUnit t).2 ∧ (spanUnit t).1 = ['%'] ∨
    (∀ c ∈ (spanUnit t).1, isIdent c = true) ∧ (spanUnit t).1 ++ (spanUnit t).2 = t ∧
      (spanUnit t).2.head?.any isIdent = false := by
  by_cases h : t.head? = some '%'
  · obtain ⟨u, rfl⟩ : ∃ u, t = '%' :: u := ⟨t.tail, (List.cons_head?_tail h).symm⟩
    exact .inl ⟨rfl, rfl⟩
  · rw [spanUnit_of_ne h]
    exact .inr ⟨fun _ hc => List.mem_takeWhile_imp hc, List.takeWhile_append_dropWhile,
      Text.head_dropWhile isIdent t⟩

theorem spanUnit_append {unit : Text} (hu : ∀ c ∈ unit, isIdent c = true)
    (hk : k.head?.any isIdent = false) (hpercent : unit = [] → k.head? ≠ some '%') :
    spanUnit (unit ++ k) = (unit, k) := by
  obtain ⟨htake, hdrop⟩ := Text.run_append hu hk
  have hne : (unit ++ k).head? ≠ some '%' := by
    cases unit with
    | nil => exact hpercent rfl
    | cons d unit =>
      intro hd
      have hident := hu d List.mem_cons_self
      rw [Option.some.inj hd] at hident
      cases hident
  rw [spanUnit_of_ne hne, htake, hdrop]

theorem not_digit_of_not_isIdent (h : k.head?.any isIdent = false) :
    k.head?.any Char.isDigit = false := by
  refine Bool.eq_false_iff.2 fun hdigit => ?_
  obtain ⟨d, hd, hdigit⟩ := (Option.any_eq_true _ _).1 hdigit
  rw [hd] at h
  exact absurd (isIdent_of_isDigit hdigit) (by simpa using h)

theorem not_startsExponent_of_not_isIdent (h : k.head?.any isIdent = false) :
    ¬ Numeral.StartsExponent k := by
  rintro ⟨e, rest, rfl, hE, _⟩
  rcases Numeral.isE_iff.1 hE with rfl | rfl <;> cases h

theorem isSpecial_of_isPart (h : Numeral.isPart c = true) : isSpecial c = false := by
  rcases isPart_iff.1 h with h | rfl | rfl | rfl | rfl | rfl
  · exact isSpecial_of_isIdent (isIdent_of_isDigit h)
  all_goals rfl

theorem toLower_ne_of_isPart (h : Numeral.isPart c = true) : c.toLower ≠ 'u' := by
  intro hu
  rcases isPart_iff.1 h with h | rfl | rfl | rfl | rfl | rfl
  · have hall : ∀ c ∈ ("0123456789abcdefABCDEF" : Text), c.toLower ≠ 'u' := Text.forall_of_all rfl
    exact hall c (mem_hexDigits (isHexDigit_of_isDigit h)) hu
  all_goals cases hu

/-- What begins an exponent together with the text behind it does so with any other text, or is a
letter before a plus sign. -/
theorem startsExponent_append {unit : Text} (hk : k.head?.any isIdent = false) (k' : Text)
    (h : Numeral.StartsExponent (unit ++ k)) : Numeral.StartsExponent (unit ++ k') ∨
      ∃ e out, unit = [e] ∧ Numeral.isE e = true ∧ k = '+' :: out ∧
        out.head?.any Char.isDigit = true := by
  have not_digit : ¬ k.head?.any Char.isDigit = true := by
    rw [not_digit_of_not_isIdent hk]
    exact Bool.false_ne_true
  obtain ⟨e, rest, he, hE, hdigit⟩ := h
  -- Only a unit that is a single letter leaves the sign to the text behind it.
  cases unit with
  | nil => exact absurd ⟨e, rest, he, hE, hdigit⟩ (not_startsExponent_of_not_isIdent hk)
  | cons e' unit =>
    rw [List.cons_append, List.cons.injEq] at he
    obtain ⟨rfl, rfl⟩ := he
    cases unit with
    | nil =>
      rw [List.nil_append] at hdigit
      cases k with
      | nil => cases hdigit
      | cons s out =>
        rw [Numeral.spanSign] at hdigit
        split_ifs at hdigit with hsign
        -- A minus goes on with the unit, so the sign is a plus.
        · rcases Numeral.isSign_iff.1 hsign with rfl | rfl
          · exact .inr ⟨e', out, rfl, hE, rfl, hdigit⟩
          · cases hk
        · exact absurd hdigit not_digit
    | cons s unit =>
      refine .inl ⟨e', s :: unit ++ k', rfl, hE, ?_⟩
      rw [List.cons_append, Numeral.spanSign] at hdigit ⊢
      split_ifs at hdigit ⊢ with hsign
      · cases unit with
        | nil => exact absurd hdigit not_digit
        | cons d unit => exact hdigit
      · exact hdigit

/-- Behind a word, the compact text begins with nothing that goes on with it. -/
theorem not_isIdent_compact (hlast : p.last.any isIdent = true)
    (ht : t.head?.any isIdent = false) : (p.compact t).head?.any isIdent = false := by
  rcases head_compact_of_isIdent hlast t with hsame | ⟨d, hd, hhead⟩
  · rw [hsame, ht]
  · rw [hhead]
    exact hd.not_isIdent

/-- Behind a word, a plus sign is a piece by itself. -/
theorem compact_eq_plus (hlast : p.last.any isIdent = true) {out : Text}
    (h : p.compact t = '+' :: out) : ∃ u, t = '+' :: u ∧ (p.after '+' u).last = some '+' ∧
      out = (p.after '+' u).compact u := by
  rcases head_compact_of_isIdent hlast t with hsame | ⟨d, hd, hhead⟩
  · rw [h] at hsame
    obtain ⟨u, rfl⟩ : ∃ u, t = '+' :: u := ⟨t.tail, (List.cons_head?_tail hsame.symm).symm⟩
    have hfirst : first p.last '+' u = (.plain '+', u) :=
      first_plain rfl (opensReference_ne (by decide)) (opensNumber_of_isIdent hlast)
    rw [compact_of_first hfirst (by decide)] at h
    exact ⟨u, rfl, last_after_of_first hfirst (by decide), (List.cons.inj h).2.symm⟩
  · rw [h] at hhead
    rcases hd with rfl | rfl | rfl <;> cases hhead

/-- Behind the unit of a number, nothing is read as an exponent that was not. -/
theorem startsExponent_compact {unit : Text} (hlast : p.last.any isIdent = true)
    (ht : t.head?.any isIdent = false) (hapart : Apart p t)
    (h : Numeral.StartsExponent (unit ++ p.compact t)) : Numeral.StartsExponent (unit ++ t) := by
  rcases startsExponent_append (not_isIdent_compact hlast ht) t h with hsame |
    ⟨e, out, rfl, hE, hout, hdigit⟩
  · exact hsame
  · obtain ⟨u, rfl, hafter, rfl⟩ := compact_eq_plus hlast hout
    have hfirst : first p.last '+' u = (.plain '+', u) :=
      first_plain rfl (opensReference_ne (by decide)) (opensNumber_of_isIdent hlast)
    have hnum : Numeral.starts u = true → u.head?.any Char.isDigit = true := by
      cases hapart with
      | cons hp _ =>
        rw [hfirst] at hp
        exact hp.2 rfl
    exact ⟨e, '+' :: u, rfl, hE, digit_compact (ne_separator_of_last hafter (by decide))
      (fun ho => hnum (starts_of_opensNumber ho)) hdigit⟩

structure Follows (n unit k : Text) : Prop where
  spans : spanUnit (unit ++ k) = (unit, k)
  not_digit : (unit ++ k).head?.any Char.isDigit = false
  not_point : (unit ++ k).head? ≠ some '.'
  not_exponent : n.any Numeral.isE = false → ¬ Numeral.StartsExponent (unit ++ k)

theorem follows_percent (n k : Text) : Follows n ['%'] k := by
  refine ⟨rfl, rfl, by simp, ?_⟩
  rintro - ⟨e, rest, he, hE, _⟩
  cases he
  cases hE

theorem follows_word {n unit : Text} (hu : ∀ d ∈ unit, isIdent d = true)
    (hdigit : unit.head?.any Char.isDigit = false)
    (hk : k.head?.any isIdent = false ∧ k.head? ≠ some '.' ∧ k.head? ≠ some '%')
    (hexponent : n.any Numeral.isE = false → ¬ Numeral.StartsExponent (unit ++ k)) :
    Follows n unit k where
  spans := spanUnit_append hu hk.1 fun _ => hk.2.2
  not_digit := by
    cases unit with
    | nil => exact not_digit_of_not_isIdent hk.1
    | cons d unit => exact hdigit
  not_point := by
    cases unit with
    | nil => exact hk.2.1
    | cons d unit =>
      intro hd
      have hident := hu d List.mem_cons_self
      rw [Option.some.inj hd] at hident
      cases hident
  not_exponent := hexponent

theorem steady_shortened {unit : Text} (hn : opensNumber p.last (c :: t) = true)
    (hk : Follows (Numeral.span (c :: t)).1 unit k)
    (hout : p.written c t = Numeral.shorten (Numeral.span (c :: t)).1 ++ unit)
    (hcompact : (Piece.number (Numeral.shorten (Numeral.span (c :: t)).1) unit).compact
      (!p.keepUnit && p.depth == 0) p.last k.head? = p.written c t)
    (hdepth : (p.after c t).depth = p.depth) : Steady p (p.written c t) k (p.after c t).depth := by
  have hstarts := starts_of_opensNumber hn
  obtain ⟨hagain, hspan⟩ := Numeral.span_shorten hstarts hk.not_digit hk.not_point hk.not_exponent
  obtain ⟨e, he, _⟩ := Numeral.getLast_shorten hstarts
  obtain ⟨d, w, hw⟩ : ∃ d w, Numeral.shorten (Numeral.span (c :: t)).1 = d :: w :=
    List.exists_cons_of_ne_nil (by rintro hnil; rw [hnil] at he; cases he)
  have hpart : Numeral.isPart d = true :=
    Numeral.isPart_of_mem_shorten hstarts (by rw [hw]; exact List.mem_cons_self)
  have htext : d :: ((w ++ unit) ++ k) =
        Numeral.shorten (Numeral.span (c :: t)).1 ++ (unit ++ k) := by
    rw [hw, List.append_assoc]
    rfl
  have hopens : opensNumber p.last (d :: ((w ++ unit) ++ k)) = true := by
    rw [opensNumber, Bool.and_eq_true] at hn ⊢
    exact ⟨hn.1, htext ▸ hagain⟩
  refine ⟨d, w ++ unit, .number (Numeral.shorten (Numeral.span (c :: t)).1) unit, ?_, ?_, hcompact,
    hdepth.symm⟩
  · rw [hout, hw, List.cons_append]
  · rw [first_number (isSpecial_of_isPart hpart)
      (opensReference_ne (toLower_ne_of_isPart hpart)) hopens,
      htext, hspan]
    dsimp only
    rw [hk.spans]

theorem isIdent_getLast_append {u v : Text} (hu : ∃ d ∈ u.getLast?, d.isDigit = true)
    (hv : ∀ c ∈ v, isIdent c = true) (last : Option Char) :
    ((u ++ v).getLast?.or last).any isIdent = true := by
  obtain ⟨d, hd, hdigit⟩ := hu
  rw [List.getLast?_append]
  cases hlast : v.getLast? with
  | none => simp [Option.mem_def.1 hd, isIdent_of_isDigit hdigit]
  | some e => simp [hv e (List.mem_of_getLast? hlast)]

theorem ne_percent_of_lengthUnits {unit : Text}
    (h : lengthUnits.contains (Text.lowerAscii unit) = true) : unit ≠ ['%'] := by
  rintro rfl
  revert h
  decide

/-- A number is written with all of its unit or with none of it. -/
theorem written_unit (hs : isSpecial c = false) (ho : opensReference p.last (c :: t) = false)
    (hn : opensNumber p.last (c :: t) = true) :
    ∃ v, (v = (spanUnit (Numeral.span (c :: t)).2).1 ∨
        v = [] ∧ (spanUnit (Numeral.span (c :: t)).2).1 ≠ ['%']) ∧
      p.written c t = Numeral.shorten (Numeral.span (c :: t)).1 ++ v := by
  rw [written_number hs ho hn]
  split_ifs with hdrop
  · rw [Bool.and_eq_true] at hdrop
    exact ⟨[], .inr ⟨rfl, ne_percent_of_lengthUnits hdrop.2⟩, (List.append_nil _).symm⟩
  · exact ⟨_, .inl rfl, rfl⟩

/-- What follows a number does not go on with it when it is compacted. -/
theorem follows_number (hlast : p.last.any isIdent = true) (ht : t.head?.any isIdent = false)
    (hpoint : t.head? ≠ some '.') (hpercent : t.head? ≠ some '%') :
    (p.compact t).head?.any isIdent = false ∧ (p.compact t).head? ≠ some '.' ∧
      (p.compact t).head? ≠ some '%' := by
  rcases head_compact_of_isIdent hlast t with hsame | ⟨d, hd, hhead⟩
  · rw [hsame]
    exact ⟨ht, hpoint, hpercent⟩
  · rw [hhead]
    exact ⟨hd.not_isIdent, by rcases hd with rfl | rfl | rfl <;> decide,
      by rcases hd with rfl | rfl | rfl <;> decide⟩

theorem steady_number (hs : isSpecial c = false) (ho : opensReference p.last (c :: t) = false)
    (hn : opensNumber p.last (c :: t) = true)
    (hpoint : (first p.last c t).2.head? ≠ some '.')
    (hpercent : (first p.last c t).2.head? ≠ some '%')
    (hapart : Apart (p.after c t) (first p.last c t).2) :
    Steady p (p.written c t) ((p.after c t).compact (first p.last c t).2) (p.after c t).depth := by
  have hstarts := starts_of_opensNumber hn
  have hagain := Numeral.shorten_shorten_span hstarts
  have hwritten := written_number hs ho hn
  have hdepth : (p.after c t).depth = p.depth := by
    rw [Place.after, first_number hs ho hn]
    rfl
  rw [first_number hs ho hn] at hpoint hpercent hapart ⊢
  dsimp only at hpoint hpercent hapart ⊢
  -- A percent sign always stays, a length unit goes with a zero, and every other unit stays.
  rcases spanUnit_cases (Numeral.span (c :: t)).2 with ⟨_, hunit⟩ | ⟨hu, hrest, hident⟩
  · have hdrop : lengthUnits.contains (Text.lowerAscii ['%']) = false := by decide
    rw [hunit, hdrop, Bool.and_false, if_neg Bool.false_ne_true] at hwritten
    refine steady_shortened hn (follows_percent _ _) hwritten ?_ hdepth
    rw [Piece.compact, hagain, hdrop, Bool.and_false, if_neg Bool.false_ne_true, hwritten]
  · have hlast : ∀ v, p.written c t = Numeral.shorten (Numeral.span (c :: t)).1 ++ v →
        (∀ d ∈ v, isIdent d = true) → (p.after c t).last.any isIdent = true := by
      intro v hout hv
      rw [Place.after, hout]
      exact isIdent_getLast_append (Numeral.getLast_shorten hstarts) hv p.last
    have ends := fun v hout hv => follows_number (hlast v hout hv) hident hpoint hpercent
    split_ifs at hwritten with hzero
    · rw [← List.append_nil (Numeral.shorten _)] at hwritten
      have hk := ends [] hwritten (by simp)
      refine steady_shortened hn (follows_word (by simp) rfl hk fun _ => ?_) hwritten ?_ hdepth
      · exact not_startsExponent_of_not_isIdent hk.1
      · simp [Piece.compact, hagain, hwritten]
    · refine steady_shortened hn (follows_word hu ?_ (ends _ hwritten hu) fun hany hexponent => ?_)
        hwritten ?_ hdepth
      · have hdigit := Numeral.not_digit_of_span hstarts
        rw [← hrest] at hdigit
        cases hunit : (spanUnit (Numeral.span (c :: t)).2).1 with
        | nil => rfl
        | cons d unit => simpa [hunit] using hdigit
      · have hbefore := startsExponent_compact (hlast _ hwritten hu) hident hapart hexponent
        rw [hrest] at hbefore
        exact Numeral.not_startsExponent_of_span hstarts hany hbefore
      · rw [Piece.compact, hagain, if_neg hzero, hwritten]

theorem isIdent_of_isAlphanum (h : c.isAlphanum = true) : isIdent c = true := by
  simp [isIdent, h]

/-- What follows the digits of a color does not go on with them. -/
theorem follows_hash :
    ((p.after '#' t).compact (first p.last '#' t).2).head?.any Char.isAlphanum = false := by
  have hdigits : ∀ c ∈ shortenHash (t.takeWhile Char.isAlphanum), c.isAlphanum = true :=
    isAlphanum_shortenHash fun c hc => List.mem_takeWhile_imp hc
  obtain ⟨d, hlast, hd⟩ : ∃ d, (p.after '#' t).last = some d ∧ (d = '#' ∨ d.isAlphanum = true) := by
    have hlast : (p.after '#' t).last =
        ('#' :: shortenHash (t.takeWhile Char.isAlphanum)).getLast?.or p.last := by
      rw [Place.after, Place.written, first_hash]
      rfl
    rw [hlast, List.getLast?_cons]
    cases hd : (shortenHash (t.takeWhile Char.isAlphanum)).getLast? with
    | none => exact ⟨'#', rfl, .inl rfl⟩
    | some d => exact ⟨d, rfl, .inr (hdigits d (List.mem_of_getLast? hd))⟩
  have hsolid : d ≠ ',' ∧ d ≠ '/' ∧ d ≠ '(' := by
    refine ⟨?_, ?_, ?_⟩ <;> rintro rfl <;> rcases hd with hd | hd <;> cases hd
  have hnumber : ∀ u, opensNumber (p.after '#' t).last u = false := by
    intro u
    rw [hlast]
    rcases hd with rfl | hd
    · rfl
    · exact opensNumber_of_isIdent (isIdent_of_isAlphanum hd)
  rcases head_compact (ne_separator_of_last hlast hsolid) (first p.last '#' t).2 with
    hsame | ⟨_, e, he, hhead⟩ | ⟨hn, _⟩
  · rw [hsame, first_hash]
    exact Text.head_dropWhile Char.isAlphanum t
  · rw [hhead]
    rcases he with rfl | rfl | rfl <;> rfl
  · rw [hnumber] at hn
    cases hn

theorem steady (hp : (first p.last c t).1.Apart p.last (first p.last c t).2)
    (hapart : Apart (p.after c t) (first p.last c t).2) :
    p.written c t = [] ∧ p.after c t = p ∨
      Steady p (p.written c t) ((p.after c t).compact (first p.last c t).2)
        (p.after c t).depth := by
  have hempty : (first p.last c t).2 = [] → (p.after c t).compact (first p.last c t).2 = [] := by
    intro h
    rw [h, Place.compact_nil]
  rcases kind p.last c t with hq | hc | rfl | rfl | ⟨hs, ho⟩ | ⟨hs, ho, hn⟩ | ⟨hs, ho, hn⟩
  · exact .inr (steady_literal hq hempty)
  · have hfirst : ∀ k, first p.last c k = (.plain c, k) := fun k => first_mark hc
    rw [hfirst] at hp ⊢
    by_cases hspace : c = ' '
    · subst hspace
      cases hd : dropsSpace p.last t.head? with
      | true =>
        have hwritten : p.written ' ' t = [] := by
          rw [Place.written, hfirst]
          exact if_pos ⟨rfl, hd⟩
        refine .inl ⟨hwritten, ?_⟩
        rw [Place.after, hwritten, hfirst]
        rfl
      | false => exact .inr (steady_space hp hd)
    · exact .inr (steady_plain (hfirst t) (written_of_first (hfirst t) hspace) (hfirst _)
        fun h => absurd h hspace)
  · exact .inr (steady_hash follows_hash)
  · exact .inr (steady_escape hempty)
  · exact .inr (steady_reference hs ho hempty)
  · rw [first_number hs ho hn] at hp
    refine .inr (steady_number hs ho hn ?_ ?_ hapart)
    · rw [first_number hs ho hn]
      exact hp.1
    · rw [first_number hs ho hn]
      exact hp.2
  · rw [first_plain hs ho hn] at hp ⊢
    exact .inr (steady_single hs ho hn hp)

/-- Compacting a value again changes nothing where its pieces stay apart. -/
theorem compact_compact (h : Apart p t) : p.compact (p.compact t) = p.compact t := by
  induction h with
  | nil => rw [Place.compact_nil, Place.compact_nil]
  | @cons p c t hp hapart ih =>
    rw [Place.compact_cons p c t]
    -- Either the piece is a space that is dropped, or what is written is read as one piece again.
    rcases steady hp hapart with ⟨hwritten, hafter⟩ | ⟨d, w, piece, hout, hfirst, hcompact, hdepth⟩
    · rw [hwritten, List.nil_append]
      rwa [hafter] at ih ⊢
    · generalize hk : (p.after c t).compact (first p.last c t).2 = k at *
      have hwritten : p.written d (w ++ k) = p.written c t := by
        rw [Place.written, hfirst, hcompact]
      have hafter : p.after d (w ++ k) = p.after c t := by
        rw [Place.after, hwritten, hfirst, hdepth]
        rfl
      have htext : p.written c t ++ k = d :: (w ++ k) := by rw [hout, List.cons_append]
      rw [htext, Place.compact_cons, hwritten, hafter, hfirst, ih, ← htext]

end Again

end Stylesmith.Value
