import Stylesmith.Proofs.Minify.Headers
import Stylesmith.Proofs.Minify.Steady

set_option autoImplicit false

namespace Stylesmith.Value

open Lexeme (isIdent isQuote Enclosed)

section Inversion

variable {ok : Char → Bool} {was t u w k : Text} {c : Char}

theorem isPlain_of_isIdent (h : isIdent c = true) : IsPlain c := by
  obtain ⟨hq, hm, _, he⟩ := isSpecial_eq_false_iff.1 (isSpecial_of_isIdent h)
  refine ⟨hq, Bool.eq_false_iff.2 fun hb => ?_, he⟩
  simp only [isBracket, Bool.or_eq_true, beq_iff_eq] at hb
  rcases hb with ((rfl | rfl) | rfl) | rfl <;> cases h

theorem tokens_char (h : Tokens false ok was (c :: t)) (hc : IsPlain c) :
    Tokens false ok was [c] ∧ Tokens false ok (c :: was) t ∧ Scan.isStop c = false ∧
      (Text.isWide c = true → c = ' ') := by
  cases h with
  | literal hq =>
    rw [hc.1] at hq
    cases hq
  | group hencloses =>
    have hb := hc.2.1
    rcases hencloses with ⟨rfl, _⟩ | ⟨rfl, _⟩ <;> cases hb
  | char hq hesc hbracket hstop hok hstar hwide ht =>
    exact ⟨.char hq hesc hbracket hstop hok hstar hwide .nil, ht, hstop, fun hw => (hwide rfl hw).1⟩
  | escape _ h => cases h
  | comment h => cases h

theorem tokens_group {o : Char} (ho : o = '(' ∨ o = '[') (h : Tokens false ok was (o :: t)) :
    ∃ c body u, t = body ++ c :: u ∧ Encloses o c ∧ (OpensUrl was o → IsUrlBody body) ∧
      Tokens false (fun _ => true) (o :: was) body ∧
      Tokens false ok (c :: (body.reverse ++ o :: was)) u := by
  cases h with
  | literal hq => rcases ho with rfl | rfl <;> cases hq
  | group hencloses hurl hbody hu => exact ⟨_, _, _, rfl, hencloses, hurl, hbody, hu⟩
  | char _ _ hbracket => rcases ho with rfl | rfl <;> cases hbracket
  | escape _ h => cases h
  | comment h => cases h

theorem tokens_word (hw : ∀ c ∈ w, IsPlain c) (h : Tokens false ok was (w ++ u)) :
    Tokens false ok was w ∧ Tokens false ok (w.reverse ++ was) u := by
  induction w generalizing was with
  | nil => exact ⟨.nil, h⟩
  | cons c w ih =>
    obtain ⟨hc, ht, _⟩ := tokens_char h (hw c List.mem_cons_self)
    obtain ⟨hword, hu⟩ := ih (fun d hd => hw d (List.mem_cons_of_mem c hd)) ht
    refine ⟨tokens_append hc hword, ?_⟩
    rwa [List.reverse_cons, List.append_assoc]

structure WordChar (c : Char) : Prop where
  plain : IsPlain c
  not_stop : Scan.isStop c = false
  not_wide : Text.isWide c = false
  not_star : c ≠ '*'

theorem WordChar.not_blank (h : WordChar c) : Text.isBlank c = false := by
  refine Bool.eq_false_iff.2 fun hb => ?_
  have hw := h.not_wide
  rw [Text.isWide_of_isBlank hb] at hw
  cases hw

theorem tokens_of_wordChar {before : Text} (hw : ∀ c ∈ w, WordChar c) (hok : ∀ c ∈ w, ok c = true) :
    Tokens false ok before w := by
  induction w generalizing before with
  | nil => exact .nil
  | cons c w ih =>
    have hc := hw c List.mem_cons_self
    refine .char hc.plain.1 hc.plain.2.2 hc.plain.2.1 hc.not_stop (hok c List.mem_cons_self)
      (fun h => absurd h hc.not_star) (fun _ h => ?_)
      (ih (fun d hd => hw d (List.mem_cons_of_mem c hd))
        fun d hd => hok d (List.mem_cons_of_mem c hd))
    rw [hc.not_wide] at h
    cases h

theorem wordChar_of_tokens (h : Tokens false ok was w)
    (hw : ∀ c ∈ w, IsPlain c ∧ c ≠ ' ' ∧ c ≠ '*') : ∀ c ∈ w, WordChar c := by
  induction w generalizing was with
  | nil => exact fun c hc => absurd hc List.not_mem_nil
  | cons d w ih =>
    intro c hc
    obtain ⟨hd, hne, hstar⟩ := hw d List.mem_cons_self
    obtain ⟨_, ht, hstop, hwide⟩ := tokens_char h hd
    rcases List.mem_cons.1 hc with rfl | hc
    · exact ⟨hd, hstop, Bool.eq_false_iff.2 fun hw => hne (hwide hw), hstar⟩
    · exact ih ht (fun e he => hw e (List.mem_cons_of_mem d he)) c hc

/-- What closes a group does not belong to a word. -/
theorem word_of_append (hk : ∀ c ∈ k.head?, c = ')' ∨ c = ']') (hw : ∀ c ∈ w, IsPlain c)
    {rest : Text} (h : t ++ k = w ++ rest) : ∃ u, t = w ++ u ∧ rest = u ++ k := by
  rcases List.append_eq_append_iff.1 h with ⟨a, rfl, ha⟩ | ⟨u, ht, hrest⟩
  · cases a with
    | nil => exact ⟨[], by simp, by simpa using ha.symm⟩
    | cons d a =>
      have hd := (hw d (by simp)).2.1
      rcases hk d (by rw [ha]; rfl) with rfl | rfl <;> cases hd
  · exact ⟨u, ht, hrest⟩

end Inversion

/-- How the first piece of a text is taken off: it is written shorter, and what follows is
well-formed behind it. -/
def Peels (p : Place) (was after : Text) (c : Char) (t k : Text) : Prop :=
  ∃ w u, c :: t = w ++ u ∧ w ≠ [] ∧ (first p.last c (t ++ k)).2 = u ++ k ∧
    (p.after c (t ++ k)).depth = p.depth ∧ Tokens false (fun _ => true) (w.reverse ++ was) u ∧
    StandsFor ((p.written c (t ++ k)).reverse ++ after) (w.reverse ++ was) (u ++ k).head? ∧
    ∀ next out, Rewrites (fun _ => true) (w.reverse ++ was)
      ((p.written c (t ++ k)).reverse ++ after) next u out →
      Rewrites (fun _ => true) was after next (w ++ u) (p.written c (t ++ k) ++ out)

section Peels

variable {p : Place} {was after t k w u : Text} {c : Char}

theorem peels_same {piece : Piece} (ht : c :: t = w ++ u) (hne : w ≠ [])
    (hfirst : first p.last c (t ++ k) = (piece, u ++ k)) (hdepth : piece.deepen p.depth = p.depth)
    (hwritten : p.written c (t ++ k) = w) (hw : Tokens false (fun _ => true) was w)
    (hu : Tokens false (fun _ => true) (w.reverse ++ was) u)
    (hs : StandsFor after was (c :: (t ++ k)).head?) : Peels p was after c t k := by
  have htext : c :: (t ++ k) = w ++ (u ++ k) := by
    rw [← List.append_assoc, ← ht]
    rfl
  rw [htext] at hs
  refine ⟨w, u, ht, hne, by rw [hfirst], ?_, hu, ?_, fun next out h => ?_⟩
  · rw [Place.after, hfirst]
    exact hdepth
  · rw [hwritten]
    exact hs.append
  · rw [hwritten] at h ⊢
    exact .same hw hs h

theorem peels_literal (hq : isQuote c = true) (h : Tokens false (fun _ => true) was (c :: t))
    (hs : StandsFor after was (some c)) : Peels p was after c t k := by
  cases h with
  | @literal _ _ body u _ _ hb hu =>
    have hfirst : first p.last c ((body ++ c :: u) ++ k) =
        (.verbatim (c :: (body ++ [c])), u ++ k) := by
      rw [first_literal hq, List.append_assoc, List.cons_append, spanLiteral,
        Lexeme.spanLiteral_of_enclosed (Lexeme.ne_backslash_of_isQuote hq) hb]
    refine peels_same (w := c :: (body ++ [c])) (u := u) (by simp) (by simp) hfirst rfl ?_
      (.literal hq hb .nil) (by simpa using hu) hs
    rw [Place.written, hfirst]
    rfl
  | group hencloses => rcases hencloses with ⟨rfl, _⟩ | ⟨rfl, _⟩ <;> cases hq
  | char hn =>
    rw [hn] at hq
    cases hq
  | escape _ h => cases h
  | comment h => cases h

theorem peels_plain (hfirst : first p.last c (t ++ k) = (.plain c, t ++ k))
    (hwritten : p.written c (t ++ k) = [c]) (hc : IsPlain c)
    (h : Tokens false (fun _ => true) was (c :: t)) (hs : StandsFor after was (some c)) :
    Peels p was after c t k := by
  obtain ⟨hchar, hu, _⟩ := tokens_char h hc
  refine peels_same (w := [c]) (u := t) rfl (by simp) hfirst ?_ hwritten hchar hu hs
  rw [Piece.deepen, if_neg, if_neg]
  all_goals
    rintro rfl
    cases hc.2.1

theorem peels_dropped (hp : (Piece.plain ' ').Apart after.head? (t ++ k))
    (hlast : p.last = after.head?) (hd : dropsSpace p.last (t ++ k).head? = true)
    (h : Tokens false (fun _ => true) was (' ' :: t)) :
    Peels p was after ' ' t k := by
  have hfirst : first p.last ' ' (t ++ k) = (.plain ' ', t ++ k) := first_mark (.inl rfl)
  have hwritten : p.written ' ' (t ++ k) = [] := by
    rw [Place.written, hfirst]
    exact if_pos ⟨rfl, hd⟩
  refine ⟨[' '], t, rfl, by simp, by rw [hfirst], ?_,
    (tokens_char h ⟨rfl, rfl, by decide⟩).2.1, ?_, ?_⟩
  · rw [Place.after, hfirst]
    rfl
  · rw [hwritten]
    rw [hlast, dropsSpace, Bool.or_eq_true, Option.any_eq_true, Option.any_eq_true] at hd
    obtain ⟨hspace, hstar⟩ := hp.1 rfl
    have opens : ∀ {n : Option Char}, after.head?.any isIdent = false ∨ n ≠ some '(' →
        n = some '(' → UrlPart.before after ≠ .url := by
      rintro n (hlast | hn) hopen hurl
      · rw [UrlPart.before_eq_start_iff.2 hlast] at hurl
        cases hurl
      · exact hn hopen
    -- The space stands behind a separator or before one, so that no name goes on over it.
    rcases hd with ⟨c, hc, hd⟩ | ⟨c, hc, hd⟩
    · have hident : after.head?.any isIdent = false := by
        simp only [Bool.or_eq_true, beq_iff_eq] at hd
        rw [hc]
        rcases hd with (rfl | rfl) | rfl <;> rfl
      exact .drop_space hspace (fun hn hslash => hstar hslash hn)
        (opens (.inl hident)) (.inl hident)
    · have hc' : c ≠ '(' ∧ isIdent c = false := by
        simp only [Bool.or_eq_true, beq_iff_eq] at hd
        rcases hd with (rfl | rfl) | rfl <;> decide
      refine .drop_space hspace (fun hn hslash => hstar hslash hn) (opens (.inr ?_)) (.inr ?_)
      · rw [hc]
        exact fun he => hc'.1 (Option.some.inj he)
      · rw [hc]
        exact fun d hd => Option.some.inj hd ▸ hc'.2
  · intro next out h
    rw [hwritten] at h ⊢
    exact h.drop

theorem spanReference_enclosed {quote : Char} {body : Text} (hq : isQuote quote = true)
    (h : Enclosed quote body) (k : Text) : spanReference (some quote) (body ++ quote :: k) =
      (body ++ quote :: (spanReference none k).1, (spanReference none k).2) := by
  have hesc : ∀ {d : Char} {u : Text}, d ≠ '\\' → ∀ e v, d = '\\' → u = e :: v → False :=
    fun h _ _ he _ => h he
  induction h with
  | nil =>
    rw [List.nil_append, spanReference, if_pos rfl]
    · rfl
    · exact hesc (Lexeme.ne_backslash_of_isQuote hq)
  | escape d _ ih => rw [List.cons_append, List.cons_append, spanReference, ih]; rfl
  | char hne hb _ ih =>
    rw [List.cons_append, spanReference, if_neg hne, ih]
    · rfl
    · exact hesc hb

/-- A reference is read through a well-formed text that holds no parenthesis. -/
theorem spanReference_tokens {ok : Char → Bool} (h : Tokens false ok was t) (k : Text)
    (hp : ('(', false) ∉ Text.markLiterals none (spanReference none (t ++ k)).1) :
    spanReference none (t ++ k) = (t ++ (spanReference none k).1, (spanReference none k).2) := by
  have plain : ∀ {c : Char} {t : Text}, isQuote c = false → c ≠ ')' → c ≠ '\\' →
      ('(', false) ∉ Text.markLiterals none (spanReference none (c :: t)).1 →
      spanReference none (c :: t) = (c :: (spanReference none t).1, (spanReference none t).2) ∧
        ('(', false) ∉ (c, false) :: Text.markLiterals none (spanReference none t).1 := by
    intro c t hq hc he hp
    rw [spanReference_plain t hq hc he] at hp ⊢
    rw [Text.markLiterals_none_cons, hq] at hp
    exact ⟨rfl, hp⟩
  induction h generalizing k with
  | nil => rfl
  | @literal _ _ body t quote hq hb _ ih =>
    have hspan : spanReference none (quote :: (body ++ quote :: t) ++ k) =
        (quote :: (body ++ quote :: (spanReference none (t ++ k)).1),
          (spanReference none (t ++ k)).2) := by
      rw [List.cons_append, spanReference, if_neg, if_pos hq, List.append_assoc, List.cons_append,
        spanReference_enclosed hq hb]
      · rintro rfl
        cases hq
      · exact fun _ _ he _ => Lexeme.ne_backslash_of_isQuote hq he
    rw [hspan, Text.markLiterals_none_cons, if_pos hq, Text.markLiterals_some_append hq hb,
      List.mem_cons, List.mem_append, List.mem_cons, not_or, not_or, not_or] at hp
    rw [hspan, ih k hp.2.2.2]
    simp
  | @group _ _ body t o c hencloses _ hbody _ ihb ih =>
    rw [List.cons_append, List.append_assoc, List.cons_append] at hp ⊢
    rcases hencloses with ⟨rfl, rfl⟩ | ⟨rfl, rfl⟩
    · exact absurd List.mem_cons_self (plain rfl (by decide) (by decide) hp).2
    · obtain ⟨hspan, hp⟩ := plain rfl (by decide) (by decide) hp
      have hb := ihb (']' :: (t ++ k)) fun hm => hp (List.mem_cons_of_mem _ hm)
      obtain ⟨hclose, hp'⟩ : spanReference none (']' :: (t ++ k)) =
          (']' :: (spanReference none (t ++ k)).1, (spanReference none (t ++ k)).2) ∧
          ('(', false) ∉ (']', false) ::
            Text.markLiterals none (spanReference none (t ++ k)).1 := by
        refine plain rfl (by decide) (by decide) fun hm => hp ?_
        rw [hb, Text.markLiterals_tokens hbody]
        exact List.mem_cons_of_mem _ (List.mem_append_right _ hm)
      rw [hspan, hb, hclose, ih k fun hm => hp' (List.mem_cons_of_mem _ hm)]
      simp
  | @char _ _ t c hq hesc hbracket _ _ _ _ _ ih =>
    rw [List.cons_append] at hp ⊢
    have hc : c ≠ ')' := by
      rintro rfl
      cases hbracket
    obtain ⟨hspan, hp⟩ := plain hq hc hesc hp
    rw [hspan, ih k fun hm => hp (List.mem_cons_of_mem _ hm)]
    rfl
  | escape _ h => cases h
  | comment h => cases h

theorem peels_reference (hs : isSpecial c = false)
    (ho : opensReference p.last (c :: (t ++ k)) = true)
    (hp : (first p.last c (t ++ k)).1.Apart p.last (first p.last c (t ++ k)).2)
    (hk : ∀ c ∈ k.head?, c = ')' ∨ c = ']') (h : Tokens false (fun _ => true) was (c :: t))
    (hstands : StandsFor after was (some c)) : Peels p was after c t k := by
  have hfirst := first_reference hs ho
  have hopens := ho
  rw [opensReference, Bool.and_eq_true, Scan.startsIgnoringCase_url_iff] at hopens
  obtain ⟨⟨_, r, l, rest, he, hu, hr, hl⟩, _⟩ := hopens
  obtain ⟨rfl, htail⟩ := List.cons.inj he
  have identR : isIdent r = true := UrlPart.isIdent_of_toLower hr rfl
  have identL : isIdent l = true := UrlPart.isIdent_of_toLower hl rfl
  have hname : ∀ d ∈ [c, r, l], IsPlain d := by
    intro d hd
    simp only [List.mem_cons, List.not_mem_nil, or_false] at hd
    rcases hd with rfl | rfl | rfl
    · exact isPlain_of_isIdent (UrlPart.isIdent_of_toLower hu rfl)
    · exact isPlain_of_isIdent identR
    · exact isPlain_of_isIdent identL
  obtain ⟨group, rfl, hgroup⟩ := word_of_append (w := [r, l]) hk
    (fun d hd => hname d (List.mem_cons_of_mem c hd)) htail
  obtain ⟨group, rfl⟩ : ∃ rest, group = '(' :: rest := by
    cases group with
    | nil =>
      rcases hk '(' (by rw [← List.nil_append k, ← hgroup]; rfl) with hc | hc <;> cases hc
    | cons d group => exact ⟨group, by rw [(List.cons.inj hgroup).1]⟩
  obtain ⟨hword, hgroupTokens⟩ := tokens_word (w := [c, r, l]) hname h
  obtain ⟨d, body, u, rfl, hencloses, hurl, hbody, hu'⟩ := tokens_group (.inl rfl) hgroupTokens
  obtain rfl : d = ')' := by
    rcases hencloses with ⟨_, rfl⟩ | ⟨hd, _⟩
    · rfl
    · cases hd
  have hclose : spanReference none (')' :: (u ++ k)) = ([')'], u ++ k) := by
    rw [spanReference, if_pos rfl]
    exact fun _ _ h => by cases h
  have hspan : spanReference none (([r, l] ++ '(' :: (body ++ ')' :: u)) ++ k) =
      (r :: l :: '(' :: (body ++ [')']), u ++ k) := by
    have htext : ([r, l] ++ '(' :: (body ++ ')' :: u)) ++ k =
        r :: l :: '(' :: (body ++ ')' :: (u ++ k)) := by simp
    rw [hfirst, htext, spanReference_name _ hr hl] at hp
    have hmarks : ('(', false) ∉
        Text.markLiterals none (spanReference none (body ++ ')' :: (u ++ k))).1 := by
      have hq : isQuote c = false ∧ isQuote r = false ∧ isQuote l = false :=
        ⟨(hname c (by simp)).1, (hname r (by simp)).1, (hname l (by simp)).1⟩
      have hparen : isQuote '(' = false := rfl
      simpa [Piece.Apart, Text.markLiterals_none_cons, hq.1, hq.2.1, hq.2.2, hparen] using hp
    rw [htext, spanReference_name _ hr hl, spanReference_tokens hbody _ hmarks, hclose]
  rw [hspan] at hfirst
  refine peels_same (w := [c, r, l] ++ '(' :: (body ++ [')'])) (u := u)
    (by simp) (by simp) hfirst rfl ?_
    (tokens_append hword (.group hencloses hurl hbody .nil)) (by simpa using hu') hstands
  rw [Place.written, hfirst]
  rfl

theorem peels_word {piece : Piece} (ht : c :: t = w ++ u)
    (hfirst : first p.last c (t ++ k) = (piece, u ++ k)) (hdepth : piece.deepen p.depth = p.depth)
    (hw : ∀ d ∈ w, IsPlain d ∧ Text.isBlank d = false) (hne : w ≠ [])
    (hv : ∀ d ∈ p.written c (t ++ k), WordChar d)
    (hend : ∃ d ∈ (p.written c (t ++ k)).getLast?, d ≠ '/')
    (hpart : UrlPart.before ((p.written c (t ++ k)).reverse ++ after) =
      UrlPart.before (w.reverse ++ was))
    (h : Tokens false (fun _ => true) was (c :: t)) : Peels p was after c t k := by
  obtain ⟨e, he, hslash⟩ := hend
  have hnv : p.written c (t ++ k) ≠ [] := by
    intro hnil
    rw [hnil] at he
    cases he
  have hhead : ((p.written c (t ++ k)).reverse ++ after).head? = some e := by
    rw [List.head?_append, List.head?_reverse, Option.mem_def.1 he]
    rfl
  have hspace : e ≠ ' ' := by
    rintro rfl
    cases (hv _ (List.mem_of_getLast? he)).not_blank
  refine ⟨w, u, ht, hne, by rw [hfirst], ?_, (tokens_word (fun d hd => (hw d hd).1) (ht ▸ h)).2, ?_,
    fun next out hr => ?_⟩
  · rw [Place.after, hfirst]
    exact hdepth
  · refine .of_before hpart ?_ ?_ _
    · rw [hhead]
      exact fun he => hslash (Option.some.inj he)
    · rw [hhead]
      exact fun he => hspace (Option.some.inj he)
  · exact .word hne hw hnv (fun d hd => ⟨(hv d hd).plain, (hv d hd).not_blank⟩)
      (tokens_of_wordChar hv fun _ _ => rfl) hr

theorem not_blank_of_isIdent (h : isIdent c = true) : Text.isBlank c = false := by
  refine Bool.eq_false_iff.2 fun hb => ?_
  simp only [Text.isBlank, Bool.or_eq_true, beq_iff_eq] at hb
  rcases hb with (((rfl | rfl) | rfl) | rfl) | rfl <;> cases h

theorem wordChar_of_isHexDigit (h : isHexDigit c = true) : WordChar c ∧ isIdent c = true ∧
    c.toLower ≠ 'u' ∧ c.toLower ≠ 'r' ∧ c.toLower ≠ 'l' := by
  have hall : ∀ c ∈ ("0123456789abcdefABCDEF" : Text), isQuote c = false ∧ isBracket c = false ∧
      c ≠ '\\' ∧ Scan.isStop c = false ∧ Text.isWide c = false ∧ c ≠ '*' ∧ isIdent c = true ∧
      c.toLower ≠ 'u' ∧ c.toLower ≠ 'r' ∧ c.toLower ≠ 'l' := Text.forall_of_all rfl
  obtain ⟨hq, hb, he, hs, hw, hstar, hrest⟩ := hall c (mem_hexDigits h)
  exact ⟨⟨⟨hq, hb, he⟩, hs, hw, hstar⟩, hrest⟩

theorem before_of_getLast {d : Char} (hd : w.getLast? = some d) (hi : isIdent d = true)
    (hu : d.toLower ≠ 'u' ∧ d.toLower ≠ 'r' ∧ d.toLower ≠ 'l') (was : Text) :
    UrlPart.before (w.reverse ++ was) = .other := by
  obtain ⟨v, rfl⟩ := List.getLast?_eq_some_iff.1 hd
  rw [List.reverse_append, List.reverse_singleton, List.singleton_append, List.cons_append,
    UrlPart.before, UrlPart.step]
  simp [hi, hu.1, hu.2.1, hu.2.2]

theorem before_append_other (hw : ∀ c ∈ w, isIdent c = true) (hwas : UrlPart.before was = .other) :
    UrlPart.before (w ++ was) = .other := by
  induction w with
  | nil => exact hwas
  | cons c w ih =>
    rw [List.cons_append, UrlPart.before, ih fun d hd => hw d (List.mem_cons_of_mem c hd),
      UrlPart.step]
    simp [hw c List.mem_cons_self]

theorem peels_hash (hk : ∀ c ∈ k.head?, c = ')' ∨ c = ']')
    (h : Tokens false (fun _ => true) was ('#' :: t)) (hs : StandsFor after was (some '#')) :
    Peels p was after '#' t k := by
  have hdigits : ∀ c ∈ (t ++ k).takeWhile Char.isAlphanum, c.isAlphanum = true :=
    fun c hc => List.mem_takeWhile_imp hc
  generalize hd : (t ++ k).takeWhile Char.isAlphanum = digits at hdigits
  have hident : ∀ c ∈ digits, isIdent c = true := fun c hc => isIdent_of_isAlphanum (hdigits c hc)
  obtain ⟨u, rfl, hu⟩ := word_of_append (w := digits) hk
    (fun c hc => isPlain_of_isIdent (hident c hc))
    (hd ▸ List.takeWhile_append_dropWhile.symm :
      t ++ k = digits ++ (t ++ k).dropWhile Char.isAlphanum)
  have hfirst : first p.last '#' ((digits ++ u) ++ k) = (.hash digits, u ++ k) := by
    rw [first_hash, hd, hu]
  have hwritten : p.written '#' ((digits ++ u) ++ k) = '#' :: shortenHash digits := by
    rw [Place.written, hfirst]
    rfl
  have hplain : ∀ d ∈ '#' :: digits, IsPlain d ∧ Text.isBlank d = false := by
    intro d hd
    rcases List.mem_cons.1 hd with rfl | hd
    · exact ⟨⟨rfl, rfl, by decide⟩, rfl⟩
    · exact ⟨isPlain_of_isIdent (hident d hd), not_blank_of_isIdent (hident d hd)⟩
  by_cases hcolor : IsColor digits
  · obtain ⟨hshort, _⟩ := isColor_shortenHash hcolor
    have hlast : ∀ {t : Text}, IsColor t → ∃ d, ('#' :: t).getLast? = some d ∧
        isHexDigit d = true := by
      rintro t ⟨hlength, hhex⟩
      have hne : t ≠ [] := by
        rintro rfl
        simp at hlength
      refine ⟨t.getLast hne, ?_, hhex _ (List.getLast_mem hne)⟩
      rw [List.getLast?_cons, List.getLast?_eq_some_getLast hne]
      rfl
    obtain ⟨d, hd, hdhex⟩ := hlast hcolor
    obtain ⟨e, he, hehex⟩ := hlast hshort
    obtain ⟨_, hdident, hdurl⟩ := wordChar_of_isHexDigit hdhex
    obtain ⟨_, heident, heurl⟩ := wordChar_of_isHexDigit hehex
    refine peels_word (w := '#' :: digits) (u := u) rfl hfirst rfl hplain (by simp) ?_ ?_ ?_ h
    · rw [hwritten]
      intro c hc
      rcases List.mem_cons.1 hc with rfl | hc
      · exact ⟨⟨rfl, rfl, by decide⟩, rfl, by decide, by decide⟩
      · exact (wordChar_of_isHexDigit (hshort.2 c hc)).1
    · rw [hwritten]
      refine ⟨e, he, ?_⟩
      rintro rfl
      cases hehex
    · rw [hwritten, before_of_getLast he heident heurl, before_of_getLast hd hdident hdurl]
  · obtain ⟨hw, hu'⟩ := tokens_word (w := '#' :: digits) (u := u) (fun d hd => (hplain d hd).1) h
    refine peels_same (w := '#' :: digits) (u := u) rfl (by simp) hfirst rfl ?_ hw hu' hs
    rw [hwritten, shortenHash_of_not_isColor hcolor]

theorem wordChar_of_isPart (h : Numeral.isPart c = true) : WordChar c := by
  rcases isPart_iff.1 h with h | rfl | rfl | rfl | rfl | rfl
  · exact (wordChar_of_isHexDigit (isHexDigit_of_isDigit h)).1
  all_goals exact ⟨⟨rfl, rfl, by decide⟩, rfl, by decide, by decide⟩

/-- The part of a name before a place behind a number depends on the unit only. -/
theorem before_number {numeral unit : Text} (hn : ∃ d ∈ numeral.getLast?, d.isDigit = true)
    (hu : (∀ c ∈ unit, isIdent c = true) ∨ unit = ['%']) (was : Text) :
    UrlPart.before ((numeral ++ unit).reverse ++ was) =
        if unit = ['%'] then .start else .other := by
  rcases hu with hu | rfl
  · have hne : unit ≠ ['%'] := by
      rintro rfl
      cases hu '%' (by simp)
    obtain ⟨d, hd, hdigit⟩ := hn
    obtain ⟨_, hident, hurl⟩ := wordChar_of_isHexDigit (isHexDigit_of_isDigit hdigit)
    rw [if_neg hne, List.reverse_append, List.append_assoc]
    exact before_append_other (fun c hc => hu c (List.mem_reverse.1 hc))
      (before_of_getLast hd hident hurl was)
  · rw [if_pos rfl, List.reverse_append]
    rfl

theorem getLast_number {numeral unit : Text} (hn : ∃ d ∈ numeral.getLast?, d.isDigit = true)
    (hu : (∀ c ∈ unit, isIdent c = true) ∨ unit = ['%']) :
    ∃ d ∈ (numeral ++ unit).getLast?, d ≠ '/' := by
  obtain ⟨d, hd, hdigit⟩ := hn
  rw [List.getLast?_append]
  cases hlast : unit.getLast? with
  | none =>
    refine ⟨d, hd, ?_⟩
    rintro rfl
    cases hdigit
  | some e =>
    refine ⟨e, rfl, ?_⟩
    rintro rfl
    rcases hu with hu | rfl
    · cases hu _ (List.mem_of_getLast? hlast)
    · cases hlast

theorem solid_number {numeral unit : Text} (hn : ∀ d ∈ numeral, Numeral.isPart d = true)
    (hu : (∀ c ∈ unit, isIdent c = true) ∨ unit = ['%']) :
    ∀ d ∈ numeral ++ unit, IsPlain d ∧ d ≠ ' ' ∧ d ≠ '*' := by
  intro d hd
  rcases List.mem_append.1 hd with hd | hd
  · have hw := wordChar_of_isPart (hn d hd)
    refine ⟨hw.plain, ?_, hw.not_star⟩
    rintro rfl
    cases hw.not_wide
  · rcases hu with hu | rfl
    · refine ⟨isPlain_of_isIdent (hu d hd), ?_, ?_⟩ <;> rintro rfl <;> cases hu _ hd
    · rw [List.mem_singleton.1 hd]
      exact ⟨⟨rfl, rfl, by decide⟩, by decide, by decide⟩

theorem peels_number (hs : isSpecial c = false) (ho : opensReference p.last (c :: (t ++ k)) = false)
    (hn : opensNumber p.last (c :: (t ++ k)) = true) (hk : ∀ c ∈ k.head?, c = ')' ∨ c = ']')
    (h : Tokens false (fun _ => true) was (c :: t)) : Peels p was after c t k := by
  have hfirst := first_number hs ho hn
  have hunit := written_unit (p := p) hs ho hn
  have hstarts := starts_of_opensNumber hn
  have hpart : ∀ d ∈ (Numeral.span (c :: (t ++ k))).1, Numeral.isPart d = true :=
    fun d hd => Numeral.isPart_of_mem_span hstarts hd
  have hshort : ∀ d ∈ Numeral.shorten (Numeral.span (c :: (t ++ k))).1, Numeral.isPart d = true :=
    fun d hd => Numeral.isPart_of_mem_shorten hstarts hd
  have hlast := Numeral.getLast_span hstarts
  have hlastshort := Numeral.getLast_shorten hstarts
  have hspan := Numeral.span_text (c :: (t ++ k))
  have hunits := spanUnit_cases (Numeral.span (c :: (t ++ k))).2
  -- Only these facts on the numeral and the unit are used below.
  generalize Numeral.shorten (Numeral.span (c :: (t ++ k))).1 = short at *
  generalize hrest : (spanUnit (Numeral.span (c :: (t ++ k))).2).2 = rest at *
  generalize (spanUnit (Numeral.span (c :: (t ++ k))).2).1 = unit at *
  generalize (Numeral.span (c :: (t ++ k))).1 = numeral at *
  have hu : (∀ d ∈ unit, isIdent d = true) ∨ unit = ['%'] := hunits.symm.imp And.left And.right
  have hsolid := solid_number hpart hu
  have htext : (c :: t) ++ k = (numeral ++ unit) ++ rest := by
    rw [List.cons_append, ← hspan, List.append_assoc]
    rcases hunits with ⟨h, rfl⟩ | ⟨_, h, _⟩
    · rw [h]
      rfl
    · rw [h]
  obtain ⟨u, ht, rfl⟩ := word_of_append hk (fun d hd => (hsolid d hd).1) htext
  have hwordChar := wordChar_of_tokens (tokens_word (fun d hd => (hsolid d hd).1) (ht ▸ h)).1 hsolid
  obtain ⟨v, hv, hwritten⟩ := hunit
  have hv' : (∀ d ∈ v, isIdent d = true) ∨ v = ['%'] := by
    rcases hv with rfl | ⟨rfl, _⟩
    · exact hu
    · exact .inl (by simp)
  refine peels_word ht hfirst rfl
    (fun d hd => ⟨(hwordChar d hd).plain, (hwordChar d hd).not_blank⟩) ?_ ?_ ?_ ?_ h
  · obtain ⟨d, hd, _⟩ := hlast
    intro hnil
    rw [(List.append_eq_nil_iff.1 hnil).1] at hd
    cases hd
  · rw [hwritten]
    intro d hd
    rcases List.mem_append.1 hd with hd | hd
    · exact wordChar_of_isPart (hshort d hd)
    · rcases hv with rfl | ⟨rfl, _⟩
      · exact hwordChar d (List.mem_append_right _ hd)
      · cases hd
  · rw [hwritten]
    exact getLast_number hlastshort hv'
  · rw [hwritten, before_number hlastshort hv', before_number hlast hu]
    rcases hv with rfl | ⟨rfl, hne⟩
    · rfl
    · rw [if_neg (by simp), if_neg hne]

theorem peels (hlast : p.last = after.head?)
    (hp : (first p.last c (t ++ k)).1.Apart p.last (first p.last c (t ++ k)).2)
    (hopener : ¬ (c = '(' ∨ c = '[')) (hk : ∀ c ∈ k.head?, c = ')' ∨ c = ']')
    (h : Tokens false (fun _ => true) was (c :: t)) (hs : StandsFor after was (some c)) :
    Peels p was after c t k := by
  have hbracket : isQuote c = false → IsPlain c := by
    intro hq
    cases h with
    | literal hq' =>
      rw [hq'] at hq
      cases hq
    | group hencloses => exact absurd (hencloses.imp And.left And.left) hopener
    | char hq hesc hb => exact ⟨hq, hb, hesc⟩
    | escape _ h => cases h
    | comment h => cases h
  rcases kind p.last c (t ++ k) with hq | hc | rfl | rfl | ⟨hc, ho⟩ | ⟨hc, ho, hn⟩ | ⟨hc, ho, hn⟩
  · exact peels_literal hq h hs
  · have hfirst := @first_mark p.last c (t ++ k) hc
    obtain rfl : c = ' ' := by
      rcases hc with rfl | rfl | rfl
      · rfl
      · exact absurd (.inl rfl) hopener
      · cases (hbracket rfl).2.1
    rw [hfirst, hlast] at hp
    cases hd : dropsSpace p.last (t ++ k).head? with
    | true => exact peels_dropped hp hlast hd h
    | false =>
      refine peels_plain hfirst ?_ (hbracket rfl) h hs
      rw [Place.written, hfirst, Piece.compact, if_neg fun h => by rw [hd] at h; cases h.2]
  · exact peels_hash hk h hs
  · exact absurd rfl (hbracket rfl).2.2
  · exact peels_reference hc ho hp hk h hs
  · exact peels_number hc ho hn hk h
  · have hfirst := first_plain hc ho hn
    refine peels_plain hfirst (written_of_first hfirst ?_)
      (hbracket (isSpecial_eq_false_iff.1 hc).1) h hs
    rintro rfl
    cases hc

end Peels

theorem Apart.of_cons {p : Place} {c : Char} {t : Text} (h : Apart p (c :: t)) :
    (first p.last c t).1.Apart p.last (first p.last c t).2 ∧
      Apart (p.after c t) (first p.last c t).2 := by
  cases h with
  | cons hp hrest => exact ⟨hp, hrest⟩

theorem first_bracket (last : Option Char) {c : Char} (h : isBracket c = true) (t : Text) :
    first last c t = (.plain c, t) := by
  simp only [isBracket, Bool.or_eq_true, beq_iff_eq] at h
  rcases h with ((rfl | rfl) | rfl) | rfl
  · exact first_mark (.inr (.inl rfl))
  · exact first_mark (.inr (.inr rfl))
  all_goals exact first_plain rfl (opensReference_ne (by decide)) (Bool.and_false _)

theorem Apart.of_bracket {p : Place} {c : Char} {t : Text} (h : Apart p (c :: t))
    (hc : isBracket c = true) : Apart ⟨p.keepUnit, (Piece.plain c).deepen p.depth, some c⟩ t ∧
      p.compact (c :: t) =
        c :: (Place.mk p.keepUnit ((Piece.plain c).deepen p.depth) (some c)).compact t := by
  have hfirst := first_bracket p.last hc t
  have hspace : c ≠ ' ' := by
    rintro rfl
    cases hc
  have hafter : p.after c t = ⟨p.keepUnit, (Piece.plain c).deepen p.depth, some c⟩ := by
    rw [Place.after, written_of_first hfirst hspace, hfirst]
    rfl
  have hrest := h.of_cons.2
  rw [hafter, hfirst] at hrest
  exact ⟨hrest, by rw [compact_of_first hfirst hspace, hafter]⟩

theorem Piece.deepen_deepen {o c : Char} (h : Encloses o c) (depth : Nat) :
    (Piece.plain c).deepen ((Piece.plain o).deepen depth) = depth := by
  rcases h with ⟨rfl, rfl⟩ | ⟨rfl, rfl⟩ <;> rfl

/-- Compacting `t` at the place `p`, with `k` behind it, rewrites it. -/
def Compacts (p : Place) (was after t k : Text) : Prop :=
  ∃ (q : Place) (out : Text), p.compact (t ++ k) = out ++ q.compact k ∧
    q.last = (out.reverse ++ after).head? ∧ q.depth = p.depth ∧ Apart q k ∧
    Rewrites (fun _ => true) was after k.head? t out

theorem compacts_group {p : Place} {was after body t k : Text} {o c : Char}
    (hencloses : Encloses o c) (hurl : OpensUrl was o → IsUrlBody body)
    (hs : StandsFor after was (some o)) (hapart : Apart p (o :: (body ++ c :: (t ++ k))))
    (hinner : ∀ q : Place, q.last = some o → Apart q (body ++ c :: (t ++ k)) →
      Compacts q (o :: was) (o :: after) body (c :: (t ++ k)))
    (hbehind : ∀ (q : Place) (body' : Text), q.last = some c → Apart q (t ++ k) →
      StandsFor (c :: (body'.reverse ++ o :: after)) (c :: (body.reverse ++ o :: was))
        (t ++ k).head? →
      Compacts q (c :: (body.reverse ++ o :: was)) (c :: (body'.reverse ++ o :: after)) t k) :
    Compacts p was after (o :: (body ++ c :: t)) k := by
  have hbrackets : isBracket o = true ∧ isBracket c = true := by
    rcases hencloses with ⟨rfl, rfl⟩ | ⟨rfl, rfl⟩ <;> decide
  have htext : o :: (body ++ c :: t) ++ k = o :: (body ++ c :: (t ++ k)) := by simp
  obtain ⟨hapart, hopen⟩ := hapart.of_bracket hbrackets.1
  obtain ⟨q, body', hout, hq, hqdepth, hqapart, hr⟩ := hinner _ rfl hapart
  obtain ⟨hapart, hclose⟩ := hqapart.of_bracket hbrackets.2
  -- Behind the group the depth is the one before it, since what closes it balances what opens it.
  rw [hqdepth, Piece.deepen_deepen hencloses] at hapart hclose
  obtain ⟨q', out, hout', hq', hqdepth', hqapart', hr'⟩ :=
    hbehind _ body' rfl hapart (hr.stands.cons _)
  refine ⟨q', o :: (body' ++ c :: out), ?_, ?_, hqdepth', hqapart', .group hencloses hurl hs hr hr'⟩
  · rw [htext, hopen, hout, hclose, hout']
    simp
  · rw [hq']
    simp

theorem compacts_piece {p : Place} {was after t k : Text} {c : Char} (hlast : p.last = after.head?)
    (hopener : ¬ (c = '(' ∨ c = '[')) (ht : Tokens false (fun _ => true) was (c :: t))
    (hapart : Apart p (c :: (t ++ k))) (hs : StandsFor after was (some c))
    (hk : ∀ c ∈ k.head?, c = ')' ∨ c = ']')
    (hbehind : ∀ {q : Place} {was after u : Text}, u.length < (c :: t).length →
      q.last = after.head? → Tokens false (fun _ => true) was u → Apart q (u ++ k) →
      StandsFor after was (u ++ k).head? → Compacts q was after u k) :
    Compacts p was after (c :: t) k := by
  obtain ⟨hp, hrest⟩ := hapart.of_cons
  have hcompact := p.compact_cons c (t ++ k)
  have hafter : (p.after c (t ++ k)).last =
      ((p.written c (t ++ k)).reverse ++ after).head? := by
    rw [List.head?_append, List.head?_reverse, ← hlast]
    rfl
  obtain ⟨w, u, ht', hne, hfirst, hdepth, hu, hstands, hrewrites⟩ :=
    peels hlast hp hopener hk ht hs
  rw [hfirst] at hrest hcompact
  have hshort : u.length < (c :: t).length := by
    have hw := List.length_pos_iff.2 hne
    rw [ht', List.length_append]
    omega
  obtain ⟨q, out, hout, hq, hqdepth, hqapart, hr⟩ := hbehind hshort hafter hu hrest hstands
  refine ⟨q, p.written c (t ++ k) ++ out, ?_, ?_, hqdepth.trans hdepth, hqapart, ?_⟩
  · rw [List.cons_append, hcompact, hout, List.append_assoc]
  · rw [hq, List.reverse_append, List.append_assoc]
  · rw [ht']
    exact hrewrites _ _ hr

theorem compacts_tokens {p : Place} {was after t k : Text} (hlast : p.last = after.head?)
    (ht : Tokens false (fun _ => true) was t) (hapart : Apart p (t ++ k))
    (hs : StandsFor after was (t ++ k).head?) (hk : ∀ c ∈ k.head?, c = ')' ∨ c = ']') :
    Compacts p was after t k := by
  -- A piece may take several characters, so the induction is on the length and not on the parts.
  induction hn : t.length using Nat.strong_induction_on generalizing p was after t k with
  | h n ih =>
  subst hn
  cases t with
  | nil => exact ⟨p, [], rfl, hlast, rfl, hapart, .nil hs⟩
  | cons c t =>
  by_cases hopener : c = '(' ∨ c = '['
  · obtain ⟨d, body, u, rfl, hencloses, hurl, hbody, hu⟩ := tokens_group hopener ht
    have htext : c :: (body ++ d :: u) ++ k = c :: (body ++ d :: (u ++ k)) := by simp
    have hcloses : ∀ e ∈ (d :: (u ++ k)).head?, e = ')' ∨ e = ']' := fun e he =>
      Option.some.inj he ▸ hencloses.imp And.right And.right
    have hlength : body.length < (c :: (body ++ d :: u)).length ∧
        u.length < (c :: (body ++ d :: u)).length := by
      simp only [List.length_cons, List.length_append]
      omega
    refine compacts_group hencloses hurl hs (htext ▸ hapart) (fun q hq hqapart => ?_)
      fun q body' hq hqapart hstands => ?_
    · exact ih _ hlength.1 hq hbody hqapart (hs.cons _) hcloses rfl
    · exact ih _ hlength.2 hq hu hqapart hstands hk rfl
  · exact compacts_piece hlast hopener ht hapart hs hk fun hshort hlast hu hapart hs =>
      ih _ hshort hlast hu hapart hs hk rfl

theorem clean_compact {p : Place} {t : Text} (hlast : p.last = none) (ht : Clean (fun _ => true) t)
    (h : Apart p t) : Clean (fun _ => true) (p.compact t) := by
  obtain ⟨q, out, hout, _, _, _, hr⟩ := @compacts_tokens p [] [] t [] hlast ht.tokens
    (by rwa [List.append_nil]) (.refl [] _) (fun c hc => by cases hc)
  rw [List.append_nil, Place.compact_nil, List.append_nil] at hout
  rw [hout]
  exact hr.clean ht

end Stylesmith.Value
