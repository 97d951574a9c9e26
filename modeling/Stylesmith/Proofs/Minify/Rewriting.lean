import Stylesmith.Proofs.Stylesheet.Printable

set_option autoImplicit false

namespace Stylesmith

open Lexeme (isIdent isQuote Enclosed)

inductive UrlPart where
  | other
  | start
  | u
  | ur
  | url
  deriving DecidableEq

namespace UrlPart

def step (p : UrlPart) (c : Char) : UrlPart :=
  if isIdent c = false then start
  else if p = start ∧ c.toLower = 'u' then u
  else if p = u ∧ c.toLower = 'r' then ur
  else if p = ur ∧ c.toLower = 'l' then url
  else other

def before : Text → UrlPart
  | [] => start
  | c :: t => (before t).step c

theorem step_of_not_isIdent (p : UrlPart) {c : Char} (h : isIdent c = false) :
    p.step c = start := by
  rw [step, if_pos h]

theorem before_eq_start_iff {t : Text} : before t = start ↔ t.head?.any isIdent = false := by
  cases t with
  | nil => simp [before]
  | cons c t =>
    rw [before, step]
    split_ifs <;> simp_all

theorem before_cons_eq_u {c : Char} {t : Text} (h : before (c :: t) = u) :
    before t = start ∧ c.toLower = 'u' := by
  rw [before, step] at h
  split_ifs at h with _ hu
  exact hu

theorem before_cons_eq_ur {c : Char} {t : Text} (h : before (c :: t) = ur) :
    before t = u ∧ c.toLower = 'r' := by
  rw [before, step] at h
  split_ifs at h with _ _ hr
  exact hr

theorem before_cons_eq_url {c : Char} {t : Text} (h : before (c :: t) = url) :
    before t = ur ∧ c.toLower = 'l' := by
  rw [before, step] at h
  split_ifs at h with _ _ _ hl
  exact hl

theorem isIdent_of_toLower {c d : Char} (h : c.toLower = d) (hd : d.isAlpha = true) :
    isIdent c = true := by
  have hc := Scan.isAlpha_of_toLower h hd
  simp [isIdent, Char.isAlphanum, hc]

end UrlPart

theorem opensUrl_iff {t : Text} {o : Char} : OpensUrl t o ↔ o = '(' ∧ UrlPart.before t = .url := by
  constructor
  · rintro ⟨rfl, l, r, u, more, rfl, hu, hr, hl, hmore⟩
    have iu := UrlPart.isIdent_of_toLower hu rfl
    have ir := UrlPart.isIdent_of_toLower hr rfl
    have il := UrlPart.isIdent_of_toLower hl rfl
    have hstart := UrlPart.before_eq_start_iff.2 hmore
    simp [UrlPart.before, UrlPart.step, hstart, iu, ir, il, hu, hr, hl]
  · rintro ⟨rfl, h⟩
    cases t with
    | nil => cases h
    | cons l t =>
    obtain ⟨h, hl⟩ := UrlPart.before_cons_eq_url h
    cases t with
    | nil => cases h
    | cons r t =>
    obtain ⟨h, hr⟩ := UrlPart.before_cons_eq_ur h
    cases t with
    | nil => cases h
    | cons u t =>
    obtain ⟨h, hu⟩ := UrlPart.before_cons_eq_u h
    exact ⟨rfl, l, r, u, t, rfl, hu, hr, hl, UrlPart.before_eq_start_iff.1 h⟩

/-- Whether, before the character `next`, the text `after` stands for the text `was`, both reversed:
nothing is read together with the end of `after` that was not with the end of `was`. -/
structure StandsFor (after was : Text) (next : Option Char) : Prop where
  star : next = some '*' → after.head? = some '/' → was.head? = some '/'
  space : next = some ' ' → after.head? = some ' ' → was.head? = some ' '
  opens : next = some '(' → UrlPart.before after = .url → UrlPart.before was = .url
  part : ∀ c ∈ next, (UrlPart.before after).step c = (UrlPart.before was).step c

namespace StandsFor

variable {after was : Text} {next : Option Char}

theorem refl (t : Text) (next : Option Char) : StandsFor t t next :=
  ⟨fun _ => id, fun _ => id, fun _ => id, fun _ _ => rfl⟩

theorem cons {c : Char} (h : StandsFor after was (some c)) (next : Option Char) :
    StandsFor (c :: after) (c :: was) next := by
  have hpart : UrlPart.before (c :: after) = UrlPart.before (c :: was) := h.part c rfl
  exact ⟨fun _ => id, fun _ => id, fun _ hurl => hpart ▸ hurl, fun d _ => by rw [hpart]⟩

theorem append {t k : Text} (h : StandsFor after was (t ++ k).head?) :
    StandsFor (t.reverse ++ after) (t.reverse ++ was) k.head? := by
  induction t generalizing after was with
  | nil => exact h
  | cons c t ih => simpa using ih (h.cons (t ++ k).head?)

/-- Ends in the same part of a word and in neither slash nor space. -/
theorem of_before (hpart : UrlPart.before after = UrlPart.before was)
    (hslash : after.head? ≠ some '/') (hspace : after.head? ≠ some ' ') (next : Option Char) :
    StandsFor after was next :=
  ⟨fun _ h => absurd h hslash, fun _ h => absurd h hspace, fun _ h => hpart ▸ h,
    fun _ _ => by rw [hpart]⟩

/-- A space may be dropped behind a separator, or before one. -/
theorem drop_space (hnext : next ≠ some ' ')
    (hstar : next = some '*' → after.head? ≠ some '/')
    (hopens : next = some '(' → UrlPart.before after ≠ .url)
    (hsep : (after.head?.any isIdent = false) ∨ ∀ c ∈ next, isIdent c = false) :
    StandsFor after (' ' :: was) next := by
  refine ⟨fun hn hs => absurd hs (hstar hn), fun hn => absurd hn hnext,
    fun hn hs => absurd hs (hopens hn), fun c hc => ?_⟩
  rcases hsep with hsep | hsep
  · rw [UrlPart.before_eq_start_iff.2 hsep]
    rfl
  · rw [UrlPart.step_of_not_isIdent _ (hsep c hc), UrlPart.step_of_not_isIdent _ (hsep c hc)]

end StandsFor

/-- A sequence is well-formed behind every text that stands for the one before it. -/
theorem tokens_standsFor {raw : Bool} {ok : Char → Bool} {after was t k : Text}
    (h : Tokens raw ok was t) (hs : StandsFor after was (t ++ k).head?) :
    Tokens raw ok after t := by
  induction h generalizing after k with
  | nil => exact .nil
  | @literal _ was body t quote hq hb _ ih =>
    have hs' := StandsFor.append (t := quote :: (body ++ [quote])) (k := t ++ k) (by simpa using hs)
    exact .literal hq hb (@ih _ k (by simpa using hs'))
  | @group _ was body t o c hencloses hurl _ _ ihb ih =>
    have hinside := hs.cons (body ++ c :: (t ++ k)).head?
    have hafter := StandsFor.append (k := t ++ k) (t := body ++ [c]) (by simpa using hinside)
    refine .group hencloses (fun ho => ?_) (ihb hinside) (@ih _ k (by simpa using hafter))
    rw [opensUrl_iff] at ho
    exact hurl (opensUrl_iff.2 ⟨ho.1, hs.opens (by simp [ho.1]) ho.2⟩)
  | @char _ was t c hq hesc hbracket hstop hok hstar hwide _ ih =>
    refine .char hq hesc hbracket hstop hok (fun hc hslash => ?_) (fun hraw hw => ?_)
      (@ih _ k (hs.cons _))
    · exact hstar hc (hs.star (by simp [hc]) hslash)
    · obtain ⟨rfl, hspace⟩ := hwide hraw hw
      exact ⟨rfl, fun h => hspace (hs.space rfl h)⟩
  | @escape _ was t c hraw _ ih =>
    have hs' := StandsFor.append (t := ['\\', c]) (k := t ++ k) (by simpa using hs)
    exact .escape c hraw (@ih _ k hs')
  | @comment _ was body t hraw hbody _ ih =>
    have hs' := StandsFor.append (t := '/' :: '*' :: (body ++ ['*', '/'])) (k := t ++ k)
      (by simpa using hs)
    exact .comment hraw hbody (@ih _ k (by simpa using hs'))

theorem tokens_append {raw : Bool} {ok : Char → Bool} {before t u : Text}
    (h : Tokens raw ok before t) (hu : Tokens raw ok (t.reverse ++ before) u) :
    Tokens raw ok before (t ++ u) := by
  induction h with
  | nil => exact hu
  | literal hq hb _ ih =>
    have hrest := ih (by simpa using hu)
    simpa using Tokens.literal hq hb hrest
  | group hencloses hurl hbody _ _ ih =>
    have hrest := ih (by simpa using hu)
    simpa using Tokens.group hencloses hurl hbody hrest
  | char hq hesc hbracket hstop hok hstar hwide _ ih =>
    exact .char hq hesc hbracket hstop hok hstar hwide (ih (by simpa using hu))
  | escape c hraw _ ih => exact .escape c hraw (ih (by simpa using hu))
  | comment hraw hbody _ ih =>
    have hrest := ih (by simpa using hu)
    simpa using Tokens.comment hraw hbody hrest

def IsPlain (c : Char) : Prop := isQuote c = false ∧ isBracket c = false ∧ c ≠ '\\'

def BeginsQuoted (t : Text) : Prop := (Text.skipBlanks t).head?.any isQuote = true

theorem beginsQuoted_append {t u v : Text} (h : BeginsQuoted u → BeginsQuoted v)
    (ht : BeginsQuoted (t ++ u)) : BeginsQuoted (t ++ v) := by
  induction t with
  | nil => exact h ht
  | cons c t ih =>
    by_cases hc : Text.isBlank c = true
    · simp only [BeginsQuoted, Text.skipBlanks, List.cons_append, List.dropWhile_cons, hc,
        if_true] at ht ⊢
      exact ih ht
    · simpa [BeginsQuoted, Text.skipBlanks, hc] using ht

structure Rewrites (ok : Char → Bool) (was after : Text) (next : Option Char) (t out : Text) :
    Prop where
  tokens : Tokens false ok after out
  stands : StandsFor (out.reverse ++ after) (t.reverse ++ was) next
  quoted : BeginsQuoted t → BeginsQuoted out
  plain : (∀ c ∈ t, IsPlain c) → ∀ c ∈ out, IsPlain c
  empty : t = [] → out = []
  head : ∀ c ∈ t.head?, c ≠ ' ' → ∃ d ∈ out.head?, d ≠ ' '
  last : ∀ c ∈ t.getLast?, c ≠ ' ' → ∃ d ∈ out.getLast?, d ≠ ' '

namespace Rewrites

variable {ok : Char → Bool} {was after t u k out : Text} {next : Option Char}

theorem nil (h : StandsFor after was next) : Rewrites ok was after next [] [] :=
  ⟨.nil, h, id, id, id, fun _ hc => absurd hc (by simp), fun _ hc => absurd hc (by simp)⟩

/-- The last character of a text is that of its end, rewritten as the end is. -/
theorem last_append {w v : Text} (h : Rewrites ok was after next u out)
    (hw : ∀ c ∈ w.getLast?, c ≠ ' ' → ∃ d ∈ v.getLast?, d ≠ ' ') :
    ∀ c ∈ (w ++ u).getLast?, c ≠ ' ' → ∃ d ∈ (v ++ out).getLast?, d ≠ ' ' := by
  intro c hc hne
  rw [List.getLast?_append] at hc ⊢
  rcases Option.or_eq_some_iff.1 hc with hc | ⟨hu, hc⟩
  · obtain ⟨d, hd, hdne⟩ := h.last c hc hne
    exact ⟨d, Option.or_eq_some_iff.2 (.inl hd), hdne⟩
  · obtain ⟨d, hd, hdne⟩ := hw c hc hne
    rw [h.empty (List.getLast?_eq_none_iff.1 hu)]
    exact ⟨d, hd, hdne⟩

theorem plain_append {w v : Text} (h : Rewrites ok was after next u out)
    (hw : (∀ c ∈ w, IsPlain c) → ∀ c ∈ v, IsPlain c) :
    (∀ c ∈ w ++ u, IsPlain c) → ∀ c ∈ v ++ out, IsPlain c := by
  simp only [List.forall_mem_append]
  exact fun hall => ⟨hw hall.1, h.plain hall.2⟩

theorem same (ht : Tokens false ok was t) (hs : StandsFor after was (t ++ k).head?)
    (h : Rewrites ok (t.reverse ++ was) (t.reverse ++ after) next u out) :
    Rewrites ok was after next (t ++ u) (t ++ out) where
  tokens := tokens_append (tokens_standsFor ht hs) h.tokens
  stands := by simpa using h.stands
  quoted := beginsQuoted_append h.quoted
  plain := h.plain_append id
  empty he := by
    obtain ⟨rfl, rfl⟩ := List.append_eq_nil_iff.1 he
    exact h.empty rfl
  head c hc hne := by
    cases t with
    | nil => exact h.head c hc hne
    | cons d t => exact ⟨c, hc, hne⟩
  last := h.last_append fun c hc hne => ⟨c, hc, hne⟩

theorem drop (h : Rewrites ok (' ' :: was) after next u out) :
    Rewrites ok was after next (' ' :: u) out where
  tokens := h.tokens
  stands := by simpa using h.stands
  quoted := h.quoted
  plain hall := h.plain fun c hc => hall c (List.mem_cons_of_mem _ hc)
  empty he := absurd he (List.cons_ne_nil _ _)
  head c hc hne := absurd (Option.some.inj hc).symm hne
  last c hc hne := by
    cases u with
    | nil => exact absurd (Option.some.inj hc).symm hne
    | cons d u => exact h.last c (by rwa [List.getLast?_cons_cons] at hc) hne

theorem word {w v : Text} (hne : w ≠ []) (hw : ∀ c ∈ w, IsPlain c ∧ Text.isBlank c = false)
    (hnv : v ≠ []) (hv : ∀ c ∈ v, IsPlain c ∧ Text.isBlank c = false)
    (ht : Tokens false ok after v)
    (h : Rewrites ok (w.reverse ++ was) (v.reverse ++ after) next u out) :
    Rewrites ok was after next (w ++ u) (v ++ out) := by
  have solid : ∀ {c : Char}, c ∈ v → c ≠ ' ' := by
    rintro c hc rfl
    cases (hv _ hc).2
  exact {
    tokens := tokens_append ht h.tokens
    stands := by simpa using h.stands
    quoted := by
      obtain ⟨c, w, rfl⟩ := List.exists_cons_of_ne_nil hne
      obtain ⟨⟨hquote, _⟩, hblank⟩ := hw c List.mem_cons_self
      intro hq
      simp [BeginsQuoted, Text.skipBlanks, hblank, hquote] at hq
    plain := h.plain_append fun _ c hc => (hv c hc).1
    empty := fun he => absurd (List.append_eq_nil_iff.1 he).1 hne
    head := by
      obtain ⟨d, v, rfl⟩ := List.exists_cons_of_ne_nil hnv
      exact fun c hc _ => ⟨d, rfl, solid List.mem_cons_self⟩
    last := h.last_append fun c hc _ =>
      ⟨v.getLast hnv, List.getLast?_eq_some_getLast hnv, solid (List.getLast_mem hnv)⟩ }

theorem group {body body' : Text} {o c : Char} (hencloses : Encloses o c)
    (hurl : OpensUrl was o → IsUrlBody body) (hs : StandsFor after was (some o))
    (hbody : Rewrites (fun _ => true) (o :: was) (o :: after) (some c) body body')
    (h : Rewrites ok (c :: (body.reverse ++ o :: was)) (c :: (body'.reverse ++ o :: after)) next u
      out) : Rewrites ok was after next (o :: (body ++ c :: u)) (o :: (body' ++ c :: out)) where
  tokens := by
    refine .group hencloses (fun ho => ?_) hbody.tokens h.tokens
    rw [opensUrl_iff] at ho
    have hwas := opensUrl_iff.2 ⟨ho.1, hs.opens (by rw [ho.1]) ho.2⟩
    exact (hurl hwas).imp hbody.quoted hbody.plain
  stands := by simpa using h.stands
  quoted hq := by
    rcases hencloses with ⟨rfl, _⟩ | ⟨rfl, _⟩ <;> cases hq
  plain hall := by
    have ho := (hall o List.mem_cons_self).2.1
    rcases hencloses with ⟨rfl, _⟩ | ⟨rfl, _⟩ <;> cases ho
  empty he := absurd he (List.cons_ne_nil _ _)
  head d hd hne := ⟨d, hd, hne⟩
  last := by
    have hlast := h.last_append (w := o :: (body ++ [c])) (v := o :: (body' ++ [c]))
      (fun d hd hne => ⟨d, by simpa [List.getLast?_cons] using hd, hne⟩)
    simpa using hlast

theorem clean (h : Rewrites ok [] [] none t out) (ht : Clean ok t) : Clean ok out := by
  obtain ⟨c, hc⟩ := Option.ne_none_iff_exists'.1 (mt List.head?_eq_none_iff.1 ht.ne_nil)
  obtain ⟨d, hd⟩ := Option.ne_none_iff_exists'.1 (mt List.getLast?_eq_none_iff.1 ht.ne_nil)
  obtain ⟨c', hc', hne⟩ := h.head c hc fun he => ht.head (he ▸ hc)
  obtain ⟨d', hd', hnv⟩ := h.last d hd fun he => ht.last (he ▸ hd)
  refine ⟨h.tokens, ?_, ?_, ?_⟩
  · rintro rfl
    cases hc'
  · rw [hc']
    exact fun he => hne (Option.some.inj he)
  · rw [hd']
    exact fun he => hnv (Option.some.inj he)

end Rewrites

end Stylesmith
