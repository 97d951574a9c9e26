import Mathlib.Data.List.Chain
import Stylesmith.Minify.Header
import Stylesmith.Proofs.Minify.Rewriting

/-!
# Compact headers

Selectors and preludes are thinned in one way: a space outside literals is dropped if it stands
beside a separator. Thinning again changes nothing where the spaces are single, and a clean text
stays clean, but for a name `url` that stands apart from its parenthesis.
-/

set_option autoImplicit false

namespace Stylesmith

open Lexeme (isIdent isQuote Enclosed)

namespace Text

theorem markLiterals_none_cons (c : Char) (t : Text) : markLiterals none (c :: t) =
    (c, isQuote c) :: markLiterals (if isQuote c then some c else none) t := by
  rw [markLiterals.eq_def]
  split
  · rename_i he
    cases he
  · rename_i he
    cases he
    rfl
  · rename_i he
    cases he
    dsimp only
    split <;> simp_all

theorem markLiterals_some_cons {quote c : Char} {t : Text} (h : c ≠ '\\' ∨ t = []) :
    markLiterals (some quote) (c :: t) =
      (c, true) :: markLiterals (if c = quote then none else some quote) t := by
  rw [markLiterals.eq_def]
  split
  · rename_i he
    cases he
  · rename_i he
    cases he
    simp at h
  · rename_i he
    cases he
    rfl

theorem markLiterals_some_append {quote : Char} {body : Text} (hq : isQuote quote = true)
    (h : Enclosed quote body) (t : Text) :
    markLiterals (some quote) (body ++ quote :: t) =
      body.map (fun c => (c, true)) ++ (quote, true) :: markLiterals none t := by
  induction h with
  | nil => simp [markLiterals_some_cons (.inl (Lexeme.ne_backslash_of_isQuote hq))]
  | escape c _ ih => simp [markLiterals, ih]
  | char hne hesc _ ih => simp [markLiterals_some_cons, hne, hesc, ih]

theorem plain_of_encloses {o c : Char} (h : Encloses o c) :
    isQuote o = false ∧ isQuote c = false ∧ o ≠ ' ' ∧ c ≠ ' ' := by
  rcases h with ⟨rfl, rfl⟩ | ⟨rfl, rfl⟩ <;> decide

theorem markLiterals_tokens {ok : Char → Bool} {was t : Text} (h : Tokens false ok was t)
    (k : Text) :
    markLiterals none (t ++ k) = markLiterals none t ++ markLiterals none k := by
  induction h generalizing k with
  | nil => rfl
  | @literal _ _ body t quote hq hb _ ih =>
    simp only [List.cons_append, List.append_assoc, markLiterals_none_cons, hq, if_true,
      markLiterals_some_append hq hb, ih]
  | @group _ _ body t o c hencloses _ _ _ ihb ih =>
    have hplain := plain_of_encloses hencloses
    simp [markLiterals_none_cons, hplain.1, hplain.2.1, ihb, ih]
  | char hq _ _ _ _ _ _ _ ih => simp [markLiterals_none_cons, hq, ih]
  | escape _ h => cases h
  | comment h => cases h

end Text

/-- A way to thin texts: which spaces are dropped between two characters, and how the depth of groups
is counted. -/
structure Thinning where
  drops : (depth : Nat) → (last next : Option Char) → Bool
  deepen : Nat → Char → Nat

namespace Thinning

def keepFrom (T : Thinning) (depth : Nat) (last : Option Char) :
    List (Char × Bool) → List (Char × Bool)
  | [] => []
  | (c, inLiteral) :: rest =>
    if inLiteral then (c, inLiteral) :: T.keepFrom depth (some c) rest
    else if c = ' ' then
      if T.drops depth last (rest.head?.map (·.1)) then T.keepFrom depth last rest
      else (c, inLiteral) :: T.keepFrom depth (some c) rest
    else (c, inLiteral) :: T.keepFrom (T.deepen depth c) (some c) rest

theorem keepFrom_solid (T : Thinning) (depth : Nat) (last : Option Char) {c : Char} (hc : c ≠ ' ')
    (ms : List (Char × Bool)) : T.keepFrom depth last ((c, false) :: ms) =
      (c, false) :: T.keepFrom (T.deepen depth c) (some c) ms := by
  rw [keepFrom, if_neg Bool.false_ne_true, if_neg hc]

theorem keepFrom_space (T : Thinning) (depth : Nat) (last : Option Char) (ms : List (Char × Bool)) :
    T.keepFrom depth last ((' ', false) :: ms) =
      if T.drops depth last (ms.head?.map (·.1)) then T.keepFrom depth last ms
      else (' ', false) :: T.keepFrom depth (some ' ') ms := by
  rw [keepFrom, if_neg Bool.false_ne_true, if_pos rfl]

/-- What thins each character as `T` does thins texts as `T` does. -/
theorem eq_keepFrom (T : Thinning) {f : Nat → Option Char → List (Char × Bool) → Text}
    (hnil : ∀ depth last, f depth last [] = [])
    (hcons : ∀ depth last c inLiteral rest, f depth last ((c, inLiteral) :: rest) =
      if inLiteral then c :: f depth (some c) rest
      else if c = ' ' then
        if T.drops depth last (rest.head?.map (·.1)) then f depth last rest
        else c :: f depth (some c) rest
      else c :: f (T.deepen depth c) (some c) rest)
    (depth : Nat) (last : Option Char) (ms : List (Char × Bool)) :
    f depth last ms = (T.keepFrom depth last ms).map (·.1) := by
  induction ms generalizing depth last with
  | nil => rw [hnil, keepFrom, List.map_nil]
  | cons m ms ih =>
    obtain ⟨c, inLiteral⟩ := m
    simp only [hcons, keepFrom, ih]
    split_ifs <;> rfl

def thin (T : Thinning) (t : Text) : Text :=
  (T.keepFrom 0 none (Text.markLiterals none t)).map (·.1)

variable {T : Thinning}

theorem markLiterals_keepFrom (quote : Option Char) (t : Text) (depth : Nat) (last : Option Char) :
    Text.markLiterals quote ((T.keepFrom depth last (Text.markLiterals quote t)).map (·.1)) =
      T.keepFrom depth last (Text.markLiterals quote t) := by
  fun_induction Text.markLiterals quote t generalizing depth last with
  | case1 => rfl
  | case2 quote d t hq ih => simp [keepFrom, Text.markLiterals, hq, ih]
  | case3 quote d t hq ih =>
    obtain rfl : quote = none := by simpa using hq
    rw [keepFrom, if_neg Bool.false_ne_true, if_neg (by decide), List.map_cons,
      Text.markLiterals_none_cons]
    exact congrArg _ (ih _ _)
  | case4 c t hne q ih =>
    rw [keepFrom, if_pos rfl, List.map_cons, Text.markLiterals_some_cons, ih]
    by_cases hc : c = '\\'
    · cases t with
      | nil => exact .inr rfl
      | cons d t => exact absurd rfl (hne d t hc)
    · exact .inl hc
  | case5 c t hne hc ih =>
    rw [keepFrom, if_pos rfl, List.map_cons, Text.markLiterals_none_cons, if_pos hc, ih, hc]
  | case6 c t hne hc ih =>
    have hc' : isQuote c = false := by simpa using hc
    rw [keepFrom, if_neg Bool.false_ne_true]
    split_ifs
    · exact ih _ _
    all_goals rw [List.map_cons, Text.markLiterals_none_cons, if_neg hc, ih, hc']

def SingleSpaced (ms : List (Char × Bool)) : Prop :=
  ms.IsChain fun a b => ¬ (a = (' ', false) ∧ b = (' ', false))

theorem keepFrom_keepFrom {ms : List (Char × Bool)} (h : SingleSpaced ms) (depth : Nat)
    (last : Option Char) : T.keepFrom depth last (T.keepFrom depth last ms) =
      T.keepFrom depth last ms := by
  induction ms generalizing depth last with
  | nil => rfl
  | cons m ms ih =>
    obtain ⟨c, inLiteral⟩ := m
    have hms := ih (List.IsChain.of_cons h)
    have hnext : c = ' ' → inLiteral = false → (T.keepFrom depth (some c) ms).head? = ms.head? := by
      rintro rfl rfl
      cases ms with
      | nil => rfl
      | cons m ms =>
        obtain ⟨d, inLiteral⟩ := m
        have hd := (List.isChain_cons_cons.1 h).1
        rw [keepFrom]
        split_ifs <;> simp_all
    rw [keepFrom]
    split_ifs with hl hc hd
    · rw [keepFrom, if_pos hl, hms]
    · exact hms _ _
    · rw [keepFrom, if_neg hl, if_pos hc, hnext hc (by simpa using hl), if_neg hd, hms]
    · rw [keepFrom, if_neg hl, if_neg hc, hms]

theorem thin_thin {t : Text} (h : SingleSpaced (Text.markLiterals none t)) :
    T.thin (T.thin t) = T.thin t := by
  rw [thin, thin, markLiterals_keepFrom, keepFrom_keepFrom h]

def IsSeparator (c : Char) : Prop := c ∈ (",>+~():" : Text)

theorem IsSeparator.solid {c : Char} (h : IsSeparator c) :
    isIdent c = false ∧ c ≠ '/' ∧ c ≠ '*' ∧ c ≠ ' ' ∧ isQuote c = false :=
  @Text.forall_of_all (",>+~():" : Text) (fun c => isIdent c = false ∧ c ≠ '/' ∧ c ≠ '*' ∧ c ≠ ' ' ∧
    isQuote c = false) _ rfl c h

/-- Depths are those of balanced groups, and a space is dropped beside a separator only. -/
structure Lawful (T : Thinning) : Prop where
  balanced : ∀ {o c : Char}, Encloses o c → ∀ depth, T.deepen (T.deepen depth o) c = depth
  plain : ∀ {c : Char}, isBracket c = false → ∀ depth, T.deepen depth c = depth
  separator : ∀ {depth : Nat} {last next : Option Char}, T.drops depth last next = true →
    (∃ c ∈ last, IsSeparator c) ∨ ∃ c ∈ next, IsSeparator c

/-- Whether no space before a parenthesis is dropped, other than behind a separator. -/
def Apart (T : Thinning) (ms : List (Char × Bool)) : Prop :=
  (∀ depth last, T.drops depth last (some '(') = true → ∃ c ∈ last, IsSeparator c) ∨
    ms.IsChain fun a b => ¬ (a = (' ', false) ∧ b.1 = '(')

theorem Apart.of_append {ms ns : List (Char × Bool)} (h : T.Apart (ms ++ ns)) : T.Apart ns :=
  h.imp_right List.IsChain.right_of_append

/-- A space before a parenthesis is not dropped behind a word. -/
theorem Apart.not_isIdent {depth : Nat} {last : Option Char} {ms : List (Char × Bool)}
    (h : T.Apart ((' ', false) :: ms)) (hd : T.drops depth last (ms.head?.map (·.1)) = true)
    (hms : ms.head?.map (·.1) = some '(') : last.any isIdent = false := by
  rcases h with h | h
  · obtain ⟨c, rfl, hc⟩ := h depth last (hms ▸ hd)
    exact hc.solid.1
  · cases ms with
    | nil => cases hms
    | cons m ms => exact absurd ⟨rfl, Option.some.inj hms⟩ (List.isChain_cons_cons.1 h).1

/-- Nothing comes together where a space is dropped. -/
theorem Lawful.standsFor (hT : T.Lawful) {depth : Nat} {after was : Text} {next : Option Char}
    (hd : T.drops depth after.head? next = true) (hnext : next ≠ some ' ')
    (hopens : next = some '(' → after.head?.any isIdent = false) :
    StandsFor after (' ' :: was) next := by
  refine .drop_space hnext ?_ ?_ ?_
  · rintro rfl hslash
    rcases hT.separator hd with ⟨c, hc, hsep⟩ | ⟨c, hc, hsep⟩
    · rw [hslash] at hc
      exact hsep.solid.2.1 (Option.some.inj hc).symm
    · exact hsep.solid.2.2.1 (Option.some.inj hc).symm
  · intro hn hurl
    rw [UrlPart.before_eq_start_iff.2 (hopens hn)] at hurl
    cases hurl
  · rcases hT.separator hd with ⟨c, hc, hsep⟩ | ⟨c, rfl, hsep⟩
    · rw [Option.mem_def.1 hc]
      exact .inl hsep.solid.1
    · exact .inr fun d hd => Option.some.inj hd ▸ hsep.solid.1

theorem map_keepFrom_literal (w : Text) (depth : Nat) (after : Text) (ms : List (Char × Bool)) :
    (T.keepFrom depth after.head? (w.map (fun c => (c, true)) ++ ms)).map (·.1) =
      w ++ (T.keepFrom depth (w.reverse ++ after).head? ms).map (·.1) := by
  induction w generalizing after with
  | nil => rfl
  | cons c w ih =>
    have hw := ih (c :: after)
    simp only [List.map_cons, List.cons_append, keepFrom, if_true, List.reverse_cons,
      List.append_assoc, List.nil_append]
    exact congrArg _ hw

theorem head_ne_space {ok : Char → Bool} {was t : Text} (h : Tokens false ok (' ' :: was) t) :
    t.head? ≠ some ' ' := by
  cases h with
  | nil => simp
  | literal hq => rcases Lexeme.isQuote_iff.1 hq with rfl | rfl <;> simp
  | group hencloses => rcases hencloses with ⟨rfl, _⟩ | ⟨rfl, _⟩ <;> simp
  | char _ _ _ _ _ _ hwide =>
    intro hc
    obtain rfl := Option.some.inj hc
    exact (hwide rfl rfl).2 rfl
  | escape _ h => cases h
  | comment h => cases h

theorem markLiterals_literal {body : Text} {quote : Char} (hq : isQuote quote = true)
    (hb : Enclosed quote body) (t : Text) :
    Text.markLiterals none (quote :: (body ++ quote :: t)) =
      (quote :: (body ++ [quote])).map (fun c => (c, true)) ++ Text.markLiterals none t := by
  simp [Text.markLiterals_none_cons, hq, Text.markLiterals_some_append hq hb]

theorem markLiterals_group {was body : Text} {o c : Char} (hencloses : Encloses o c)
    (hbody : Tokens false (fun _ => true) was body) (t : Text) :
    Text.markLiterals none (o :: (body ++ c :: t)) =
      (o, false) :: (Text.markLiterals none body ++ (c, false) :: Text.markLiterals none t) := by
  have hplain := Text.plain_of_encloses hencloses
  simp [Text.markLiterals_none_cons, Text.markLiterals_tokens hbody, hplain.1, hplain.2.1]

/-- A text between what is written as `after` and the marked characters `ks` is rewritten by thinning
it. -/
def Thins (T : Thinning) (ok : Char → Bool) (depth : Nat) (was after : Text)
    (ks : List (Char × Bool)) (t : Text) : Prop :=
  ∃ out, (T.keepFrom depth after.head? (Text.markLiterals none t ++ ks)).map (·.1) =
      out ++ (T.keepFrom depth (out.reverse ++ after).head? ks).map (·.1) ∧
    Rewrites ok was after (ks.map (·.1)).head? t out

section Thins

variable {ok : Char → Bool} {was after body t : Text} {ks : List (Char × Bool)} {depth : Nat}

theorem thins_literal {quote : Char} (hq : isQuote quote = true) (hb : Enclosed quote body)
    (hs : StandsFor after was (quote :: (body ++ quote :: t) ++ ks.map (·.1)).head?)
    (h : T.Thins ok depth (quote :: (body.reverse ++ quote :: was))
      (quote :: (body.reverse ++ quote :: after)) ks t) :
    T.Thins ok depth was after ks (quote :: (body ++ quote :: t)) := by
  have htext : quote :: (body ++ quote :: t) = (quote :: (body ++ [quote])) ++ t := by simp
  have hreverse (before : Text) : quote :: (body.reverse ++ quote :: before) =
      (quote :: (body ++ [quote])).reverse ++ before := by simp
  obtain ⟨out, hout, hr⟩ := h
  rw [hreverse] at hout
  rw [hreverse was, hreverse after] at hr
  refine ⟨(quote :: (body ++ [quote])) ++ out, ?_, ?_⟩
  · rw [markLiterals_literal hq hb, List.append_assoc, map_keepFrom_literal, hout,
      List.reverse_append, List.append_assoc, List.append_assoc]
  · rw [htext, List.append_assoc] at hs
    rw [htext]
    exact .same (.literal hq hb .nil) hs hr

theorem thins_group (hT : T.Lawful) {o c : Char} (hencloses : Encloses o c)
    (hurl : OpensUrl was o → IsUrlBody body) (hbody : Tokens false (fun _ => true) (o :: was) body)
    (hs : StandsFor after was (some o))
    (hinner : T.Thins (fun _ => true) (T.deepen depth o) (o :: was) (o :: after)
      ((c, false) :: (Text.markLiterals none t ++ ks)) body)
    (h : ∀ body' : Text, StandsFor (c :: (body'.reverse ++ o :: after))
        (c :: (body.reverse ++ o :: was)) (t ++ ks.map (·.1)).head? →
      T.Thins ok depth (c :: (body.reverse ++ o :: was)) (c :: (body'.reverse ++ o :: after)) ks t) :
    T.Thins ok depth was after ks (o :: (body ++ c :: t)) := by
  have hplain := Text.plain_of_encloses hencloses
  obtain ⟨body', hbody', hrb⟩ := hinner
  obtain ⟨out, hout, hr⟩ := h body' (hrb.stands.cons _)
  refine ⟨o :: (body' ++ c :: out), ?_, .group hencloses hurl hs hrb hr⟩
  rw [List.head?_cons] at hbody'
  -- Behind the group the depth is the one before it, since what closes it balances what opens it.
  rw [markLiterals_group hencloses hbody, List.cons_append, List.append_assoc, List.cons_append,
    keepFrom_solid _ _ _ hplain.2.2.1, List.map_cons, hbody', keepFrom_solid _ _ _ hplain.2.2.2,
    hT.balanced hencloses, List.map_cons]
  simpa using hout

theorem thins_dropped (hd : T.drops depth after.head?
      ((Text.markLiterals none t ++ ks).head?.map (·.1)) = true)
    (h : T.Thins ok depth (' ' :: was) after ks t) :
    T.Thins ok depth was after ks (' ' :: t) := by
  obtain ⟨out, hout, hr⟩ := h
  refine ⟨out, ?_, hr.drop⟩
  rw [show Text.markLiterals none (' ' :: t) = (' ', false) :: Text.markLiterals none t from
    Text.markLiterals_none_cons .., List.cons_append, keepFrom_space, if_pos hd, hout]

theorem thins_kept {c : Char} (hpiece : Tokens false ok was [c])
    (hs : StandsFor after was ([c] ++ (t ++ ks.map (·.1))).head?)
    (hkeep : (T.keepFrom depth after.head? (Text.markLiterals none (c :: t) ++ ks)).map (·.1) =
      c :: (T.keepFrom depth (some c) (Text.markLiterals none t ++ ks)).map (·.1))
    (h : T.Thins ok depth (c :: was) (c :: after) ks t) :
    T.Thins ok depth was after ks (c :: t) := by
  obtain ⟨out, hout, hr⟩ := h
  refine ⟨c :: out, ?_, .same hpiece hs hr⟩
  rw [hkeep]
  simpa using hout

end Thins

/-- Thinning rewrites well-formed texts. -/
theorem thins_tokens (hT : T.Lawful) {ok : Char → Bool} {was t : Text} (h : Tokens false ok was t)
    {after : Text} {ks : List (Char × Bool)} (depth : Nat)
    (hks : (ks.map (·.1)).head? ≠ some ' ') (hapart : T.Apart (Text.markLiterals none t ++ ks))
    (hs : StandsFor after was (t ++ ks.map (·.1)).head?) : T.Thins ok depth was after ks t := by
  induction h generalizing after ks depth with
  | nil => exact ⟨[], rfl, .nil hs⟩
  | @literal ok was body t quote hq hb _ ih =>
    rw [markLiterals_literal hq hb, List.append_assoc] at hapart
    have htext : quote :: (body ++ quote :: t) ++ ks.map (·.1) =
        (quote :: (body ++ [quote])) ++ (t ++ ks.map (·.1)) := by simp
    have hnext := (htext ▸ hs).append
    exact thins_literal hq hb hs (ih depth hks hapart.of_append (by simpa using hnext))
  | @group ok was body t o c hencloses hurl hbody _ ihb ih =>
    have hplain := Text.plain_of_encloses hencloses
    rw [markLiterals_group hencloses hbody, List.cons_append, List.append_assoc,
      List.cons_append] at hapart
    have hinner : T.Apart (Text.markLiterals none body ++
        (c, false) :: (Text.markLiterals none t ++ ks)) := @Apart.of_append T [_] _ hapart
    have houter : T.Apart (Text.markLiterals none t ++ ks) :=
      @Apart.of_append T [_] _ hinner.of_append
    have hclose : (((c, false) :: (Text.markLiterals none t ++ ks)).map (·.1)).head? ≠ some ' ' :=
      fun he => hplain.2.2.2 (Option.some.inj he)
    have hnext : ((c, false) :: (Text.markLiterals none t ++ ks)).map (·.1) =
        c :: (t ++ ks.map (·.1)) := by
      rw [List.map_cons, List.map_append, Text.map_fst_markLiterals]
    exact thins_group hT hencloses hurl hbody hs (ihb _ hclose hinner (hnext ▸ hs.cons _))
      fun body' hbody' => ih depth hks houter hbody'
  | @char ok was t c hq hesc hbracket hstop hok hstar hwide ht ih =>
    have hmarks : Text.markLiterals none (c :: t) ++ ks =
        (c, false) :: (Text.markLiterals none t ++ ks) := by
      rw [Text.markLiterals_none_cons, hq]
      rfl
    have hpiece : Tokens false ok was [c] := .char hq hesc hbracket hstop hok hstar hwide .nil
    rw [hmarks] at hapart
    have hkept := fun after => @ih after ks depth hks (@Apart.of_append T [_] _ hapart)
    by_cases hc : c = ' '
    · subst hc
      by_cases hd : T.drops depth after.head?
          ((Text.markLiterals none t ++ ks).head?.map (·.1)) = true
      · have hnext : (t ++ ks.map (·.1)).head? ≠ some ' ' := by
          cases t with
          | nil => exact hks
          | cons d t => simpa using head_ne_space ht
        have hhead : (Text.markLiterals none t ++ ks).head?.map (·.1) =
            (t ++ ks.map (·.1)).head? := by
          rw [← List.head?_map, List.map_append, Text.map_fst_markLiterals]
        -- The space is dropped, so what was written before it stands for it as well.
        exact thins_dropped hd (hkept _ (hT.standsFor (hhead ▸ hd) hnext
          (hhead ▸ hapart.not_isIdent hd)))
      · refine thins_kept hpiece hs ?_ (hkept _ (hs.cons _))
        rw [hmarks, keepFrom_space, if_neg hd, List.map_cons]
    · refine thins_kept hpiece hs ?_ (hkept _ (hs.cons _))
      rw [hmarks, keepFrom_solid _ _ _ hc, hT.plain hbracket, List.map_cons]
  | escape _ h => cases h
  | comment h => cases h

theorem singleSpaced_tokens {ok : Char → Bool} {was t : Text} (h : Tokens false ok was t) :
    SingleSpaced (Text.markLiterals none t) := by
  have cons : ∀ {c : Char} {ms : List (Char × Bool)}, c ≠ ' ' → SingleSpaced ms →
      SingleSpaced ((c, false) :: ms) := by
    intro c ms hc hms
    refine List.isChain_cons.2 ⟨fun m _ hspace => hc ?_, hms⟩
    exact congrArg Prod.fst hspace.1
  induction h with
  | nil => exact List.isChain_nil
  | @literal _ _ body t quote hq hb _ ih =>
    have literal : ∀ w : Text, SingleSpaced (w.map (fun c => (c, true)) ++
        (quote, true) :: Text.markLiterals none t) := by
      intro w
      induction w with
      | nil => exact List.isChain_cons.2 ⟨by simp, ih⟩
      | cons c w ihw => exact List.isChain_cons.2 ⟨by simp, ihw⟩
    rw [Text.markLiterals_none_cons, if_pos hq, Text.markLiterals_some_append hq hb, hq]
    exact literal (quote :: body)
  | @group _ _ body t o c hencloses _ hbody _ ihb ih =>
    have hplain := Text.plain_of_encloses hencloses
    rw [Text.markLiterals_none_cons, hplain.1, if_neg Bool.false_ne_true,
      Text.markLiterals_tokens hbody, Text.markLiterals_none_cons, hplain.2.1,
      if_neg Bool.false_ne_true]
    refine cons hplain.2.2.1 (List.isChain_append.2 ⟨ihb, cons hplain.2.2.2 ih, ?_⟩)
    intro m _ n hn hspace
    cases hn
    exact hplain.2.2.2 (congrArg Prod.fst hspace.2)
  | @char _ _ t c hq _ _ _ _ _ _ ht ih =>
    rw [Text.markLiterals_none_cons, hq, if_neg Bool.false_ne_true]
    by_cases hc : c = ' '
    · subst hc
      refine List.isChain_cons.2 ⟨fun m hm hspace => ?_, ih⟩
      have hhead : t.head? = some ' ' := by
        rw [← Text.map_fst_markLiterals none t, List.head?_map, Option.mem_def.1 hm, hspace.2]
        rfl
      exact head_ne_space ht hhead
    · exact cons hc ih
  | escape _ h => cases h
  | comment h => cases h

variable {ok : Char → Bool} {t : Text}

theorem thin_thin_of_clean (h : Clean ok t) : T.thin (T.thin t) = T.thin t :=
  thin_thin (singleSpaced_tokens h.tokens)

theorem clean_thin (hT : T.Lawful) (h : Clean ok t) (ha : T.Apart (Text.markLiterals none t)) :
    Clean ok (T.thin t) := by
  obtain ⟨out, hout, hr⟩ := @thins_tokens T hT ok [] t h.tokens [] [] 0 (by simp) (by simpa using ha)
    (.refl _ _)
  have hthin : T.thin t = out := by simpa [thin, keepFrom] using hout
  rw [hthin]
  exact hr.clean h

/-- Where a thinned text goes on with `c`, so does the text, but for a space before a separator. -/
theorem next_of_keepFrom (hT : T.Lawful) {depth : Nat} {last : Option Char} {t out : Text}
    {c : Char}
    (hlast : ∀ d ∈ last, ¬ IsSeparator d) (hc : isQuote c = false ∧ c ≠ ' ')
    (h : (T.keepFrom depth last (Text.markLiterals none t)).map (·.1) = c :: out) :
    (∃ u depth, t = c :: u ∧ out =
        (T.keepFrom depth (some c) (Text.markLiterals none u)).map (·.1)) ∨
      IsSeparator c ∧ ∃ u, t = ' ' :: c :: u := by
  cases t with
  | nil => cases h
  | cons d t =>
    rw [Text.markLiterals_none_cons] at h
    cases hq : isQuote d with
    | true =>
      rw [hq, keepFrom, if_pos rfl, List.map_cons, List.cons.injEq] at h
      rw [← h.1, hq] at hc
      cases hc.1
    | false =>
      rw [hq, if_neg Bool.false_ne_true] at h
      by_cases hspace : d = ' '
      · subst hspace
        rw [keepFrom_space] at h
        split_ifs at h with hd
        -- The space was dropped, and before a separator since there is none behind it.
        · obtain ⟨e, he, hsep⟩ | ⟨e, he, hsep⟩ := hT.separator hd
          · exact absurd hsep (hlast e he)
          · rw [← List.head?_map, Text.map_fst_markLiterals] at he
            obtain ⟨u, rfl⟩ : ∃ u, t = e :: u := ⟨t.tail, (List.cons_head?_tail he).symm⟩
            obtain ⟨_, _, _, hne, hquote⟩ := hsep.solid
            rw [Text.markLiterals_none_cons, hquote, keepFrom_solid _ _ _ hne, List.map_cons,
              List.cons.injEq] at h
            rw [← h.1]
            exact .inr ⟨hsep, u, rfl⟩
        · rw [List.map_cons, List.cons.injEq] at h
          exact absurd h.1.symm hc.2
      · rw [keepFrom_solid _ _ _ hspace, List.map_cons, List.cons.injEq] at h
        obtain ⟨rfl, rfl⟩ := h
        exact .inl ⟨t, _, rfl, rfl⟩

/-- Where a thinned text begins with a word, so does the text. -/
theorem prefix_of_keepFrom (hT : T.Lawful) {u out : Text}
    (hu : ∀ c ∈ u, isQuote c = false ∧ c ≠ ' ' ∧ ¬ IsSeparator c) {depth : Nat} {last : Option Char}
    {t : Text} (hlast : ∀ d ∈ last, ¬ IsSeparator d)
    (h : (T.keepFrom depth last (Text.markLiterals none t)).map (·.1) = u ++ out) :
    ∃ v depth last, t = u ++ v ∧ (∀ d ∈ last, ¬ IsSeparator d) ∧
      (T.keepFrom depth last (Text.markLiterals none v)).map (·.1) = out := by
  induction u generalizing depth last t with
  | nil => exact ⟨t, depth, last, rfl, hlast, h⟩
  | cons c u ih =>
    obtain ⟨hq, hne, hsep⟩ := hu c List.mem_cons_self
    rcases next_of_keepFrom hT hlast ⟨hq, hne⟩ h with ⟨w, d, rfl, hout⟩ | ⟨hc, _⟩
    · obtain ⟨v, d', last', rfl, hlast', hv⟩ := ih (fun e he => hu e (List.mem_cons_of_mem c he))
        (by rintro e he; exact Option.some.inj he ▸ hsep) hout.symm
      exact ⟨v, d', last', rfl, hlast', hv⟩
    · exact absurd hc hsep

theorem head_thin {t : Text} (h : t.head? ≠ some ' ') : (T.thin t).head? = t.head? := by
  cases t with
  | nil => rfl
  | cons c t =>
    have hc : c ≠ ' ' := fun he => h (he ▸ rfl)
    rw [thin, Text.markLiterals_none_cons, keepFrom, if_neg hc]
    split <;> rfl

end Thinning

def Selector.thinning : Thinning :=
  ⟨fun depth last next => last.any (joins depth) || next.any (joins depth), Lexeme.deepen⟩

def Prelude.thinning : Thinning := ⟨dropsSpace, deepen⟩

theorem Selector.compact_eq_thin (s : Text) : compact s = thinning.thin s :=
  thinning.eq_keepFrom (fun _ _ => rfl) (fun _ _ _ _ _ => rfl) 0 none _

theorem Prelude.compact_eq_thin (p : Text) : compact p = thinning.thin p :=
  thinning.eq_keepFrom (fun _ _ => rfl) (fun _ _ _ _ _ => rfl) 0 none _

theorem Selector.lawful_thinning : thinning.Lawful where
  balanced h depth := by
    change Lexeme.deepen (Lexeme.deepen depth _) _ = depth
    rw [Lexeme.deepen_opener h, Lexeme.deepen_closer h]
  plain h depth := Lexeme.deepen_plain h depth
  separator {depth last next} h := by
    have joins_sep : ∀ {c : Char}, joins depth c = true → Thinning.IsSeparator c := by
      intro c hc
      simp only [joins, Bool.or_eq_true, Bool.and_eq_true, beq_iff_eq] at hc
      rcases hc with (rfl | ⟨_, (rfl | rfl) | rfl⟩) | ⟨_, rfl | rfl⟩ <;>
        exact List.mem_of_elem_eq_true rfl
    simp only [thinning, Bool.or_eq_true, Option.any_eq_true] at h
    exact h.imp (fun ⟨c, hc, hj⟩ => ⟨c, hc, joins_sep hj⟩) fun ⟨c, hc, hj⟩ => ⟨c, hc, joins_sep hj⟩

theorem Prelude.lawful_thinning : thinning.Lawful where
  balanced h depth := by
    rcases h with ⟨rfl, rfl⟩ | ⟨rfl, rfl⟩ <;> simp [thinning, deepen]
  plain {c} h depth := by
    have hc : c ≠ '(' ∧ c ≠ ')' := by
      constructor <;> rintro rfl <;> cases h
    simp [thinning, deepen, hc.1, hc.2]
  separator {depth last next} h := by
    simp only [thinning, dropsSpace, Bool.or_eq_true, Bool.and_eq_true, beq_iff_eq] at h
    rcases h with (rfl | rfl) | ⟨_, (rfl | rfl) | rfl⟩
    · exact .inl ⟨',', rfl, List.mem_of_elem_eq_true rfl⟩
    · exact .inr ⟨',', rfl, List.mem_of_elem_eq_true rfl⟩
    · exact .inl ⟨':', rfl, List.mem_of_elem_eq_true rfl⟩
    · exact .inl ⟨'(', rfl, List.mem_of_elem_eq_true rfl⟩
    · exact .inr ⟨')', rfl, List.mem_of_elem_eq_true rfl⟩

section Compact

variable {ok : Char → Bool} {s p : Text}

/-- Whether compacting a selector brings nothing together that is then read together: no space stands
before a parenthesis, and the end of a comment of markup is not set apart at the start. -/
structure Selector.Apart (s : Text) : Prop where
  parenthesis : (Text.markLiterals none s).IsChain fun a b => ¬ (a = (' ', false) ∧ b.1 = '(')
  start : ¬ ("-- >" : Text) <+: s

theorem Selector.compact_compact (h : Clean ok s) : compact (compact s) = compact s := by
  rw [compact_eq_thin, compact_eq_thin, Thinning.thin_thin_of_clean h]

theorem Selector.clean_compact (h : Clean ok s) (ha : Selector.Apart s) : Clean ok (compact s) := by
  rw [compact_eq_thin]
  exact Thinning.clean_thin lawful_thinning h (.inr ha.parenthesis)

theorem Selector.head_compact (h : Clean ok s) : (compact s).head? = s.head? := by
  rw [compact_eq_thin, Thinning.head_thin h.head]

/-- A compact selector begins like the start or the end of a comment of markup only if the selector
does. -/
theorem Selector.start_compact (ha : Selector.Apart s) :
    (("<!--" : Text) <+: compact s → ("<!--" : Text) <+: s) ∧
      (("-->" : Text) <+: compact s → ("-->" : Text) <+: s) := by
  have hopen : ∀ c ∈ ("<!--" : Text), isQuote c = false ∧ c ≠ ' ' ∧ c ∉ (",>+~():" : Text) :=
    Text.forall_of_all rfl
  have hdash : ∀ c ∈ ("--" : Text), isQuote c = false ∧ c ≠ ' ' ∧ c ∉ (",>+~():" : Text) :=
    Text.forall_of_all rfl
  have hnone : ∀ d ∈ (none : Option Char), ¬ Thinning.IsSeparator d := by simp
  rw [compact_eq_thin, Thinning.thin]
  refine ⟨?_, ?_⟩
  · rintro ⟨out, hout⟩
    obtain ⟨v, _, _, rfl, _⟩ :=
      Thinning.prefix_of_keepFrom lawful_thinning hopen hnone hout.symm
    exact List.prefix_append _ _
  · rintro ⟨out, hout⟩
    have hdashes : (thinning.keepFrom 0 none (Text.markLiterals none s)).map (·.1) =
        ("--" : Text) ++ '>' :: out := hout.symm
    obtain ⟨v, depth, last, rfl, hlast, hv⟩ :=
      Thinning.prefix_of_keepFrom lawful_thinning hdash hnone hdashes
    rcases Thinning.next_of_keepFrom lawful_thinning hlast (c := '>') (by decide) hv with
      ⟨u, _, rfl, _⟩ | ⟨_, u, rfl⟩
    · exact ⟨u, rfl⟩
    · exact absurd ⟨u, rfl⟩ ha.start

theorem Prelude.compact_compact (h : Clean ok p) : compact (compact p) = compact p := by
  rw [compact_eq_thin, compact_eq_thin, Thinning.thin_thin_of_clean h]

theorem Prelude.clean_compact (h : Clean ok p) : Clean ok (compact p) := by
  rw [compact_eq_thin]
  refine Thinning.clean_thin lawful_thinning h (.inl fun depth last hd => ?_)
  simp only [thinning, dropsSpace, Bool.or_eq_true, Bool.and_eq_true, beq_iff_eq] at hd
  rcases hd with (rfl | hd) | ⟨_, (rfl | rfl) | hd⟩
  · exact ⟨',', rfl, List.mem_of_elem_eq_true rfl⟩
  · cases hd
  · exact ⟨':', rfl, List.mem_of_elem_eq_true rfl⟩
  · exact ⟨'(', rfl, List.mem_of_elem_eq_true rfl⟩
  · cases hd

end Compact

end Stylesmith
