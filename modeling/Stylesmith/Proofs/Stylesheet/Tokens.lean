import Stylesmith.Proofs.Stylesheet.Scanning
import Stylesmith.Stylesheet.Collapse

/-!
# Well-formed texts

A well-formed text is a sequence of complete literals, balanced groups and other characters. The
scanner, the collapsing of blanks and the search for separators read such a text alike: each passes
over it and leaves what follows to be read as if nothing had come before.
-/

set_option autoImplicit false

namespace Stylesmith

open Lexeme (isIdent isQuote Enclosed Starts)

def isBracket (c : Char) : Bool := c == '(' || c == ')' || c == '[' || c == ']'

def Encloses (o c : Char) : Prop := o = '(' ∧ c = ')' ∨ o = '[' ∧ c = ']'

/-- Whether the bracket `o` stands after the name `url`; `before` is the text before it, reversed. -/
def OpensUrl (before : Text) (o : Char) : Prop :=
  o = '(' ∧ ∃ l r u more, before = l :: r :: u :: more ∧ u.toLower = 'u' ∧ r.toLower = 'r' ∧
    l.toLower = 'l' ∧ more.head?.any isIdent = false

/-- What may stand in the parentheses after the name `url`: a literal at the start, or neither
literals nor brackets nor escapes. -/
def IsUrlBody (body : Text) : Prop :=
  (Text.skipBlanks body).head?.any isQuote = true ∨
    ∀ c ∈ body, isQuote c = false ∧ isBracket c = false ∧ c ≠ '\\'

/-- A sequence of literals, groups and single characters. Outside groups, only the characters that
`ok` allows may stand alone. `before` is the text before the sequence, reversed. A raw sequence may
hold comments, escapes and any white space, another one single spaces only. -/
inductive Tokens (raw : Bool) : (Char → Bool) → (before : Text) → Text → Prop
  | nil {ok : Char → Bool} {before : Text} : Tokens raw ok before []
  | literal {ok : Char → Bool} {before body t : Text} {quote : Char} :
      isQuote quote = true → Enclosed quote body →
      Tokens raw ok (quote :: (body.reverse ++ quote :: before)) t →
      Tokens raw ok before (quote :: (body ++ quote :: t))
  | group {ok : Char → Bool} {before body t : Text} {o c : Char} :
      Encloses o c → (OpensUrl before o → IsUrlBody body) →
      Tokens raw (fun _ => true) (o :: before) body →
      Tokens raw ok (c :: (body.reverse ++ o :: before)) t →
      Tokens raw ok before (o :: (body ++ c :: t))
  | char {ok : Char → Bool} {before t : Text} {c : Char} :
      isQuote c = false → c ≠ '\\' → isBracket c = false → Scan.isStop c = false → ok c = true →
      (c = '*' → before.head? ≠ some '/') →
      (raw = false → Text.isWide c = true → c = ' ' ∧ before.head? ≠ some ' ') →
      Tokens raw ok (c :: before) t → Tokens raw ok before (c :: t)
  | escape {ok : Char → Bool} {before t : Text} (c : Char) : raw = true →
      Tokens raw ok (c :: '\\' :: before) t → Tokens raw ok before ('\\' :: c :: t)
  | comment {ok : Char → Bool} {before body t : Text} : raw = true → ¬ ['*', '/'] <:+: body →
      Tokens raw ok ('/' :: '*' :: (body.reverse ++ '*' :: '/' :: before)) t →
      Tokens raw ok before ('/' :: '*' :: (body ++ '*' :: '/' :: t))

/-- What may follow a sequence without being read together with its end. -/
def Breaks (k : Text) : Prop :=
  ∀ c ∈ k.head?, c ≠ '*' ∧ c ≠ '(' ∧ c.toLower ≠ 'r' ∧ c.toLower ≠ 'l'

theorem breaks_nil : Breaks [] := fun c hc => by cases hc

theorem breaks_cons {c : Char} {t : Text}
    (h : c ≠ '*' ∧ c ≠ '(' ∧ c.toLower ≠ 'r' ∧ c.toLower ≠ 'l') : Breaks (c :: t) := by
  rintro d hd
  obtain rfl : c = d := Option.some.inj hd
  exact h

theorem breaks_closer {o c : Char} (h : Encloses o c) (t : Text) : Breaks (c :: t) := by
  rcases h with ⟨_, rfl⟩ | ⟨_, rfl⟩ <;> exact breaks_cons (by decide)

theorem starts_opener {o c : Char} (h : Encloses o c) (t : Text) : Starts o t (.plain o) t := by
  rcases h with ⟨rfl, _⟩ | ⟨rfl, _⟩ <;> exact .plain rfl (by decide) (fun h => absurd h (by decide))

theorem starts_closer {o c : Char} (h : Encloses o c) (t : Text) : Starts c t (.plain c) t := by
  rcases h with ⟨_, rfl⟩ | ⟨_, rfl⟩ <;> exact .plain rfl (by decide) (fun h => absurd h (by decide))

namespace Scan

theorem opensReference_ne {a : Bool} {c : Char} {t : Text} (hc : c.toLower ≠ 'u') :
    opensReference a (c :: t) = false := by
  rw [← Bool.not_eq_true, opensReference_iff]
  rintro ⟨_, u, r, l, rest, he, hu, _⟩
  cases he
  exact hc hu

theorem toStop_lexeme {s : State} {c : Char} {t rest : Text} {l : Lexeme} (hstop : isStop c = false)
    (ho : opensReference s.afterIdent (c :: t) = false) (hs : Starts c t l rest)
    (hl : l.closed = true) : toStop s (c :: t) = toStop (s.past (c :: t) l) rest :=
  toStop_of_passes (by rw [hstop, Bool.and_false]) (.lexeme ho hs (.inl hl))

theorem not_u_of_isQuote {c : Char} (h : isQuote c = true) : c.toLower ≠ 'u' := by
  rcases Lexeme.isQuote_iff.1 h with rfl | rfl <;> decide

theorem past_plain {s : State} {mark : Text} {c : Char} (hc : isBracket c = false) :
    s.past mark (.plain c) = ⟨isIdent c, s.brackets⟩ := by
  simp only [isBracket, Bool.or_eq_false_iff, beq_eq_false_iff_ne] at hc
  obtain ⟨⟨⟨h1, h2⟩, h3⟩, h4⟩ := hc
  simp [State.past, h1, h2, h3, h4]

theorem toStop_open {s : State} {o c : Char} (t : Text) (h : Encloses o c) :
    toStop s (o :: t) = toStop ⟨false, (c, o :: t) :: s.brackets⟩ t := by
  have hs := starts_opener h t
  rcases h with ⟨rfl, rfl⟩ | ⟨rfl, rfl⟩ <;>
    exact toStop_lexeme rfl (opensReference_ne (by decide)) hs rfl

theorem toStop_close {a : Bool} {b : List (Char × Text)} {o c : Char} {mark : Text} (t : Text)
    (h : Encloses o c) : toStop ⟨a, (c, mark) :: b⟩ (c :: t) = toStop ⟨false, b⟩ t := by
  have hs := starts_closer h t
  rcases h with ⟨rfl, rfl⟩ | ⟨rfl, rfl⟩ <;>
    exact toStop_lexeme rfl (opensReference_ne (by decide)) hs rfl

theorem toStop_literal {s : State} {quote : Char} {body : Text} (t : Text)
    (hq : isQuote quote = true) (hb : Enclosed quote body) :
    toStop s (quote :: (body ++ quote :: t)) = toStop ⟨false, s.brackets⟩ t := by
  have hstop : isStop quote = false := by
    rcases Lexeme.isQuote_iff.1 hq with rfl | rfl <;> rfl
  exact toStop_lexeme hstop (opensReference_ne (not_u_of_isQuote hq)) (.literal t hq hb) rfl

theorem toStop_escape {s : State} (c : Char) (t : Text) :
    toStop s ('\\' :: c :: t) = toStop ⟨isIdent c, s.brackets⟩ t :=
  toStop_lexeme rfl (opensReference_ne (by decide)) (.escape c t) rfl

theorem toStop_comment {s : State} {body : Text} (t : Text) (hbody : ¬ ['*', '/'] <:+: body) :
    toStop s ('/' :: '*' :: (body ++ '*' :: '/' :: t)) = toStop ⟨false, s.brackets⟩ t :=
  toStop_lexeme rfl (opensReference_ne (by decide)) (.comment t hbody) rfl

theorem toStop_plain {s : State} {c : Char} {t : Text} (hq : isQuote c = false) (hesc : c ≠ '\\')
    (hslash : c = '/' → t.head? ≠ some '*') (hbracket : isBracket c = false)
    (hstop : isStop c = false) (ho : opensReference s.afterIdent (c :: t) = false) :
    toStop s (c :: t) = toStop ⟨isIdent c, s.brackets⟩ t := by
  have hscan := toStop_lexeme hstop ho (.plain hq hesc hslash) rfl
  rwa [past_plain hbracket] at hscan

theorem enclosed_of_forall {body : Text}
    (h : ∀ c ∈ body, isQuote c = false ∧ isBracket c = false ∧ c ≠ '\\') : Enclosed ')' body := by
  induction body with
  | nil => exact .nil
  | cons c body ih =>
    obtain ⟨_, hb, hc⟩ := h c List.mem_cons_self
    refine .char ?_ hc (ih fun d hd => h d (List.mem_cons_of_mem c hd))
    rintro rfl
    cases hb

theorem name_append_breaks {t k rest : Text} {u r l : Char} (hk : Breaks k)
    (h : u :: (t ++ k) = u :: r :: l :: '(' :: rest) (hr : r.toLower = 'r') (hl : l.toLower = 'l') :
    ∃ t', t = r :: l :: '(' :: t' ∧ rest = t' ++ k := by
  have hk' : ∀ {c : Char} {v : Text}, k = c :: v → c ≠ '(' ∧ c.toLower ≠ 'r' ∧ c.toLower ≠ 'l' :=
    fun he => (hk _ (he ▸ rfl)).2
  rcases t with _ | ⟨b, _ | ⟨d, _ | ⟨e, t⟩⟩⟩ <;> simp only [List.nil_append, List.cons_append,
    List.cons.injEq, true_and] at h
  · exact absurd hr (hk' h).2.1
  · exact absurd hl (hk' h.2).2.2
  · exact absurd rfl (hk' h.2.2).1
  · obtain ⟨rfl, rfl, rfl, rfl⟩ := h
    exact ⟨t, rfl, rfl⟩

theorem tokens_letter {raw : Bool} {ok : Char → Bool} {before t : Text} {c : Char}
    (hc : c.isAlpha = true) (h : Tokens raw ok before (c :: t)) : Tokens raw ok (c :: before) t := by
  cases h with
  | literal hq => rcases Lexeme.isQuote_iff.1 hq with rfl | rfl <;> cases hc
  | group he => rcases he with ⟨rfl, _⟩ | ⟨rfl, _⟩ <;> cases hc
  | char _ _ _ _ _ _ _ ht => exact ht
  | escape => cases hc
  | comment => cases hc

theorem head_ne_star {raw : Bool} {ok : Char → Bool} {before t k : Text}
    (h : Tokens raw ok ('/' :: before) t) (hk : Breaks k) : (t ++ k).head? ≠ some '*' := by
  cases h with
  | nil => exact fun hs => (hk '*' hs).1 rfl
  | literal hq => rcases Lexeme.isQuote_iff.1 hq with rfl | rfl <;> simp
  | group he => rcases he with ⟨rfl, _⟩ | ⟨rfl, _⟩ <;> simp
  | char _ _ _ _ _ hstar =>
    intro hs
    exact hstar (Option.some.inj hs) rfl
  | escape => simp
  | comment => simp

theorem isAlpha_of_toLower {c d : Char} (h : c.toLower = d) (hd : d.isAlpha = true) :
    c.isAlpha = true := by
  rw [← Char.isAlpha_toLower_eq_isAlpha, h, hd]

theorem head_skipBlanks_append {body : Text} (k : Text)
    (h : (Text.skipBlanks body).head?.any isQuote = true) :
    (Text.skipBlanks (body ++ k)).head?.any isQuote = true := by
  induction body with
  | nil => cases h
  | cons c body ih =>
    by_cases hc : Text.isBlank c = true
    · simp only [Text.skipBlanks, List.cons_append, List.dropWhile_cons, hc, if_true] at h ⊢
      exact ih h
    · simpa [Text.skipBlanks, hc] using h

/-- An unquoted reference at the start of a sequence ends inside the sequence. -/
theorem tokens_reference {raw : Bool} {ok : Char → Bool} {before t k : Text} {c : Char} {a : Bool}
    (h : Tokens raw ok before (c :: t)) (ha : before.head?.any isIdent = a) (hk : Breaks k)
    (ho : opensReference a (c :: (t ++ k)) = true) :
    ∃ before' rest, Tokens raw ok (')' :: before') rest ∧ rest.length < t.length ∧
      (rest.reverse ++ ')' :: before').head? = (t.reverse ++ c :: before).head? ∧
      afterReference ((t ++ k).drop 3) = some (rest ++ k) := by
  obtain ⟨rfl, u, r, l, rest, he, hu, hr, hl, hquote⟩ := opensReference_iff.1 ho
  obtain rfl : c = u := (List.cons.inj he).1
  obtain ⟨t, rfl, rfl⟩ := name_append_breaks hk he hr hl
  have h₁ := tokens_letter (isAlpha_of_toLower hu rfl) h
  have h₂ := tokens_letter (isAlpha_of_toLower hr rfl) h₁
  have h₃ := tokens_letter (isAlpha_of_toLower hl rfl) h₂
  have hopens : OpensUrl (l :: r :: c :: before) '(' :=
    ⟨rfl, l, r, c, before, rfl, hu, hr, hl, ha⟩
  cases h₃ with
  | literal hq => rcases Lexeme.isQuote_iff.1 hq with h | h <;> cases h
  | char _ _ hb => cases hb
  | @group _ _ body rest _ c' hencloses hurl _ ht =>
    obtain rfl : c' = ')' := by
      rcases hencloses with ⟨_, rfl⟩ | ⟨h, _⟩
      · rfl
      · cases h
    refine ⟨_, rest, ht, ?_, ?_, ?_⟩
    · simp
      omega
    · simp
    · have hbody : Enclosed ')' body := by
        rcases hurl hopens with hq | hall
        · rw [List.append_assoc, head_skipBlanks_append _ hq] at hquote
          cases hquote
        · exact enclosed_of_forall hall
      rw [afterReference_eq_some_iff]
      exact ⟨body, hbody, by simp⟩

/-- A scan behind `before` passes over `t`, whatever follows. -/
def PassesOver (before t : Text) : Prop :=
  ∀ (b : List (Char × Text)) {k : Text}, Breaks k →
    toStop ⟨before.head?.any isIdent, b⟩ (t ++ k) =
      toStop ⟨(t.reverse ++ before).head?.any isIdent, b⟩ k

section PassesOver

variable {before body t k : Text} {c : Char}

theorem PassesOver.toStop_eq (h : PassesOver (c :: before) t) (hc : isIdent c = false)
    (b : List (Char × Text)) (hk : Breaks k) :
    toStop ⟨false, b⟩ (t ++ k) = toStop ⟨(t.reverse ++ c :: before).head?.any isIdent, b⟩ k := by
  have hscan := h b hk
  rwa [List.head?_cons, Option.any_some, hc] at hscan

theorem passesOver_literal {quote : Char} (hq : isQuote quote = true) (hb : Enclosed quote body)
    (ht : PassesOver (quote :: (body.reverse ++ quote :: before)) t) :
    PassesOver before (quote :: (body ++ quote :: t)) := by
  intro b k hk
  have hident : isIdent quote = false := by
    rcases Lexeme.isQuote_iff.1 hq with rfl | rfl <;> rfl
  have htext : quote :: (body ++ quote :: t) ++ k = quote :: (body ++ quote :: (t ++ k)) := by
    simp
  rw [htext, toStop_literal _ hq hb, ht.toStop_eq hident b hk]
  simp

theorem passesOver_group {o : Char} (hencloses : Encloses o c) (hbody : PassesOver (o :: before) body)
    (ht : PassesOver (c :: (body.reverse ++ o :: before)) t) :
    PassesOver before (o :: (body ++ c :: t)) := by
  intro b k hk
  have hopen : isIdent o = false := by rcases hencloses with ⟨rfl, _⟩ | ⟨rfl, _⟩ <;> rfl
  have hclose : isIdent c = false := by rcases hencloses with ⟨_, rfl⟩ | ⟨_, rfl⟩ <;> rfl
  have htext : o :: (body ++ c :: t) ++ k = o :: (body ++ c :: (t ++ k)) := by simp
  rw [htext, toStop_open _ hencloses, hbody.toStop_eq hopen _ (breaks_closer hencloses (t ++ k)),
    toStop_close _ hencloses, ht.toStop_eq hclose b hk]
  simp

/-- An unquoted reference is passed over at once, and what follows it is shorter. -/
theorem toStop_reference {raw : Bool} {ok : Char → Bool} (b : List (Char × Text))
    (hstop : isStop c = false) (h : Tokens raw ok before (c :: t)) (hk : Breaks k)
    (ho : opensReference (before.head?.any isIdent) (c :: (t ++ k)) = true)
    (hrest : ∀ {before' rest : Text}, Tokens raw ok (')' :: before') rest →
      rest.length < t.length → PassesOver (')' :: before') rest) :
    toStop ⟨before.head?.any isIdent, b⟩ (c :: (t ++ k)) =
      toStop ⟨(t.reverse ++ c :: before).head?.any isIdent, b⟩ k := by
  obtain ⟨before', rest, htokens, hlen, hhead, hafter⟩ := tokens_reference h rfl hk ho
  have hpass : Passes ⟨before.head?.any isIdent, b⟩ c (t ++ k) ⟨false, b⟩ (rest ++ k) :=
    .reference ho hafter
  rw [toStop_of_passes (by simp [hstop]) hpass, ← hhead]
  exact hrest htokens hlen b hk

theorem passesOver_char {raw : Bool} {ok : Char → Bool} (hq : isQuote c = false) (hesc : c ≠ '\\')
    (hbracket : isBracket c = false) (hstop : isStop c = false) (h : Tokens raw ok before (c :: t))
    (ht : Tokens raw ok (c :: before) t) (hplain : PassesOver (c :: before) t)
    (hreference : ∀ {before' rest : Text}, Tokens raw ok (')' :: before') rest →
      rest.length < t.length → PassesOver (')' :: before') rest) :
    PassesOver before (c :: t) := by
  intro b k hk
  rw [List.reverse_cons, List.append_assoc, List.singleton_append, List.cons_append]
  by_cases ho : opensReference (before.head?.any isIdent) (c :: (t ++ k)) = true
  · exact toStop_reference b hstop h hk ho hreference
  · have hslash : c = '/' → (t ++ k).head? ≠ some '*' := by
      rintro rfl
      exact head_ne_star ht hk
    rw [toStop_plain hq hesc hslash hbracket hstop (by simpa using ho)]
    exact hplain b hk

theorem passesOver_escape (ht : PassesOver (c :: '\\' :: before) t) :
    PassesOver before ('\\' :: c :: t) := by
  intro b k hk
  rw [List.cons_append, List.cons_append, toStop_escape]
  simpa using ht b hk

theorem passesOver_comment (hbody : ¬ ['*', '/'] <:+: body)
    (ht : PassesOver ('/' :: '*' :: (body.reverse ++ '*' :: '/' :: before)) t) :
    PassesOver before ('/' :: '*' :: (body ++ '*' :: '/' :: t)) := by
  intro b k hk
  have htext : '/' :: '*' :: (body ++ '*' :: '/' :: t) ++ k =
      '/' :: '*' :: (body ++ '*' :: '/' :: (t ++ k)) := by
    simp
  rw [htext, toStop_comment _ hbody, ht.toStop_eq rfl b hk]
  simp

end PassesOver

theorem passesOver_tokens {raw : Bool} {ok : Char → Bool} {before t : Text}
    (h : Tokens raw ok before t) : PassesOver before t := by
  -- A reference is longer than the first step of the derivation, so the induction is on length.
  induction hn : t.length using Nat.strongRecOn generalizing ok before t with
  | ind n ih =>
  subst hn
  cases h with
  | nil => exact fun b k hk => rfl
  | literal hq hb ht =>
    exact passesOver_literal hq hb (ih _ (by simp only [List.length_cons, List.length_append]; omega)
      ht rfl)
  | group hencloses _ hbody ht =>
    exact passesOver_group hencloses
      (ih _ (by simp only [List.length_cons, List.length_append]; omega) hbody rfl)
      (ih _ (by simp only [List.length_cons, List.length_append]; omega) ht rfl)
  | @char _ _ t c hq hesc hbracket hstop hok hstar hwide ht =>
    exact passesOver_char hq hesc hbracket hstop (.char hq hesc hbracket hstop hok hstar hwide ht) ht
      (ih t.length (Nat.lt_succ_self _) ht rfl)
      fun hrest hlen => ih _ (Nat.lt_succ_of_lt hlen) hrest rfl
  | escape _ _ ht =>
    exact passesOver_escape (ih _ (by simp only [List.length_cons]; omega) ht rfl)
  | comment _ hbody ht =>
    exact passesOver_comment hbody
      (ih _ (by simp only [List.length_cons, List.length_append]; omega) ht rfl)

/-- A scan passes over a well-formed text, whatever follows it. -/
theorem toStop_tokens {raw : Bool} {ok : Char → Bool} {before t k : Text} {a : Bool}
    {b : List (Char × Text)} (h : Tokens raw ok before t) (ha : before.head?.any isIdent = a)
    (hk : Breaks k) : toStop ⟨a, b⟩ (t ++ k) =
      toStop ⟨(t.reverse ++ before).head?.any isIdent, b⟩ k :=
  ha ▸ passesOver_tokens h b hk

end Scan

end Stylesmith
