import Mathlib
import Stylesmith.Stylesheet.Scan

/-!
# Scanning in context

A scan that ends at a stop has read the text before it by lexemes and references that lie wholly
inside this text. So whatever stop follows a text, the same of it is read: `toStop_swap`.
-/

set_option autoImplicit false

namespace Stylesmith

namespace Text

theorem toLower_eq_or (c : Char) : c.toLower = c ∨ c.toLower.isLower = true := by
  rw [Char.isLower_toLower_eq_isAlpha]
  by_cases hupper : c.isUpper = true
  · exact .inr (by simp [Char.isAlpha, hupper])
  · exact .inl (Char.toLower_eq_of_not_isUpper hupper)

theorem eq_of_toLower_eq {c d : Char} (h : c.toLower = d) (hd : d.isLower = false) : c = d := by
  rcases toLower_eq_or c with hc | hc
  · rw [← hc, h]
  · rw [h, hd] at hc
    cases hc

end Text

namespace Lexeme

/-- What may stand before a closing character: it does not occur itself, unless in an escape. -/
inductive Enclosed (close : Char) : Text → Prop
  | nil : Enclosed close []
  | escape {t : Text} (c : Char) : Enclosed close t → Enclosed close ('\\' :: c :: t)
  | char {c : Char} {t : Text} : c ≠ close → c ≠ '\\' → Enclosed close t → Enclosed close (c :: t)

theorem spanLiteral_of_enclosed {close : Char} (hclose : close ≠ '\\') {body : Text}
    (h : Enclosed close body) (rest : Text) :
    spanLiteral close (body ++ close :: rest) = (body, some rest) := by
  induction h with
  | nil => simp [spanLiteral, hclose]
  | escape c _ ih => simp [spanLiteral, ih]
  | char hc hb _ ih => simp [spanLiteral, hc, hb, ih]

theorem enclosed_of_spanLiteral {close : Char} {t body rest : Text}
    (h : spanLiteral close t = (body, some rest)) :
    Enclosed close body ∧ t = body ++ close :: rest := by
  fun_induction spanLiteral close t generalizing body with
  | case1 => simp at h
  | case2 c t b r hs ih =>
    simp only [Prod.mk.injEq] at h
    obtain ⟨rfl, rfl⟩ := h
    obtain ⟨hb, rfl⟩ := ih hs
    exact ⟨.escape c hb, rfl⟩
  | case3 t hne =>
    simp only [Prod.mk.injEq, Option.some.injEq] at h
    obtain ⟨rfl, rfl⟩ := h
    exact ⟨.nil, rfl⟩
  | case4 c t hne hc b r hs ih =>
    simp only [Prod.mk.injEq] at h
    obtain ⟨rfl, rfl⟩ := h
    obtain ⟨hb, rfl⟩ := ih hs
    refine ⟨.char hc ?_ hb, rfl⟩
    rintro rfl
    cases b <;> exact hne _ _ rfl rfl

theorem spanLiteral_eq_some_iff {close : Char} (hclose : close ≠ '\\') {t body rest : Text} :
    spanLiteral close t = (body, some rest) ↔ Enclosed close body ∧ t = body ++ close :: rest := by
  constructor
  · intro h
    exact enclosed_of_spanLiteral h
  · rintro ⟨hb, rfl⟩
    exact spanLiteral_of_enclosed hclose hb rest

theorem spanComment_of_not_infix {body : Text} (h : ¬ ['*', '/'] <:+: body) (rest : Text) :
    spanComment (body ++ '*' :: '/' :: rest) = (body, some rest) := by
  induction body with
  | nil => rfl
  | cons c body ih =>
    have hbody : ¬ ['*', '/'] <:+: body := fun hi => h (hi.trans (List.suffix_cons c body).isInfix)
    rw [List.cons_append, spanComment, ih hbody]
    rintro t rfl ht
    cases body with
    | nil => simp at ht
    | cons d body =>
      rw [List.cons_append, List.cons.injEq] at ht
      obtain ⟨rfl, _⟩ := ht
      exact h ⟨[], body, rfl⟩

theorem not_infix_of_spanComment {t body rest : Text} (h : spanComment t = (body, some rest)) :
    ¬ ['*', '/'] <:+: body ∧ t = body ++ '*' :: '/' :: rest := by
  fun_induction spanComment t generalizing body with
  | case1 => simp at h
  | case2 t =>
    simp only [Prod.mk.injEq, Option.some.injEq] at h
    obtain ⟨rfl, rfl⟩ := h
    exact ⟨by simp, rfl⟩
  | case3 c t hne b r hs ih =>
    simp only [Prod.mk.injEq] at h
    obtain ⟨rfl, rfl⟩ := h
    obtain ⟨hb, rfl⟩ := ih hs
    refine ⟨?_, rfl⟩
    rw [List.infix_cons_iff]
    rintro (hp | hi)
    · obtain ⟨t', ht'⟩ := hp
      rw [List.cons_append, List.cons.injEq] at ht'
      obtain ⟨rfl, rfl⟩ := ht'
      exact hne _ rfl rfl
    · exact hb hi

theorem spanComment_eq_some_iff {t body rest : Text} :
    spanComment t = (body, some rest) ↔
      ¬ ['*', '/'] <:+: body ∧ t = body ++ '*' :: '/' :: rest := by
  constructor
  · exact not_infix_of_spanComment
  · rintro ⟨hb, rfl⟩
    exact spanComment_of_not_infix hb rest

def closed : Lexeme → Bool
  | literal _ _ closed => closed
  | comment _ closed => closed
  | escape c => c.isSome
  | plain _ => true

inductive Starts : Char → Text → Lexeme → Text → Prop
  | literal {quote : Char} {body : Text} (rest : Text) : isQuote quote = true →
      Enclosed quote body → Starts quote (body ++ quote :: rest) (literal quote body true) rest
  | escape (c : Char) (rest : Text) : Starts '\\' (c :: rest) (escape (some c)) rest
  | comment {body : Text} (rest : Text) : ¬ ['*', '/'] <:+: body →
      Starts '/' ('*' :: (body ++ '*' :: '/' :: rest)) (comment body true) rest
  | plain {c : Char} {rest : Text} : isQuote c = false → c ≠ '\\' →
      (c = '/' → rest.head? ≠ some '*') → Starts c rest (plain c) rest
  | unclosed {c : Char} {t : Text} {l : Lexeme} : first c t = (l, []) → l.closed = false →
      Starts c t l []

theorem isQuote_iff {c : Char} : isQuote c = true ↔ c = '"' ∨ c = '\'' := by
  simp [isQuote]

theorem ne_backslash_of_isQuote {c : Char} (h : isQuote c = true) : c ≠ '\\' := by
  rintro rfl
  cases h

theorem first_eq_of_starts {c : Char} {t rest : Text} {l : Lexeme} (h : Starts c t l rest) :
    first c t = (l, rest) := by
  cases h with
  | literal _ hq hb =>
    simp only [first, if_pos hq, spanLiteral_of_enclosed (ne_backslash_of_isQuote hq) hb]
  | escape d => rfl
  | comment _ hb =>
    simp only [first, isQuote, List.tail_cons, spanComment_of_not_infix hb]
    rfl
  | plain hq hb hc =>
    unfold first
    rw [if_neg (by simp [hq]), if_neg hb, if_neg (fun h => hc h.1 h.2)]
  | unclosed h => exact h

theorem starts_first (c : Char) (t : Text) : Starts c t (first c t).1 (first c t).2 := by
  by_cases hq : isQuote c = true
  · rcases hs : spanLiteral c t with ⟨body, _ | rest⟩
    · have hf : first c t = (literal c body false, []) := by
        unfold first
        rw [if_pos hq, hs]
      rw [hf]
      exact .unclosed hf rfl
    · obtain ⟨hb, rfl⟩ := (spanLiteral_eq_some_iff (ne_backslash_of_isQuote hq)).1 hs
      have h := Starts.literal rest hq hb
      rwa [first_eq_of_starts h]
  · by_cases hb : c = '\\'
    · subst hb
      cases t with
      | nil => exact .unclosed rfl rfl
      | cons d t => exact .escape d t
    · by_cases hc : c = '/' ∧ t.head? = some '*'
      · obtain ⟨rfl, ht⟩ := hc
        obtain ⟨t, rfl⟩ := List.head?_eq_some_iff.1 ht
        rcases hs : spanComment t with ⟨body, _ | rest⟩
        · have hf : first '/' ('*' :: t) = (comment body false, []) := by
            simp [first, isQuote, hs]
          rw [hf]
          exact .unclosed hf rfl
        · obtain ⟨hb, rfl⟩ := spanComment_eq_some_iff.1 hs
          have h := Starts.comment rest hb
          rwa [first_eq_of_starts h]
      · have h : Starts c t (.plain c) t :=
          .plain (by simpa using hq) hb fun h ht => hc ⟨h, ht⟩
        rwa [first_eq_of_starts h]

theorem starts_iff {c : Char} {t rest : Text} {l : Lexeme} :
    Starts c t l rest ↔ first c t = (l, rest) := by
  constructor
  · exact first_eq_of_starts
  · intro h
    have hs := starts_first c t
    rwa [h] at hs

theorem eq_of_starts_plain {c d : Char} {t rest : Text} (h : Starts c t (plain d) rest) :
    d = c ∧ rest = t := by
  cases h with
  | plain => exact ⟨rfl, rfl⟩
  | unclosed _ hl => cases hl

end Lexeme

namespace Scan

open Lexeme (isIdent isQuote Enclosed)

def AtStop (k : Text) : Prop := ∃ c t, k = c :: t ∧ isStop c = true

theorem afterReference_eq_spanLiteral (t : Text) :
    afterReference t = (Lexeme.spanLiteral ')' t).2 := by
  fun_induction afterReference t with
  | case1 => rfl
  | case2 c t ih => simp [Lexeme.spanLiteral, ih]
  | case3 t hne => simp [Lexeme.spanLiteral]
  | case4 c t hne hc ih =>
    rw [Lexeme.spanLiteral, if_neg hc, ih]
    exact hne

theorem afterReference_eq_some_iff {t rest : Text} :
    afterReference t = some rest ↔ ∃ body, Enclosed ')' body ∧ t = body ++ ')' :: rest := by
  rw [afterReference_eq_spanLiteral]
  constructor
  · intro h
    exact ⟨_, (Lexeme.spanLiteral_eq_some_iff (by decide)).1 (Prod.ext rfl h)⟩
  · rintro ⟨body, hb, rfl⟩
    rw [Lexeme.spanLiteral_of_enclosed (by decide) hb]

theorem startsIgnoringCase_url_iff {t : Text} :
    Text.startsIgnoringCase "url(" t = true ↔
      ∃ u r l rest, t = u :: r :: l :: '(' :: rest ∧
        u.toLower = 'u' ∧ r.toLower = 'r' ∧ l.toLower = 'l' := by
  constructor
  · intro h
    simp only [Text.startsIgnoringCase, Text.eqIgnoringCase, Text.lowerAscii, beq_iff_eq] at h
    rcases t with _ | ⟨u, _ | ⟨r, _ | ⟨l, _ | ⟨p, rest⟩⟩⟩⟩ <;> simp at h
    obtain ⟨hu, hr, hl, hp⟩ := h
    obtain rfl := Text.eq_of_toLower_eq hp.symm rfl
    exact ⟨u, r, l, rest, rfl, hu.symm, hr.symm, hl.symm⟩
  · rintro ⟨u, r, l, rest, rfl, hu, hr, hl⟩
    simp [Text.startsIgnoringCase, Text.eqIgnoringCase, Text.lowerAscii, hu, hr, hl]

theorem opensReference_iff {afterIdent : Bool} {t : Text} :
    opensReference afterIdent t = true ↔
      afterIdent = false ∧ ∃ u r l rest, t = u :: r :: l :: '(' :: rest ∧
        u.toLower = 'u' ∧ r.toLower = 'r' ∧ l.toLower = 'l' ∧
        (Text.skipBlanks rest).head?.any isQuote = false := by
  simp only [opensReference, Bool.and_eq_true, Bool.not_eq_true', startsIgnoringCase_url_iff]
  constructor
  · rintro ⟨⟨ha, u, r, l, rest, rfl, hu, hr, hl⟩, hq⟩
    exact ⟨ha, u, r, l, rest, rfl, hu, hr, hl, hq⟩
  · rintro ⟨ha, u, r, l, rest, rfl, hu, hr, hl, hq⟩
    exact ⟨⟨ha, u, r, l, rest, rfl, hu, hr, hl⟩, hq⟩

theorem atStop_cons {c : Char} {t : Text} : AtStop (c :: t) ↔ isStop c = true := by
  constructor
  · rintro ⟨d, t', he, hd⟩
    cases he
    exact hd
  · intro hc
    exact ⟨c, t, rfl, hc⟩

theorem isStop_iff {c : Char} : isStop c = true ↔ c = '{' ∨ c = ';' ∨ c = '}' := by
  simp [isStop, or_assoc]

theorem AtStop.ne_nil {k : Text} (hk : AtStop k) : k ≠ [] := by
  obtain ⟨c, t, rfl, _⟩ := hk
  exact List.cons_ne_nil c t

theorem head_skipBlanks_append_atStop (t : Text) {k k' : Text} (hk : AtStop k) (hk' : AtStop k') :
    (Text.skipBlanks (t ++ k)).head?.any isQuote = (Text.skipBlanks (t ++ k')).head?.any isQuote := by
  have head_stop : ∀ {k : Text}, AtStop k → (Text.skipBlanks k).head?.any isQuote = false := by
    rintro k ⟨c, t, rfl, hc⟩
    simp only [isStop, Bool.or_eq_true, beq_iff_eq] at hc
    rcases hc with (rfl | rfl) | rfl <;> rfl
  induction t with
  | nil => rw [List.nil_append, List.nil_append, head_stop hk, head_stop hk']
  | cons c t ih =>
    by_cases hc : Text.isBlank c = true
    · simpa [Text.skipBlanks, hc] using ih
    · simp [Text.skipBlanks, hc]

theorem name_append_atStop {t k rest : Text} {u r l : Char} (hk : AtStop k)
    (h : t ++ k = u :: r :: l :: '(' :: rest) (hu : u.toLower = 'u') (hr : r.toLower = 'r')
    (hl : l.toLower = 'l') : ∃ t', t = u :: r :: l :: '(' :: t' ∧ rest = t' ++ k := by
  obtain ⟨c, k, rfl, hc⟩ := hk
  rw [isStop_iff] at hc
  rcases t with _ | ⟨a, _ | ⟨b, _ | ⟨d, _ | ⟨e, t⟩⟩⟩⟩ <;> simp at h
  · obtain ⟨rfl, _⟩ := h
    rcases hc with rfl | rfl | rfl <;> exact absurd hu (by decide)
  · obtain ⟨_, rfl, _⟩ := h
    rcases hc with rfl | rfl | rfl <;> exact absurd hr (by decide)
  · obtain ⟨_, _, rfl, _⟩ := h
    rcases hc with rfl | rfl | rfl <;> exact absurd hl (by decide)
  · obtain ⟨_, _, _, rfl, _⟩ := h
    rcases hc with h | h | h <;> cases h
  · obtain ⟨rfl, rfl, rfl, rfl, rfl⟩ := h
    exact ⟨t, rfl, rfl⟩

theorem opensReference_swap {afterIdent : Bool} {t k k' : Text} (hk : AtStop k) (hk' : AtStop k') :
    opensReference afterIdent (t ++ k) = opensReference afterIdent (t ++ k') := by
  have imp : ∀ {k k' : Text}, AtStop k → AtStop k' → opensReference afterIdent (t ++ k) = true →
      opensReference afterIdent (t ++ k') = true := by
    intro k k' hk hk' h
    rw [opensReference_iff] at h ⊢
    obtain ⟨ha, u, r, l, rest, ht, hu, hr, hl, hq⟩ := h
    obtain ⟨t', rfl, rfl⟩ := name_append_atStop hk ht hu hr hl
    rw [head_skipBlanks_append_atStop t' hk hk'] at hq
    exact ⟨ha, u, r, l, t' ++ k', rfl, hu, hr, hl, hq⟩
  rw [Bool.eq_iff_iff]
  exact ⟨imp hk hk', imp hk' hk⟩

theorem starts_swap {c : Char} {t rest k k' : Text} {l : Lexeme} (hk : AtStop k) (hk' : AtStop k')
    (h : Lexeme.Starts c (t ++ k) l (rest ++ k)) : Lexeme.Starts c (t ++ k') l (rest ++ k') := by
  generalize ht : t ++ k = t₁ at h
  generalize hr : rest ++ k = rest₁ at h
  have cancel : ∀ {a : Text}, t ++ k = a ++ rest₁ → t = a ++ rest := by
    intro a h
    rw [← hr, ← List.append_assoc] at h
    exact List.append_cancel_right h
  cases h with
  | @literal _ body _ hq hb =>
    have ht' : t = (body ++ [c]) ++ rest := cancel (by simp [ht])
    rw [ht']
    simpa using Lexeme.Starts.literal (rest ++ k') hq hb
  | escape d =>
    have ht' : t = [d] ++ rest := cancel ht
    rw [ht']
    exact .escape d _
  | @comment body _ hb =>
    have ht' : t = ('*' :: body ++ ['*', '/']) ++ rest := cancel (by simp [ht])
    rw [ht']
    simpa using Lexeme.Starts.comment (rest ++ k') hb
  | plain hq hb hc =>
    obtain rfl : t = rest := cancel (a := []) ht
    refine .plain hq hb ?_
    intro hslash
    cases t with
    | nil =>
      obtain ⟨d, k', rfl, hd⟩ := hk'
      rintro h
      obtain rfl : d = '*' := by simpa using h
      cases hd
    | cons d t =>
      rw [← ht] at hc
      exact hc hslash
  | unclosed =>
    exact absurd hr (by simp [hk.ne_nil])

/-- The length of what a reference leaves shows that its end lies before what follows. -/
theorem afterReference_swap {t rest k : Text} (k' : Text)
    (h : afterReference (t ++ k) = some (rest ++ k)) : afterReference (t ++ k') = some (rest ++ k') := by
  rw [afterReference_eq_some_iff] at h ⊢
  obtain ⟨body, hb, ht⟩ := h
  have ht' : t = body ++ ')' :: rest := by
    have hk : t ++ k = (body ++ ')' :: rest) ++ k := by
      rw [ht, List.append_assoc, List.cons_append]
    exact List.append_cancel_right hk
  exact ⟨body, hb, by rw [ht', List.append_assoc, List.cons_append]⟩

def State.past (s : State) (mark : Text) : Lexeme → State
  | .literal _ _ _ | .comment _ _ => ⟨false, s.brackets⟩
  | .escape c => ⟨c.any isIdent, s.brackets⟩
  | .plain c =>
    if c = '(' then ⟨false, (')', mark) :: s.brackets⟩
    else if c = '[' then ⟨false, (']', mark) :: s.brackets⟩
    else if c = ')' ∨ c = ']' then ⟨false, closeBracket c s.brackets⟩
    else ⟨isIdent c, s.brackets⟩

/-- One step of a scan passes an unquoted reference or a lexeme; only an escape may end with the
text instead of by itself. -/
inductive Passes (s : State) (c : Char) (t : Text) : State → Text → Prop
  | reference {rest : Text} : opensReference s.afterIdent (c :: t) = true →
      afterReference (t.drop 3) = some rest → Passes s c t ⟨false, s.brackets⟩ rest
  | lexeme {l : Lexeme} {rest : Text} : opensReference s.afterIdent (c :: t) = false →
      Lexeme.Starts c t l rest → (l.closed = true ∨ l = .escape none) →
      Passes s c t (s.past (c :: t) l) rest

theorem read_eq_of_passes {s s' : State} {c : Char} {t rest : Text} (h : Passes s c t s' rest) :
    s.read c t = .ok (s', rest) := by
  unfold State.read
  cases h with
  | reference ho ha => rw [if_pos ho, ha]
  | @lexeme l _ ho hs hl =>
    rw [if_neg (by simp [ho]), Lexeme.first_eq_of_starts hs]
    cases l with
    | literal _ _ closed =>
      obtain rfl : closed = true := by simpa [Lexeme.closed] using hl
      rfl
    | comment _ closed =>
      obtain rfl : closed = true := by simpa [Lexeme.closed] using hl
      rfl
    | escape d => rfl
    | plain d =>
      obtain ⟨rfl, rfl⟩ := Lexeme.eq_of_starts_plain hs
      simp only [State.past]
      split_ifs <;> rfl

theorem passes_of_read {s s' : State} {c : Char} {t rest : Text}
    (h : s.read c t = .ok (s', rest)) : Passes s c t s' rest := by
  unfold State.read at h
  split at h
  · rename_i ho
    split at h
    · cases h
    · rename_i ha
      cases h
      exact .reference ho ha
  · rename_i ho
    have hs := Lexeme.starts_first c t
    have pass : ∀ {l : Lexeme} {r : Text}, Lexeme.first c t = (l, r) →
        (l.closed = true ∨ l = .escape none) → Passes s c t (s.past (c :: t) l) r := by
      intro l r hf hl
      exact .lexeme (by simpa using ho) (Lexeme.starts_iff.2 hf) hl
    split at h <;> rename_i hf
    · cases h
      exact pass hf (.inl rfl)
    · cases h
    · cases h
      exact pass hf (.inl rfl)
    · cases h
    · rename_i d r
      cases h
      exact pass hf (by cases d <;> simp [Lexeme.closed])
    · obtain ⟨rfl, rfl⟩ := Lexeme.eq_of_starts_plain (Lexeme.starts_iff.2 hf)
      have hp := pass hf (.inl rfl)
      simp only [State.past] at hp
      split_ifs at h hp <;> (cases h; exact hp)

theorem suffix_of_starts {c : Char} {t rest : Text} {l : Lexeme} (h : Lexeme.Starts c t l rest) :
    rest <:+ t := by
  have ht := Lexeme.first_text c t
  rw [Lexeme.first_eq_of_starts h] at ht
  cases hl : l.text with
  | nil => exact absurd hl (Lexeme.text_ne_nil l)
  | cons d u =>
    rw [hl, List.cons_append, List.cons.injEq] at ht
    exact ⟨u, ht.2⟩

theorem suffix_of_passes {s s' : State} {c : Char} {t rest : Text} (h : Passes s c t s' rest) :
    rest <:+ t := by
  cases h with
  | reference _ ha =>
    obtain ⟨body, _, ht⟩ := afterReference_eq_some_iff.1 ha
    have hs : rest <:+ t.drop 3 := by
      rw [ht]
      exact ⟨body ++ [')'], by simp⟩
    exact hs.trans (List.drop_suffix 3 t)
  | lexeme _ hs => exact suffix_of_starts hs

theorem suffix_of_toStop {s : State} {t rest : Text} (h : toStop s t = .ok rest) : rest <:+ t := by
  fun_induction toStop s t with
  | case1 => cases h; exact List.suffix_refl _
  | case2 => cases h
  | case3 => cases h; exact List.suffix_refl _
  | case4 => cases h
  | case5 _ _ _ _ _ _ hr _ ih =>
    exact ((ih h).trans (suffix_of_passes (passes_of_read hr))).trans (List.suffix_cons _ _)

/-- States that differ in what follows the open brackets only. -/
def Alike (s₁ s₂ : State) : Prop :=
  s₁.afterIdent = s₂.afterIdent ∧ s₁.brackets.map (·.1) = s₂.brackets.map (·.1)

theorem Alike.refl (s : State) : Alike s s := ⟨rfl, rfl⟩

theorem Alike.isEmpty_eq {s₁ s₂ : State} (h : Alike s₁ s₂) :
    s₁.brackets.isEmpty = s₂.brackets.isEmpty := by
  have hl := congrArg List.isEmpty h.2
  rwa [List.isEmpty_map, List.isEmpty_map] at hl

theorem closeBracket_alike {c : Char} {b₁ b₂ : List (Char × Text)}
    (h : b₁.map (·.1) = b₂.map (·.1)) :
    (closeBracket c b₁).map (·.1) = (closeBracket c b₂).map (·.1) := by
  cases b₁ with
  | nil =>
    cases b₂ with
    | nil => rfl
    | cons p b₂ => cases h
  | cons p b₁ =>
    cases b₂ with
    | nil => cases h
    | cons q b₂ =>
      obtain ⟨p, m⟩ := p
      obtain ⟨q, n⟩ := q
      rw [List.map_cons, List.map_cons, List.cons.injEq] at h
      obtain ⟨rfl, hb⟩ := h
      simp only [closeBracket]
      split_ifs
      · exact hb
      · rw [List.map_cons, List.map_cons, hb]

theorem past_alike {s₁ s₂ : State} (h : Alike s₁ s₂) (m₁ m₂ : Text) (l : Lexeme) :
    Alike (s₁.past m₁ l) (s₂.past m₂ l) := by
  cases l with
  | literal => exact ⟨rfl, h.2⟩
  | comment => exact ⟨rfl, h.2⟩
  | escape => exact ⟨rfl, h.2⟩
  | plain c =>
    simp only [State.past]
    split_ifs
    · exact ⟨rfl, by rw [List.map_cons, List.map_cons, h.2]⟩
    · exact ⟨rfl, by rw [List.map_cons, List.map_cons, h.2]⟩
    · exact ⟨rfl, closeBracket_alike h.2⟩
    · exact ⟨rfl, h.2⟩

theorem passes_swap {s₁ s₂ s₁' : State} {c : Char} {t rest k k' : Text} (hk : AtStop k)
    (hk' : AtStop k') (hs : Alike s₁ s₂) (h : Passes s₁ c (t ++ k) s₁' (rest ++ k)) :
    ∃ s₂', Alike s₁' s₂' ∧ Passes s₂ c (t ++ k') s₂' (rest ++ k') := by
  have ho : opensReference s₁.afterIdent (c :: (t ++ k)) =
      opensReference s₂.afterIdent (c :: (t ++ k')) := by
    rw [hs.1]
    exact opensReference_swap (t := c :: t) hk hk'
  generalize hr : rest ++ k = rest₁ at h
  cases h with
  | reference hopen ha =>
    obtain ⟨_, u, r, l, after, ht, hu, hr', hl, _⟩ := opensReference_iff.1 hopen
    obtain ⟨t', ht', rfl⟩ := name_append_atStop (t := c :: t) hk ht hu hr' hl
    cases ht'
    subst hr
    refine ⟨⟨false, s₂.brackets⟩, ⟨rfl, hs.2⟩, .reference (ho ▸ hopen) ?_⟩
    exact afterReference_swap k' ha
  | lexeme hopen hstart hclosed =>
    subst hr
    exact ⟨_, past_alike hs _ _ _, .lexeme (ho ▸ hopen) (starts_swap hk hk' hstart) hclosed⟩

theorem toStop_of_isStop {s : State} {k : Text} (hs : s.brackets = []) (hk : AtStop k) :
    toStop s k = .ok k := by
  obtain ⟨c, t, rfl, hc⟩ := hk
  rw [toStop, if_pos (by simp [hs, hc])]

theorem toStop_of_passes {s s' : State} {c : Char} {t rest : Text}
    (hc : (s.brackets.isEmpty && isStop c) = false) (h : Passes s c t s' rest) :
    toStop s (c :: t) = toStop s' rest := by
  rw [toStop, if_neg (by simp [hc])]
  split
  · rename_i he
    rw [read_eq_of_passes h] at he
    cases he
  · rename_i he
    rw [read_eq_of_passes h] at he
    cases he
    rfl

/-- What is read up to a stop does not depend on the stop or on the text after it. -/
theorem toStop_swap {s₁ s₂ : State} {t k k' : Text} (hk : AtStop k) (hk' : AtStop k')
    (hs : Alike s₁ s₂) (h : toStop s₁ (t ++ k) = .ok k) : toStop s₂ (t ++ k') = .ok k' := by
  generalize ht : t ++ k = x at h
  fun_induction toStop s₁ x generalizing t s₂ with
  | case1 =>
    cases h
    exact absurd rfl hk.ne_nil
  | case2 => cases h
  | case3 s₁ c x hc =>
    cases h
    obtain rfl : t = [] := by simpa using ht
    simp only [Bool.and_eq_true, List.isEmpty_iff] at hc
    refine toStop_of_isStop ?_ hk'
    rw [← List.isEmpty_iff, ← hs.isEmpty_eq, hc.1, List.isEmpty_nil]
  | case4 => cases h
  | case5 s₁ c x hc s₁' r hr _ ih =>
    have hp := passes_of_read hr
    obtain ⟨r, rfl⟩ := suffix_of_toStop h
    cases t with
    | nil =>
      -- The rest is shorter than the text, so it does not end with all of it.
      have hlen := (suffix_of_passes hp).length_le
      rw [List.nil_append] at ht
      rw [List.length_append, ht, List.length_cons] at hlen
      omega
    | cons d t =>
      rw [List.cons_append, List.cons.injEq] at ht
      obtain ⟨rfl, rfl⟩ := ht
      obtain ⟨s₂', hs', hp'⟩ := passes_swap hk hk' hs hp
      have hc' : (s₂.brackets.isEmpty && isStop d) = false := by
        rw [← hs.isEmpty_eq]
        simpa using hc
      rw [List.cons_append, toStop_of_passes hc' hp']
      exact ih hs' rfl h

/-- A text that a scan reads as a whole where a stop follows. -/
def Whole (t : Text) : Prop := toStop ⟨false, []⟩ (t ++ [';']) = .ok [';']

theorem whole_iff_toStop {t k : Text} (hk : AtStop k) :
    Whole t ↔ toStop ⟨false, []⟩ (t ++ k) = .ok k := by
  have hsemi : AtStop [';'] := atStop_cons.2 rfl
  constructor
  · exact toStop_swap hsemi hk (.refl _)
  · exact toStop_swap hk hsemi (.refl _)

end Scan

end Stylesmith
