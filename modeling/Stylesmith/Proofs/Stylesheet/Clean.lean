import Stylesmith.Proofs.Stylesheet.Ink
import Stylesmith.Proofs.Stylesheet.Tokens

set_option autoImplicit false

namespace Stylesmith

open Lexeme (isQuote Enclosed Starts)

/-- A clean text. Outside literals and groups it has only characters that `ok` allows. -/
structure Clean (ok : Char → Bool) (t : Text) : Prop where
  tokens : Tokens false ok [] t
  ne_nil : t ≠ []
  head : t.head? ≠ some ' '
  last : t.getLast? ≠ some ' '

namespace Lexeme

theorem ofText_of_starts {c : Char} {t rest : Text} {l : Lexeme} (h : Starts c t l rest) :
    ofText (c :: t) = l :: ofText rest := by
  rw [ofText, first_eq_of_starts h]

/-- The lexemes of a well-formed text are read alike before whatever does not continue a comment
mark. -/
theorem ofText_tokens {raw : Bool} {ok : Char → Bool} {before t k : Text}
    (h : Tokens raw ok before t) (hk : Breaks k) : ofText (t ++ k) = ofText t ++ ofText k := by
  induction h generalizing k with
  | nil => rw [List.nil_append, ofText, List.nil_append]
  | @literal _ _ body t quote hq hb _ ih =>
    rw [ofText_of_starts (.literal t hq hb), List.cons_append, List.cons_append, ← ih hk,
      List.append_assoc, List.cons_append, ofText_of_starts (.literal (t ++ k) hq hb)]
  | @group _ _ body t o c hencloses _ _ _ ihb ih =>
    rw [List.cons_append, List.append_assoc, List.cons_append,
      ofText_of_starts (starts_opener hencloses _), ihb (breaks_closer hencloses _),
      ofText_of_starts (starts_closer hencloses _), ih hk,
      ofText_of_starts (starts_opener hencloses _), ihb (breaks_closer hencloses _),
      ofText_of_starts (starts_closer hencloses _)]
    simp
  | @char _ _ t c hq hesc _ _ _ _ _ ht ih =>
    have hplain : ∀ {k}, Breaks k → Starts c (t ++ k) (.plain c) (t ++ k) := by
      intro k hk
      refine .plain hq hesc ?_
      rintro rfl
      exact Scan.head_ne_star ht hk
    have hself := hplain breaks_nil
    rw [List.append_nil] at hself
    rw [List.cons_append, ofText_of_starts (hplain hk), ih hk, ofText_of_starts hself,
      List.cons_append]
  | @escape _ _ t c _ _ ih =>
    rw [List.cons_append, List.cons_append, ofText_of_starts (.escape c (t ++ k)), ih hk,
      ofText_of_starts (.escape c t), List.cons_append]
  | @comment _ _ body t _ hbody _ ih =>
    rw [ofText_of_starts (.comment t hbody), List.cons_append, List.cons_append, List.cons_append,
      ← ih hk, List.append_assoc, List.cons_append, List.cons_append,
      ofText_of_starts (.comment (t ++ k) hbody)]

theorem ofText_group {raw : Bool} {ok : Char → Bool} {before body : Text} {o c : Char}
    (hencloses : Encloses o c) (hbody : Tokens raw ok before body) (t : Text) :
    ofText (o :: (body ++ c :: t)) = plain o :: (ofText body ++ plain c :: ofText t) := by
  rw [ofText_of_starts (starts_opener hencloses _), ofText_tokens hbody (breaks_closer hencloses _),
    ofText_of_starts (starts_closer hencloses _)]

theorem ofText_char {raw : Bool} {ok : Char → Bool} {before t : Text} {c : Char}
    (hq : isQuote c = false) (hesc : c ≠ '\\') (ht : Tokens raw ok (c :: before) t) :
    ofText (c :: t) = plain c :: ofText t := by
  refine ofText_of_starts (.plain hq hesc ?_)
  rintro rfl
  have hstar := Scan.head_ne_star ht breaks_nil
  rwa [List.append_nil] at hstar

/-- Lexemes without comments whose blanks are single spaces; `blank` says that a blank stands
before. -/
def Tidy (blank : Bool) : List Lexeme → Prop
  | [] => True
  | comment _ _ :: _ => False
  | plain c :: ls =>
    if Text.isBlank c then c = ' ' ∧ blank = false ∧ Tidy true ls else Tidy false ls
  | _ :: ls => Tidy false ls

theorem tidy_plain {blank : Bool} {c : Char} {ls : List Lexeme} (hc : Text.isBlank c = false) :
    Tidy blank (plain c :: ls) ↔ Tidy false ls := by
  rw [Tidy, if_neg (by simp [hc])]

theorem tidy_space {blank : Bool} {ls : List Lexeme} :
    Tidy blank (plain ' ' :: ls) ↔ blank = false ∧ Tidy true ls := by
  rw [Tidy, if_pos (by decide)]
  simp

theorem tidy_append_of_append {blank : Bool} {ls more more' : List Lexeme}
    (h : Tidy blank (ls ++ more)) (hmore : ∀ b, Tidy b more → Tidy b more') :
    Tidy blank (ls ++ more') := by
  induction ls generalizing blank with
  | nil => exact hmore blank h
  | cons l ls ih =>
    cases l with
    | literal | escape => exact ih h
    | comment => exact h
    | plain c =>
      rw [List.cons_append] at h ⊢
      by_cases hc : Text.isBlank c = true
      · rw [Tidy, if_pos hc] at h ⊢
        exact ⟨h.1, h.2.1, ih h.2.2⟩
      · rw [tidy_plain (by simpa using hc)] at h ⊢
        exact ih h

theorem tidy_append {blank : Bool} {ls ls' : List Lexeme} (h : Tidy blank ls)
    (h' : ∀ b, Tidy b ls') : Tidy blank (ls ++ ls') := by
  rw [← List.append_nil ls] at h
  exact tidy_append_of_append h fun b _ => h' b

theorem tidy_tokens {ok : Char → Bool} {before t : Text} (h : Tokens false ok before t) :
    Tidy (before.head? == some ' ') (ofText t) := by
  induction h with
  | nil =>
    rw [ofText]
    trivial
  | @literal _ _ body t quote hq hb _ ih =>
    rw [ofText_of_starts (.literal t hq hb)]
    rcases isQuote_iff.1 hq with rfl | rfl <;> exact ih
  | @group _ _ body t o c hencloses _ hbody _ ihb ih =>
    rw [ofText_group hencloses hbody]
    rcases hencloses with ⟨rfl, rfl⟩ | ⟨rfl, rfl⟩ <;>
      exact (tidy_plain rfl).2 (tidy_append ihb fun _ => (tidy_plain rfl).2 ih)
  | @char _ _ t c hq hesc _ _ _ _ hwide ht ih =>
    rw [ofText_char hq hesc ht]
    by_cases hc : Text.isBlank c = true
    · obtain ⟨rfl, hbefore⟩ := hwide rfl (Text.isWide_of_isBlank hc)
      rw [tidy_space]
      exact ⟨by simpa using hbefore, ih⟩
    · rw [tidy_plain (by simpa using hc)]
      have hspace : (some c == some ' ') = false := by
        rw [beq_eq_false_iff_ne]
        rintro he
        cases he
        exact hc rfl
      rw [List.head?_cons, hspace] at ih
      exact ih
  | escape _ h => cases h
  | comment h => cases h

theorem collapse_tidy {spaced started gap : Bool} {ls ls' : List Lexeme}
    (h : Tidy (gap || !started) ls) (hne : ls ≠ []) (hlast : ls.getLast? ≠ some (plain ' ')) :
    collapse spaced started gap (ls ++ ls') =
      (if started && gap then [' '] else []) ++ (ls.flatMap text ++ collapse spaced true false ls') := by
  induction ls generalizing started gap with
  | nil => exact absurd rfl hne
  | cons l ls ih =>
    have hrest : Tidy false ls → collapse spaced true false (ls ++ ls') =
        ls.flatMap text ++ collapse spaced true false ls' := by
      intro ht
      by_cases hls : ls = []
      · subst hls
        rfl
      · rw [List.getLast?_cons_of_ne_nil hls] at hlast
        exact @ih true false ht hls hlast
    cases l with
    | comment => exact absurd h id
    | literal quote body closed => simp [collapse, hrest h]
    | escape c => simp [collapse, hrest h]
    | plain c =>
      by_cases hc : Text.isBlank c = true
      · rw [Tidy, if_pos hc] at h
        obtain ⟨rfl, hblank, ht⟩ := h
        obtain ⟨rfl, rfl⟩ : gap = false ∧ started = true := by simpa using hblank
        have hls : ls ≠ [] := by
          rintro rfl
          exact hlast rfl
        rw [List.getLast?_cons_of_ne_nil hls] at hlast
        have hih := @ih true true ht hls hlast
        rw [List.cons_append, collapse, if_pos hc, hih]
        rfl
      · rw [tidy_plain (by simpa using hc)] at h
        rw [List.cons_append, collapse, if_neg hc, hrest h]
        rfl

theorem tidy_of_head {b b' : Bool} {ls : List Lexeme} (h : Tidy b ls)
    (hhead : ls.head? ≠ some (plain ' ')) : Tidy b' ls := by
  cases ls with
  | nil => trivial
  | cons l ls =>
    cases l with
    | literal | escape => exact h
    | comment => exact h
    | plain c =>
      by_cases hc : Text.isBlank c = true
      · rw [Tidy, if_pos hc] at h
        obtain ⟨rfl, _⟩ := h
        exact absurd rfl hhead
      · rw [tidy_plain (by simpa using hc)] at h ⊢
        exact h

theorem glue_glue (a b : Text) (parts : List Text) :
    split.glue a (split.glue b parts) = split.glue (a ++ b) parts := by
  cases parts <;> simp [split.glue]

theorem glue_nil {parts : List Text} (h : parts ≠ []) : split.glue [] parts = parts := by
  cases parts with
  | nil => exact absurd rfl h
  | cons part parts => rfl

theorem deepen_opener {o c : Char} (h : Encloses o c) (depth : Nat) :
    deepen depth o = depth + 1 := by
  rcases h with ⟨rfl, _⟩ | ⟨rfl, _⟩ <;> rfl

theorem deepen_closer {o c : Char} (h : Encloses o c) (depth : Nat) :
    deepen (depth + 1) c = depth := by
  rcases h with ⟨_, rfl⟩ | ⟨_, rfl⟩ <;> rfl

theorem deepen_plain {c : Char} (h : isBracket c = false) (depth : Nat) : deepen depth c = depth := by
  simp only [isBracket, Bool.or_eq_false_iff, beq_eq_false_iff_ne] at h
  obtain ⟨⟨⟨h1, h2⟩, h3⟩, h4⟩ := h
  simp [deepen, h1, h2, h3, h4]

theorem ne_of_encloses {o c sep : Char} (h : Encloses o c) (hsep : isBracket sep = false) :
    o ≠ sep ∧ c ≠ sep := by
  constructor
  · rintro rfl
    rcases h with ⟨rfl, _⟩ | ⟨rfl, _⟩ <;> cases hsep
  · rintro rfl
    rcases h with ⟨_, rfl⟩ | ⟨_, rfl⟩ <;> cases hsep

theorem split_plain {sep c : Char} {depth : Nat} {ls : List Lexeme} (h : ¬ (c = sep ∧ depth = 0)) :
    split sep depth (plain c :: ls) = split.glue [c] (split sep (deepen depth c) ls) := by
  rw [split, if_neg h]

/-- A separator does not split a well-formed text that has it in groups only. -/
theorem split_tokens {raw : Bool} {ok : Char → Bool} {before t : Text} {sep : Char} {depth : Nat}
    (h : Tokens raw ok before t) (hsep : isBracket sep = false) (hok : depth = 0 → ok sep = false)
    (ls : List Lexeme) :
    split sep depth (ofText t ++ ls) = split.glue t (split sep depth ls) := by
  induction h generalizing depth ls with
  | nil =>
    rw [ofText, List.nil_append, glue_nil (split_ne_nil sep depth ls)]
  | @literal _ _ body t quote hq hb _ ih =>
    rw [ofText_of_starts (.literal t hq hb), List.cons_append]
    simp only [split]
    rw [ih hok, glue_glue]
    simp [text]
  | @group _ _ body t o c hencloses _ hbody _ ihb ih =>
    obtain ⟨ho, hc⟩ := ne_of_encloses hencloses hsep
    rw [ofText_group hencloses hbody, List.cons_append, List.append_assoc, List.cons_append,
      split_plain fun h => ho h.1, deepen_opener hencloses,
      ihb (fun h => absurd h (Nat.succ_ne_zero depth)), split_plain fun h => hc h.1,
      deepen_closer hencloses, ih hok, glue_glue, glue_glue, glue_glue]
    simp
  | @char _ _ t c hq hesc hbracket _ hokc _ _ ht ih =>
    have hne : ¬ (c = sep ∧ depth = 0) := by
      rintro ⟨rfl, hdepth⟩
      rw [hok hdepth] at hokc
      cases hokc
    rw [ofText_char hq hesc ht, List.cons_append, split_plain hne, deepen_plain hbracket, ih hok,
      glue_glue]
    rfl
  | @escape _ _ t c _ _ ih =>
    rw [ofText_of_starts (.escape c t), List.cons_append]
    simp only [split]
    rw [ih hok, glue_glue]
    rfl
  | @comment _ _ body t _ hbody _ ih =>
    rw [ofText_of_starts (.comment t hbody), List.cons_append]
    simp only [split]
    rw [ih hok, glue_glue]
    simp [text]

/-- What the first separator cuts off begins with a well-formed text that has it in groups only. -/
theorem cut?_tokens {raw : Bool} {ok : Char → Bool} {before t : Text} {sep : Char} {depth : Nat}
    (h : Tokens raw ok before t) (hsep : isBracket sep = false) (hok : depth = 0 → ok sep = false)
    (ls : List Lexeme) :
    cut? sep depth (ofText t ++ ls) = (cut? sep depth ls).map fun (a, b) => (t ++ a, b) := by
  have hplain : ∀ {c : Char} {depth : Nat} {ls : List Lexeme}, ¬ (c = sep ∧ depth = 0) →
      cut? sep depth (plain c :: ls) =
        (cut? sep (deepen depth c) ls).map fun (a, b) => (c :: a, b) := by
    intro c depth ls h
    rw [cut?, if_neg h]
  induction h generalizing depth ls with
  | nil =>
    rw [ofText, List.nil_append]
    cases cut? sep depth ls <;> rfl
  | @literal _ _ body t quote hq hb _ ih =>
    rw [ofText_of_starts (.literal t hq hb), List.cons_append]
    simp only [cut?]
    rw [ih hok]
    cases cut? sep depth ls <;> simp [text]
  | @group _ _ body t o c hencloses _ hbody _ ihb ih =>
    obtain ⟨ho, hc⟩ := ne_of_encloses hencloses hsep
    rw [ofText_group hencloses hbody, List.cons_append, List.append_assoc, List.cons_append,
      hplain fun h => ho h.1, deepen_opener hencloses,
      ihb (fun h => absurd h (Nat.succ_ne_zero depth)), hplain fun h => hc h.1,
      deepen_closer hencloses, ih hok]
    cases cut? sep depth ls <;> simp
  | @char _ _ t c hq hesc hbracket _ hokc _ _ ht ih =>
    have hne : ¬ (c = sep ∧ depth = 0) := by
      rintro ⟨rfl, hdepth⟩
      rw [hok hdepth] at hokc
      cases hokc
    rw [ofText_char hq hesc ht, List.cons_append, hplain hne, deepen_plain hbracket, ih hok]
    cases cut? sep depth ls <;> rfl
  | @escape _ _ t c _ _ ih =>
    rw [ofText_of_starts (.escape c t), List.cons_append]
    simp only [cut?]
    rw [ih hok]
    cases cut? sep depth ls <;> rfl
  | @comment _ _ body t _ hbody _ ih =>
    rw [ofText_of_starts (.comment t hbody), List.cons_append]
    simp only [cut?]
    rw [ih hok]
    cases cut? sep depth ls <;> simp [text]

end Lexeme

theorem trim_eq_self {t : Text} (hhead : ∀ c ∈ t.head?, Text.isWide c = false)
    (hlast : ∀ c ∈ t.getLast?, Text.isWide c = false) : Text.trim t = t :=
  Text.trimWhile_eq_iff.2 ⟨[], [], by simp, by simp, hhead, hlast⟩

theorem eq_space_of_getLast {ok : Char → Bool} {before t : Text} (h : Tokens false ok before t)
    {c : Char} (hc : t.getLast? = some c) (hwide : Text.isWide c = true) : c = ' ' := by
  have last : ∀ {d : Char} {u v : Text}, (u ++ d :: v).getLast? = some c →
      (v.getLast? = some c → c = ' ') → (Text.isWide d = true → d = ' ') → c = ' ' := by
    intro d u v hl hv hd
    rw [List.getLast?_append, List.getLast?_cons, Option.some_or, Option.some.injEq] at hl
    cases hv' : v.getLast? with
    | none =>
      rw [hv', Option.getD_none] at hl
      rw [hl] at hd
      exact hd hwide
    | some e =>
      rw [hv', Option.getD_some] at hl
      rw [hl] at hv'
      exact hv hv'
  induction h with
  | nil => cases hc
  | @literal _ _ body t quote hq _ _ ih =>
    refine last (u := quote :: body) hc ih fun hw => ?_
    rcases Lexeme.isQuote_iff.1 hq with rfl | rfl <;> cases hw
  | @group _ _ body t o c' hencloses _ _ _ _ ih =>
    refine last (u := o :: body) hc ih fun hw => ?_
    rcases hencloses with ⟨_, rfl⟩ | ⟨_, rfl⟩ <;> cases hw
  | @char _ _ t c' _ _ _ _ _ _ hw _ ih => exact last (u := []) hc ih fun h => (hw rfl h).1
  | escape _ h => cases h
  | comment h => cases h

theorem eq_space_of_head {ok : Char → Bool} {before t : Text} (h : Tokens false ok before t)
    {c : Char} (hc : t.head? = some c) (hwide : Text.isWide c = true) : c = ' ' := by
  cases h with
  | nil => cases hc
  | literal hq =>
    cases hc
    rcases Lexeme.isQuote_iff.1 hq with rfl | rfl <;> cases hwide
  | group hencloses =>
    cases hc
    rcases hencloses with ⟨rfl, _⟩ | ⟨rfl, _⟩ <;> cases hwide
  | char _ _ _ _ _ _ hw =>
    cases hc
    exact (hw rfl hwide).1
  | escape _ h => cases h
  | comment h => cases h

namespace Clean

variable {ok : Char → Bool} {t : Text}

theorem tidy (h : Clean ok t) (b : Bool) : Lexeme.Tidy b (Lexeme.ofText t) := by
  refine Lexeme.tidy_of_head (Lexeme.tidy_tokens h.tokens) ?_
  intro hhead
  obtain ⟨ls, hls⟩ := List.head?_eq_some_iff.1 hhead
  have ht := Lexeme.flatMap_ofText t
  rw [hls] at ht
  rw [← ht] at h
  exact h.head rfl

/-- A clean text is collapsed to itself, whatever stands around it. -/
theorem collapse_append (h : Clean ok t) {k : Text} (hk : Breaks k) (spaced started gap : Bool) :
    Lexeme.collapse spaced started gap (Lexeme.ofText (t ++ k)) =
      (if started && gap then [' '] else []) ++
        (t ++ Lexeme.collapse spaced true false (Lexeme.ofText k)) := by
  have ht := Lexeme.flatMap_ofText t
  rw [Lexeme.ofText_tokens h.tokens hk, Lexeme.collapse_tidy (h.tidy _), ht]
  · rintro hnil
    rw [hnil] at ht
    exact h.ne_nil ht.symm
  · intro hlast
    obtain ⟨ls, hls⟩ := List.getLast?_eq_some_iff.1 hlast
    rw [hls, List.flatMap_append] at ht
    have hend := h.last
    rw [← ht] at hend
    exact hend (by simp [Lexeme.text])

theorem not_wide_head (h : Clean ok t) : ∀ c ∈ t.head?, Text.isWide c = false := by
  intro c hc
  rw [← Bool.not_eq_true]
  intro hw
  obtain rfl := eq_space_of_head h.tokens hc hw
  exact h.head hc

theorem not_wide_last (h : Clean ok t) : ∀ c ∈ t.getLast?, Text.isWide c = false := by
  intro c hc
  rw [← Bool.not_eq_true]
  intro hw
  obtain rfl := eq_space_of_getLast h.tokens hc hw
  exact h.last hc

theorem trim_eq (h : Clean ok t) : Text.trim t = t :=
  trim_eq_self h.not_wide_head h.not_wide_last

theorem toStop_append (h : Clean ok t) {k : Text} (hk : Breaks k) (b : List (Char × Text)) :
    Scan.toStop ⟨false, b⟩ (t ++ k) =
      Scan.toStop ⟨t.getLast?.any Lexeme.isIdent, b⟩ k := by
  have hs := Scan.toStop_tokens (a := false) (b := b) h.tokens rfl hk
  rwa [List.append_nil, List.head?_reverse] at hs

end Clean

end Stylesmith
