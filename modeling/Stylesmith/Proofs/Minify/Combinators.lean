import Stylesmith.Proofs.Minify.Headers

set_option autoImplicit false

namespace Stylesmith.Selector

open Lexeme (isQuote deepen)

/-- What is open at a place in a selector: a literal with this quote, and this many brackets. -/
structure Place where
  quote : Option Char
  depth : Nat

namespace Place

def next (p : Place) (c : Char) : Place :=
  match p.quote with
  | some q => ⟨if c = q then none else some q, p.depth⟩
  | none => if isQuote c then ⟨some c, p.depth⟩ else ⟨none, deepen p.depth c⟩

def after (t : Text) : Place := t.foldl next ⟨none, 0⟩

theorem after_snoc (t : Text) (c : Char) : after (t ++ [c]) = (after t).next c := by
  rw [after, List.foldl_append]
  rfl

variable {p : Place}

theorem next_of_some {q : Char} (h : p.quote = some q) (c : Char) :
    p.next c = ⟨if c = q then none else some q, p.depth⟩ := by
  rw [next, h]

theorem next_of_none (h : p.quote = none) (c : Char) :
    p.next c = if isQuote c then ⟨some c, p.depth⟩ else ⟨none, deepen p.depth c⟩ := by
  rw [next, h]

end Place

/-- White space outside literals is single spaces, each with other characters on both sides. -/
def Collapsed (s : Text) : Prop :=
  ∀ i < s.length, (Place.after (s.take i)).quote = none → s[i]?.any Text.isBlank = true →
    s[i]? = some ' ' ∧ 0 < i ∧ s[i + 1]?.any (!Text.isBlank ·) = true

instance (s : Text) : Decidable (Collapsed s) :=
  inferInstanceAs (Decidable (∀ i < s.length, _ → _ → _))

def Beside (before after chars : Text) : Prop :=
  ∃ c ∈ chars, before.getLast? = some c ∨ after.head? = some c

/-- A space between these texts stands outside literals and is no descendant combinator. -/
def IsNeutral (before after : Text) : Prop :=
  (Place.after before).quote = none ∧
    (Beside before after "," ∨ (Place.after before).depth = 0 ∧ Beside before after ">+~" ∨
      before.getLast? = some '(' ∨ after.head? = some ')')

def IsDropped (before after : Text) : Prop :=
  (Place.after before).quote = none ∧
    (Beside before after "," ∨ (Place.after before).depth = 0 ∧ Beside before after ">+~" ∨
      (Place.after before).depth ≠ 0 ∧ Beside before after "()")

instance (before after chars : Text) : Decidable (Beside before after chars) :=
  List.decidableBEx (fun c => before.getLast? = some c ∨ after.head? = some c) chars

instance (before after : Text) : Decidable (IsNeutral before after) :=
  inferInstanceAs (Decidable (_ ∧ _))

instance (before after : Text) : Decidable (IsDropped before after) :=
  inferInstanceAs (Decidable (_ ∧ _))

def without (p : Text → Text → Bool) (before : Text) : Text → Text
  | [] => []
  | c :: after =>
    if c = ' ' ∧ p before after = true then without p (before ++ [c]) after
    else c :: without p (before ++ [c]) after

variable {before s : Text}

theorem Collapsed.head_ne_blank (h : Collapsed (before ++ ' ' :: s))
    (hq : (Place.after before).quote = none) : ∃ c t, s = c :: t ∧ c ≠ ' ' := by
  have hplace := h before.length (by simp) (by rwa [List.take_left]) (by simp [Text.isBlank])
  cases s with
  | nil => simp at hplace
  | cons c t =>
    refine ⟨c, t, rfl, ?_⟩
    rintro rfl
    simp [Text.isBlank] at hplace

theorem joins_iff {depth : Nat} {c : Char} : joins depth c = true ↔
    c ∈ ("," : Text) ∨ depth = 0 ∧ c ∈ (">+~" : Text) ∨ depth ≠ 0 ∧ c ∈ ("()" : Text) := by
  simp [joins, or_assoc, and_or_left]

theorem any_joins_iff {after : Text} {depth : Nat} :
    (before.getLast?.any (joins depth) || after.head?.any (joins depth)) = true ↔
      Beside before after "," ∨ depth = 0 ∧ Beside before after ">+~" ∨
        depth ≠ 0 ∧ Beside before after "()" := by
  simp only [Bool.or_eq_true, Option.any_eq_true, joins_iff, Beside]
  constructor
  · rintro (⟨c, hc, hj⟩ | ⟨c, hc, hj⟩)
    · exact hj.imp (fun h => ⟨c, h, .inl hc⟩)
        (.imp (.imp_right fun h => ⟨c, h, .inl hc⟩) (.imp_right fun h => ⟨c, h, .inl hc⟩))
    · exact hj.imp (fun h => ⟨c, h, .inr hc⟩)
        (.imp (.imp_right fun h => ⟨c, h, .inr hc⟩) (.imp_right fun h => ⟨c, h, .inr hc⟩))
  · rintro (⟨c, h, hc | hc⟩ | ⟨hd, c, h, hc | hc⟩ | ⟨hd, c, h, hc | hc⟩)
    · exact .inl ⟨c, hc, .inl h⟩
    · exact .inr ⟨c, hc, .inl h⟩
    · exact .inl ⟨c, hc, .inr (.inl ⟨hd, h⟩)⟩
    · exact .inr ⟨c, hc, .inr (.inl ⟨hd, h⟩)⟩
    · exact .inl ⟨c, hc, .inr (.inr ⟨hd, h⟩)⟩
    · exact .inr ⟨c, hc, .inr (.inr ⟨hd, h⟩)⟩

theorem compactFrom_cons (p : Place) (last : Option Char) {c : Char} (hc : c ≠ '\\') (t : Text) :
    compactFrom p.depth last (Text.markLiterals p.quote (c :: t)) =
      if c = ' ' ∧ p.quote = none ∧ (last.any (joins p.depth) || t.head?.any (joins p.depth)) = true then
        compactFrom (p.next c).depth last (Text.markLiterals (p.next c).quote t)
      else c :: compactFrom (p.next c).depth (some c) (Text.markLiterals (p.next c).quote t) := by
  cases hq : p.quote with
  | some q =>
    rw [if_neg (by simp), Text.markLiterals_some_cons (.inl hc), compactFrom, if_pos rfl,
      Place.next_of_some hq]
  | none =>
    rw [Text.markLiterals_none_cons, Place.next_of_none hq]
    cases hquote : isQuote c with
    | true =>
      have hne : c ≠ ' ' := by
        rintro rfl
        cases hquote
      simp only [compactFrom, hne, false_and, if_true, if_false]
    | false =>
      simp only [compactFrom, Bool.false_eq_true, if_false]
      by_cases hspace : c = ' '
      · subst hspace
        rw [if_pos rfl, ← List.head?_map, Text.map_fst_markLiterals]
        simp only [true_and]
        rfl
      · rw [if_neg hspace, if_neg fun h => hspace h.1]

theorem compactFrom_eq_without (hs : Collapsed (before ++ s)) (hplain : '\\' ∉ s)
    {last : Option Char} (hlast : s.head? = some ' ' → (Place.after before).quote = none →
      last = before.getLast?) :
    compactFrom (Place.after before).depth last (Text.markLiterals (Place.after before).quote s) =
      without (fun before after => decide (IsDropped before after)) before s := by
  -- Only at a space is `last` looked at. It is the character before it there, as a space that was
  -- dropped has no other behind it.
  induction s generalizing before last with
  | nil => cases (Place.after before).quote <;> rfl
  | cons c s ih =>
    rw [List.mem_cons, not_or] at hplain
    have hrest : Collapsed (before ++ [c] ++ s) := by simpa using hs
    have hnext := fun last => @ih (before ++ [c]) hrest hplain.2 last
    rw [Place.after_snoc, List.getLast?_concat] at hnext
    rw [compactFrom_cons _ _ (Ne.symm hplain.1), without]
    have hdrops : (c = ' ' ∧ (Place.after before).quote = none ∧
        (last.any (joins (Place.after before).depth) ||
          s.head?.any (joins (Place.after before).depth)) = true) ↔
        c = ' ' ∧ decide (IsDropped before s) = true := by
      refine and_congr_right fun hc => ?_
      rw [decide_eq_true_iff, IsDropped]
      refine and_congr_right fun hq => ?_
      rw [hlast (congrArg some hc) hq, any_joins_iff]
    by_cases hd : c = ' ' ∧ decide (IsDropped before s) = true
    · rw [if_pos (hdrops.2 hd), if_pos hd]
      obtain ⟨rfl, hd⟩ := hd
      obtain ⟨d, t, rfl, hne⟩ := hs.head_ne_blank (of_decide_eq_true hd).1
      exact hnext last fun hhead => absurd (Option.some.inj hhead) hne
    · rw [if_neg (mt hdrops.1 hd), if_neg hd, hnext (some c) fun _ _ => rfl]

theorem compact_eq_without (hs : Collapsed s) (hplain : '\\' ∉ s) :
    compact s = without (fun before after => decide (IsDropped before after)) [] s :=
  @compactFrom_eq_without [] s hs hplain none fun _ _ => rfl

section Places

variable {p q : Text → Text → Bool}

theorem without_congr (h : ∀ w after, s = w ++ ' ' :: after →
    p (before ++ w) after = q (before ++ w) after) : without p before s = without q before s := by
  induction s generalizing before with
  | nil => rfl
  | cons c s ih =>
    have hrest : without p (before ++ [c]) s = without q (before ++ [c]) s := by
      refine ih fun w after hw => ?_
      simpa using h (c :: w) after (by rw [hw, List.cons_append])
    rw [without, without, hrest]
    by_cases hc : c = ' '
    · subst hc
      have hhere : p before s = q before s := by
        simpa using h [] s rfl
      rw [hhere]
    · rw [if_neg fun h => hc h.1, if_neg fun h => hc h.1]

/-- Which spaces are missing can be seen from the text that is left. -/
theorem eq_of_without_eq (hs : Collapsed (before ++ s))
    (hp : ∀ before after, p before after = true → (Place.after before).quote = none)
    (hq : ∀ before after, q before after = true → (Place.after before).quote = none)
    (h : without p before s = without q before s) {w after : Text} (hw : s = w ++ ' ' :: after) :
    p (before ++ w) after = q (before ++ w) after := by
  -- Behind a space stands another character, so a text that lost it does not go on like one that
  -- kept it.
  have hclash : ∀ {before s : Text} {p q : Text → Text → Bool}, Collapsed (before ++ ' ' :: s) →
      (Place.after before).quote = none →
        without p (before ++ [' ']) s ≠ ' ' :: without q (before ++ [' ']) s := by
    intro before s p q hs hout heq
    obtain ⟨c, t, rfl, hc⟩ := hs.head_ne_blank hout
    rw [without, if_neg fun h => hc h.1] at heq
    exact hc (List.cons.inj heq).1
  induction s generalizing before w with
  | nil => simp at hw
  | cons c s ih =>
    have hrest : Collapsed (before ++ [c] ++ s) := by simpa using hs
    have hsame : (c = ' ' → p before s = q before s) ∧
        without p (before ++ [c]) s = without q (before ++ [c]) s := by
      rw [without, without] at h
      by_cases hc : c = ' '
      · subst hc
        cases hpb : p before s <;> cases hqb : q before s <;> simp only [hpb, hqb] at h ⊢
        · simpa using h
        · exact absurd (by simpa using h.symm) (hclash hs (hq _ _ hqb))
        · exact absurd (by simpa using h) (hclash hs (hp _ _ hpb))
        · simpa using h
      · rw [if_neg fun h => hc h.1, if_neg fun h => hc h.1] at h
        exact ⟨fun he => absurd he hc, (List.cons.inj h).2⟩
    cases w with
    | nil =>
      obtain ⟨rfl, rfl⟩ := List.cons.inj hw
      simpa using hsame.1 rfl
    | cons d w =>
      obtain ⟨rfl, htail⟩ := List.cons.inj hw
      simpa using ih hrest hsame.2 htail

end Places

/-- A selector is compacted by dropping spaces only, none of them a descendant combinator. -/
def KeepsCombinators (s : Text) : Prop :=
  ∃ p : Text → Text → Bool, (∀ before after, p before after = true → IsNeutral before after) ∧
    compact s = without p [] s

/-- In brackets, what follows a closing parenthesis after a space is a comma or closes another one,
and what precedes an opening parenthesis before a space is a comma or opens another one. -/
def SetsApart (s : Text) : Prop :=
  ∀ before after, s = before ++ ' ' :: after → (Place.after before).quote = none →
    (Place.after before).depth ≠ 0 →
      (before.getLast? = some ')' → after.head? = some ',' ∨ after.head? = some ')') ∧
      (after.head? = some '(' → before.getLast? = some ',' ∨ before.getLast? = some '(')

theorem setsApart_iff : SetsApart s ↔ ∀ before after, s = before ++ ' ' :: after →
    IsDropped before after → IsNeutral before after := by
  have comma : ∀ {before after : Text}, before.getLast? = some ',' ∨ after.head? = some ',' →
      Beside before after "," := fun h => ⟨',', List.mem_singleton_self _, h⟩
  constructor
  · rintro h before after hsplit ⟨hq, hd⟩
    refine ⟨hq, ?_⟩
    rcases hd with hcomma | hcombinator | ⟨hdepth, c, hc, hbeside⟩
    · exact .inl hcomma
    · exact .inr (.inl hcombinator)
    · obtain ⟨hclose, hopen⟩ := h before after hsplit hq hdepth
      obtain rfl | rfl : c = '(' ∨ c = ')' := by simpa using hc
      · rcases hbeside with hlast | hhead
        · exact .inr (.inr (.inl hlast))
        · exact (hopen hhead).elim (fun hlast => .inl (comma (.inl hlast)))
            fun hlast => .inr (.inr (.inl hlast))
      · rcases hbeside with hlast | hhead
        · exact (hclose hlast).elim (fun hhead => .inl (comma (.inr hhead)))
            fun hhead => .inr (.inr (.inr hhead))
        · exact .inr (.inr (.inr hhead))
  · intro h before after hsplit hq hdepth
    have hneutral : Beside before after "()" → Beside before after "," ∨
        before.getLast? = some '(' ∨ after.head? = some ')' := by
      intro hbeside
      have hn := h before after hsplit ⟨hq, .inr (.inr ⟨hdepth, hbeside⟩)⟩
      exact hn.2.imp_right fun hn => hn.resolve_left fun h0 => hdepth h0.1
    refine ⟨fun hlast => ?_, fun hhead => ?_⟩
    · have hn := hneutral ⟨')', by simp, .inl hlast⟩
      simpa [Beside, hlast] using hn
    · have hn := hneutral ⟨'(', by simp, .inr hhead⟩
      simpa [Beside, hhead] using hn

theorem keepsCombinators_iff (hs : Collapsed s) (hplain : '\\' ∉ s) :
    KeepsCombinators s ↔ SetsApart s := by
  have hdropped : ∀ before after, decide (IsDropped before after) = true →
      (Place.after before).quote = none := fun _ _ h => (of_decide_eq_true h).1
  rw [setsApart_iff]
  constructor
  · rintro ⟨p, hp, heq⟩ before after hsplit hd
    rw [compact_eq_without hs hplain] at heq
    have hsame := @eq_of_without_eq [] s _ p hs hdropped (fun _ _ h => (hp _ _ h).1) heq _ _ hsplit
    exact hp _ _ (hsame ▸ decide_eq_true hd)
  · intro h
    refine ⟨fun before after => decide (IsDropped before after) && decide (IsNeutral before after),
      fun _ _ hp => of_decide_eq_true (Bool.and_eq_true_iff.1 hp).2, ?_⟩
    rw [compact_eq_without hs hplain]
    refine without_congr fun before after hsplit => ?_
    by_cases hd : IsDropped before after
    · simp [hd, h before after hsplit hd]
    · simp [hd]

/-- Exactly the spaces that have a separator beside them are dropped, and none of them is a
descendant combinator exactly if parentheses in brackets are set apart by commas. -/
theorem compact_collapsed (hs : Collapsed s) (hplain : '\\' ∉ s) :
    compact s = without (fun before after => decide (IsDropped before after)) [] s ∧
      (KeepsCombinators s ↔ SetsApart s) :=
  ⟨compact_eq_without hs hplain, keepsCombinators_iff hs hplain⟩

/-- A functional pseudo-class with a list in brackets, a literal and combinators. -/
theorem compact_collapsed_listInBrackets :
    let s : Text := "a > :is( b + c , :not(d) , [e=\" > \"] ) f"
    Collapsed s ∧ '\\' ∉ s ∧ compact s = "a>:is(b + c,:not(d),[e=\" > \"]) f" ∧
      compact s = without (fun before after => decide (IsDropped before after)) [] s ∧
      KeepsCombinators s ∧ SetsApart s := by
  intro s
  have hs : Collapsed s := by decide +kernel
  have hplain : '\\' ∉ s := by decide
  have hkeeps : KeepsCombinators s :=
    ⟨fun before after => decide (IsNeutral before after), fun _ _ => of_decide_eq_true,
      by decide +kernel⟩
  obtain ⟨hcompact, hiff⟩ := compact_collapsed hs hplain
  exact ⟨hs, hplain, by decide +kernel, hcompact, hkeeps, hiff.1 hkeeps⟩

/-- A descendant combinator behind a closing parenthesis is lost in brackets. -/
theorem compact_joins_descendants :
    let s : Text := ":is(:not(a) b)"
    Collapsed s ∧ '\\' ∉ s ∧ compact s = ":is(:not(a)b)" ∧ ¬ KeepsCombinators s := by
  intro s
  have hs : Collapsed s := by decide +kernel
  have hplain : '\\' ∉ s := by decide
  refine ⟨hs, hplain, by decide +kernel, fun h => ?_⟩
  have hapart := (keepsCombinators_iff hs hplain).1 h ":is(:not(a)" "b)" rfl
    (by decide +kernel) (by decide +kernel)
  exact absurd (hapart.1 rfl) (by decide)

end Stylesmith.Selector
