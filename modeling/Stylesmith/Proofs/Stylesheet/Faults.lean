import Stylesmith.Proofs.Stylesheet.Mass

set_option autoImplicit false

namespace Stylesmith

open Lexeme (isQuote)

def SyntaxError.Cause.Fits (c : Char) : SyntaxError.Cause → Prop
  | unclosedBlock => c = '{'
  | unclosedLiteral => isQuote c = true
  | unclosedComment => c = '/'
  | unclosedBracket => c = '(' ∨ c = '['
  | unexpectedBrace => c = '}'
  | missingName => c = '@'
  | unknownWord | missingSelector | missingProperty => True
  | other _ => False

/-- The fault is marked at a character of `t` that is no blank and fits the cause. -/
def Fault.MarkedIn (f : Fault) (t : Text) : Prop :=
  f.mark <:+ t ∧ ∃ c rest, f.mark = c :: rest ∧ Text.isBlank c = false ∧ f.cause.Fits c

theorem Fault.MarkedIn.of_suffix {f : Fault} {t u : Text} (h : f.MarkedIn t) (hu : t <:+ u) :
    f.MarkedIn u :=
  ⟨h.1.trans hu, h.2⟩

theorem markedIn_self (cause : SyntaxError.Cause) {c : Char} {t : Text}
    (hblank : Text.isBlank c = false) (h : cause.Fits c) :
    (⟨cause, c :: t⟩ : Fault).MarkedIn (c :: t) :=
  ⟨List.suffix_refl _, c, t, rfl, hblank, h⟩

namespace Scan

theorem not_isBlank_of_isQuote {c : Char} (h : isQuote c = true) : Text.isBlank c = false := by
  rcases Lexeme.isQuote_iff.1 h with rfl | rfl <;> rfl

theorem isQuote_of_first {c quote : Char} {t body rest : Text} {closed : Bool}
    (h : Lexeme.first c t = (.literal quote body closed, rest)) : isQuote c = true := by
  unfold Lexeme.first at h
  split at h
  · assumption
  · split at h
    · split at h <;> cases h
    · split at h
      · split at h <;> cases h
      · cases h

theorem eq_slash_of_first {c : Char} {t body rest : Text} {closed : Bool}
    (h : Lexeme.first c t = (.comment body closed, rest)) : c = '/' := by
  unfold Lexeme.first at h
  split at h
  · split at h <;> cases h
  · split at h
    · split at h <;> cases h
    · split at h
      · rename_i hc
        exact hc.1
      · cases h

theorem markedIn_of_read {s : State} {c : Char} {t : Text} {f : Fault} (h : s.read c t = .error f) :
    f.MarkedIn (c :: t) := by
  unfold State.read at h
  split at h
  · rename_i hopens
    split at h
    · cases h
      obtain ⟨_, u, r, l, rest, he, _⟩ := opensReference_iff.1 hopens
      cases he
      exact (markedIn_self .unclosedBracket rfl (Or.inl rfl)).of_suffix ⟨[c, r, l], rfl⟩
    · cases h
  · split at h <;> rename_i hfirst
    · cases h
    · cases h
      have hquote := isQuote_of_first hfirst
      exact markedIn_self .unclosedLiteral (not_isBlank_of_isQuote hquote) hquote
    · cases h
    · cases h
      obtain rfl := eq_slash_of_first hfirst
      exact markedIn_self .unclosedComment rfl rfl
    · cases h
    · split_ifs at h

def BracketsIn (b : List (Char × Text)) (t : Text) : Prop :=
  ∀ p ∈ b, (⟨.unclosedBracket, p.2⟩ : Fault).MarkedIn t

theorem bracketsIn_closeBracket {c : Char} {b : List (Char × Text)} {t : Text}
    (h : BracketsIn b t) : BracketsIn (closeBracket c b) t := by
  unfold closeBracket
  split
  · exact h
  · split
    · exact fun q hq => h q (List.mem_cons_of_mem _ hq)
    · exact h

theorem bracketsIn_past {s : State} {c : Char} {t u : Text} {l : Lexeme} (ht : c :: t <:+ u)
    (hl : ∀ d, l = .plain d → d = c) (h : BracketsIn s.brackets u) :
    BracketsIn (s.past (c :: t) l).brackets u := by
  have opened : ∀ closer, c = '(' ∨ c = '[' →
      BracketsIn ((closer, c :: t) :: s.brackets) u := by
    intro closer hc p hp
    rcases List.mem_cons.1 hp with rfl | hp
    · refine (markedIn_self .unclosedBracket ?_ hc).of_suffix ht
      rcases hc with rfl | rfl <;> rfl
    · exact h p hp
  cases l with
  | literal | comment | escape => exact h
  | plain d =>
    obtain rfl := hl d rfl
    simp only [State.past]
    split_ifs with ho hb hc
    · exact opened _ (.inl ho)
    · exact opened _ (.inr hb)
    · exact bracketsIn_closeBracket h
    · exact h

theorem bracketsIn_of_passes {s s' : State} {c : Char} {t rest u : Text} (ht : c :: t <:+ u)
    (hs : BracketsIn s.brackets u) (h : Passes s c t s' rest) : BracketsIn s'.brackets u := by
  cases h with
  | reference => exact hs
  | lexeme _ hstarts _ =>
    refine bracketsIn_past ht ?_ hs
    rintro d rfl
    exact (Lexeme.eq_of_starts_plain hstarts).1

/-- A scan fails at a character of the text, or at a bracket that was open before. -/
theorem markedIn_of_toStop {s : State} {t u : Text} {f : Fault} (ht : t <:+ u)
    (hs : BracketsIn s.brackets u) (h : toStop s t = .error f) : f.MarkedIn u := by
  fun_induction toStop s t with
  | case1 => cases h
  | case2 s closer mark b hb =>
    cases h
    exact hs (closer, mark) (hb ▸ List.mem_cons_self)
  | case3 => cases h
  | case4 _ _ _ _ _ hread =>
    cases h
    exact (markedIn_of_read hread).of_suffix ht
  | case5 _ _ _ _ _ _ hread _ ih =>
    have hpasses := passes_of_read hread
    refine ih ?_ (bracketsIn_of_passes ht hs hpasses) h
    exact ((suffix_of_passes hpasses).trans (List.suffix_cons _ _)).trans ht

end Scan

namespace Reader

structure StandsIn (r : Reader) (t : Text) : Prop where
  rest : r.rest <:+ t
  blocks : ∀ b ∈ r.blocks, (⟨.unclosedBlock, b.brace⟩ : Fault).MarkedIn t

/-- Without brackets open before, a scan fails at a character of its text. -/
theorem markedIn_of_scan {a : Bool} {t : Text} {f : Fault} (h : Scan.toStop ⟨a, []⟩ t = .error f) :
    f.MarkedIn t :=
  Scan.markedIn_of_toStop (List.suffix_refl t) (fun _ hp => absurd hp List.not_mem_nil) h

variable {r r' : Reader} {c : Char} {t : Text} {f : Fault}

theorem declaration_error {start raw : Text} (h : declaration start raw = .error f) :
    f = ⟨.unknownWord, start⟩ ∨ f = ⟨.missingProperty, start⟩ := by
  unfold declaration at h
  split at h
  · cases h
    exact .inl rfl
  · simp only at h
    split_ifs at h <;> cases h
    · exact .inr rfl
    · exact .inl rfl

theorem markedIn_of_atRule (h : r.atRule ('@' :: t) = .error f) : f.MarkedIn ('@' :: t) := by
  unfold atRule at h
  split at h
  · cases h
    exact markedIn_self .missingName rfl rfl
  · rename_i name after _ hname
    split at h
    · rename_i hscan
      cases h
      obtain rfl := spanName_append hname
      exact (markedIn_of_scan hscan).of_suffix ⟨'@' :: name, rfl⟩
    · cases h

theorem markedIn_of_item (hblank : Text.isBlank c = false) (h : r.item (c :: t) = .error f) :
    f.MarkedIn (c :: t) := by
  unfold item at h
  split at h
  · rename_i hscan
    cases h
    exact markedIn_of_scan hscan
  · rename_i stop hscan
    split at h
    · unfold enterRule at h
      split at h <;> cases h
      exact markedIn_self .missingSelector hblank trivial
    · unfold addDeclaration at h
      split at h
      · split at h
        · rename_i hbrace
          obtain ⟨after, rfl⟩ := List.head?_eq_some_iff.1 hbrace
          cases h
          exact (markedIn_self .unexpectedBrace rfl rfl).of_suffix (Scan.suffix_of_toStop hscan)
        · cases h
          exact markedIn_self .unknownWord hblank trivial
      · split at h
        · rename_i hdeclaration
          cases h
          rcases declaration_error hdeclaration with rfl | rfl
          · exact markedIn_self .unknownWord hblank trivial
          · exact markedIn_self .missingProperty hblank trivial
        · cases h

theorem markedIn_of_read (hblank : Text.isBlank c = false) (h : r.read c t = .error f) :
    f.MarkedIn (c :: t) := by
  unfold read at h
  split_ifs at h with hclose hsemi hcomment hat
  · subst hclose
    unfold close at h
    split at h <;> cases h
    exact markedIn_self .unexpectedBrace rfl rfl
  · obtain ⟨rfl, _⟩ := hcomment
    unfold comment at h
    split at h <;> cases h
    exact markedIn_self .unclosedComment rfl rfl
  · subst hat
    exact markedIn_of_atRule h
  · exact markedIn_of_item hblank h

theorem standsIn_skipBlanks (h : r.StandsIn t) : r.skipBlanks.StandsIn t :=
  ⟨(List.dropWhile_suffix _).trans h.rest, h.blocks⟩

theorem standsIn_push {n : Node Text} {rest : Text} (h : r.StandsIn t) (hrest : rest <:+ t) :
    (r.push n rest).StandsIn t :=
  ⟨hrest, h.blocks⟩

theorem standsIn_enter {header : Header} {start body : Text} (h : r.StandsIn t)
    (hbrace : '{' :: body <:+ t) : (r.enter header start ('{' :: body) body).StandsIn t := by
  refine ⟨(List.suffix_cons '{' body).trans hbrace, fun b hb => ?_⟩
  rcases List.mem_cons.1 hb with rfl | hb
  · exact (markedIn_self .unclosedBlock rfl rfl).of_suffix hbrace
  · exact h.blocks b hb

theorem standsIn_of_atRule {u : Text} (h : r.StandsIn u) (ht : '@' :: t <:+ u)
    (hr : r.atRule ('@' :: t) = .ok r') : r'.StandsIn u := by
  unfold atRule at hr
  split at hr
  · cases hr
  · rename_i name after _ hname
    split at hr
    · cases hr
    · rename_i stop hscan
      cases hr
      obtain rfl := spanName_append hname
      have hafter : after <:+ '@' :: (name ++ after) := ⟨'@' :: name, rfl⟩
      have hstop := ((Scan.suffix_of_toStop hscan).trans hafter).trans ht
      unfold addAtRule
      split
      · exact standsIn_enter h hstop
      · exact standsIn_push h ((List.suffix_cons _ _).trans hstop)
      · exact standsIn_push h hstop

theorem standsIn_of_item {u : Text} (h : r.StandsIn u) (ht : c :: t <:+ u)
    (hr : r.item (c :: t) = .ok r') : r'.StandsIn u := by
  unfold item at hr
  split at hr
  · cases hr
  · rename_i stop hscan
    have hstop := (Scan.suffix_of_toStop hscan).trans ht
    split at hr
    · rename_i hopen
      obtain ⟨body, rfl⟩ := List.head?_eq_some_iff.1 hopen
      unfold enterRule at hr
      split at hr <;> cases hr
      exact standsIn_enter h hstop
    · unfold addDeclaration at hr
      split at hr
      · split at hr <;> cases hr
      · split at hr <;> cases hr
        exact standsIn_push h hstop

theorem standsIn_of_read {u : Text} (h : r.StandsIn u) (ht : c :: t <:+ u)
    (hr : r.read c t = .ok r') : r'.StandsIn u := by
  have htail := (List.suffix_cons c t).trans ht
  unfold read at hr
  split_ifs at hr with hclose hsemi hcomment hat
  · unfold close at hr
    split at hr <;> cases hr
    rename_i b blocks hblocks
    exact ⟨htail, fun d hd => h.blocks d (hblocks ▸ List.mem_cons_of_mem b hd)⟩
  · cases hr
    exact ⟨htail, h.blocks⟩
  · unfold comment at hr
    split at hr <;> cases hr
    rename_i body rest hspan
    obtain ⟨_, htext⟩ := Lexeme.spanComment_eq_some_iff.1 hspan
    have hrest : rest <:+ List.drop 2 (c :: t) := htext ▸ ⟨body ++ ['*', '/'], by simp⟩
    exact standsIn_push h ((hrest.trans (List.drop_suffix 2 _)).trans ht)
  · subst hat
    exact standsIn_of_atRule h ht hr
  · cases hr
    exact ⟨(List.drop_suffix 3 t).trans htail, h.blocks⟩
  · cases hr
    exact ⟨(List.drop_suffix 2 t).trans htail, h.blocks⟩
  · exact standsIn_of_item h ht hr

/-- A step fails at a character of the text, or at the brace of an open block. -/
theorem markedIn_of_step {u : Text} (hr : r.StandsIn u) (h : r.step = .error f) : f.MarkedIn u := by
  have hskip := standsIn_skipBlanks hr
  unfold step at h
  simp only at h
  split at h
  · split at h <;> cases h
    rename_i b _ hblocks
    exact hskip.blocks b (hblocks ▸ List.mem_cons_self)
  · rename_i c t hrest
    have hblank := blank_skipBlanks hrest
    cases hread : r.skipBlanks.read c t with
    | ok r' =>
      rw [hread] at h
      cases h
    | error g =>
      rw [hread] at h
      cases h
      exact (markedIn_of_read hblank hread).of_suffix (hrest ▸ hskip.rest)

theorem standsIn_of_step {u : Text} (hr : r.StandsIn u) (h : r.step = .ok (some r')) :
    r'.StandsIn u := by
  have hskip := standsIn_skipBlanks hr
  unfold step at h
  simp only at h
  split at h
  · split at h <;> cases h
  · rename_i c t hrest
    cases hread : r.skipBlanks.read c t with
    | error g =>
      rw [hread] at h
      cases h
    | ok r'' =>
      rw [hread] at h
      cases h
      exact standsIn_of_read hskip (hrest ▸ hskip.rest) hread

theorem markedIn_of_run {u : Text} (hr : r.StandsIn u) (h : r.run = .error f) : f.MarkedIn u := by
  fun_induction run r with
  | case1 r g hstep =>
    cases h
    exact markedIn_of_step hr hstep
  | case2 => cases h
  | case3 r r' hstep _ ih => exact ih (standsIn_of_step hr hstep) h

end Reader

/-- What is no style sheet has its fault at a character of the text. -/
theorem Stylesheet.markedIn_of_nodes {t : Text} {f : Fault} (h : nodes t = .error f) :
    f.MarkedIn t :=
  Reader.markedIn_of_run ⟨List.suffix_refl t, fun _ hb => absurd hb List.not_mem_nil⟩ h

end Stylesmith
