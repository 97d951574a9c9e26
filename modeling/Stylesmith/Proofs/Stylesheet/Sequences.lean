import Stylesmith.Proofs.Stylesheet.Locations
import Stylesmith.Proofs.Stylesheet.Subnodes

set_option autoImplicit false

namespace Stylesmith

open Scan (AtStop atStop_cons Alike)

theorem getLast?_of_suffix {α : Type} {c : α} {t u : List α} (h : u <:+ t)
    (ht : t.getLast? ≠ some c) : u.getLast? ≠ some c := by
  obtain ⟨p, rfl⟩ := h
  cases u with
  | nil => exact fun hc => absurd hc.symm (by simp)
  | cons d u => rwa [List.getLast?_append_of_ne_nil _ (List.cons_ne_nil d u)] at ht

namespace Scan

theorem opensReference_extend {afterIdent : Bool} {t k : Text} (hk : AtStop k) :
    opensReference afterIdent (t ++ k) = opensReference afterIdent t := by
  have hquote : ∀ rest : Text, (Text.skipBlanks (rest ++ k)).head?.any Lexeme.isQuote =
      (Text.skipBlanks rest).head?.any Lexeme.isQuote := by
    intro rest
    induction rest with
    | nil =>
      obtain ⟨c, k, rfl, hc⟩ := hk
      rcases isStop_iff.1 hc with rfl | rfl | rfl <;> rfl
    | cons c rest ih =>
      by_cases hc : Text.isBlank c = true
      · simpa [Text.skipBlanks, hc] using ih
      · simp [Text.skipBlanks, hc]
  rw [Bool.eq_iff_iff, opensReference_iff, opensReference_iff]
  constructor
  · rintro ⟨ha, u, r, l, rest, ht, hu, hr, hl, hq⟩
    obtain ⟨rest, rfl, rfl⟩ := name_append_atStop hk ht hu hr hl
    exact ⟨ha, u, r, l, rest, rfl, hu, hr, hl, by rwa [hquote] at hq⟩
  · rintro ⟨ha, u, r, l, rest, rfl, hu, hr, hl, hq⟩
    exact ⟨ha, u, r, l, rest ++ k, rfl, hu, hr, hl, by rwa [hquote]⟩

theorem starts_extend {c : Char} {t rest k : Text} {l : Lexeme} (hk : AtStop k)
    (h : Lexeme.Starts c t l rest) (hl : l.closed = true) :
    Lexeme.Starts c (t ++ k) l (rest ++ k) := by
  cases h with
  | literal _ hq hb => simpa using Lexeme.Starts.literal (rest ++ k) hq hb
  | escape d => exact .escape d _
  | comment _ hb => simpa using Lexeme.Starts.comment (rest ++ k) hb
  | plain hq hb hc =>
    refine .plain hq hb fun hslash => ?_
    cases t with
    | nil =>
      obtain ⟨d, k, rfl, hd⟩ := hk
      intro hstar
      obtain rfl : d = '*' := Option.some.inj hstar
      cases hd
    | cons d t => exact hc hslash
  | unclosed _ hopen => rw [hopen] at hl; cases hl

theorem passes_extend {s₁ s₂ s₁' : State} {c : Char} {t rest k : Text} (hk : AtStop k)
    (hend : (c :: t).getLast? ≠ some '\\') (hs : Alike s₁ s₂) (h : Passes s₁ c t s₁' rest) :
    ∃ s₂', Alike s₁' s₂' ∧ Passes s₂ c (t ++ k) s₂' (rest ++ k) := by
  have hopens : opensReference s₂.afterIdent (c :: (t ++ k)) =
      opensReference s₁.afterIdent (c :: t) := by
    rw [← hs.1]
    exact opensReference_extend (t := c :: t) hk
  cases h with
  | reference ho ha =>
    obtain ⟨_, u, r, l, after, he, _⟩ := opensReference_iff.1 ho
    cases he
    obtain ⟨body, hbody, hafter⟩ := afterReference_eq_some_iff.1 ha
    refine ⟨⟨false, s₂.brackets⟩, ⟨rfl, hs.2⟩, .reference (hopens.trans ho) ?_⟩
    refine afterReference_eq_some_iff.2 ⟨body, hbody, ?_⟩
    simp only [List.drop_succ_cons, List.drop_zero] at hafter
    simp [hafter]
  | @lexeme l _ ho hstarts hclosed =>
    rcases hclosed with hclosed | rfl
    · exact ⟨_, past_alike hs _ _ l,
        .lexeme (hopens.trans ho) (starts_extend hk hstarts hclosed) (.inl hclosed)⟩
    · -- An escape without a character can only end the text.
      have hfirst := Lexeme.first_text c t
      rw [Lexeme.first_eq_of_starts hstarts] at hfirst
      cases hstarts with
      | unclosed =>
        simp only [Lexeme.text, List.append_nil] at hfirst
        rw [← hfirst] at hend
        exact absurd rfl hend

theorem toStop_extend {s₁ s₂ : State} {t stop k : Text} (hk : AtStop k)
    (hend : t.getLast? ≠ some '\\') (hs : Alike s₁ s₂) (h : toStop s₁ t = .ok stop) :
    toStop s₂ (t ++ k) = .ok (stop ++ k) := by
  have done : ∀ {s₁ s₂ : State}, Alike s₁ s₂ → s₁.brackets.isEmpty = true → s₂.brackets = [] := by
    intro s₁ s₂ hs hempty
    rwa [hs.isEmpty_eq, List.isEmpty_iff] at hempty
  fun_induction toStop s₁ t generalizing s₂ with
  | case1 s₁ hb =>
    cases h
    exact toStop_of_isStop (done hs (List.isEmpty_iff.2 hb)) hk
  | case2 => cases h
  | case3 s₁ c t hc =>
    cases h
    rw [Bool.and_eq_true] at hc
    exact toStop_of_isStop (done hs hc.1) (atStop_cons.2 hc.2)
  | case4 => cases h
  | case5 s₁ c t hc s₁' rest hread _ ih =>
    have hpasses := passes_of_read hread
    obtain ⟨s₂', hs', hpasses'⟩ := passes_extend hk hend hs hpasses
    have hc' : (s₂.brackets.isEmpty && isStop c) = false := by
      rw [← hs.isEmpty_eq]
      simpa using hc
    rw [List.cons_append, toStop_of_passes hc' hpasses']
    exact ih (getLast?_of_suffix ((suffix_of_passes hpasses).trans (List.suffix_cons c t)) hend) hs' h

end Scan

theorem spanComment_extend {t body rest : Text}
    (h : Lexeme.spanComment t = (body, some rest)) (k : Text) :
    Lexeme.spanComment (t ++ k) = (body, some (rest ++ k)) := by
  obtain ⟨hbody, rfl⟩ := Lexeme.spanComment_eq_some_iff.1 h
  simpa using Lexeme.spanComment_of_not_infix hbody (rest ++ k)

theorem endsName_of_atStop {k : Text} (hk : AtStop k) : EndsName k := by
  obtain ⟨c, k, rfl, hc⟩ := hk
  rcases Scan.isStop_iff.1 hc with rfl | rfl | rfl <;> exact endsName_cons.2 (by decide)

theorem spanName_extend {t name rest k : Text} (hk : EndsName k) (hend : t.getLast? ≠ some '\\')
    (h : Text.spanName t = (name, rest)) : Text.spanName (t ++ k) = (name, rest ++ k) := by
  fun_induction Text.spanName t generalizing name with
  | case1 =>
    cases h
    obtain ⟨c, k, rfl, hc, hb⟩ := hk
    rw [List.nil_append, Text.spanName, if_neg (by simp [hc, hb])]
    exact fun _ _ he => absurd he hb
  | case2 c t n r hs ih =>
    cases h
    have hrest := getLast?_of_suffix (u := t) ⟨['\\', c], rfl⟩ hend
    rw [List.cons_append, List.cons_append, Text.spanName, ih hrest hs]
  | case3 c t hne hc n r hs ih =>
    cases h
    have hrest := getLast?_of_suffix (List.suffix_cons c t) hend
    rw [List.cons_append, Text.spanName, if_pos hc, ih hrest hs]
    rintro d u rfl he
    cases t with
    | nil => exact hend rfl
    | cons e t => exact hne e t rfl rfl
  | case4 c t hne hc =>
    cases h
    rw [List.cons_append, Text.spanName, if_neg hc]
    exact fun _ _ he => absurd (.inl he) hc

theorem suffixes_of_header {s : Scan.State} {t name after stop : Text}
    (hname : Text.spanName t = (name, after)) (hstop : Scan.toStop s after = .ok stop) :
    after <:+ '@' :: t ∧ stop <:+ after := by
  obtain rfl := spanName_append hname
  exact ⟨⟨'@' :: name, rfl⟩, Scan.suffix_of_toStop hstop⟩

theorem before_extend {start stop : Text} (h : stop <:+ start) (k : Text) :
    Text.before (start ++ k) (stop ++ k) = Text.before start stop := by
  obtain ⟨raw, rfl⟩ := h
  rw [List.append_assoc, Text.before_append, Text.before_append]

/-- The text holds none of the marks that are passed over outside all blocks only. -/
def Markless (t : Text) : Prop := ¬ ("<!--" : Text) <:+: t ∧ ¬ ("-->" : Text) <:+: t

/-- Whether what `t` spells, outside all blocks if `top` says so, may also be read where `outside`
says so: inside a block there must be no marks. -/
def ReadsAlso (outside top : Bool) (t : Text) : Prop :=
  outside = top ∨ outside = false ∧ Markless t

theorem ReadsAlso.of_suffix {outside top : Bool} {t u : Text} (h : ReadsAlso outside top t)
    (hu : u <:+ t) : ReadsAlso outside top u := by
  rcases h with h | ⟨h, hopen, hclose⟩
  · exact .inl h
  · exact .inr ⟨h, fun hi => hopen (hi.trans hu.isInfix), fun hi => hclose (hi.trans hu.isInfix)⟩

theorem ReadsAlso.startsItem {outside top : Bool} {t u : Text} (h : ReadsAlso outside top u)
    (hs : StartsItem top t) : StartsItem outside t := by
  rcases h with rfl | ⟨rfl, _⟩
  · exact hs
  · obtain ⟨c, t, rfl, hblank, hclose, hsemi, hat, hcomment, _⟩ := hs
    exact ⟨c, t, rfl, hblank, hclose, hsemi, hat, hcomment, fun hf => absurd hf Bool.false_ne_true⟩

theorem skips_extend {outside top a a' : Bool} {t t' : Text} (h : Skips top a t a' t')
    (hr : ReadsAlso outside top t) (k : Text) : Skips outside a (t ++ k) a' (t' ++ k) := by
  cases h with
  | blank _ _ hc => exact .blank _ _ hc
  | semicolon => exact .semicolon _ _
  | openMark _ _ htop =>
    rcases hr with rfl | ⟨_, hopen, _⟩
    · exact .openMark _ _ htop
    · exact absurd (List.prefix_append ("<!--" : Text) t').isInfix hopen
  | closeMark _ _ htop =>
    rcases hr with rfl | ⟨_, _, hclose⟩
    · exact .closeMark _ _ htop
    · exact absurd (List.prefix_append ("-->" : Text) t').isInfix hclose

namespace Reader

variable {bs : List OpenBlock} {nodes : List (Node Text)}

theorem declaration_extend {start raw : Text} {n : Node Text} (h : declaration start raw = .ok n)
    (k : Text) : declaration (start ++ k) raw = .ok (n.mapOrigin (· ++ k)) := by
  obtain ⟨name, rawValue, property, value, important, hcut, hname, hne, hspace, hvalue, rfl⟩ :=
    declaration_eq_ok_iff.1 h
  exact declaration_eq_ok_iff.2
    ⟨name, rawValue, property, value, important, hcut, hname, hne, hspace, hvalue, rfl⟩

theorem suffixes_of_block {s : Scan.State} {top a : Bool} {after body close : Text}
    {children : List (Node Text)} (hstop : Scan.toStop s after = .ok ('{' :: body))
    (h : Spells top a body children ('}' :: close)) : body <:+ after ∧ close <:+ body :=
  ⟨(List.suffix_cons '{' body).trans (Scan.suffix_of_toStop hstop),
    (List.suffix_cons '}' close).trans (suffix_of_spells h)⟩

section Extend

variable {a : Bool} {t name after stop start body k : Text}

theorem header_extend (hk : AtStop k) (hend : ('@' :: t).getLast? ≠ some '\\')
    (hname : Text.spanName t = (name, after)) (hstop : Scan.toStop ⟨false, []⟩ after = .ok stop) :
    Text.spanName (t ++ k) = (name, after ++ k) ∧
      Scan.toStop ⟨false, []⟩ (after ++ k) = .ok (stop ++ k) ∧
      Text.before (after ++ k) (stop ++ k) = Text.before after stop := by
  obtain ⟨hafter, hsuffix⟩ := suffixes_of_header hname hstop
  have htail := getLast?_of_suffix (List.suffix_cons '@' t) hend
  exact ⟨spanName_extend (endsName_of_atStop hk) htail hname,
    Scan.toStop_extend hk (getLast?_of_suffix hafter hend) (.refl _) hstop,
    before_extend hsuffix k⟩

theorem run_statement_extend (hk : AtStop k) (hend : ('@' :: t).getLast? ≠ some '\\')
    (hname : Text.spanName t = (name, after)) (hne : name ≠ [])
    (hstop : Scan.toStop ⟨false, []⟩ after = .ok stop) (hopen : (stop ++ k).head? ≠ some '{') :
    run ⟨bs, nodes, a, '@' :: (t ++ k)⟩ = run ⟨bs, .statement (Text.lowerAscii name)
      (Text.collapseSpaced (after.before stop)) ('@' :: (t ++ k)) :: nodes, false, stop ++ k⟩ := by
  obtain ⟨hname', hstop', hprelude⟩ := header_extend hk hend hname hstop
  rw [run_statement hname' hne hstop' hopen, hprelude]

theorem run_group_extend (hk : AtStop k) (hend : ('@' :: t).getLast? ≠ some '\\')
    (hname : Text.spanName t = (name, after)) (hne : name ≠ [])
    (hstop : Scan.toStop ⟨false, []⟩ after = .ok ('{' :: body)) :
    run ⟨bs, nodes, a, '@' :: (t ++ k)⟩ = run ⟨⟨.group (Text.lowerAscii name)
      (Text.collapseSpaced (after.before ('{' :: body))), '@' :: (t ++ k), '{' :: (body ++ k),
        nodes⟩ :: bs, [], false, body ++ k⟩ := by
  obtain ⟨hname', hstop', hprelude⟩ := header_extend hk hend hname hstop
  rw [List.cons_append] at hstop' hprelude
  rw [run_group hname' hne hstop', hprelude]

theorem run_rule_extend (hk : AtStop k) (hend : start.getLast? ≠ some '\\')
    (hstart : StartsItem bs.isEmpty start) (hstop : Scan.toStop ⟨a, []⟩ start = .ok ('{' :: body))
    (hsel : selectors (start.before ('{' :: body)) ≠ []) :
    run ⟨bs, nodes, a, start ++ k⟩ = run ⟨⟨.rule (selectors (start.before ('{' :: body))),
      start ++ k, '{' :: (body ++ k), nodes⟩ :: bs, [], false, body ++ k⟩ := by
  have hstop' : Scan.toStop ⟨a, []⟩ (start ++ k) = .ok ('{' :: (body ++ k)) :=
    Scan.toStop_extend hk hend (.refl _) hstop
  have hselector : Text.before (start ++ k) ('{' :: (body ++ k)) =
      Text.before start ('{' :: body) := before_extend (Scan.suffix_of_toStop hstop) k
  rw [run_rule (startsItem_append hk hstart) hstop' (by rwa [hselector]), hselector]

theorem run_declaration_extend {b : OpenBlock} {n : Node Text} (hk : AtStop k)
    (hend : start.getLast? ≠ some '\\') (hstart : StartsItem false start)
    (hstop : Scan.toStop ⟨a, []⟩ start = .ok stop) (hopen : (stop ++ k).head? ≠ some '{')
    (hn : declaration start (start.before stop) = .ok n) :
    run ⟨b :: bs, nodes, a, start ++ k⟩ =
      run ⟨b :: bs, n.mapOrigin (· ++ k) :: nodes, false, stop ++ k⟩ := by
  have hn' := declaration_extend hn k
  rw [← before_extend (Scan.suffix_of_toStop hstop) k] at hn'
  exact run_declaration (startsItem_append hk hstart) (Scan.toStop_extend hk hend (.refl _) hstop)
    hopen hn'

end Extend

/-- What a text spells is read also where a stop and more follow, and inside other blocks. -/
theorem run_extend {top a : Bool} {t rest k : Text} {ns : List (Node Text)}
    (h : Spells top a t ns rest) (hend : t.getLast? ≠ some '\\')
    (hb : ReadsAlso bs.isEmpty top t) (hk : AtStop k) (hbrace : k.head? ≠ some '{') :
    ∃ a', run ⟨bs, nodes, a, t ++ k⟩ =
      run ⟨bs, (Node.mapOrigins (· ++ k) ns).reverse ++ nodes, a', rest ++ k⟩ := by
  have hopen : ∀ {stop : Text}, stop.head? ≠ some '{' → (stop ++ k).head? ≠ some '{' := by
    intro stop hstop
    cases stop with
    | nil => exact hbrace
    | cons c stop => exact hstop
  induction h generalizing bs nodes with
  | endOfText => exact ⟨_, rfl⟩
  | endOfBlock => exact ⟨_, rfl⟩
  | skip hs _ ih =>
    rw [run_skip (skips_extend hs hb _)]
    exact ih (getLast?_of_suffix (suffix_of_skips hs) hend) (hb.of_suffix (suffix_of_skips hs))
  | @comment _ _ t body after _ _ hspan _ ih =>
    obtain ⟨_, ht⟩ := Lexeme.spanComment_eq_some_iff.1 hspan
    have hafter : after <:+ '/' :: '*' :: t := ⟨'/' :: '*' :: (body ++ ['*', '/']), by simp [ht]⟩
    rw [List.cons_append, List.cons_append, run_comment (spanComment_extend hspan _)]
    exact exists_run_cons (ih (getLast?_of_suffix hafter hend) (hb.of_suffix hafter))
  | statement hspan hne hstop hhead _ ih =>
    obtain ⟨hafter, hsuffix⟩ := suffixes_of_header hspan hstop
    have hrest := hsuffix.trans hafter
    rw [List.cons_append, run_statement_extend hk hend hspan hne hstop (hopen hhead)]
    exact exists_run_cons (ih (getLast?_of_suffix hrest hend) (hb.of_suffix hrest))
  | group hspan hne hstop hchildren _ ihc ih =>
    obtain ⟨hinner, houter⟩ := suffixes_of_block hstop hchildren
    have hbody := hinner.trans (suffixes_of_header hspan hstop).1
    have hrest := houter.trans hbody
    rw [List.cons_append, run_group_extend hk hend hspan hne hstop,
      run_block (ihc (getLast?_of_suffix hbody hend) (.inl rfl))]
    exact exists_run_cons (ih (getLast?_of_suffix hrest hend) (hb.of_suffix hrest))
  | rule hstart hstop hsel hchildren _ ihc ih =>
    obtain ⟨hbody, houter⟩ := suffixes_of_block hstop hchildren
    have hrest := houter.trans hbody
    rw [run_rule_extend hk hend (hb.startsItem hstart) hstop hsel,
      run_block (ihc (getLast?_of_suffix hbody hend) (.inl rfl))]
    exact exists_run_cons (ih (getLast?_of_suffix hrest hend) (hb.of_suffix hrest))
  | declaration hstart hstop hhead hn _ ih =>
    have hopened : bs.isEmpty = false := hb.elim id And.left
    cases bs with
    | nil => cases hopened
    | cons block bs =>
      have hrest := Scan.suffix_of_toStop hstop
      rw [run_declaration_extend hk hend hstart hstop (hopen hhead) hn]
      exact exists_run_cons (ih (getLast?_of_suffix hrest hend) (hb.of_suffix hrest))

def putBelow (earlier : List (Node Text)) :
    List OpenBlock → List (Node Text) → List OpenBlock × List (Node Text)
  | [], nodes => ([], nodes ++ earlier)
  | b :: bs, nodes =>
    let below := putBelow earlier bs b.earlier
    (⟨b.header, b.start, b.brace, below.2⟩ :: below.1, nodes)

def precededBy (r : Reader) (earlier : List (Node Text)) : Reader :=
  ⟨(putBelow earlier r.blocks r.nodes).1, (putBelow earlier r.blocks r.nodes).2, r.afterIdent, r.rest⟩

variable {r r' : Reader} {earlier : List (Node Text)} {c : Char} {t start stop : Text}

theorem putBelow_cons (n : Node Text) : putBelow earlier bs (n :: nodes) =
    ((putBelow earlier bs nodes).1, n :: (putBelow earlier bs nodes).2) := by
  cases bs <;> rfl

theorem push_precededBy (n : Node Text) (rest : Text) :
    (r.precededBy earlier).push n rest = (r.push n rest).precededBy earlier := by
  simp only [precededBy, push, putBelow_cons]

theorem close_precededBy :
    (r.precededBy earlier).close start = (r.close start).map (·.precededBy earlier) := by
  obtain ⟨bs, nodes, a, rest⟩ := r
  cases bs with
  | nil => rfl
  | cons b bs => simp only [precededBy, close, putBelow, Except.map, putBelow_cons, OpenBlock.node]

theorem comment_precededBy :
    (r.precededBy earlier).comment start = (r.comment start).map (·.precededBy earlier) := by
  unfold comment
  split <;> simp only [Except.map, push_precededBy]

theorem atRule_precededBy :
    (r.precededBy earlier).atRule start = (r.atRule start).map (·.precededBy earlier) := by
  unfold atRule
  split
  · rfl
  · split
    · rfl
    · unfold addAtRule
      split <;> simp only [Except.map, push_precededBy]
      rfl

theorem item_precededBy :
    (r.precededBy earlier).item start = (r.item start).map (·.precededBy earlier) := by
  obtain ⟨bs, nodes, a, rest⟩ := r
  unfold item
  simp only [precededBy]
  split
  · rfl
  · split
    · unfold enterRule
      split <;> rfl
    · unfold addDeclaration
      cases bs with
      | nil =>
        simp only [putBelow]
        split <;> rfl
      | cons b bs =>
        simp only [putBelow]
        split <;> rfl

theorem read_precededBy :
    (r.precededBy earlier).read c t = (r.read c t).map (·.precededBy earlier) := by
  have hempty : (r.precededBy earlier).blocks.isEmpty = r.blocks.isEmpty := by
    cases h : r.blocks <;> simp [precededBy, putBelow, h]
  unfold read
  rw [close_precededBy, comment_precededBy, atRule_precededBy, item_precededBy, hempty]
  split_ifs <;> rfl

/-- What was read before all the rest has no part in a step. -/
theorem step_precededBy :
    (r.precededBy earlier).step = r.step.map (·.map (·.precededBy earlier)) := by
  have hskip : (r.precededBy earlier).skipBlanks = r.skipBlanks.precededBy earlier := rfl
  unfold step
  simp only [hskip]
  generalize r.skipBlanks = r
  obtain ⟨bs, nodes, a, rest⟩ := r
  cases rest with
  | nil => cases bs <;> rfl
  | cons c t =>
    change ((precededBy ⟨bs, nodes, a, c :: t⟩ earlier).read c t).map some =
      ((read ⟨bs, nodes, a, c :: t⟩ c t).map some).map _
    rw [read_precededBy]
    cases read ⟨bs, nodes, a, c :: t⟩ c t <;> rfl

theorem blocks_of_done (h : r.step = .ok none) : r.blocks = [] := by
  unfold step at h
  simp only at h
  split at h
  · split at h
    · assumption
    · cases h
  · cases hread : read r.skipBlanks _ _ <;> rw [hread] at h <;> cases h

theorem run_precededBy :
    (r.precededBy earlier).run = r.run.map (earlier.reverse ++ ·) := by
  fun_induction run r with
  | case1 r f h =>
    have hstep : (r.precededBy earlier).step = .error f := by
      rw [step_precededBy, h]
      rfl
    exact run_of_error hstep
  | case2 r h =>
    have hstep : (r.precededBy earlier).step = .ok none := by
      rw [step_precededBy, h]
      rfl
    rw [run_of_done hstep, precededBy, blocks_of_done h, putBelow, List.reverse_append]
    rfl
  | case3 r r' h _ ih =>
    have hstep : (r.precededBy earlier).step = .ok (some (r'.precededBy earlier)) := by
      rw [step_precededBy, h]
      rfl
    rw [run_of_step hstep, ih]

end Reader

namespace Stylesheet

/-- What stands behind a semicolon is read as if it stood alone. -/
theorem nodes_semicolon {a b : Text} {na : List (Node Text)} (h : nodes a = .ok na)
    (hend : a.getLast? ≠ some '\\') :
    nodes (a ++ ';' :: b) = (nodes b).map (Node.mapOrigins (· ++ ';' :: b) na ++ ·) := by
  obtain ⟨a', hrun⟩ := @Reader.run_extend [] [] _ _ _ _ (';' :: b) _ (nodes_eq_ok_iff.1 h) hend
    (.inl rfl) (atStop_cons.2 rfl) (by simp)
  calc nodes (a ++ ';' :: b)
      = ((Reader.ofText b).precededBy (Node.mapOrigins (· ++ ';' :: b) na).reverse).run := by
        rw [nodes, Reader.ofText, hrun, List.append_nil]
        exact Reader.run_skip (.semicolon a' b)
    _ = (nodes b).map (Node.mapOrigins (· ++ ';' :: b) na ++ ·) := by
        rw [Reader.run_precededBy, List.reverse_reverse]
        rfl

/-- The sheet holds the nodes `ns` of the text `t`. Each of them is read where its origin begins and
its position is counted up to there. -/
structure ReadFrom (s : Stylesheet) (source t : Text) (positions : Bool) (ns : List (Node Text)) :
    Prop where
  eq : s = ⟨some source, Node.mapOrigins (provenance source t positions) ns⟩
  begins : ∀ n ∈ Node.allSubnodes ns, n.Begins ∧
    ∃ before, t = before ++ n.origin ∧ Position.ofSuffix t n.origin = Position.afterText before

theorem readFrom_of_nodes {t : Text} {ns : List (Node Text)} (source : Text) (positions : Bool)
    (h : nodes t = .ok ns) :
    ReadFrom ⟨some source, Node.mapOrigins (provenance source t positions) ns⟩ source t positions
      ns := by
  refine ⟨rfl, fun n hn => ?_⟩
  obtain ⟨hbegins, before, rfl⟩ := begins_of_spells (nodes_eq_ok_iff.1 h) n hn
  exact ⟨hbegins, before, rfl, Position.ofSuffix_append (head_ne_of_begins hbegins)⟩

end Stylesheet

def Node.unplaced (ns : List (Node Provenance)) : List (Node Provenance) :=
  mapOrigins (fun o => ⟨o.source, none⟩) ns

theorem Node.unplaced_provenance (source t : Text) (positions : Bool) (ns : List (Node Text)) :
    unplaced (mapOrigins (Stylesheet.provenance source t positions) ns) =
      mapOrigins (fun _ => ⟨source, none⟩) ns :=
  mapOrigins_mapOrigins _ _ ns

namespace Stylesheet

/-- A style sheet text in front of a semicolon changes neither the nodes nor the error of the text
behind it, only where they stand. -/
theorem parse_semicolon {source a b : Text} {positions : Bool} {sa : Stylesheet}
    (ha : parse source a positions = .ok sa) (hend : a.getLast? ≠ some '\\') :
    (∀ sb, parse source b positions = .ok sb →
      ∃ s na nb, parse source (a ++ ';' :: b) positions = .ok s ∧
        Node.unplaced s.children = Node.unplaced sa.children ++ Node.unplaced sb.children ∧
        sa.ReadFrom source a positions na ∧ sb.ReadFrom source b positions nb ∧
        s.ReadFrom source (a ++ ';' :: b) positions (Node.mapOrigins (· ++ ';' :: b) na ++ nb)) ∧
    ∀ e, parse source b positions = .error e →
      ∃ e' before c after, parse source (a ++ ';' :: b) positions = .error e' ∧
        e'.file = e.file ∧ e'.cause = e.cause ∧ e.LocatedAt before c after ∧
        e'.LocatedAt (a ++ ';' :: before) c after := by
  obtain ⟨na, hna, rfl⟩ := parse_eq_ok_iff.1 ha
  have hjoin := nodes_semicolon (b := b) hna hend
  constructor
  · intro sb hb
    obtain ⟨nb, hnb, rfl⟩ := parse_eq_ok_iff.1 hb
    rw [hnb] at hjoin
    refine ⟨_, na, nb, parse_eq_ok_iff.2 ⟨_, hjoin, rfl⟩, ?_, readFrom_of_nodes source positions hna,
      readFrom_of_nodes source positions hnb, readFrom_of_nodes source positions hjoin⟩
    rw [Node.unplaced_provenance, Node.unplaced_provenance, Node.unplaced_provenance,
      Node.mapOrigins_append, Node.mapOrigins_mapOrigins]
  · intro e hb
    obtain ⟨f, hf, rfl⟩ := parse_eq_error_iff.1 hb
    obtain ⟨⟨before, rfl⟩, c, after, hmark, hblank, _⟩ := markedIn_of_nodes hf
    rw [hf] at hjoin
    refine ⟨_, before, c, after, parse_eq_error_iff.2 ⟨f, hjoin, rfl⟩, rfl, rfl, ?_, ?_⟩
    · rw [hmark]
      exact locatedAt_ofFault source hmark hblank
    · have hplace := @locatedAt_ofFault source f (a ++ ';' :: before) after c hmark hblank
      rw [hmark]
      rwa [List.append_assoc, List.cons_append] at hplace

/-- The first text ends within a statement, and the column that it is left in is not that in which
the other text begins. -/
theorem parse_semicolon_statementAtEnd :
    let a : Text := "é\x7bb:c\x7d\r\n@x y"
    let b : Text := "d\x7be:f\x7d"
    let b' : Text := "d\x7b\x0ce:'f"
    ∃ sa sb s e e', parse "a.css" a true = .ok sa ∧ parse "a.css" b true = .ok sb ∧
      parse "a.css" (a ++ ';' :: b) true = .ok s ∧
      Node.unplaced s.children = Node.unplaced sa.children ++ Node.unplaced sb.children ∧
      parse "a.css" b' true = .error e ∧ parse "a.css" (a ++ ';' :: b') true = .error e' ∧
      e'.cause = e.cause ∧ e.position = ⟨2, 3⟩ ∧ e'.position = ⟨3, 3⟩ := by
  intro a b b'
  have hread : ∀ t ∈ [a, b], (parse "a.css" t true).toOption.isSome = true := by
    decide +kernel
  have place : ∀ t ∈ [(b', 2), (a ++ ';' :: b', 3)], (match parse "a.css" t.1 true with
      | .ok _ => none
      | .error e => some e.position) = some ⟨t.2, 3⟩ := by
    decide +kernel
  have ok : ∀ t ∈ [a, b], ∃ s, parse "a.css" t true = .ok s := by
    intro t ht
    have h := hread t ht
    cases hs : parse "a.css" t true with
    | ok s => exact ⟨s, rfl⟩
    | error e =>
      rw [hs] at h
      cases h
  obtain ⟨sa, ha⟩ := ok a (by simp)
  obtain ⟨sb, hb⟩ := ok b (by simp)
  obtain ⟨s, _, _, hs, hnodes, _⟩ := (parse_semicolon ha (by decide)).1 sb hb
  have hplace := place (b', 2) (by simp)
  have hplace' := place (a ++ ';' :: b', 3) (by simp)
  dsimp only at hplace hplace'
  cases hb' : parse "a.css" b' true with
  | ok =>
    rw [hb'] at hplace
    cases hplace
  | error e =>
    obtain ⟨e', _, _, _, he', _, hcause, _⟩ := (parse_semicolon ha (by decide)).2 e hb'
    rw [hb'] at hplace
    rw [he'] at hplace'
    exact ⟨sa, sb, s, e, e', ha, hb, hs, hnodes, rfl, he', hcause, Option.some.inj hplace,
      Option.some.inj hplace'⟩

end Stylesheet

end Stylesmith
