import Stylesmith.Proofs.Stylesheet.Scanning
import Stylesmith.Stylesheet.Parser

/-!
# The grammar of style sheets

`Spells` says which texts spell which nodes, with one case for each kind of item and no state but
the text. The reader accepts a text with some nodes exactly when the text spells them.
-/

set_option autoImplicit false

namespace Stylesmith

/-- What is passed over between items. `top` says that no block is open; the other flags say, before
and after, whether the character before the text belongs to an identifier. -/
inductive Skips (top : Bool) : Bool → Text → Bool → Text → Prop
  | blank {c : Char} (a : Bool) (t : Text) : Text.isBlank c = true → Skips top a (c :: t) false t
  | semicolon (a : Bool) (t : Text) : Skips top a (';' :: t) false t
  | openMark (a : Bool) (t : Text) : top = true → Skips top a ('<' :: '!' :: '-' :: '-' :: t) true t
  | closeMark (a : Bool) (t : Text) : top = true → Skips top a ('-' :: '-' :: '>' :: t) false t

/-- Whether the text starts with a rule or a declaration, if with any item. -/
def StartsItem (top : Bool) (t : Text) : Prop :=
  ∃ c t', t = c :: t' ∧ Text.isBlank c = false ∧ c ≠ '}' ∧ c ≠ ';' ∧ c ≠ '@' ∧
    ¬ (c = '/' ∧ t'.head? = some '*') ∧
    (top = true → ¬ ("<!--" : Text) <+: t ∧ ¬ ("-->" : Text) <+: t)

/-- `Spells top a t ns rest`: the text before `rest` spells the nodes `ns`, which are all that the
rest of the sheet, or of the innermost block, holds. -/
inductive Spells : Bool → Bool → Text → List (Node Text) → Text → Prop
  | endOfText {a : Bool} : Spells true a [] [] []
  | endOfBlock {a : Bool} {t : Text} : Spells false a ('}' :: t) [] ('}' :: t)
  | skip {top a a' : Bool} {t t' rest : Text} {ns : List (Node Text)} :
      Skips top a t a' t' → Spells top a' t' ns rest → Spells top a t ns rest
  | comment {top a : Bool} {t body after rest : Text} {ns : List (Node Text)} :
      Lexeme.spanComment t = (body, some after) → Spells top false after ns rest →
      Spells top a ('/' :: '*' :: t) (.comment body ('/' :: '*' :: t) :: ns) rest
  | statement {top a : Bool} {t name after stop rest : Text} {ns : List (Node Text)} :
      Text.spanName t = (name, after) → name ≠ [] → Scan.toStop ⟨false, []⟩ after = .ok stop →
      stop.head? ≠ some '{' → Spells top false stop ns rest →
      Spells top a ('@' :: t) (.statement (Text.lowerAscii name)
        (Text.collapseSpaced (after.before stop)) ('@' :: t) :: ns) rest
  | group {top a : Bool} {t name after body close rest : Text} {children ns : List (Node Text)} :
      Text.spanName t = (name, after) → name ≠ [] →
      Scan.toStop ⟨false, []⟩ after = .ok ('{' :: body) →
      Spells false false body children ('}' :: close) → Spells top false close ns rest →
      Spells top a ('@' :: t) (.group (Text.lowerAscii name)
        (Text.collapseSpaced (after.before ('{' :: body))) children ('@' :: t) :: ns) rest
  | rule {top a : Bool} {start body close rest : Text} {children ns : List (Node Text)} :
      StartsItem top start → Scan.toStop ⟨a, []⟩ start = .ok ('{' :: body) →
      Reader.selectors (start.before ('{' :: body)) ≠ [] →
      Spells false false body children ('}' :: close) → Spells top false close ns rest →
      Spells top a start
        (.rule (Reader.selectors (start.before ('{' :: body))) children start :: ns) rest
  | declaration {a : Bool} {start stop rest : Text} {n : Node Text} {ns : List (Node Text)} :
      StartsItem false start → Scan.toStop ⟨a, []⟩ start = .ok stop → stop.head? ≠ some '{' →
      Reader.declaration start (start.before stop) = .ok n → Spells false false stop ns rest →
      Spells false a start (n :: ns) rest

theorem spells_of_skipBlanks {top a : Bool} {t rest : Text} {ns : List (Node Text)}
    (h : Spells top (a && !t.head?.any Text.isBlank) (Text.skipBlanks t) ns rest) :
    Spells top a t ns rest := by
  induction t generalizing a with
  | nil => simpa [Text.skipBlanks] using h
  | cons c t ih =>
    by_cases hc : Text.isBlank c = true
    · refine .skip (.blank a t hc) (ih ?_)
      simpa [Text.skipBlanks, hc] using h
    · simpa [Text.skipBlanks, hc] using h

namespace Reader

theorem run_of_step {r r' : Reader} (h : r.step = .ok (some r')) : r.run = r'.run := by
  rw [run]
  split
  · rename_i he
    rw [he] at h
    cases h
  · rename_i he
    rw [he] at h
    cases h
  · rename_i he
    rw [he] at h
    cases h
    rfl

theorem run_of_done {r : Reader} (h : r.step = .ok none) : r.run = .ok r.nodes.reverse := by
  rw [run]
  split
  · rename_i he
    rw [he] at h
    cases h
  · rfl
  · rename_i he
    rw [he] at h
    cases h

theorem run_of_error {r : Reader} {f : Fault} (h : r.step = .error f) : r.run = .error f := by
  rw [run]
  split
  · rename_i he
    rw [he] at h
    cases h
    rfl
  · rename_i he
    rw [he] at h
    cases h
  · rename_i he
    rw [he] at h
    cases h

theorem run_congr {r r' : Reader} (hn : r.nodes = r'.nodes) (h : r.step = r'.step) :
    r.run = r'.run := by
  rcases hs : r'.step with f | (_ | r'')
  · rw [run_of_error hs, run_of_error (h.trans hs)]
  · rw [run_of_done hs, run_of_done (h.trans hs), hn]
  · rw [run_of_step hs, run_of_step (h.trans hs)]

theorem step_cons {r : Reader} {c : Char} {t : Text} (hr : r.rest = c :: t)
    (hc : Text.isBlank c = false) : r.step = (r.read c t).map some := by
  have hs : r.skipBlanks = r := by
    simp [skipBlanks, skip, Text.skipBlanks, hr, hc]
    rw [← hr]
  simp only [step, hs, hr]

theorem run_cons {r r' : Reader} {c : Char} {t : Text} (hr : r.rest = c :: t)
    (hc : Text.isBlank c = false) (h : r.read c t = .ok r') : r.run = r'.run := by
  apply run_of_step
  rw [step_cons hr hc, h]
  rfl

variable {bs : List OpenBlock} {nodes : List (Node Text)}

theorem run_skip {a a' : Bool} {t t' : Text} (h : Skips bs.isEmpty a t a' t') :
    run ⟨bs, nodes, a, t⟩ = run ⟨bs, nodes, a', t'⟩ := by
  cases h with
  | @blank c _ _ hc =>
    refine run_congr (r := ⟨bs, nodes, a, c :: t'⟩) rfl ?_
    simp [step, skipBlanks, skip, Text.skipBlanks, hc]
  | semicolon => exact run_cons rfl (by decide) rfl
  | openMark _ _ htop =>
    apply run_cons rfl (by decide)
    simp only [read, htop]
    rfl
  | closeMark _ _ htop =>
    apply run_cons rfl (by decide)
    simp only [read, htop]
    rfl

theorem read_at {r : Reader} {t : Text} : r.read '@' t = r.atRule ('@' :: t) := by
  simp [read]

theorem read_item {r : Reader} {c : Char} {t : Text} (h : StartsItem r.blocks.isEmpty (c :: t)) :
    r.read c t = r.item (c :: t) ∧ Text.isBlank c = false := by
  obtain ⟨d, t', he, hblank, hclose, hsemi, hat, hcomment, htop⟩ := h
  cases he
  refine ⟨?_, hblank⟩
  unfold read
  rw [if_neg hclose, if_neg hsemi, if_neg hcomment, if_neg hat, if_neg, if_neg]
  · rintro ⟨hb, hp⟩
    exact (htop hb).2 (List.isPrefixOf_iff_prefix.1 hp)
  · rintro ⟨hb, hp⟩
    exact (htop hb).1 (List.isPrefixOf_iff_prefix.1 hp)

theorem run_close {b : OpenBlock} {a : Bool} {t : Text} :
    run ⟨b :: bs, nodes, a, '}' :: t⟩ = run ⟨bs, b.node nodes.reverse :: b.earlier, false, t⟩ :=
  run_cons rfl (by decide) rfl

theorem run_item {a : Bool} {start : Text} {r : Reader} (hs : StartsItem bs.isEmpty start)
    (h : item ⟨bs, nodes, a, start⟩ start = .ok r) : run ⟨bs, nodes, a, start⟩ = run r := by
  obtain ⟨c, t, rfl, _⟩ := id hs
  obtain ⟨hr, hc⟩ := read_item (r := ⟨bs, nodes, a, c :: t⟩) hs
  exact run_cons rfl hc (hr.trans h)

theorem run_comment {a : Bool} {t body after : Text}
    (hs : Lexeme.spanComment t = (body, some after)) : run ⟨bs, nodes, a, '/' :: '*' :: t⟩ =
      run ⟨bs, .comment body ('/' :: '*' :: t) :: nodes, false, after⟩ := by
  refine run_cons rfl (by decide) ?_
  simp [read, comment, hs, push]

theorem read_atRule {t name after stop : Text} (hname : Text.spanName t = (name, after))
    (hne : name ≠ []) (hstop : Scan.toStop ⟨false, []⟩ after = .ok stop) (r : Reader) :
    r.read '@' t = .ok (r.addAtRule (Text.lowerAscii name)
      (Text.collapseSpaced (after.before stop)) ('@' :: t) stop) := by
  rw [read_at]
  cases name with
  | nil => exact absurd rfl hne
  | cons c name => simp [atRule, hname, hstop]

theorem run_statement {a : Bool} {t name after stop : Text} (hname : Text.spanName t = (name, after))
    (hne : name ≠ []) (hstop : Scan.toStop ⟨false, []⟩ after = .ok stop)
    (hopen : stop.head? ≠ some '{') : run ⟨bs, nodes, a, '@' :: t⟩ =
      run ⟨bs, .statement (Text.lowerAscii name) (Text.collapseSpaced (after.before stop))
        ('@' :: t) :: nodes, false, stop⟩ := by
  refine (run_cons rfl (by decide) (read_atRule hname hne hstop _)).trans ?_
  unfold addAtRule
  split
  · exact absurd rfl hopen
  · -- The semicolon that ends the statement is skipped in the derivation.
    exact (run_skip (.semicolon _ _)).symm
  · rfl

theorem run_group {a : Bool} {t name after body : Text} (hname : Text.spanName t = (name, after))
    (hne : name ≠ []) (hstop : Scan.toStop ⟨false, []⟩ after = .ok ('{' :: body)) :
    run ⟨bs, nodes, a, '@' :: t⟩ = run ⟨⟨.group (Text.lowerAscii name)
      (Text.collapseSpaced (after.before ('{' :: body))), '@' :: t, '{' :: body, nodes⟩ :: bs,
        [], false, body⟩ :=
  run_cons rfl (by decide) (read_atRule hname hne hstop _)

theorem run_rule {a : Bool} {start body : Text} (hs : StartsItem bs.isEmpty start)
    (hstop : Scan.toStop ⟨a, []⟩ start = .ok ('{' :: body))
    (hsel : selectors (start.before ('{' :: body)) ≠ []) : run ⟨bs, nodes, a, start⟩ =
      run ⟨⟨.rule (selectors (start.before ('{' :: body))), start, '{' :: body, nodes⟩ :: bs,
        [], false, body⟩ := by
  refine run_item hs ?_
  simp only [item, hstop, List.head?_cons, if_true, enterRule]
  split
  · rename_i he
    exact absurd he hsel
  · rename_i he
    rw [← he]
    rfl

theorem run_declaration {a : Bool} {b : OpenBlock} {start stop : Text} {n : Node Text}
    (hs : StartsItem false start) (hstop : Scan.toStop ⟨a, []⟩ start = .ok stop)
    (hopen : stop.head? ≠ some '{') (hn : declaration start (start.before stop) = .ok n) :
    run ⟨b :: bs, nodes, a, start⟩ = run ⟨b :: bs, n :: nodes, false, stop⟩ := by
  refine run_item hs ?_
  simp [item, hstop, hopen, addDeclaration, hn, push]

theorem exists_run_cons {r : Reader} {rest : Text} {n : Node Text} {ns : List (Node Text)}
    (h : ∃ a', r.run = run ⟨bs, ns.reverse ++ n :: nodes, a', rest⟩) :
    ∃ a', r.run = run ⟨bs, (n :: ns).reverse ++ nodes, a', rest⟩ := by
  rwa [List.reverse_cons, List.append_assoc]

theorem run_block {r : Reader} {b : OpenBlock} {close : Text} {cs : List (Node Text)}
    (h : ∃ a', r.run = run ⟨b :: bs, cs.reverse ++ [], a', '}' :: close⟩) :
    r.run = run ⟨bs, b.node cs :: b.earlier, false, close⟩ := by
  obtain ⟨a', h⟩ := h
  rw [h, run_close, List.append_nil, List.reverse_reverse]

/-- What a text spells the reader reads. -/
theorem run_of_spells {top a : Bool} {t rest : Text} {ns : List (Node Text)}
    (h : Spells top a t ns rest) (hb : bs.isEmpty = top) :
    ∃ a', run ⟨bs, nodes, a, t⟩ = run ⟨bs, ns.reverse ++ nodes, a', rest⟩ := by
  induction h generalizing bs nodes with
  | endOfText => exact ⟨_, rfl⟩
  | endOfBlock => exact ⟨_, rfl⟩
  | skip hs _ ih =>
    subst hb
    rw [run_skip hs]
    exact ih rfl
  | comment hs _ ih =>
    rw [run_comment hs]
    exact exists_run_cons (ih hb)
  | statement hname hne hstop hopen _ ih =>
    rw [run_statement hname hne hstop hopen]
    exact exists_run_cons (ih hb)
  | group hname hne hstop _ _ ihc ih =>
    rw [run_group hname hne hstop, run_block (ihc rfl)]
    exact exists_run_cons (ih hb)
  | rule hs hstop hsel _ _ ihc ih =>
    subst hb
    rw [run_rule hs hstop hsel, run_block (ihc rfl)]
    exact exists_run_cons (ih rfl)
  | declaration hs hstop hopen hn _ ih =>
    cases bs with
    | nil => cases hb
    | cons b bs =>
      rw [run_declaration hs hstop hopen hn]
      exact exists_run_cons (ih hb)

/-- What remains to be read so that the open blocks are closed and `ns` are the nodes of the sheet. -/
def Completes : List OpenBlock → List (Node Text) → Bool → Text → List (Node Text) → Prop
  | [], nodes, a, t, ns => ∃ ms, Spells true a t ms [] ∧ ns = nodes.reverse ++ ms
  | b :: bs, nodes, a, t, ns => ∃ ms close, Spells false a t ms ('}' :: close) ∧
      Completes bs (b.node (nodes.reverse ++ ms) :: b.earlier) false close ns

/-- What may stand before any spelling may be read before what completes the sheet. -/
theorem completes_of_front (front : List (Node Text)) {a a' : Bool} {t t' : Text}
    {ns : List (Node Text)}
    (hfront : ∀ ms rest, Spells bs.isEmpty a' t' ms rest → Spells bs.isEmpty a t (front ++ ms) rest)
    (h : Completes bs (front.reverse ++ nodes) a' t' ns) : Completes bs nodes a t ns := by
  cases bs with
  | nil =>
    obtain ⟨ms, hs, rfl⟩ := h
    exact ⟨front ++ ms, hfront _ _ hs, by simp⟩
  | cons b bs =>
    obtain ⟨ms, close, hs, hc⟩ := h
    refine ⟨front ++ ms, close, hfront _ _ hs, ?_⟩
    rwa [List.reverse_append, List.reverse_reverse, List.append_assoc] at hc

theorem completes_of_skips {a a' : Bool} {t t' : Text} {ns : List (Node Text)}
    (hs : Skips bs.isEmpty a t a' t') (h : Completes bs nodes a' t' ns) : Completes bs nodes a t ns :=
  completes_of_front [] (fun _ _ => .skip hs) h

theorem completes_of_comment {r : Reader} {a : Bool} {t : Text} {ns : List (Node Text)}
    (h : comment ⟨bs, nodes, a, '/' :: '*' :: t⟩ ('/' :: '*' :: t) = .ok r)
    (hc : Completes r.blocks r.nodes r.afterIdent r.rest ns) :
    Completes bs nodes a ('/' :: '*' :: t) ns := by
  unfold comment at h
  split at h
  · rename_i body after hs
    cases h
    exact completes_of_front [_] (fun _ _ => .comment hs) hc
  · cases h

theorem completes_of_atRule {r : Reader} {a : Bool} {t : Text} {ns : List (Node Text)}
    (h : atRule ⟨bs, nodes, a, '@' :: t⟩ ('@' :: t) = .ok r)
    (hc : Completes r.blocks r.nodes r.afterIdent r.rest ns) :
    Completes bs nodes a ('@' :: t) ns := by
  unfold atRule at h
  split at h
  · cases h
  · rename_i name after hne hname
    split at h
    · cases h
    · rename_i stop hstop
      cases h
      unfold addAtRule at hc
      split at hc
      · obtain ⟨ms, close, hs, hc⟩ := hc
        exact completes_of_front [_] (fun _ _ => .group hname hne hstop hs) hc
      · refine completes_of_front [_]
          (fun _ _ hs => .statement hname hne hstop (by simp) (.skip (.semicolon _ _) hs)) hc
      · rename_i hopen _
        refine completes_of_front [_] (fun _ _ => .statement hname hne hstop ?_) hc
        intro hhead
        obtain ⟨body, rfl⟩ := List.head?_eq_some_iff.1 hhead
        exact hopen _ rfl

theorem completes_of_item {r : Reader} {a : Bool} {start : Text} {ns : List (Node Text)}
    (hs : StartsItem bs.isEmpty start) (h : item ⟨bs, nodes, a, start⟩ start = .ok r)
    (hc : Completes r.blocks r.nodes r.afterIdent r.rest ns) : Completes bs nodes a start ns := by
  unfold item at h
  split at h
  · cases h
  · rename_i stop hstop
    split at h
    · rename_i hopen
      obtain ⟨body, rfl⟩ := List.head?_eq_some_iff.1 hopen
      unfold enterRule at h
      split at h
      · cases h
      · rename_i hsel
        cases h
        rw [← hsel] at hc
        obtain ⟨ms, close, hms, hc⟩ := hc
        exact completes_of_front [_]
          (fun _ _ => .rule hs hstop (by rw [hsel]; exact List.cons_ne_nil _ _) hms) hc
    · rename_i hopen
      cases bs with
      | nil =>
        unfold addDeclaration at h
        split at h
        · split at h <;> cases h
        · rename_i he
          cases he
      | cons b bs =>
        unfold addDeclaration at h
        simp only at h
        split at h
        · cases h
        · rename_i hn
          cases h
          exact completes_of_front [_] (fun _ _ => .declaration hs hstop hopen hn) hc

/-- What the reader reads next is what a text that completes the sheet may start with. -/
theorem completes_of_read {r : Reader} {a : Bool} {c : Char} {t : Text} {ns : List (Node Text)}
    (hblank : Text.isBlank c = false) (h : read ⟨bs, nodes, a, c :: t⟩ c t = .ok r)
    (hc : Completes r.blocks r.nodes r.afterIdent r.rest ns) : Completes bs nodes a (c :: t) ns := by
  unfold read at h
  split at h
  · rename_i hclose
    subst hclose
    cases bs with
    | nil => cases h
    | cons b bs =>
      cases h
      exact ⟨[], t, .endOfBlock, by rwa [List.append_nil]⟩
  split at h
  · rename_i hsemi
    subst hsemi
    cases h
    exact completes_of_skips (.semicolon a t) hc
  split at h
  · rename_i hcomment
    obtain ⟨rfl, ht⟩ := hcomment
    obtain ⟨t, rfl⟩ := List.head?_eq_some_iff.1 ht
    exact completes_of_comment h hc
  split at h
  · rename_i hat
    subst hat
    exact completes_of_atRule h hc
  split at h
  · rename_i hopen
    obtain ⟨htop, hp⟩ := hopen
    obtain ⟨t', ht⟩ := List.isPrefixOf_iff_prefix.1 hp
    cases ht
    cases h
    exact completes_of_skips (.openMark a t' htop) hc
  split at h
  · rename_i hclose
    obtain ⟨htop, hp⟩ := hclose
    obtain ⟨t', ht⟩ := List.isPrefixOf_iff_prefix.1 hp
    cases ht
    cases h
    exact completes_of_skips (.closeMark a t' htop) hc
  · rename_i hbrace hsemi hcomment hat hopen hclose
    refine completes_of_item ?_ h hc
    refine ⟨c, t, rfl, hblank, hbrace, hsemi, hat, hcomment, fun htop => ⟨?_, ?_⟩⟩
    · exact fun hp => hopen ⟨htop, List.isPrefixOf_iff_prefix.2 hp⟩
    · exact fun hp => hclose ⟨htop, List.isPrefixOf_iff_prefix.2 hp⟩

theorem blank_skipBlanks {t t' : Text} {c : Char} (h : Text.skipBlanks t = c :: t') :
    Text.isBlank c = false := by
  have hh := List.head?_dropWhile_not Text.isBlank t
  rw [← Text.skipBlanks, h] at hh
  simpa using hh

theorem completes_of_skipBlanks {a : Bool} {t : Text} {ns : List (Node Text)}
    (h : Completes bs nodes (a && !t.head?.any Text.isBlank) (Text.skipBlanks t) ns) :
    Completes bs nodes a t ns :=
  completes_of_front [] (fun _ _ => spells_of_skipBlanks) h

theorem completes_of_done {r : Reader} (h : r.step = .ok none) :
    Completes r.blocks r.nodes r.afterIdent r.rest r.nodes.reverse := by
  apply completes_of_skipBlanks
  unfold step at h
  simp only [skipBlanks, skip] at h
  split at h
  · rename_i ht
    rw [ht]
    split at h
    · rename_i hb
      rw [hb]
      exact ⟨[], .endOfText, by rw [List.append_nil]⟩
    · cases h
  · rename_i c t _
    cases hr : read ⟨r.blocks, r.nodes, r.afterIdent && !r.rest.head?.any Text.isBlank,
        Text.skipBlanks r.rest⟩ c t <;> rw [hr] at h <;> cases h

theorem completes_of_step {r r' : Reader} {ns : List (Node Text)} (h : r.step = .ok (some r'))
    (hc : Completes r'.blocks r'.nodes r'.afterIdent r'.rest ns) :
    Completes r.blocks r.nodes r.afterIdent r.rest ns := by
  apply completes_of_skipBlanks
  unfold step at h
  simp only [skipBlanks, skip] at h
  split at h
  · split at h <;> cases h
  · rename_i c t ht
    rw [ht] at h ⊢
    refine completes_of_read (blank_skipBlanks ht) ?_ hc
    generalize read _ c t = x at h ⊢
    cases x <;> cases h
    rfl

theorem completes_of_run {r : Reader} {ns : List (Node Text)} (h : r.run = .ok ns) :
    Completes r.blocks r.nodes r.afterIdent r.rest ns := by
  fun_induction run r with
  | case1 => cases h
  | case2 r hs =>
    cases h
    exact completes_of_done hs
  | case3 r r' hs _ ih => exact completes_of_step hs (ih h)

end Reader

namespace Stylesheet

/-- The nodes that are read from a text are those that it spells. -/
theorem nodes_eq_ok_iff {t : Text} {ns : List (Node Text)} :
    nodes t = .ok ns ↔ Spells true false t ns [] := by
  constructor
  · intro h
    obtain ⟨ms, hs, he⟩ := Reader.completes_of_run h
    rw [he]
    exact hs
  · intro h
    obtain ⟨a, ha⟩ := @Reader.run_of_spells [] [] _ _ _ _ _ h rfl
    have hdone : Reader.step ⟨[], ns.reverse ++ [], a, []⟩ = .ok none := rfl
    rw [nodes, Reader.ofText, ha, Reader.run_of_done hdone]
    simp

end Stylesheet

end Stylesmith
