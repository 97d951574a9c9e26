import Stylesmith.Proofs.Cursor.Items

set_option autoImplicit false

namespace Stylesmith.Cursor

namespace Input

variable {i : Input} {r r' : Reader} {m m' : Checked (List (Node Provenance) × Nat)}

def block? (i : Input) (r : Reader) : Option Nat := r.blocks.head?.map fun b => i.offset b.brace

def marked (i : Input) (ns : List (Node Text)) : List (Node Provenance) :=
  Node.mapOrigins i.mark ns

/-- How the checked reading `m` of what is left of a block, or of the whole text, ends: with the
fault at which the reader's run fails, with the text outside all blocks, or with a brace that closes
the block, from where the run goes on. -/
inductive Ends (i : Input) (r : Reader) (m : Checked (List (Node Provenance) × Nat)) : Prop
  | failed {f : Fault} : r.run = .error f →
      Yields m (.error (i.report f)) (4 * r.rest.length + 2) → Ends i r m
  | ended {ns : List (Node Text)} : r.blocks = [] → r.run = .ok ns →
      Yields m (.ok (i.marked ns, i.text.length)) (4 * r.rest.length + 1) → Ends i r m
  | closed {b : OpenBlock} {blocks : List OpenBlock} {ns : List (Node Text)} {rest : Text} :
      r.blocks = b :: blocks → '}' :: rest <:+ i.text → rest.length < r.rest.length →
      r.run = Reader.run ⟨blocks, b.node ns :: b.earlier, false, rest⟩ →
      Yields m (.ok (i.marked ns, i.offset rest)) (4 * (r.rest.length - rest.length)) → Ends i r m

/-- A reading ends as what follows its first part, if this takes at most four steps for each
character that it passes. -/
theorem Ends.of_step {k : Nat} (h : i.Ends r' m') (hrun : r.run = r'.run)
    (hblocks : r'.blocks = r.blocks) (hk : k + 4 * r'.rest.length ≤ 4 * r.rest.length)
    (hm : ∀ {x : Except Halt (List (Node Provenance) × Nat)} {j : Nat},
      Yields m' x j → Yields m x (k + j)) : i.Ends r m := by
  cases h with
  | failed hfail hyields => exact .failed (hrun.trans hfail) ((hm hyields).mono (by omega))
  | ended hnone hok hyields =>
    exact .ended (hblocks ▸ hnone) (hrun.trans hok) ((hm hyields).mono (by omega))
  | closed hsome hclose hlt hgoes hyields =>
    exact .closed (hblocks ▸ hsome) hclose (by omega) (hrun.trans hgoes)
      ((hm hyields).mono (by omega))

theorem isSome_block? (r : Reader) : (i.block? r).isSome = !r.blocks.isEmpty := by
  rw [block?, Option.isSome_map]
  cases r.blocks <;> rfl

theorem not_ident_of_isBlank {c : Char} (h : Text.isBlank c = true) : Lexeme.isIdent c = false := by
  simp only [Text.isBlank, Bool.or_eq_true, beq_iff_eq] at h
  rcases h with (((rfl | rfl) | rfl) | rfl) | rfl <;> rfl

/-- The flag of the reader still says what stands before the cursor when blanks are skipped. -/
theorem agrees_skipBlanks (hr : r.rest <:+ i.text) (h : i.Agrees r.afterIdent r.rest) :
    i.Agrees r.skipBlanks.afterIdent r.skipBlanks.rest := by
  have hsplit : r.rest.takeWhile Text.isBlank ++ r.skipBlanks.rest = r.rest :=
    List.takeWhile_append_dropWhile
  rcases List.eq_nil_or_concat (r.rest.takeWhile Text.isBlank) with hnone | ⟨blanks, d, hlast⟩
  · rw [hnone, List.nil_append] at hsplit
    have hhead : r.rest.head?.any Text.isBlank = false := by
      rw [← hsplit]
      exact Text.head_dropWhile Text.isBlank r.rest
    have hflag : r.skipBlanks.afterIdent = r.afterIdent := by
      rw [Reader.skipBlanks, Reader.skip, hhead, Bool.not_false, Bool.and_true]
    rw [hflag, hsplit]
    exact h
  · have hblank : Text.isBlank d = true := by
      have hmem : d ∈ r.rest.takeWhile Text.isBlank := by simp [hlast]
      exact List.all_eq_true.1 List.all_takeWhile d hmem
    have hhead : r.rest.head?.any Text.isBlank = true := by
      cases hrest : r.rest with
      | nil => simp [hrest] at hlast
      | cons c t =>
        by_contra hc
        rw [hrest, List.takeWhile_cons_of_neg (p := Text.isBlank) hc] at hlast
        simp at hlast
    have hflag : r.skipBlanks.afterIdent = Lexeme.isIdent d := by
      rw [Reader.skipBlanks, Reader.skip, hhead, Bool.not_true, Bool.and_false,
        not_ident_of_isBlank hblank]
    rw [hflag]
    refine agrees_behind ?_
    rw [hlast, List.concat_append] at hsplit
    exact (hsplit ▸ List.suffix_append blanks _).trans hr

theorem mapOrigin_block (header : Header) (start brace : Text) (earlier children : List (Node Text)) :
    (OpenBlock.node ⟨header, start, brace, earlier⟩ children).mapOrigin i.mark =
      header.node (i.marked children) (i.mark start) := by
  cases header <;> rfl

theorem marked_reverse (ns : List (Node Text)) : (i.marked ns).reverse = i.marked ns.reverse := by
  rw [marked, marked, Node.mapOrigins_eq_map, Node.mapOrigins_eq_map, List.map_reverse]

section Iterations

variable {c : Char} {t rest rest' start body : Text} {block? : Option Nat} {header : Header}
  {nodes children : List (Node Provenance)} {e : Halt}
  {x : Except Halt (List (Node Provenance) × Nat)} {j k l : Nat}

theorem yields_error (h : rest <:+ i.text) (hstart : Text.skipBlanks rest = c :: t)
    (hitem : Yields (i.item block?.isSome c (i.offset (c :: t))) (.error e) k) :
    Yields (i.items block? (i.offset rest) nodes) (.error e) (k + 1) := by
  have hct : c :: t <:+ i.text := hstart ▸ (List.dropWhile_suffix _).trans h
  rw [items]
  simp only [skipBlanks_offset h, hstart, getElem?_offset hct, List.head?_cons]
  exact hitem.bind_error.tick

theorem yields_skipped (h : rest <:+ i.text) (hstart : Text.skipBlanks rest = c :: t)
    (hlt : rest'.length < rest.length)
    (hitem : Yields (i.item block?.isSome c (i.offset (c :: t))) (.ok (.skipped (i.offset rest'))) k)
    (hlater : Yields (i.items block? (i.offset rest') nodes) x j) :
    Yields (i.items block? (i.offset rest) nodes) x (k + j + 1) := by
  have hct : c :: t <:+ i.text := hstart ▸ (List.dropWhile_suffix _).trans h
  rw [items]
  simp only [skipBlanks_offset h, hstart, getElem?_offset hct, List.head?_cons]
  refine (hitem.bind ?_).tick
  simp only [move_offset h hlt, pure_bind]
  exact hlater

theorem yields_node {n : Node Provenance} (h : rest <:+ i.text)
    (hstart : Text.skipBlanks rest = c :: t) (hlt : rest'.length < rest.length)
    (hitem : Yields (i.item block?.isSome c (i.offset (c :: t))) (.ok (.node n (i.offset rest'))) k)
    (hlater : Yields (i.items block? (i.offset rest') (n :: nodes)) x j) :
    Yields (i.items block? (i.offset rest) nodes) x (k + j + 1) := by
  have hct : c :: t <:+ i.text := hstart ▸ (List.dropWhile_suffix _).trans h
  rw [items]
  simp only [skipBlanks_offset h, hstart, getElem?_offset hct, List.head?_cons]
  refine (hitem.bind ?_).tick
  simp only [move_offset h hlt, pure_bind]
  exact hlater

theorem yields_closed (h : rest <:+ i.text) (hstart : Text.skipBlanks rest = c :: t)
    (hlt : rest'.length < rest.length)
    (hitem : Yields (i.item block?.isSome c (i.offset (c :: t))) (.ok (.closed (i.offset rest'))) k) :
    Yields (i.items block? (i.offset rest) nodes) (.ok (nodes.reverse, i.offset rest')) (k + 1) := by
  have hct : c :: t <:+ i.text := hstart ▸ (List.dropWhile_suffix _).trans h
  rw [items]
  simp only [skipBlanks_offset h, hstart, getElem?_offset hct, List.head?_cons]
  refine (hitem.bind (k := 0) ?_).tick
  simp only [move_offset h hlt, pure_bind]
  exact yields_pure _

/-- The block that a header opens is read by recursion, and fails here. -/
theorem yields_opened_error (h : rest <:+ i.text) (hstart : Text.skipBlanks rest = c :: t)
    (hbrace : '{' :: body <:+ i.text) (hlt : body.length < rest.length)
    (hitem : Yields (i.item block?.isSome c (i.offset (c :: t)))
      (.ok (.opened header (i.offset start) (i.offset ('{' :: body)))) k)
    (hblock : Yields (i.items (some (i.offset ('{' :: body))) (i.offset body) []) (.error e) j) :
    Yields (i.items block? (i.offset rest) nodes) (.error e) (k + j + 2) := by
  have hct : c :: t <:+ i.text := hstart ▸ (List.dropWhile_suffix _).trans h
  rw [items]
  simp only [skipBlanks_offset h, hstart, getElem?_offset hct, List.head?_cons]
  refine (hitem.bind (k := j + 1) ?_).tick
  simp only [offset_tail hbrace, move_offset h hlt, pure_bind]
  exact hblock.bind_error.tick

/-- The block that a header opens is read by recursion, and then what stands behind it. -/
theorem yields_opened (h : rest <:+ i.text) (hstart : Text.skipBlanks rest = c :: t)
    (hfirst : start <:+ i.text) (hne : start ≠ []) (hbrace : '{' :: body <:+ i.text)
    (hlt : body.length < rest.length) (hlt' : rest'.length < body.length)
    (hitem : Yields (i.item block?.isSome c (i.offset (c :: t)))
      (.ok (.opened header (i.offset start) (i.offset ('{' :: body)))) k)
    (hblock : Yields (i.items (some (i.offset ('{' :: body))) (i.offset body) [])
      (.ok (children, i.offset rest')) j)
    (hlater : Yields (i.items block? (i.offset rest')
      (header.node children (i.mark start) :: nodes)) x l) :
    Yields (i.items block? (i.offset rest) nodes) x (k + j + l + 2) := by
  have hct : c :: t <:+ i.text := hstart ▸ (List.dropWhile_suffix _).trans h
  rw [items]
  simp only [skipBlanks_offset h, hstart, getElem?_offset hct, List.head?_cons]
  refine ((hitem.bind (k := j + l + 1) ?_).tick).mono (by omega)
  simp only [offset_tail hbrace, move_offset h hlt, pure_bind]
  refine (hblock.bind ?_).tick
  simp only [move_offset (suffix_tail hbrace) hlt', origin_offset hfirst hne, pure_bind]
  exact hlater

end Iterations

/-- The text ends within the innermost block, or outside all blocks. -/
theorem ends_items_nil (hr : r.StandsIn i.text) (hrest : r.skipBlanks.rest = []) :
    i.Ends r (i.items (i.block? r) (i.offset r.rest) (i.marked r.nodes)) := by
  have hskip := Reader.standsIn_skipBlanks hr
  have hstart : i.skipBlanks (i.offset r.rest) = i.offset r.skipBlanks.rest :=
    skipBlanks_offset hr.rest
  rw [items]
  simp only [hstart, getElem?_offset hskip.rest]
  rw [hrest]
  simp only [List.head?_nil]
  cases hblocks : r.blocks with
  | nil =>
    have hstep : r.step = .ok none := by
      have hskipped : r.skipBlanks.blocks = [] := hblocks
      simp only [Reader.step, hrest, hskipped]
    refine .ended hblocks (Reader.run_of_done hstep) ?_
    rw [block?, hblocks, marked_reverse, offset_nil]
    exact ((yields_pure _).tick).mono (by omega)
  | cons b blocks =>
    have hstep : r.step = .error ⟨.unclosedBlock, b.brace⟩ := by
      have hskipped : r.skipBlanks.blocks = b :: blocks := hblocks
      simp only [Reader.step, hrest, hskipped]
    obtain ⟨hbrace, d, u, he, -⟩ := hr.blocks b (hblocks ▸ List.mem_cons_self)
    have hne : b.brace ≠ [] := by
      rintro h
      cases h.symm.trans he
    refine .failed (Reader.run_of_error hstep) ?_
    rw [block?, hblocks]
    simp only [List.head?_cons, Option.map_some, fail_offset _ hbrace hne]
    exact ((yields_throw _).tick).mono (by omega)

section Items

variable {c : Char} {t start body rest : Text} {k : Nat}

theorem reads_first (hr : r.StandsIn i.text) (hagrees : i.Agrees r.afterIdent r.rest)
    (hrest : r.skipBlanks.rest = c :: t) : i.Reads r.skipBlanks (c :: t).length
      (i.item (i.block? r).isSome c (i.offset (c :: t))) (r.skipBlanks.read c t) := by
  have hct : c :: t <:+ i.text := hrest ▸ (Reader.standsIn_skipBlanks hr).rest
  have hsize : t.length < (c :: t).length := Nat.lt_succ_self _
  rw [isSome_block?]
  exact reads_read hct hsize (hrest ▸ agrees_skipBlanks hr.rest hagrees)

theorem ends_closed {b : OpenBlock} {blocks : List OpenBlock} (hr : r.StandsIn i.text)
    (hrest : r.skipBlanks.rest = c :: t) (hblocks : r.blocks = b :: blocks)
    (hclose : '}' :: rest <:+ i.text) (hlt : rest.length < r.rest.length)
    (hcost : k + 1 + 4 * rest.length ≤ 4 * r.rest.length)
    (hrun : r.run = Reader.run ⟨blocks, b.node r.nodes.reverse :: b.earlier, false, rest⟩)
    (hit : Yields (i.item (i.block? r).isSome c (i.offset (c :: t)))
      (.ok (.closed (i.offset rest))) k) :
    i.Ends r (i.items (i.block? r) (i.offset r.rest) (i.marked r.nodes)) := by
  refine .closed hblocks hclose hlt hrun ?_
  rw [← marked_reverse]
  exact (yields_closed hr.rest hrest hlt hit).mono (by omega)

/-- The run fails in the block that is opened, or goes on behind it, in the block around it. -/
theorem ends_opened {header : Header} (hr : r.StandsIn i.text) (hrest : r.skipBlanks.rest = c :: t)
    (hfirst : start <:+ i.text) (hne : start ≠ []) (hbrace : '{' :: body <:+ i.text)
    (hlt : body.length < r.rest.length) (hcost : k + 2 + 4 * body.length ≤ 4 * r.rest.length)
    (hrun : r.run = (r.enter header start ('{' :: body) body).run)
    (hit : Yields (i.item (i.block? r).isSome c (i.offset (c :: t)))
      (.ok (.opened header (i.offset start) (i.offset ('{' :: body)))) k)
    (hblock : i.Ends (r.enter header start ('{' :: body) body)
      (i.items (some (i.offset ('{' :: body))) (i.offset body) []))
    (hbehind : ∀ {n : Node Text} {rest : Text}, '}' :: rest <:+ i.text → rest.length < body.length →
      i.Ends ⟨r.blocks, n :: r.nodes, false, rest⟩
        (i.items (i.block? r) (i.offset rest) (i.marked (n :: r.nodes)))) :
    i.Ends r (i.items (i.block? r) (i.offset r.rest) (i.marked r.nodes)) := by
  rcases hblock with ⟨hfail, hyields⟩ | ⟨hnone, _, _⟩ | ⟨hsome, hclose, hshorter, hgoes, hyields⟩
  · refine .failed (hrun.trans hfail)
      ((yields_opened_error hr.rest hrest hbrace hlt hit hyields).mono ?_)
    simp only [Reader.enter]
    omega
  · cases hnone
  · rename_i b blocks children rest
    cases hsome
    simp only [Reader.enter] at hshorter hyields
    refine (hbehind hclose hshorter).of_step (k := k + 2 + 4 * (body.length - rest.length))
      (hrun.trans hgoes) rfl (by simp only; omega) fun {x j} hlater => ?_
    have hnode := mapOrigin_block (i := i) header start ('{' :: body) r.nodes children
    refine (yields_opened (l := j) hr.rest hrest hfirst hne hbrace hlt hshorter hit hyields
      ?_).mono (by omega)
    rw [← hnode]
    exact hlater

end Items

/-- The checked parser reads what is left of a block, or of the whole text, as the reader does. -/
theorem ends_items (r : Reader) (hr : r.StandsIn i.text) (hagrees : i.Agrees r.afterIdent r.rest) :
    i.Ends r (i.items (i.block? r) (i.offset r.rest) (i.marked r.nodes)) := by
  induction hn : r.rest.length using Nat.strongRecOn generalizing r with
  | ind n ih =>
  subst hn
  cases hrest : r.skipBlanks.rest with
  | nil => exact ends_items_nil hr hrest
  | cons c t =>
    have hshort : (c :: t).length ≤ r.rest.length := hrest ▸ Text.skipBlanks_length_le r.rest
    have hreads := reads_first hr hagrees hrest
    have hstep : r.step = (r.skipBlanks.read c t).map some := by
      simp only [Reader.step, hrest]
    cases hread : r.skipBlanks.read c t with
    | error f =>
      rw [hread] at hreads hstep
      exact .failed (Reader.run_of_error hstep) ((yields_error hr.rest hrest hreads).mono (by omega))
    | ok r' =>
      rw [hread] at hreads hstep
      obtain ⟨it, hit, hleads, _, hagrees'⟩ := hreads
      have hrun := Reader.run_of_step hstep
      have hlt := Reader.step_rest_length_lt hstep
      have hnext := ih r'.rest.length hlt r' (Reader.standsIn_of_step hr hstep) hagrees' rfl
      have hcost : (c :: t).length - r'.rest.length + 1 + 2 + 4 * r'.rest.length ≤
          4 * r.rest.length := by omega
      generalize (c :: t).length - r'.rest.length + 1 = cost at hit hcost
      cases hleads with
      | skipped afterIdent rest =>
        refine hnext.of_step (k := cost + 1) hrun rfl (by omega) fun hyields => ?_
        exact (yields_skipped hr.rest hrest hlt hit hyields).mono (by omega)
      | node n rest =>
        refine hnext.of_step (k := cost + 1) hrun rfl (by omega) fun hyields => ?_
        exact (yields_node hr.rest hrest hlt hit hyields).mono (by omega)
      | closed hblocks hclose =>
        exact ends_closed hr hrest hblocks hclose hlt (by simp only at hcost; omega) hrun hit
      | opened header hfirst hne hbrace =>
        exact ends_opened hr hrest hfirst hne hbrace hlt hcost hrun hit hnext
          fun {n rest} hclose hshorter => ih rest.length (hshorter.trans hlt)
            ⟨r.blocks, n :: r.nodes, false, rest⟩ ⟨suffix_tail hclose, hr.blocks⟩
            (agrees_behind hclose) rfl

end Input

/-- The checked parser agrees with the parser on every text. So no slice, position or byte cut that
it takes lies outside its text or within a character, every iteration of its loops and every block
that it enters moves the cursor forward within the text, and it ends after a number of these that
is linear in the length of the text. -/
theorem parse_checked (source t : Text) (positions : Bool) :
    ∃ steps ≤ 4 * t.length + 2, (Cursor.parse source t positions).run.run 0 =
      ((Stylesheet.parse source t positions).mapError Halt.malformed, steps) := by
  let i : Input := ⟨source, t, positions⟩
  have hzero : i.offset t = 0 := Nat.sub_self _
  have hagrees : i.Agrees false t := fun _ => by rw [hzero]; rfl
  have hstands : (Reader.ofText t).StandsIn i.text :=
    ⟨List.suffix_refl t, fun _ hb => absurd hb List.not_mem_nil⟩
  suffices h : Yields (Cursor.parse source t positions)
      ((Stylesheet.parse source t positions).mapError Halt.malformed) (4 * t.length + 2) by
    obtain ⟨steps, hsteps, hrun⟩ := h 0
    exact ⟨steps, hsteps, by rw [hrun, Nat.zero_add]⟩
  have hends := Input.ends_items (Reader.ofText t) hstands hagrees
  rw [show i.offset (Reader.ofText t).rest = 0 from hzero] at hends
  unfold parse Stylesheet.parse Stylesheet.nodes
  rcases hends with ⟨hfail, hyields⟩ | ⟨-, hok, hyields⟩ | ⟨hsome, _, _, _, _⟩
  · rw [hfail]
    exact hyields.bind_error
  · rw [hok]
    refine (hyields.bind (k := 0) ?_).mono (Nat.le_succ _)
    exact yields_pure _
  · cases hsome

end Stylesmith.Cursor
