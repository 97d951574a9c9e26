import Stylesmith.Proofs.Build.Failures

/-!
# A failed file leaves no trace

What a pass writes depends on the files only that it reads and that do not fail. A failed file
stands for an empty sheet, which adds no node to the merged sheet; so no node leads to the file,
and the source maps do not mention it either.
-/

set_option autoImplicit false

namespace Stylesmith.Build

variable {setup : Setup} {work : Text} {maps : Bool} {o : Options} {files : List Source}
  {done : List Processed}

theorem source_of_parse {path t : Text} {positions : Bool} {sheet : Stylesheet}
    (h : Stylesheet.parse path t positions = .ok sheet) :
    ∀ n ∈ Node.allSubnodes sheet.children, n.origin.source = path := by
  obtain ⟨ns, _, rfl⟩ := Stylesheet.parse_eq_ok_iff.1 h
  intro n hn
  rw [Node.allSubnodes_mapOrigins] at hn
  obtain ⟨m, _, rfl⟩ := List.mem_map.1 hn
  cases m <;> rfl

/-- The nodes of a processed file are its own, and there are none if it failed. -/
structure Processed.Sound (p : Processed) : Prop where
  failed : p.error.isNone = false → p.sheet.children = []
  own : ∀ n ∈ Node.allSubnodes p.sheet.children, n.origin.source = p.path

theorem process_sound (s : Source) : (process setup work maps s).Sound := by
  obtain ⟨e, warnings, calls, _, h⟩ | ⟨t, sheet, map, warnings, calls, _, hparse, h⟩ :=
    process_cases setup work maps s
  · rw [h]
    exact ⟨fun _ => rfl, fun n hn => absurd hn List.not_mem_nil⟩
  · rw [h]
    exact ⟨fun hnone => (by cases hnone), source_of_parse hparse⟩

/-- Sheets without nodes may be left out of a merge. -/
theorem merge_filter {β : Type} {f : β → Stylesheet} {p : β → Bool} {l : List β}
    (h : ∀ b ∈ l, p b = false → (f b).children = []) (anchor : Bool) :
    Stylesheet.merge anchor ((l.filter p).map f) = Stylesheet.merge anchor (l.map f) := by
  have hchildren : ∀ g : β → Stylesheet, (∀ b ∈ l, p b = false → (g b).children = []) →
      Merge.children ((l.filter p).map g) = Merge.children (l.map g) := by
    intro g hg
    have hparts : ∀ b ∈ l, p b = false → Merge.hoist true [] (g b).children = ([], []) := by
      intro b hb hp
      rw [hg b hb hp]
      rfl
    simp only [Merge.children, List.map_map, List.flatMap_map, Function.comp_apply]
    rw [flatMap_filter fun b hb hp => by rw [hparts b hb hp],
      flatMap_filter fun b hb hp => by rw [hparts b hb hp]]
  cases anchor with
  | false => exact congrArg (Stylesheet.mk none) (hchildren f h)
  | true =>
    have hanchored := hchildren (Merge.anchorReferences ∘ f) fun b hb hp => by
      rw [Function.comp_apply, Merge.anchorReferences, h b hb hp]
      rfl
    simp only [Stylesheet.merge, if_true, List.map_map]
    rw [hanchored]

/-- Only the files that did not fail matter for what is written. -/
theorem outputs_filter (hdistinct : (done.map (·.path)).Nodup) (hsound : ∀ p ∈ done, p.Sound) :
    outputs setup o (done.filter (·.error.isNone)) = outputs setup o done := by
  have hmerge := merge_filter fun p hp => (hsound p hp).failed
  cases hmaps : o.sourceMaps with
  | false =>
    simp only [outputs, hmerge, hmaps, Bool.false_eq_true, if_false]
  | true =>
    have hgood : ((done.filter (·.error.isNone)).map (·.path)).Nodup :=
      hdistinct.sublist (List.filter_sublist.map _)
    have htrees : setup.trees ((done.filter (·.error.isNone)).map (·.sheet)) o.mode =
        setup.trees (done.map (·.sheet)) o.mode := by
      cases o.mode <;> simp only [Setup.trees, hmerge]
    rw [outputs_mapped hmaps hgood, outputs_mapped hmaps hdistinct, ← htrees]
    congr 1
    refine List.map_congr_left fun ns hns => ?_
    rw [SourceMap.stitch_congr]
    intro n hn
    obtain ⟨sheet, hsheet, m, hm, hwritten⟩ := Setup.exists_of_mem_trees hns hn
    obtain ⟨p, hp, rfl⟩ := List.mem_map.1 hsheet
    have hpath : n.origin.source = p.fragment.path := by
      rw [Setup.origin_of_written? hwritten]
      exact (hsound p (List.mem_filter.1 hp).1).own m hm
    have hfind : ∀ ps : List Processed, p ∈ ps → (ps.map (·.path)).Nodup →
        (ps.map Processed.fragment).find? (·.path == n.origin.source) = some p.fragment := by
      intro ps hps hnodup
      rw [hpath]
      refine Fragment.find?_path ?_ (List.mem_map_of_mem hps)
      rwa [List.map_map]
    rw [hfind _ hp hgood, hfind _ (List.mem_filter.1 hp).1 hdistinct]

/-- The files that have a part in what a pass writes. -/
def contributing (setup : Setup) (work : Text) (maps : Bool) (files : List Source) : List Source :=
  files.filter fun s => !isImportOnly s.address && !decide (s.Fails setup work maps)

theorem fragmentFiles_contributing : fragmentFiles (contributing setup work maps files) =
    contributing setup work maps files := by
  rw [fragmentFiles, List.filter_eq_self]
  intro s hs
  have h := (List.mem_filter.1 hs).2
  simp_all

theorem map_process_contributing :
    (contributing setup work maps files).map (process setup work maps) =
      ((fragmentFiles files).map (process setup work maps)).filter (·.error.isNone) := by
  rw [List.filter_map, fragmentFiles, List.filter_filter, contributing]
  congr 1
  refine List.filter_congr fun s _ => ?_
  have h : (process setup work maps s).error.isNone = !decide (s.Fails setup work maps) := by
    rw [Bool.eq_iff_iff, Option.isNone_iff_eq_none, error_process_eq_none_iff]
    simp
  rw [Function.comp_apply, h, Bool.and_comm]

/-- A pass writes what it writes of the files alone that it reads and that do not fail, or refuses
their sheets alike. It reports one error for each file that it reads and that fails, and no other. -/
theorem pass_contributing (hdistinct : (files.map (·.path)).Nodup)
    (h : ∃ s ∈ files, isImportOnly s.address = false ∧ ¬ s.Fails setup work o.sourceMaps) :
    (pass setup work o files).outputs =
        (pass setup work o (contributing setup work o.sourceMaps files)).outputs ∧
      (∀ f, (pass setup work o files).result = .error f ↔
        (pass setup work o (contributing setup work o.sourceMaps files)).result = .error f) ∧
      (∀ i e, (i, e) ∈ (pass setup work o files).errors ↔ ∃ s, files[i]? = some s ∧
        isImportOnly s.address = false ∧ s.FailsWith setup work o.sourceMaps e) ∧
      (pass setup work o files).errors.Pairwise fun a b => a.1 < b.1 := by
  obtain ⟨s, hs, hread, hfails⟩ := h
  have hfiles : fragmentFiles files ≠ [] :=
    List.ne_nil_of_mem (List.mem_filter.2 ⟨hs, by simp [hread]⟩)
  have hrest : fragmentFiles (contributing setup work o.sourceMaps files) ≠ [] := by
    rw [fragmentFiles_contributing]
    exact List.ne_nil_of_mem (List.mem_filter.2 ⟨hs, by simp [hread, hfails]⟩)
  have hpaths : (((fragmentFiles files).map
      (process setup work o.sourceMaps)).map (·.path)).Nodup := by
    simp only [List.map_map, Function.comp_def, path_process]
    exact hdistinct.sublist (List.filter_sublist.map _)
  have hsound : ∀ p ∈ (fragmentFiles files).map (process setup work o.sourceMaps), p.Sound := by
    intro p hp
    obtain ⟨s, _, rfl⟩ := List.mem_map.1 hp
    exact process_sound s
  have houtputs : outputs setup o ((fragmentFiles (contributing setup work o.sourceMaps files)).map
      (process setup work o.sourceMaps)) =
        outputs setup o ((fragmentFiles files).map (process setup work o.sourceMaps)) := by
    rw [fragmentFiles_contributing, map_process_contributing, outputs_filter hpaths hsound]
  obtain ⟨hwritten, hrefused⟩ := outcome_pass setup work o hfiles
  obtain ⟨hwritten', hrefused'⟩ := outcome_pass setup work o hrest
  rw [houtputs] at hwritten'
  simp only [houtputs] at hrefused'
  exact ⟨hwritten.trans hwritten'.symm, fun f => (hrefused f).trans (hrefused' f).symm,
    fun i e => mem_errors_pass, pairwise_errors_pass⟩

/-- Files that fail in each of the three ways, one that is not read, and two others. The only
transform rejects what starts with a hash mark. -/
def mixedFiles : List Source :=
  [⟨"a.css", none, .error "gone", none⟩, ⟨"b.css", none, .ok "b\x7bc:d\x7d", none⟩,
    ⟨"imports/c.css", none, .ok "\x7d", none⟩, ⟨"d.css", none, .ok "#d\x7be:f\x7d", none⟩,
    ⟨"e.css", none, .ok "\x7d", none⟩, ⟨"f.css", none, .ok "@import \"g\";", none⟩]

def rejecting : Setup :=
  ⟨.default, [⟨"strict", fun _ t =>
    if t.head? = some '#' then .error (.failed "strict" "hash mark") else .ok ⟨t, none, []⟩⟩]⟩

theorem pass_contributing_mixedFiles :
    let o : Options := ⟨.production, true⟩
    (mixedFiles.map (·.path)).Nodup ∧
    (∃ s ∈ mixedFiles, isImportOnly s.address = false ∧ ¬ s.Fails rejecting [] o.sourceMaps) ∧
    (contributing rejecting [] o.sourceMaps mixedFiles).map (·.path) = ["b.css", "f.css"] ∧
    (pass rejecting [] o mixedFiles).errors.map (·.1) = [0, 3, 4] ∧
    (pass rejecting [] o mixedFiles).outputs.map (·.text) = ["@import \"g\";b\x7bc:d\x7d"] ∧
    (pass rejecting [] o mixedFiles).outputs =
      (pass rejecting [] o (contributing rejecting [] o.sourceMaps mixedFiles)).outputs := by
  intro o
  have hdistinct : (mixedFiles.map (·.path)).Nodup := by
    decide +kernel
  have hsome : ∃ s ∈ mixedFiles, isImportOnly s.address = false ∧
      ¬ s.Fails rejecting [] o.sourceMaps := by
    decide +kernel
  exact ⟨hdistinct, hsome, by decide +kernel, by decide +kernel, by decide +kernel,
    (pass_contributing hdistinct hsome).1⟩

end Stylesmith.Build
