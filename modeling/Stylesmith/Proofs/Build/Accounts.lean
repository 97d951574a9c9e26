import Stylesmith.Proofs.Build.Failures
import Stylesmith.Proofs.Build.Sessions

set_option autoImplicit false

namespace Stylesmith.Build

variable {setup : Setup} {work : Text} {maps : Bool} {o : Options} {files : List Source}

/-- The sheets that are merged in a pass. A file that fails stands for an empty one. -/
def fragmentSheets (setup : Setup) (work : Text) (maps : Bool) (files : List Source) :
    List Stylesheet :=
  (fragmentFiles files).map fun s => (process setup work maps s).sheet

def mergedSheet (setup : Setup) (work : Text) (maps : Bool) (files : List Source) : Stylesheet :=
  Stylesheet.merge setup.config.anchorReferences (fragmentSheets setup work maps files)

def Source.transformWarnings (setup : Setup) (work : Text) (maps : Bool) (s : Source) : List Text :=
  match s.contents with
  | .error _ => []
  | .ok t =>
    if setup.transforms s.path then
      match (setup.stage.run (s.context setup work maps) t).result with
      | .error _ => []
      | .ok made => made.warnings
    else []

/-- The texts of the chunks that production writes. Without source maps the merged sheet is read
again before it is split. -/
def chunkTexts (budget : Option Nat) (maps : Bool) (merged : Stylesheet) :
    Except SyntaxError (List Text) :=
  if maps then .ok ((merged.minify budget true).map (·.text))
  else (Stylesheet.minifyText budget (Stylesheet.render .pretty merged.children)).map (·.toChunks)

structure Emits (setup : Setup) (o : Options) (merged : Stylesheet) (outs : List Output) : Prop where
  mapped : ∀ out ∈ outs, out.map.isSome = o.sourceMaps
  development : o.mode = .development → ∃ out, outs = [out] ∧ out.path = some developmentPath ∧
    out.text = Stylesheet.render .pretty merged.children
  production : o.mode = .production → outs ≠ [] ∧ (∀ out ∈ outs, out.path = none) ∧
    chunkTexts setup.config.chunkBudget o.sourceMaps merged = .ok (outs.map (·.text))

/-- A summary that is right about a pass. -/
structure Accounts (setup : Setup) (work : Text) (o : Options) (files : List Source) (r : Report)
    (n : Summary) : Prop where
  fragments : n.fragments = (files.filter fun s => !isImportOnly (s.url.getD s.path)).length
  delivered : n.errors = (r.deliveries.filterMap (·.2.error?)).length
  failing : n.errors = (fragmentFiles files).countP fun s => decide (s.Fails setup work o.sourceMaps)
  warnings : n.warnings =
    ((fragmentFiles files).flatMap (·.transformWarnings setup work o.sourceMaps)).length +
      (Stylesheet.mergeWarnings (fragmentSheets setup work o.sourceMaps files)).length
  outputs : n.outputs = (r.deliveries.filterMap (·.2.sheet?)).length
  first : ∀ d ∈ r.deliveries, d.2.sheet?.isSome = true → d.1 = 0
  emits : fragmentFiles files ≠ [] →
    Emits setup o (mergedSheet setup work o.sourceMaps files) (r.deliveries.filterMap (·.2.sheet?))

section Deliveries

variable (r : Report)

theorem filterMap_error?_deliveries :
    r.deliveries.filterMap (·.2.error?) = r.errors.map (·.2) := by
  simp [Report.deliveries, Delivery.error?]

theorem filterMap_sheet?_deliveries : r.deliveries.filterMap (·.2.sheet?) = r.outputs := by
  simp [Report.deliveries, Delivery.sheet?]

theorem eq_zero_of_mem_deliveries {d : Nat × Delivery} (h : d ∈ r.deliveries)
    (hsheet : d.2.sheet?.isSome = true) : d.1 = 0 := by
  rw [Report.deliveries, List.mem_append, List.mem_map, List.mem_map] at h
  rcases h with ⟨_, _, rfl⟩ | ⟨_, _, rfl⟩
  · cases hsheet
  · rfl

end Deliveries

theorem warnings_parseInto (path t : Text) (map : Option Text) (warnings : Nat)
    (calls : List Transform.Call) : (parseInto path t map warnings calls).warnings = warnings := by
  rw [parseInto]
  split <;> rfl

theorem warnings_process (s : Source) :
    (process setup work maps s).warnings = (s.transformWarnings setup work maps).length := by
  rw [process, Source.transformWarnings, Source.context]
  cases s.contents with
  | error reason => rfl
  | ok t =>
    cases setup.transforms s.path with
    | false => exact warnings_parseInto _ _ _ _ _
    | true =>
      dsimp only
      cases (setup.stage.run ⟨origin work s.url, setup.config.parser, maps⟩ t).result with
      | error f => rfl
      | ok made => exact warnings_parseInto _ _ _ _ _

theorem emits_development (merged : Stylesheet) (fragments : Option (List Fragment))
    (hmode : o.mode = .development) (hmaps : fragments.isSome = o.sourceMaps) :
    Emits setup o merged (developmentOutputs fragments merged) where
  mapped := by
    rw [← hmaps]
    cases fragments <;> simp [developmentOutputs, Stylesheet.print]
  development _ := ⟨_, rfl, rfl, rfl⟩
  production h := by
    rw [hmode] at h
    cases h

theorem emits_mapped (merged : Stylesheet) (fs : List Fragment) (hmode : o.mode = .production)
    (hmaps : o.sourceMaps = true) :
    Emits setup o merged ((merged.minify setup.config.chunkBudget true).map fun p =>
      ⟨p.text, none, p.mappings.map fun ms => (SourceMap.stitch fs ms).text⟩) where
  mapped := by
    rw [hmaps]
    intro out hout
    obtain ⟨p, hp, rfl⟩ := List.mem_map.1 hout
    obtain ⟨ns, _, rfl⟩ := List.mem_map.1 hp
    rfl
  development h := by
    rw [hmode] at h
    cases h
  production _ := by
    refine ⟨?_, ?_, ?_⟩
    · simpa [Stylesheet.minify, Stylesheet.minifiedChunks] using Chunk.split_ne_nil _ _
    · intro out hout
      obtain ⟨p, _, rfl⟩ := List.mem_map.1 hout
      rfl
    · rw [chunkTexts, if_pos hmaps, List.map_map]
      rfl

theorem toChunks_ne_nil {budget : Option Nat} {t : Text} {m : Minified}
    (h : Stylesheet.minifyText budget t = .ok m) : m.toChunks ≠ [] := by
  rw [Stylesheet.minifyText] at h
  split at h
  · cases h
    exact List.cons_ne_nil _ _
  · cases hparse : Stylesheet.parse Stylesheet.mergedName t false with
    | error e =>
      rw [hparse] at h
      cases h
    | ok sheet =>
      rw [hparse] at h
      cases h
      rw [Stylesheet.toChunks_ofChunks]
      simpa [Stylesheet.minifiedChunks] using Chunk.split_ne_nil _ _

theorem emits_unmapped {merged : Stylesheet} {m : Minified} (hmode : o.mode = .production)
    (hmaps : o.sourceMaps = false) (h : Stylesheet.minifyText setup.config.chunkBudget
      (Stylesheet.render .pretty merged.children) = .ok m) :
    Emits setup o merged (m.toChunks.map fun t => ⟨t, none, none⟩) where
  mapped := by
    rw [hmaps]
    intro out hout
    obtain ⟨t, _, rfl⟩ := List.mem_map.1 hout
    rfl
  development h := by
    rw [hmode] at h
    cases h
  production _ := by
    refine ⟨?_, ?_, ?_⟩
    · simpa using toChunks_ne_nil h
    · intro out hout
      obtain ⟨t, _, rfl⟩ := List.mem_map.1 hout
      rfl
    · rw [chunkTexts, hmaps, if_neg Bool.false_ne_true, h, List.map_map]
      exact congrArg Except.ok (List.map_id _).symm

theorem emits_outputs {done : List Processed} {outs : List Output}
    (h : Build.outputs setup o done = .ok outs) :
    Emits setup o (Stylesheet.merge setup.config.anchorReferences (done.map (·.sheet))) outs := by
  cases hmode : o.mode with
  | development =>
    rw [Build.outputs, hmode] at h
    cases h
    refine emits_development _ _ hmode ?_
    split <;> simp_all
  | production =>
    cases hmaps : o.sourceMaps with
    | true =>
      rw [Build.outputs, hmode, if_pos hmaps] at h
      cases h
      exact emits_mapped _ _ hmode hmaps
    | false =>
      simp only [Build.outputs, hmode, hmaps, Bool.false_eq_true, if_false, productionOutputs] at h
      cases hm : Stylesheet.minifyText setup.config.chunkBudget (Stylesheet.render .pretty
          (Stylesheet.merge setup.config.anchorReferences (done.map (·.sheet))).children) with
      | error e =>
        rw [hm] at h
        cases h
      | ok m =>
        rw [hm] at h
        cases h
        exact emits_unmapped hmode hmaps hm

theorem result_pass (hfiles : fragmentFiles files ≠ []) {outs : List Output}
    (h : outputs setup o ((fragmentFiles files).map (process setup work o.sourceMaps)) = .ok outs) :
    (pass setup work o files).result = .ok ⟨(fragmentFiles files).length,
      (pass setup work o files).errors.length,
      ((fragmentFiles files).flatMap (·.transformWarnings setup work o.sourceMaps)).length +
        (Stylesheet.mergeWarnings (fragmentSheets setup work o.sourceMaps files)).length,
      outs.length⟩ := by
  have hwarnings : ((fragmentFiles files).map (process setup work o.sourceMaps)).foldl
      (fun n p => n + p.warnings) 0 =
        ((fragmentFiles files).flatMap (·.transformWarnings setup work o.sourceMaps)).length := by
    rw [List.length_flatMap, List.sum_eq_foldl, List.foldl_map, List.foldl_map]
    simp only [warnings_process]
  unfold pass
  simp only [isEmpty_filter_zipIdx, map_fst_processed, List.isEmpty_eq_false_iff.2 hfiles, h,
    hwarnings, Bool.false_eq_true, if_false, List.length_map]
  rw [fragmentSheets, List.map_map]
  rfl

theorem length_errors_pass : (pass setup work o files).errors.length =
    (fragmentFiles files).countP fun s => decide (s.Fails setup work o.sourceMaps) := by
  rw [errors_pass, List.length_filterMap_eq_countP, ← map_filter_zipIdx, List.countP_map]
  refine List.countP_congr fun p _ => ?_
  rw [Option.isSome_map, Function.comp_apply, decide_eq_true_iff, ← Option.ne_none_iff_isSome, ne_eq,
    error_process_eq_none_iff, not_not]

theorem pass_of_fragmentFiles_eq_nil (h : fragmentFiles files = []) :
    pass setup work o files = ⟨.ok .zero, [], [], [], []⟩ := by
  unfold pass
  simp only [isEmpty_filter_zipIdx, h, List.isEmpty_nil, if_true]

theorem outputs_pass_of_error {f : Failure} (h : (pass setup work o files).result = .error f) :
    (pass setup work o files).outputs = [] := by
  by_cases hfiles : fragmentFiles files = []
  · rw [pass_of_fragmentFiles_eq_nil hfiles]
  · obtain ⟨houtputs, hresult⟩ := outcome_pass setup work o hfiles
    obtain ⟨e, he, _⟩ := (hresult f).1 h
    rw [houtputs, he]
    rfl

theorem accounts_pass {n : Summary} (h : (pass setup work o files).result = .ok n) :
    Accounts setup work o files (pass setup work o files) n := by
  by_cases hfiles : fragmentFiles files = []
  · have hpass := @pass_of_fragmentFiles_eq_nil setup work o files hfiles
    rw [hpass] at h ⊢
    cases h
    refine ⟨?_, rfl, ?_, ?_, rfl, fun d hd => absurd hd List.not_mem_nil, absurd hfiles⟩
    · exact (congrArg List.length hfiles).symm
    · rw [hfiles]
      rfl
    · rw [fragmentSheets, hfiles]
      rfl
  · obtain ⟨houtputs, hresult⟩ := outcome_pass setup work o hfiles
    cases houts : outputs setup o ((fragmentFiles files).map (process setup work o.sourceMaps)) with
    | error e =>
      rw [(hresult (.minify e)).2 ⟨e, houts, rfl⟩] at h
      cases h
    | ok outs =>
      rw [houts] at houtputs
      have hemits := emits_outputs houts
      rw [List.map_map] at hemits
      rw [result_pass hfiles houts] at h
      cases h
      refine ⟨rfl, ?_, length_errors_pass, rfl, ?_, fun d => eq_zero_of_mem_deliveries _, fun _ => ?_⟩
      · rw [filterMap_error?_deliveries, List.length_map]
      · rw [filterMap_sheet?_deliveries, houtputs]
        rfl
      · rw [filterMap_sheet?_deliveries, houtputs]
        exact hemits

/-- A pass of a session whose configuration is in order counts right what it hands over, and in
development writes one sheet, in production the chunks. Over no fragments it does nothing, and a pass
that fails hands over no sheet. -/
theorem run_accounts {s : Session} (h : s.configure.2 = .ok setup) (o : Options)
    (files : List Source) :
    (∀ n, (s.run o files).2.result = .ok n →
      Accounts setup s.work o files (s.run o files).2 n) ∧
    (fragmentFiles files = [] →
      (s.run o files).2.result = .ok .zero ∧ (s.run o files).2.deliveries = []) ∧
    (∀ f, (s.run o files).2.result = .error f →
      (s.run o files).2.deliveries.filterMap (·.2.sheet?) = []) := by
  have hwork : s.configure.1.work = s.work := by
    rw [Session.configure]
    split <;> rfl
  have hrun : (s.run o files).2 = pass setup s.work o files := by
    rw [Session.run_eq, h, hwork]
    rfl
  rw [hrun]
  refine ⟨fun n => accounts_pass, fun hfiles => ?_, fun f hf => ?_⟩
  · rw [pass_of_fragmentFiles_eq_nil hfiles]
    exact ⟨rfl, rfl⟩
  · rw [filterMap_sheet?_deliveries, outputs_pass_of_error hf]

/-- A first file that cannot be read, one that is only imported, one that a transform rejects, one
that is no style sheet, and two others, of which the last has its import late. -/
def sixFiles : List Source :=
  [⟨"a.css", none, .error "gone", none⟩, ⟨"b.css", none, .ok "b,c\x7bd:e\x7d", none⟩,
    ⟨"imports/f.css", none, .ok "\x7d", none⟩, ⟨"g.css", none, .ok "#g\x7bh:i\x7d", none⟩,
    ⟨"j.css", none, .ok "\x7d", none⟩, ⟨"k.css", none, .ok "k\x7bl:m\x7d@import \"n\";", none⟩]

def warning : Registry :=
  Registry.empty.registerTransform ⟨"wary", fun _ t =>
    if t.head? = some '#' then .error (.failed "wary" "hash mark") else .ok ⟨t, none, ["hm"]⟩⟩

def halfComment : Source := ⟨"a.css", none, .ok "a\x7bb:url(x/*.png)\x7d", none⟩

theorem run_accounts_sixFiles :
    let config : Config := ⟨[.plain "wary"], none, [], false, some 2⟩
    let s := Session.start (fun _ => .ok (some config)) warning "/work"
    ∃ setup, s.configure.2 = .ok setup ∧
      (s.run ⟨.production, true⟩ sixFiles).2.result = .ok ⟨5, 3, 4, 2⟩ ∧
      Accounts setup s.work ⟨.production, true⟩ sixFiles (s.run ⟨.production, true⟩ sixFiles).2
        ⟨5, 3, 4, 2⟩ ∧
      ((s.run ⟨.production, true⟩ sixFiles).2.deliveries.map fun d =>
        (d.1, d.2.sheet?.map (·.text))) = [(0, none), (3, none), (4, none),
          (0, some ("@import \"n\";b,c\x7bd:e\x7d" : Text)), (0, some ("k\x7bl:m\x7d" : Text))] ∧
      ∃ f, (s.run ⟨.production, false⟩ [halfComment]).2.result = .error f ∧
        (s.run ⟨.production, false⟩ [halfComment]).2.deliveries.filterMap (·.2.sheet?) = [] := by
  intro config s
  have hresult : (s.run ⟨.production, true⟩ sixFiles).2.result = .ok ⟨5, 3, 4, 2⟩ := by
    decide +kernel
  have hfails : ∃ f, (s.run ⟨.production, false⟩ [halfComment]).2.result = .error f := by
    cases hrun : (s.run ⟨.production, false⟩ [halfComment]).2.result with
    | error f => exact ⟨f, rfl⟩
    | ok n =>
      have hok : (s.run ⟨.production, false⟩ [halfComment]).2.result.isOk = false := by
        decide +kernel
      rw [hrun] at hok
      cases hok
  obtain ⟨f, hf⟩ := hfails
  exact ⟨_, rfl, hresult, (run_accounts rfl _ _).1 _ hresult, by decide +kernel, f, hf,
    (run_accounts rfl _ _).2.2 f hf⟩

end Stylesmith.Build
