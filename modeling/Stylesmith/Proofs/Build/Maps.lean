import Mathlib.Data.List.Forall2
import Stylesmith.Build.Pass
import Stylesmith.Proofs.SourceMap.Stitched
import Stylesmith.Proofs.SourceMap.Written

/-!
# The source maps of a pass

A pass over files that are parsed as they are leads each node that it writes back to where the node
was read, through merging, anchoring, minifying and splitting.
-/

set_option autoImplicit false

namespace Stylesmith.Build

open Stylesheet (nodes parse provenance render)

variable {α : Type} {setup : Setup} {mode : Mode}

def Mode.layout : Mode → Layout
  | development => .pretty
  | production => .compact

def fragmentFiles (files : List Source) : List Source := files.filter (!isImportOnly ·.address)

def Source.sheet? (s : Source) : Option Stylesheet :=
  s.contents.toOption.bind fun t => (parse s.path t true).toOption

/-- A file that is parsed as it is, without a source map of its own. -/
structure Source.Plain (setup : Setup) (s : Source) : Prop where
  untransformed : setup.transforms s.path = false
  unmapped : s.map = none
  parsed : s.sheet?.isSome = true

/-- The trees that are written of some sheets, one for each output. -/
def Setup.trees (setup : Setup) (sheets : List Stylesheet) : Mode → List (List (Node Provenance))
  | .development => [(Stylesheet.merge setup.config.anchorReferences sheets).children]
  | .production => Stylesheet.minifiedChunks setup.config.chunkBudget
      (Stylesheet.merge setup.config.anchorReferences sheets).children

def printedTrees (setup : Setup) (mode : Mode) (files : List Source) :
    List (List (Node Provenance)) :=
  if (fragmentFiles files).isEmpty then []
  else setup.trees ((fragmentFiles files).filterMap Source.sheet?) mode

/-- What is written of a node of the file at `path`, if anything is. -/
def Setup.written? (setup : Setup) (mode : Mode) (path : Text) (n : Node α) : Option (Node α) :=
  let anchored := if setup.config.anchorReferences then n.anchorReferences path else n
  match mode with
  | .development => some anchored
  | .production => anchored.minify?

/-- A token leads from where a node is written to where the file that the node was parsed from has
it. -/
def Leads (setup : Setup) (mode : Mode) (files : List Source) (sources : List Text)
    (token : SourceMap.Token) (o : Occurrence Provenance) : Prop :=
  token.generated = Spot.afterText o.before ∧
    ∃ s ∈ files, ∃ t ns n, s.contents = .ok t ∧ nodes t = .ok ns ∧ n ∈ Node.allSubnodes ns ∧
      n.Begins ∧ n.origin <:+ t ∧
      setup.written? mode s.path (n.mapOrigin (provenance s.path t true)) = some o.node ∧
      ∃ i, token.origin = some (i, Spot.ofSuffix t n.origin) ∧ sources[i]? = some s.path

/-- A map describes a printed tree: it has a token for each node, in the order of the nodes and of
their places in the text, and lists the files that the nodes were parsed from. -/
structure Describes (setup : Setup) (mode : Mode) (files : List Source) (ns : List (Node Provenance))
    (m : SourceMap) : Prop where
  nodes : (Node.placedSheet mode.layout ns).map (·.node) = Node.allSubnodes ns
  places : Within mode.layout [] (render mode.layout ns) (Node.placedSheet mode.layout ns)
  tokens : List.Forall₂ (Leads setup mode files m.sources) m.tokens
    (Node.placedSheet mode.layout ns)
  sources : m.sources = ((Node.allSubnodes ns).map (·.origin.source)).eraseDups
  sources_nodup : m.sources.Nodup
  contents : List.Forall₂ (fun path content => ∃ s ∈ files, s.path = path ∧
    ∃ t, s.contents = .ok t ∧ content = some t) m.sources m.contents

theorem Describes.ordered {files : List Source} {ns : List (Node Provenance)} {m : SourceMap}
    (h : Describes setup mode files ns m) :
    m.tokens.Pairwise fun s t => s.generated.line ≤ t.generated.line := by
  have hspots : m.tokens.map (·.generated) =
      (Node.placedSheet mode.layout ns).map fun o => Spot.afterText o.before := by
    rw [← List.forall₂_eq_eq_eq, List.forall₂_map_left_iff, List.forall₂_map_right_iff]
    exact h.tokens.imp fun _ _ hleads => hleads.1
  have hlines : (m.tokens.map (·.generated)).Pairwise fun a b => a.line ≤ b.line := by
    rw [hspots, List.pairwise_map]
    refine h.places.ordered.imp_of_mem fun {a b} ha hb hlength => ?_
    have hbegins : ∀ o ∈ Node.placedSheet mode.layout ns, o.before <+: render mode.layout ns :=
      fun o ho => (List.prefix_append _ _).trans (h.places.stands o ho).2
    exact (List.prefix_of_prefix_length_le (hbegins a ha) (hbegins b hb)
      hlength.le).sublist.count_le '\n'
  rwa [List.pairwise_map] at hlines

/-- A map that describes a tree is written in full. -/
theorem Describes.isComplete {files : List Source} {ns : List (Node Provenance)} {m : SourceMap}
    (h : Describes setup mode files ns m) : m.IsComplete where
  ordered := h.ordered
  listed := by
    have hall : ∀ t ∈ m.tokens, ∃ i path spot, t.origin = some (i, spot) ∧
        m.sources[i]? = some path := by
      refine ((List.forall₂_and_left _ _).1 (h.tokens.imp fun t o hleads => ⟨?_, hleads⟩)).1
      obtain ⟨_, s, _, _, _, _, _, _, _, _, _, _, i, horigin, hsource⟩ := hleads
      exact ⟨i, s.path, _, horigin, hsource⟩
    intro t ht source spot horigin
    obtain ⟨i, path, spot', hi, hsource⟩ := hall t ht
    obtain ⟨rfl, rfl⟩ := Prod.mk.inj (Option.some.inj (hi.symm.trans horigin))
    exact (List.getElem?_eq_some_iff.1 hsource).1
  known := by
    refine ((List.forall₂_and_left _ _).1 (h.contents.flip.imp fun c path hc => ⟨?_, hc⟩)).1
    obtain ⟨_, _, _, t, _, rfl⟩ := hc
    rfl

theorem origin_of_minify? {n m : Node α} (h : n.minify? = some m) : m.origin = n.origin := by
  cases n with
  | rule selectors children o =>
    rw [Node.eq_of_minify?_rule h]
    rfl
  | group name prelude children o =>
    rw [Node.eq_of_minify?_group h]
    rfl
  | statement | declaration =>
    cases h
    rfl
  | comment text o =>
    rw [Node.minify?] at h
    split at h <;> cases h
    rfl

theorem Setup.origin_of_written? {path : Text} {n m : Node α}
    (h : setup.written? mode path n = some m) : m.origin = n.origin := by
  have anchored : (if setup.config.anchorReferences then n.anchorReferences path else n).origin =
      n.origin := by
    split
    · cases n <;> rfl
    · rfl
  cases mode with
  | development =>
    cases h
    exact anchored
  | production => exact (origin_of_minify? h).trans anchored

theorem exists_of_mem_merge {anchor : Bool} {sheets : List Stylesheet} {m : Node Provenance}
    (h : m ∈ Node.allSubnodes (Stylesheet.merge anchor sheets).children) :
    ∃ s ∈ sheets, ∃ n ∈ Node.allSubnodes s.children,
      m = if anchor then n.anchorReferences (s.source.getD []) else n := by
  rw [Stylesheet.merge, Merge.mem_allSubnodes_children] at h
  obtain ⟨s, hs, hm⟩ := h
  cases anchor with
  | false => exact ⟨s, hs, m, hm, rfl⟩
  | true =>
    rw [if_pos rfl] at hs
    obtain ⟨s', hs', rfl⟩ := List.mem_map.1 hs
    rw [Merge.anchorReferences, Node.allSubnodes_anchorReferences, List.mem_map] at hm
    obtain ⟨n, hn, rfl⟩ := hm
    exact ⟨s', hs', n, hn, rfl⟩

theorem Setup.exists_of_mem_trees {sheets : List Stylesheet} {ns : List (Node Provenance)}
    (hns : ns ∈ setup.trees sheets mode) {m : Node Provenance} (hm : m ∈ Node.allSubnodes ns) :
    ∃ s ∈ sheets, ∃ n ∈ Node.allSubnodes s.children,
      setup.written? mode (s.source.getD []) n = some m := by
  cases mode with
  | development =>
    obtain rfl := List.mem_singleton.1 hns
    obtain ⟨s, hs, n, hn, rfl⟩ := exists_of_mem_merge hm
    exact ⟨s, hs, n, hn, rfl⟩
  | production =>
    obtain ⟨k, hk, hmk⟩ := Node.mem_allSubnodes.1 hm
    have hall := Node.mem_allSubnodes.2 ⟨k, Chunk.mem_of_mem_split hns hk, hmk⟩
    obtain ⟨k, hk, hmin⟩ := Node.exists_of_mem_minifyAll hall
    obtain ⟨s, hs, n, hn, rfl⟩ := exists_of_mem_merge hk
    exact ⟨s, hs, n, hn, hmin⟩

theorem Source.sheet?_eq_some_iff {s : Source} {sheet : Stylesheet} :
    s.sheet? = some sheet ↔ ∃ t ns, s.contents = .ok t ∧ nodes t = .ok ns ∧
      sheet = ⟨some s.path, Node.mapOrigins (provenance s.path t true) ns⟩ := by
  have hoption : ∀ {ε β : Type} {x : Except ε β} {b : β}, x.toOption = some b ↔ x = .ok b := by
    intro ε β x b
    cases x <;> simp [Except.toOption]
  rw [sheet?, Option.bind_eq_some_iff]
  simp only [hoption, Stylesheet.parse_eq_ok_iff]
  constructor
  · rintro ⟨t, ht, ns, hns, rfl⟩
    exact ⟨t, ns, ht, hns, rfl⟩
  · rintro ⟨t, ns, ht, hns, rfl⟩
    exact ⟨t, ht, ns, hns, rfl⟩

def Source.fragment (s : Source) : Fragment := ⟨s.path, s.contents.toOption.getD [], none⟩

section Trees

variable {files : List Source} {ns : List (Node Provenance)}

theorem exists_parsed (hns : ns ∈ setup.trees (files.filterMap Source.sheet?) mode)
    {m : Node Provenance} (hm : m ∈ Node.allSubnodes ns) :
    ∃ s ∈ files, ∃ t ns n, s.contents = .ok t ∧ nodes t = .ok ns ∧ n ∈ Node.allSubnodes ns ∧
      n.Begins ∧ n.origin <:+ t ∧
      setup.written? mode s.path (n.mapOrigin (provenance s.path t true)) = some m := by
  obtain ⟨sheet, hsheet, k, hk, hw⟩ := Setup.exists_of_mem_trees hns hm
  obtain ⟨s, hs, hsome⟩ := List.mem_filterMap.1 hsheet
  obtain ⟨t, parsed, ht, hparsed, rfl⟩ := Source.sheet?_eq_some_iff.1 hsome
  rw [Node.allSubnodes_mapOrigins, List.mem_map] at hk
  obtain ⟨n, hn, rfl⟩ := hk
  obtain ⟨hbegins, hsuffix⟩ := begins_of_spells (Stylesheet.nodes_eq_ok_iff.1 hparsed) n hn
  exact ⟨s, hs, t, parsed, n, ht, hparsed, hn, hbegins, hsuffix, hw⟩

/-- The origin of a node in a written tree names the file and the text of the parsed node. -/
theorem placeOf_origin (hdistinct : (files.map (·.path)).Nodup) {s : Source} (hs : s ∈ files)
    {t : Text} (ht : s.contents = .ok t) {n : Node Text} (hbegins : n.Begins) (hn : n.origin <:+ t)
    {m : Node Provenance}
    (hm : setup.written? mode s.path (n.mapOrigin (provenance s.path t true)) = some m) :
    m.origin = provenance s.path t true n.origin ∧
      Fragment.placeOf (files.map Source.fragment) m.origin =
        ⟨s.path, t, Spot.ofSuffix t n.origin⟩ := by
  have horigin : m.origin = provenance s.path t true n.origin := by
    rw [Setup.origin_of_written? hm]
    cases n <;> rfl
  have hcontent : s.fragment.content = t := by
    rw [Source.fragment, ht]
    rfl
  have hpaths : ((files.map Source.fragment).map (·.path)).Nodup := by
    rwa [List.map_map]
  have hplace := Fragment.placeOf_provenance hpaths (List.mem_map_of_mem hs)
    (hcontent ▸ hn) (head_ne_of_begins hbegins)
  rw [hcontent] at hplace
  exact ⟨horigin, horigin ▸ hplace⟩

theorem leads_tokenOf (hdistinct : (files.map (·.path)).Nodup)
    (hns : ns ∈ setup.trees (files.filterMap Source.sheet?) mode) {o : Occurrence Provenance}
    (ho : o.node ∈ Node.allSubnodes ns) {entries : List (Spot × SourceMap.Place)}
    (he : SourceMap.entryOf (files.map Source.fragment) o ∈ entries) :
    Leads setup mode files (SourceMap.used entries) (SourceMap.tokenOf (SourceMap.used entries)
      (SourceMap.entryOf (files.map Source.fragment) o)) o := by
  obtain ⟨s, hs, t, parsed, n, ht, hparsed, hn, hbegins, hsuffix, hw⟩ := exists_parsed hns ho
  obtain ⟨_, hplace⟩ := placeOf_origin hdistinct hs ht hbegins hsuffix hw
  have hindex := SourceMap.getElem?_idxOf_used he
  simp only [SourceMap.entryOf, hplace] at hindex
  refine ⟨rfl, s, hs, t, parsed, n, ht, hparsed, hn, hbegins, hsuffix, hw,
    (SourceMap.used entries).idxOf s.path, ?_, hindex⟩
  rw [SourceMap.tokenOf, SourceMap.entryOf, hplace]

theorem describes_stitch (hdistinct : (files.map (·.path)).Nodup)
    (hns : ns ∈ setup.trees (files.filterMap Source.sheet?) mode) :
    Describes setup mode files ns (SourceMap.stitch (files.map Source.fragment)
      (Stylesheet.mappings mode.layout ns)) := by
  have hpaths : ((files.map Source.fragment).map (·.path)).Nodup := by
    rwa [List.map_map]
  have hmap : ∀ f ∈ files.map Source.fragment, f.map = none := by
    intro f hf
    obtain ⟨s, _, rfl⟩ := List.mem_map.1 hf
    rfl
  have horigins : ∀ m ∈ Node.allSubnodes ns, m.origin.position.isSome = true ∧
      ∃ f ∈ files.map Source.fragment, m.origin.source = f.path := by
    intro m hm
    obtain ⟨s, hs, t, _, n, ht, _, _, hbegins, hn, hw⟩ := exists_parsed hns hm
    obtain ⟨horigin, _⟩ := placeOf_origin hdistinct hs ht hbegins hn hw
    rw [horigin]
    exact ⟨rfl, _, List.mem_map_of_mem hs, rfl⟩
  have hcontents : ∀ e ∈ SourceMap.entries (files.map Source.fragment) mode.layout ns,
      e.2.content = Fragment.contentAt (files.map Source.fragment) e.2.source := by
    intro e he
    obtain ⟨o, _, rfl⟩ := List.mem_map.1 he
    rfl
  have hused : SourceMap.used (SourceMap.entries (files.map Source.fragment) mode.layout ns) =
      ((Node.allSubnodes ns).map (·.origin.source)).eraseDups := by
    rw [SourceMap.used, SourceMap.entries, List.map_map,
      ← @Node.map_node_placedSheet _ mode.layout, List.map_map]
    rfl
  rw [SourceMap.stitch_mappings hpaths hmap horigins, SourceMap.build_eq hcontents]
  refine ⟨Node.map_node_placedSheet ns, Node.within_placedSheet ns, ?_, hused, ?_, ?_⟩
  · refine List.forall₂_map_left_iff.2 (List.forall₂_map_left_iff.2 (List.forall₂_same.2 ?_))
    intro o ho
    have hnode : o.node ∈ Node.allSubnodes ns := by
      rw [← @Node.map_node_placedSheet _ mode.layout]
      exact List.mem_map_of_mem ho
    exact leads_tokenOf hdistinct hns hnode (List.mem_map_of_mem ho)
  · exact nodup_eraseDups _
  · rw [List.forall₂_map_right_iff, List.forall₂_same]
    intro path hpath
    rw [hused, List.mem_eraseDups, List.mem_map] at hpath
    obtain ⟨m, hm, rfl⟩ := hpath
    obtain ⟨s, hs, t, _, n, ht, _, _, hbegins, hn, hw⟩ := exists_parsed hns hm
    obtain ⟨horigin, hplace⟩ := placeOf_origin hdistinct hs ht hbegins hn hw
    refine ⟨s, hs, ?_, t, ht, ?_⟩
    · rw [horigin]
      rfl
    · exact congrArg (fun p => some p.content) hplace

end Trees

section Outputs

variable {done : List Processed} {o : Options}

theorem path_parseInto (path t : Text) (map : Option Text) (warnings : Nat)
    (calls : List Transform.Call) : (parseInto path t map warnings calls).path = path := by
  rw [parseInto]
  split <;> rfl

theorem path_process (setup : Setup) (work : Text) (sourceMaps : Bool) (s : Source) :
    (process setup work sourceMaps s).path = s.path := by
  rw [process]
  split
  · rfl
  · split
    · dsimp only
      split
      · rfl
      · exact path_parseInto _ _ _ _ _
    · exact path_parseInto _ _ _ _ _

def Processed.fragment (p : Processed) : Fragment := .ofTexts p.path p.text p.map

theorem foldl_register_fragment (h : (done.map (·.path)).Nodup) :
    done.foldl (fun fs p => Fragment.register fs (.ofTexts p.path p.text p.map)) [] =
      done.map Processed.fragment := by
  have hfold := Fragment.foldl_register [] (done.map Processed.fragment) (by
    rw [List.nil_append, List.map_map]
    exact h)
  rwa [List.foldl_map] at hfold

def Mode.path? : Mode → Option Text
  | development => some developmentPath
  | production => none

theorem outputs_mapped (hmaps : o.sourceMaps = true) (h : (done.map (·.path)).Nodup) :
    outputs setup o done = .ok ((setup.trees (done.map (·.sheet)) o.mode).map fun ns =>
      ⟨render o.mode.layout ns, o.mode.path?, some (SourceMap.stitch
        (done.map Processed.fragment) (Stylesheet.mappings o.mode.layout ns)).text⟩) := by
  rw [outputs, if_pos hmaps, foldl_register_fragment h]
  cases o.mode with
  | development => rfl
  | production =>
    simp only [productionOutputs, Stylesheet.minify, List.map_map]
    rfl

end Outputs

section Pass

variable {files : List Source} {work : Text} {o : Options}

theorem process_plain {s : Source} (h : s.Plain setup) (work : Text) (sourceMaps : Bool) :
    ∃ t sheet, s.contents = .ok t ∧ s.sheet? = some sheet ∧
      process setup work sourceMaps s = ⟨s.path, sheet, t, none, none, 0, []⟩ := by
  obtain ⟨sheet, hsheet⟩ := Option.isSome_iff_exists.1 h.parsed
  obtain ⟨t, ns, ht, hns, rfl⟩ := Source.sheet?_eq_some_iff.1 hsheet
  refine ⟨t, _, ht, hsheet, ?_⟩
  have hparse := (@Stylesheet.parse_eq_ok_iff s.path t true _).2 ⟨ns, hns, rfl⟩
  rw [process, ht]
  simp only [h.untransformed, Bool.false_eq_true, if_false, parseInto, hparse, h.unmapped]

/-- What is written of a tree: its text and a map that describes it. The map is read back from what
is written, if its numbers have the 32 bits that a reader keeps of them. -/
def Writes (setup : Setup) (mode : Mode) (files : List Source) (out : Output)
    (ns : List (Node Provenance)) : Prop :=
  out.text = render mode.layout ns ∧ ∃ m : SourceMap, out.map = some m.text ∧
    ((∀ t ∈ m.tokens, t.IsSmall) → SourceMap.parse? m.text = some m) ∧
    Describes setup mode files ns m

theorem outputs_plain (hmaps : o.sourceMaps = true) (hplain : ∀ s ∈ files, s.Plain setup)
    (hdistinct : (files.map (·.path)).Nodup) :
    ∃ outs, outputs setup o (files.map (process setup work o.sourceMaps)) = .ok outs ∧
      List.Forall₂ (Writes setup o.mode files) outs
        (setup.trees (files.filterMap Source.sheet?) o.mode) := by
  have hsheets : (files.map (process setup work o.sourceMaps)).map (·.sheet) =
      files.filterMap Source.sheet? := by
    rw [List.map_map, eq_comm, List.filterMap_eq_map_iff_forall_eq_some]
    intro s hs
    obtain ⟨t, sheet, _, hsheet, hprocess⟩ := process_plain (hplain s hs) work o.sourceMaps
    rw [hsheet, Function.comp_apply, hprocess]
  have hpaths : ((files.map (process setup work o.sourceMaps)).map (·.path)).Nodup := by
    simpa only [List.map_map, Function.comp_def, path_process] using hdistinct
  have hfragments : (files.map (process setup work o.sourceMaps)).map Processed.fragment =
      files.map Source.fragment := by
    rw [List.map_map]
    refine List.map_congr_left fun s hs => ?_
    obtain ⟨t, sheet, ht, _, hprocess⟩ := process_plain (hplain s hs) work o.sourceMaps
    rw [Function.comp_apply, hprocess, Source.fragment, ht]
    rfl
  refine ⟨_, outputs_mapped hmaps hpaths, ?_⟩
  rw [hsheets, hfragments, List.forall₂_map_left_iff, List.forall₂_same]
  intro ns hns
  have hdescribes := describes_stitch hdistinct hns
  exact ⟨rfl, _, rfl, SourceMap.parse?_text hdescribes.isComplete, hdescribes⟩

theorem map_filter_zipIdx (files : List Source) :
    (files.zipIdx.filter fun (s, _) => !isImportOnly s.address).map (·.1) = fragmentFiles files := by
  have h := List.filter_map (f := Prod.fst) (p := fun s : Source => !isImportOnly s.address)
    (l := files.zipIdx)
  rw [List.zipIdx_map_fst] at h
  exact h.symm

theorem isEmpty_filter_zipIdx (files : List Source) :
    (files.zipIdx.filter fun (s, _) => !isImportOnly s.address).isEmpty =
      (fragmentFiles files).isEmpty := by
  rw [← map_filter_zipIdx, List.isEmpty_map]

theorem map_fst_processed (setup : Setup) (work : Text) (maps : Bool) (files : List Source) :
    ((files.zipIdx.filter fun (s, _) => !isImportOnly s.address).map
      fun (s, i) => (process setup work maps s, i)).map (·.1) =
        (fragmentFiles files).map (process setup work maps) := by
  rw [← map_filter_zipIdx, List.map_map, List.map_map]
  rfl

/-- The outcome of a pass that reads some file is decided by what became of the files. -/
theorem outcome_pass (setup : Setup) (work : Text) (o : Options) (h : fragmentFiles files ≠ []) :
    (pass setup work o files).outputs = (outputs setup o
        ((fragmentFiles files).map (process setup work o.sourceMaps))).toOption.getD [] ∧
      ∀ f, (pass setup work o files).result = .error f ↔ ∃ e, outputs setup o
        ((fragmentFiles files).map (process setup work o.sourceMaps)) = .error e ∧ f = .minify e := by
  unfold pass
  simp only [isEmpty_filter_zipIdx, map_fst_processed, List.isEmpty_eq_false_iff.2 h,
    Bool.false_eq_true, if_false]
  cases outputs setup o ((fragmentFiles files).map (process setup work o.sourceMaps)) with
  | error e => simp [Except.toOption, eq_comm]
  | ok written => simp [Except.toOption]

/-- A pass over files that are parsed as they are succeeds, and the map of each output describes
the tree that the output is written of. -/
theorem pass_maps (hmaps : o.sourceMaps = true)
    (hplain : ∀ s ∈ fragmentFiles files, s.Plain setup)
    (hdistinct : ((fragmentFiles files).map (·.path)).Nodup) :
    (∃ summary, (pass setup work o files).result = .ok summary) ∧
      List.Forall₂ (Writes setup o.mode (fragmentFiles files)) (pass setup work o files).outputs
        (printedTrees setup o.mode files) := by
  obtain ⟨outs, houts, hwrites⟩ := @outputs_plain _ _ work _ hmaps hplain hdistinct
  rw [pass, printedTrees]
  simp only [isEmpty_filter_zipIdx]
  by_cases hnil : (fragmentFiles files).isEmpty = true
  · rw [if_pos hnil, if_pos hnil]
    exact ⟨⟨_, rfl⟩, .nil⟩
  · rw [if_neg hnil, if_neg hnil]
    simp only [map_fst_processed, houts]
    exact ⟨⟨_, rfl⟩, hwrites⟩

end Pass

def pairOfFiles : List Source :=
  [⟨"a.css", none, .ok "/*!😀*/@import \"i\";\r\na\x7bb:c\x7d", none⟩,
    ⟨"d.css", none, .ok "@import \"j\";d,e\x7bf:g\x7d", none⟩]

theorem pass_maps_pairOfFiles :
    let setup : Setup := ⟨{ Config.default with anchorReferences := true, chunkBudget := some 1 }, []⟩
    let o : Options := ⟨.production, true⟩
    (∀ s ∈ fragmentFiles pairOfFiles, s.Plain setup) ∧
    ((fragmentFiles pairOfFiles).map (·.path)).Nodup ∧
    (printedTrees setup o.mode pairOfFiles).length = 2 ∧
    (∃ summary, (pass setup [] o pairOfFiles).result = .ok summary) ∧
    List.Forall₂ (Writes setup o.mode (fragmentFiles pairOfFiles)) (pass setup [] o pairOfFiles).outputs
      (printedTrees setup o.mode pairOfFiles) := by
  intro setup o
  have hplain : ∀ s ∈ fragmentFiles pairOfFiles, s.Plain setup := by
    intro s hs
    have hmem := (List.mem_filter.1 hs).1
    rw [pairOfFiles, List.mem_cons, List.mem_singleton] at hmem
    rcases hmem with rfl | rfl <;> exact ⟨by decide +kernel, rfl, by decide +kernel⟩
  have hdistinct : ((fragmentFiles pairOfFiles).map (·.path)).Nodup := by
    decide +kernel
  exact ⟨hplain, hdistinct, by decide +kernel, pass_maps rfl hplain hdistinct⟩

end Stylesmith.Build
