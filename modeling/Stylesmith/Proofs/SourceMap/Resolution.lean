import Mathlib
import Stylesmith.Proofs.SourceMap.Lookup
import Stylesmith.Proofs.SourceMap.Stitched

/-!
# Where mappings lead

Stitching told without sorted links, searches and tables: a mapping leads to what was registered
last under its path and, if that has a source map, to where the map says. The result has a token for
each mapping that leads somewhere and lists each source once.
-/

set_option autoImplicit false

namespace Stylesmith

def Spot.ofPosition (content : Text) (p : Position) : Spot :=
  ⟨p.line - 1, Text.column16 content.lines.toArray p⟩

namespace Fragment

/-- What a fragment is registered with; the source map is given as a text. -/
structure Given where
  path : Text
  content : Text
  map : Option Text

def Given.fragment (g : Given) : Fragment := .ofTexts g.path g.content g.map

def registered (given : List Given) : List Fragment := (given.map Given.fragment).foldl register []

/-- Where a position of a fragment leads. What is no source map counts as none. -/
def Given.leadsTo (g : Given) (p : Position) : Option SourceMap.Place :=
  let spot := Spot.ofPosition g.content p
  match g.map.bind SourceMap.parse? with
  | none => some ⟨g.path, g.content, spot⟩
  | some m => (SourceMap.rightmost (m.sourced.filter (·.reaches spot))).map m.place

/-- Where a position leads: to what was registered last under its path, or else to the path. -/
def leadsTo (given : List Given) (path : Text) (p : Position) : Option SourceMap.Place :=
  match given.reverse.find? (·.path == path) with
  | none => some ⟨path, [], p.line - 1, p.column - 1⟩
  | some g => g.leadsTo p

theorem find?_register (fs : List Fragment) (f : Fragment) (p : Text) :
    (register fs f).find? (·.path == p) =
      if f.path = p then some f else fs.find? (·.path == p) := by
  rw [register, List.find?_append, find?_filter_bne path]
  split_ifs with hp
  · simp [hp]
  · simp [hp]

theorem find?_registered (given : List Given) (path : Text) :
    (registered given).find? (·.path == path) =
      (given.reverse.find? (·.path == path)).map Given.fragment := by
  induction given using List.reverseRec with
  | nil => rfl
  | append_singleton given g ih =>
    rw [registered] at ih
    rw [registered, List.map_append, List.foldl_append, List.map_singleton, List.foldl_cons,
      List.foldl_nil, find?_register, ih, List.reverse_append, List.reverse_singleton,
      List.singleton_append, List.find?_cons]
    by_cases hg : g.path = path
    · rw [if_pos (show g.fragment.path = path from hg), beq_iff_eq.2 hg]
      rfl
    · rw [if_neg (show ¬ g.fragment.path = path from hg), beq_eq_false_iff_ne.2 hg]

theorem resolve_fragment (g : Given) (p : Position) : g.fragment.resolve p = g.leadsTo p := by
  have hmap : g.fragment.map = g.map.bind SourceMap.parse? := rfl
  rw [resolve, Given.leadsTo, hmap]
  cases g.map.bind SourceMap.parse? with
  | none => rfl
  | some m => exact congrArg (Option.map m.place) (SourceMap.lookup_links m _)

theorem resolveIn_registered (given : List Given) (path : Text) (p : Position) :
    resolveIn (registered given) path p = leadsTo given path p := by
  rw [resolveIn, find?_registered, leadsTo]
  cases given.reverse.find? (·.path == path) with
  | none => rfl
  | some g => exact resolve_fragment g p

end Fragment

namespace SourceMap

open Fragment

def target? (given : List Given) (m : Mapping) : Option (Spot × Place) :=
  m.origin.bind fun (path, p) =>
    (leadsTo given path p).map fun place => (⟨m.generated.line - 1, m.generated.column - 1⟩, place)

theorem stitch_registered (given : List Given) (mappings : List Mapping) :
    stitch (registered given) mappings = build [] (mappings.filterMap (target? given)) := by
  simp only [stitch, resolveIn_registered]
  rfl

/-- A token stands at the spot of an entry and leads to its place, in a source of these names. -/
def LeadsTo (sources : List Text) (t : Token) (e : Spot × Place) : Prop :=
  t.generated = e.1 ∧ ∃ i, t.origin = some (i, e.2.spot) ∧ sources[i]? = some e.2.source

/-- Stitched maps have one token for each mapping that leads somewhere, in order, and list the
sources that are led to, each once and with the content that it was first led to with. The spot of a
position that is read is that of the text from there on. -/
theorem stitch_leads (given : List Given) (mappings : List Mapping) :
    let m := stitch (registered given) mappings
    let entries := mappings.filterMap (target? given)
    List.Forall₂ (LeadsTo m.sources) m.tokens entries ∧
      m.sources = (entries.map (·.2.source)).eraseDups ∧ m.sources.Nodup ∧
      m.contents = m.sources.map (fun s => some (contentOf entries s)) ∧
      ∀ content rest : Text, rest <:+ content → rest.head? ≠ some '\n' →
        Spot.ofPosition content (Position.ofSuffix content rest) = Spot.ofSuffix content rest := by
  intro m entries
  have hm : m = build [] entries := stitch_registered given mappings
  rw [hm, build_nil]
  refine ⟨?_, rfl, nodup_eraseDups _, rfl, fun content rest => Position.spot_ofSuffix⟩
  rw [List.forall₂_map_left_iff, List.forall₂_same]
  exact fun e he => ⟨rfl, _, rfl, getElem?_idxOf_used he⟩

/-- One fragment is registered twice, and one has a map with tokens out of order, two of them at one
spot. -/
def twiceRegistered : List Given :=
  [⟨"a", "old", none⟩,
    ⟨"b", "d\x7b\x7de\x7b\x7d", some
      "\x7b\"version\":3,\"sources\":[\"s\"],\"mappings\":\"GAEA,HAFA,AAGA\"\x7d"⟩,
    ⟨"a", "/*😀*/f\x7b\x7d", some "\x7b"⟩]

def strayMappings : List Mapping :=
  [⟨⟨1, 1⟩, some ("a", ⟨1, 6⟩)⟩, ⟨⟨1, 9⟩, some ("b", ⟨1, 3⟩)⟩, ⟨⟨2, 1⟩, none⟩,
    ⟨⟨2, 2⟩, some ("b", ⟨2, 1⟩)⟩, ⟨⟨3, 1⟩, some ("c", ⟨4, 2⟩)⟩]

theorem stitch_leads_twiceRegistered :
    let m := stitch (registered twiceRegistered) strayMappings
    m = ⟨["a", "s", "c"], [some "/*😀*/f\x7b\x7d", some [], some []],
      [⟨⟨0, 0⟩, some (0, ⟨0, 6⟩)⟩, ⟨⟨0, 8⟩, some (1, ⟨3, 0⟩)⟩, ⟨⟨2, 0⟩, some (2, ⟨3, 1⟩)⟩]⟩ ∧
    List.Forall₂ (LeadsTo m.sources) m.tokens (strayMappings.filterMap (target? twiceRegistered)) ∧
    Spot.ofPosition "/*😀*/f" (Position.ofSuffix "/*😀*/f" "f") = ⟨0, 6⟩ ∧
    Spot.ofPosition "/*😀*/f" (Position.ofSuffix "/*😀*/f" "f") = Spot.ofSuffix "/*😀*/f" "f" := by
  obtain ⟨htokens, _, _, _, hspot⟩ := stitch_leads twiceRegistered strayMappings
  exact ⟨by cbv, htokens, by decide, hspot "/*😀*/f" "f" ⟨"/*😀*/", rfl⟩ (by decide)⟩

end SourceMap

end Stylesmith
