import Mathlib
import Stylesmith.Proofs.SourceMap.Lookup
import Stylesmith.Proofs.SourceMap.Sources

set_option autoImplicit false

namespace Stylesmith.SourceMap

def nameOf (m : SourceMap) (l : Link) : Text := (m.place l).source

/-- The tokens of a map with their sources by name. -/
def named (m : SourceMap) : List (Spot × Option (Text × Spot)) :=
  m.tokens.map fun t => (t.generated, t.origin.map fun (source, at') =>
    (m.sources[source]?.getD [], at'))

def leads (m : SourceMap) (at' : Spot) : Option (Text × Spot) :=
  (lookup m.links at').map fun l => (m.nameOf l, l.origin)

def steps (outer inner : SourceMap) : List (Spot × Place) :=
  outer.links.filterMap fun l =>
    (lookup inner.links l.origin).map fun found => (l.generated, inner.place found)

theorem compose_eq (outer inner : SourceMap) : compose outer inner = build [] (steps outer inner) :=
  rfl

theorem ordered_steps (outer inner : SourceMap) :
    (steps outer inner).Pairwise fun d e => d.1.le e.1 = true := by
  refine (ordered_links outer).filterMap _ fun k l hkl d hd e he => ?_
  obtain ⟨_, _, rfl⟩ := Option.map_eq_some_iff.1 hd
  obtain ⟨_, _, rfl⟩ := Option.map_eq_some_iff.1 he
  exact hkl

section Build

variable {entries : List (Spot × Place)}

def linkOf (sources : List Text) (e : Spot × Place) : Link :=
  ⟨e.1, sources.idxOf e.2.source, e.2.spot⟩

theorem links_build (h : entries.Pairwise fun d e => d.1.le e.1 = true) :
    (build [] entries).links = entries.map (linkOf (used entries)) := by
  have hsourced : (build [] entries).sourced = entries.map (linkOf (used entries)) := by
    rw [build_nil, sourced, List.filterMap_map, List.filterMap_eq_map_iff_forall_eq_some]
    exact fun e _ => rfl
  rw [links, hsourced]
  exact List.mergeSort_of_pairwise (List.pairwise_map.2 h)

theorem nameOf_linkOf {e : Spot × Place} (he : e ∈ entries) :
    (build [] entries).nameOf (linkOf (used entries) e) = e.2.source := by
  rw [build_nil, nameOf, place, linkOf, getElem?_idxOf_used he, Option.getD_some]

theorem named_build (entries : List (Spot × Place)) :
    (build [] entries).named = entries.map fun e => (e.1, some (e.2.source, e.2.spot)) := by
  rw [build_nil, named, List.map_map]
  refine List.map_congr_left fun e he => ?_
  simp only [Function.comp_apply, tokenOf, Option.map_some, getElem?_idxOf_used he, Option.getD_some]

end Build

theorem named_compose (outer inner : SourceMap) : (compose outer inner).named =
    outer.links.filterMap fun l => (leads inner l.origin).map fun p => (l.generated, some p) := by
  rw [compose_eq, named_build, steps, List.map_filterMap]
  refine List.filterMap_congr fun l _ => ?_
  rw [leads, Option.map_map, Option.map_map]
  rfl

/-- The links of a composed map are those of the outer map that lead on, each to where it leads in
the inner map. -/
theorem filterMap_links_compose {β : Type} (outer inner : SourceMap) (f : Spot → Spot → Option β) :
    (compose outer inner).links.filterMap (fun l => f l.generated l.origin) =
      outer.links.filterMap fun l =>
        (lookup inner.links l.origin).bind fun found => f l.generated found.origin := by
  rw [compose_eq, links_build (ordered_steps outer inner), List.filterMap_map, steps,
    List.filterMap_filterMap]
  refine List.filterMap_congr fun l _ => ?_
  rw [Option.bind_map]
  rfl

variable {a b c : SourceMap}

/-- Whether `inner` knows all places that `outer` leads to: it has a token with a source on the line
of each, at it or before it. -/
def Covers (inner outer : SourceMap) : Prop :=
  ∀ t ∈ outer.tokens, ∀ source at', t.origin = some (source, at') →
    ∃ u ∈ inner.tokens, u.origin.isSome = true ∧ u.generated.line = at'.line ∧
      u.generated.column ≤ at'.column

theorem Covers.exists_lookup (h : Covers c b) {l : Link} (hl : l ∈ b.links) :
    ∃ found, lookup c.links l.origin = some found := by
  rw [mem_links, sourced, List.mem_filterMap] at hl
  obtain ⟨t, ht, hlink⟩ := hl
  obtain ⟨⟨source, at'⟩, horigin, rfl⟩ := Option.map_eq_some_iff.1 hlink
  obtain ⟨u, hu, hsome, hline, hcolumn⟩ := h t ht source at' horigin
  obtain ⟨⟨source', at''⟩, horigin'⟩ := Option.isSome_iff_exists.1 hsome
  rw [← Option.isSome_iff_exists, isSome_lookup_links]
  refine ⟨⟨u.generated, source', at''⟩, List.mem_filterMap.2 ⟨u, hu, by rw [horigin']; rfl⟩, ?_⟩
  exact Link.reaches_iff.2 ⟨hline, hcolumn⟩

/-- A spot leads through a composed map as it leads through both maps, one after the other. The
link that is found in the outer map is not lost, so the one that is found in the composed map is
what became of it. -/
theorem leads_compose (h : Covers c b) (at' : Spot) :
    leads (compose b c) at' = (lookup b.links at').bind fun l => leads c l.origin := by
  let image (l : Link) : Spot × Place :=
    (l.generated, c.place ((lookup c.links l.origin).getD l))
  have hsteps : steps b c = b.links.map image := by
    refine List.filterMap_eq_map_iff_forall_eq_some.2 fun l hl => ?_
    obtain ⟨found, hfound⟩ := h.exists_lookup hl
    simp only [image, hfound, Option.map_some, Option.getD_some]
  have hlinks : (compose b c).links = b.links.map fun l => linkOf (used (steps b c)) (image l) := by
    rw [compose_eq, links_build (ordered_steps b c), hsteps, List.map_map]
    rfl
  rw [leads, hlinks, lookup_map (g := fun l => linkOf (used (steps b c)) (image l)) fun _ => rfl]
  cases hl : lookup b.links at' with
  | none => rfl
  | some l =>
    obtain ⟨found, hfound⟩ := h.exists_lookup (mem_of_lookup hl)
    have hmem : image l ∈ steps b c := hsteps ▸ List.mem_map_of_mem (mem_of_lookup hl)
    rw [Option.map_some, Option.map_some, compose_eq, nameOf_linkOf hmem, Option.bind_some, leads,
      hfound]
    simp only [linkOf, image, hfound, Option.getD_some]
    rfl

/-- Maps are composed in either order with the same tokens, if the last map knows all places that
the middle one leads to. -/
theorem compose_assoc (h : Covers c b) :
    (compose (compose a b) c).named = (compose a (compose b c)).named := by
  rw [named_compose, named_compose]
  simp only [leads_compose h]
  rw [filterMap_links_compose a b fun generated at' => (leads c at').map fun p => (generated, some p)]
  refine List.filterMap_congr fun l _ => ?_
  rw [Option.map_bind]
  rfl

/-- Tokens out of order, two at one spot, one without a source, and a token that leads nowhere. -/
theorem compose_assoc_outOfOrder :
    let a : SourceMap := ⟨["b"], [], [⟨⟨1, 0⟩, some (0, ⟨0, 9⟩)⟩, ⟨⟨0, 2⟩, some (0, ⟨0, 4⟩)⟩,
      ⟨⟨0, 0⟩, some (0, ⟨3, 0⟩)⟩]⟩
    let b : SourceMap := ⟨["c"], [], [⟨⟨0, 7⟩, some (0, ⟨2, 5⟩)⟩, ⟨⟨0, 3⟩, some (0, ⟨2, 1⟩)⟩,
      ⟨⟨0, 3⟩, some (0, ⟨2, 8⟩)⟩, ⟨⟨0, 8⟩, none⟩]⟩
    let c : SourceMap := ⟨["x", "y"], [], [⟨⟨2, 6⟩, some (1, ⟨5, 5⟩)⟩, ⟨⟨2, 0⟩, some (0, ⟨6, 6⟩)⟩]⟩
    Covers c b ∧ (compose a (compose b c)).named =
        [((⟨0, 2⟩ : Spot), some (("y" : Text), (⟨5, 5⟩ : Spot))), (⟨1, 0⟩, some ("x", ⟨6, 6⟩))] ∧
      (compose (compose a b) c).named = (compose a (compose b c)).named := by
  intro a b c
  have hcovers : Covers c b := by
    intro t ht source at' horigin
    simp only [b, List.mem_cons, List.not_mem_nil, or_false] at ht
    rcases ht with rfl | rfl | rfl | rfl
    · cases horigin
      exact ⟨⟨⟨2, 0⟩, some (0, ⟨6, 6⟩)⟩, by decide, rfl, rfl, by decide⟩
    · cases horigin
      exact ⟨⟨⟨2, 0⟩, some (0, ⟨6, 6⟩)⟩, by decide, rfl, rfl, by decide⟩
    · cases horigin
      exact ⟨⟨⟨2, 6⟩, some (1, ⟨5, 5⟩)⟩, by decide, rfl, rfl, by decide⟩
    · cases horigin
  exact ⟨hcovers, by cbv, compose_assoc hcovers⟩

end Stylesmith.SourceMap
