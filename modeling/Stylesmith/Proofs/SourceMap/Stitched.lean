import Stylesmith.Proofs.SourceMap.Sources
import Stylesmith.Proofs.SourceMap.Spots
import Stylesmith.Proofs.Stylesheet.Occurrences
import Stylesmith.SourceMap.Stitch

set_option autoImplicit false

namespace Stylesmith

/-- Without the items of one key, those of the other keys are found as before. -/
theorem find?_filter_bne {α : Type} (key : α → Text) (items : List α) (old path : Text) :
    (items.filter fun x => key x != old).find? (fun x => key x == path) =
      if old = path then none else items.find? fun x => key x == path := by
  rw [List.find?_filter]
  split_ifs with hpath
  · simp [hpath]
  · congr 1
    funext x
    by_cases hx : key x = path
    · simp [hx, Ne.symm hpath]
    · simp [hx]

namespace Fragment

variable {fs : List Fragment}

def contentAt (fs : List Fragment) (path : Text) : Text :=
  ((fs.find? (·.path == path)).map (·.content)).getD []

theorem find?_path (hdistinct : (fs.map (·.path)).Nodup) {f : Fragment} (hf : f ∈ fs) :
    fs.find? (·.path == f.path) = some f := by
  induction fs with
  | nil => exact absurd hf List.not_mem_nil
  | cons g fs ih =>
    rw [List.map_cons, List.nodup_cons] at hdistinct
    rcases List.mem_cons.1 hf with rfl | hf
    · exact List.find?_cons_of_pos (by simp)
    · have hne : g.path ≠ f.path := fun he => hdistinct.1 (he ▸ List.mem_map_of_mem hf)
      rw [List.find?_cons_of_neg (by simpa using hne)]
      exact ih hdistinct.2 hf

theorem contentAt_path (hdistinct : (fs.map (·.path)).Nodup) {f : Fragment} (hf : f ∈ fs) :
    contentAt fs f.path = f.content := by
  rw [contentAt, find?_path hdistinct hf]
  rfl

theorem foldl_register (fs gs : List Fragment) (h : ((fs ++ gs).map (·.path)).Nodup) :
    gs.foldl register fs = fs ++ gs := by
  induction gs generalizing fs with
  | nil => exact (List.append_nil fs).symm
  | cons g gs ih =>
    have hkeep : fs.filter (·.path != g.path) = fs := by
      rw [List.filter_eq_self]
      intro f hf
      rw [List.map_append, List.nodup_append] at h
      simpa using h.2.2 _ (List.mem_map_of_mem hf) _ (List.mem_map_of_mem List.mem_cons_self)
    rw [List.foldl_cons, register, hkeep, ih _ (by simpa using h), List.append_assoc]
    rfl

def placeOf (fs : List Fragment) (o : Provenance) : SourceMap.Place :=
  let p := o.position.getD .first
  ⟨o.source, contentAt fs o.source,
    p.line - 1, Text.column16 (contentAt fs o.source).lines.toArray p⟩

/-- A node that was read from a fragment has its place where its text begins. -/
theorem placeOf_provenance (hdistinct : (fs.map (·.path)).Nodup) {f : Fragment} (hf : f ∈ fs)
    {rest : Text} (hrest : rest <:+ f.content) (h : rest.head? ≠ some '\n') :
    placeOf fs (Stylesheet.provenance f.path f.content true rest) =
      ⟨f.path, f.content, Spot.ofSuffix f.content rest⟩ := by
  rw [← Position.spot_ofSuffix hrest h]
  simp only [placeOf, Stylesheet.provenance, if_true, Option.getD_some, contentAt_path hdistinct hf]

end Fragment

namespace SourceMap

open Fragment

variable {fs : List Fragment} {layout : Layout} {ns : List (Node Provenance)}

def entryOf (fs : List Fragment) (o : Occurrence Provenance) : Spot × Place :=
  (Spot.afterText o.before, placeOf fs o.node.origin)

def entries (fs : List Fragment) (layout : Layout) (ns : List (Node Provenance)) :
    List (Spot × Place) :=
  (Node.placedSheet layout ns).map (entryOf fs)

theorem stitch_mappings (hdistinct : (fs.map (·.path)).Nodup) (hmap : ∀ f ∈ fs, f.map = none)
    (hns : ∀ n ∈ Node.allSubnodes ns, n.origin.position.isSome = true ∧
      ∃ f ∈ fs, n.origin.source = f.path) :
    stitch fs (Stylesheet.mappings layout ns) = build [] (entries fs layout ns) := by
  rw [stitch, Stylesheet.mappings, Node.marks_sheetPieces, List.map_map, List.filterMap_map]
  congr 1
  refine List.filterMap_eq_map_iff_forall_eq_some.2 fun o ho => ?_
  rw [← @Node.map_node_placedSheet _ layout] at hns
  obtain ⟨hposition, f, hf, hsource⟩ := hns o.node (List.mem_map_of_mem ho)
  obtain ⟨p, hp⟩ := Option.isSome_iff_exists.1 hposition
  have hresolve : resolveIn fs o.node.origin.source p = some (placeOf fs o.node.origin) := by
    rw [hsource, resolveIn, find?_path hdistinct hf]
    simp only [resolve, hmap f hf, placeOf, hp, Option.getD_some, hsource,
      contentAt_path hdistinct hf]
  simp [Node.mark, hp, hresolve, Piece.advance_first, entryOf]

/-- A map depends on the fragments that the nodes come from only. -/
theorem stitch_congr {gs : List Fragment} (h : ∀ n ∈ Node.allSubnodes ns,
      fs.find? (·.path == n.origin.source) = gs.find? (·.path == n.origin.source)) :
    stitch fs (Stylesheet.mappings layout ns) = stitch gs (Stylesheet.mappings layout ns) := by
  simp only [stitch, Stylesheet.mappings, Node.marks_sheetPieces, List.map_map, List.filterMap_map]
  congr 1
  refine List.filterMap_congr fun o ho => ?_
  have hfind := h o.node (by
    rw [← @Node.map_node_placedSheet _ layout]
    exact List.mem_map_of_mem ho)
  cases hp : o.node.origin.position with
  | none => simp [Node.mark, hp]
  | some p => simp [Node.mark, hp, resolveIn, hfind]

end SourceMap

end Stylesmith
