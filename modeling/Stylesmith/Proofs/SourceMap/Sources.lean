import Mathlib.Data.List.Basic
import Mathlib.Data.List.Induction
import Stylesmith.SourceMap.Basic

set_option autoImplicit false

namespace Stylesmith

theorem nodup_eraseDups {α : Type} [BEq α] [LawfulBEq α] (l : List α) : l.eraseDups.Nodup := by
  induction hn : l.length using Nat.strongRecOn generalizing l with
  | ind n ih =>
  cases l with
  | nil => exact .nil
  | cons a l =>
    rw [List.eraseDups_cons, List.nodup_cons]
    have hlen := List.length_filter_le (fun b => !b == a) l
    refine ⟨by simp, ih _ ?_ _ rfl⟩
    rw [← hn, List.length_cons]
    omega

namespace SourceMap

variable {entries : List (Spot × Place)} {content : Text → Text}

def used (entries : List (Spot × Place)) : List Text := (entries.map (·.2.source)).eraseDups

def tokenOf (sources : List Text) (e : Spot × Place) : Token :=
  ⟨e.1, some (sources.idxOf e.2.source, e.2.spot)⟩

theorem used_snoc (entries : List (Spot × Place)) (e : Spot × Place) :
    used (entries ++ [e]) =
      if e.2.source ∈ used entries then used entries else used entries ++ [e.2.source] := by
  rw [used, List.map_append, List.map_singleton, List.eraseDups_append, ← used, List.removeAll]
  have hmem : e.2.source ∈ used entries ↔ e.2.source ∈ entries.map (·.2.source) :=
    List.mem_eraseDups
  by_cases he : e.2.source ∈ entries.map (·.2.source)
  · rw [if_pos (hmem.2 he), List.filter_cons_of_neg (by simpa using he)]
    exact List.append_nil _
  · rw [if_neg (fun h => he (hmem.1 h)), List.filter_cons_of_pos (by simpa using he)]
    rfl

theorem mem_used {s : Text} : s ∈ used entries ↔ ∃ e ∈ entries, e.2.source = s := by
  rw [used, List.mem_eraseDups, List.mem_map]

/-- The content with which a source is used first. -/
def contentOf (entries : List (Spot × Place)) (source : Text) : Text :=
  ((entries.find? (·.2.source == source)).map (·.2.content)).getD []

theorem contentOf_append {s : Text} (hs : s ∈ used entries) (more : List (Spot × Place)) :
    contentOf (entries ++ more) s = contentOf entries s := by
  obtain ⟨e, he, rfl⟩ := mem_used.1 hs
  have hsome : (entries.find? (·.2.source == e.2.source)).isSome = true :=
    List.find?_isSome.2 ⟨e, he, beq_self_eq_true _⟩
  rw [contentOf, List.find?_append, Option.or_of_isSome hsome, contentOf]

theorem contentOf_snoc {e : Spot × Place} (he : e.2.source ∉ used entries) :
    contentOf (entries ++ [e]) e.2.source = e.2.content := by
  have hnone : entries.find? (·.2.source == e.2.source) = none := by
    rw [List.find?_eq_none]
    exact fun e' he' heq => he (mem_used.2 ⟨e', he', beq_iff_eq.1 heq⟩)
  rw [contentOf, List.find?_append, hnone, Option.none_or, List.find?_singleton,
    if_pos (beq_self_eq_true _)]
  rfl

theorem contentOf_eq (h : ∀ e ∈ entries, e.2.content = content e.2.source) {s : Text}
    (hs : s ∈ used entries) : contentOf entries s = content s := by
  obtain ⟨e, he, rfl⟩ := mem_used.1 hs
  have hsome : (entries.find? (·.2.source == e.2.source)).isSome = true :=
    List.find?_isSome.2 ⟨e, he, beq_self_eq_true _⟩
  obtain ⟨e', he'⟩ := Option.isSome_iff_exists.1 hsome
  have hsource := List.find?_some he'
  rw [contentOf, he', ← beq_iff_eq.1 hsource]
  exact h e' (List.mem_of_find?_eq_some he')

theorem addSources_eq (entries : List (Spot × Place)) :
    entries.foldl (fun all e => addSource all e.2.source e.2.content) [] =
      (used entries).map fun s => (s, contentOf entries s) := by
  induction entries using List.reverseRec with
  | nil => rfl
  | append_singleton entries e ih =>
    have hkept : (used entries).map (fun s => (s, contentOf (entries ++ [e]) s)) =
        (used entries).map fun s => (s, contentOf entries s) :=
      List.map_congr_left fun s hs => by rw [contentOf_append hs]
    rw [List.foldl_append, ih, List.foldl_cons, List.foldl_nil, used_snoc, addSource]
    by_cases he : e.2.source ∈ used entries
    · rw [if_pos (by simpa using he), if_pos he, hkept]
    · rw [if_neg (by simpa using he), if_neg he, List.map_append, hkept, List.map_singleton,
        contentOf_snoc he]

theorem build_nil (entries : List (Spot × Place)) :
    build [] entries =
      { sources := used entries
        contents := (used entries).map fun s => some (contentOf entries s)
        tokens := entries.map (tokenOf (used entries)) } := by
  have hindex : ∀ s, ((used entries).map fun s => (s, contentOf entries s)).findIdx (·.1 == s) =
      (used entries).idxOf s := by
    intro s
    rw [List.findIdx_map]
    rfl
  have hnames : ((used entries).map fun s => (s, contentOf entries s)).map (·.1) =
      used entries := by
    rw [List.map_map]
    exact List.map_id _
  simp only [build, addSources_eq, hindex, hnames, List.map_map]
  rfl

theorem build_eq (h : ∀ e ∈ entries, e.2.content = content e.2.source) :
    build [] entries =
      { sources := used entries
        contents := (used entries).map fun s => some (content s)
        tokens := entries.map (tokenOf (used entries)) } := by
  rw [build_nil, List.map_congr_left fun s hs => by rw [contentOf_eq h hs]]

theorem getElem?_idxOf_used {e : Spot × Place} (he : e ∈ entries) :
    (used entries)[(used entries).idxOf e.2.source]? = some e.2.source :=
  List.getElem?_idxOf (mem_used.2 ⟨e, he, rfl⟩)

end SourceMap

end Stylesmith
