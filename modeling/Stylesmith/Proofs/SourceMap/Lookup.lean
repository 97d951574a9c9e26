import Mathlib.Data.List.Basic
import Mathlib.Data.List.Induction
import Stylesmith.SourceMap.Basic

set_option autoImplicit false

namespace Stylesmith

theorem filter_mergeSort {α : Type} {le : α → α → Bool}
    (htrans : ∀ a b c, le a b = true → le b c = true → le a c = true)
    (htotal : ∀ a b, (le a b || le b a) = true) {p : α → Bool} {l : List α}
    (h : (l.filter p).Pairwise fun a b => le a b = true) :
    (l.mergeSort le).filter p = l.filter p := by
  have hsub := (List.sublist_mergeSort htrans htotal h List.filter_sublist).filter p
  rw [List.filter_filter, show (fun a => p a && p a) = p from funext fun a => Bool.and_self _] at hsub
  exact (hsub.eq_of_length ((List.mergeSort_perm l le).filter p).length_eq.symm).symm

theorem getLast?_filter_of_last {α : Type} {p : α → Bool} {l : List α} {a : α}
    (h : l.getLast? = some a) (ha : p a = true) : (l.filter p).getLast? = some a := by
  obtain ⟨before, rfl⟩ := List.getLast?_eq_some_iff.1 h
  rw [List.filter_append, List.filter_cons_of_pos ha]
  exact List.getLast?_concat

namespace Spot

theorem le_iff {a b : Spot} :
    a.le b = true ↔ a.line < b.line ∨ a.line = b.line ∧ a.column ≤ b.column := by
  simp [le]

theorem le_trans {a b c : Spot} (hab : a.le b = true) (hbc : b.le c = true) : a.le c = true := by
  rw [le_iff] at *
  omega

theorem le_total (a b : Spot) : (a.le b || b.le a) = true := by
  rw [Bool.or_eq_true, le_iff, le_iff]
  omega

end Spot

namespace SourceMap

def Ordered (ls : List Link) : Prop := ls.Pairwise fun a b => a.le b = true

theorem Link.le_trans (a b c : Link) : a.le b = true → b.le c = true → a.le c = true := Spot.le_trans

theorem Link.le_total (a b : Link) : (a.le b || b.le a) = true := Spot.le_total _ _

theorem ordered_links (m : SourceMap) : Ordered m.links :=
  List.pairwise_mergeSort Link.le_trans Link.le_total m.sourced

theorem mem_links {m : SourceMap} {l : Link} : l ∈ m.links ↔ l ∈ m.sourced := List.mem_mergeSort

/-- Whether a link stands on the line of a spot and not behind it. -/
def Link.reaches (at' : Spot) (l : Link) : Bool :=
  l.generated.line == at'.line && decide (l.generated.column ≤ at'.column)

theorem Link.reaches_iff {at' : Spot} {l : Link} : l.reaches at' = true ↔
    l.generated.line = at'.line ∧ l.generated.column ≤ at'.column := by
  simp [reaches]

/-- In ordered links the last one that is not behind a spot is on its line if any such link is. -/
theorem lookup_eq_getLast? {ls : List Link} (h : Ordered ls) (at' : Spot) :
    lookup ls at' = (ls.filter (Link.reaches at')).getLast? := by
  induction ls using List.reverseRec with
  | nil => rfl
  | append_singleton ls l ih =>
    obtain ⟨hls, _, hlast⟩ := List.pairwise_append.1 h
    rw [lookup, List.filter_append, List.filter_append, List.filter_singleton,
      List.filter_singleton, cond_eq_ite, cond_eq_ite]
    by_cases hle : l.generated.le at' = true
    · rw [if_pos hle, List.getLast?_concat, Option.filter_some]
      by_cases hline : l.generated.line = at'.line
      · have hreaches : l.reaches at' = true := by
          rw [Spot.le_iff] at hle
          exact Link.reaches_iff.2 ⟨hline, by omega⟩
        rw [if_pos (by simpa using hline), if_pos hreaches, List.getLast?_concat]
      · -- The line is an earlier one, and so are those of all links before.
        have hearlier : ∀ k : Link, k.le l = true → ¬ k.reaches at' = true := by
          intro k hk hreaches
          have hkl := Spot.le_iff.1 hk
          rw [Spot.le_iff] at hle
          rw [Link.reaches_iff] at hreaches
          omega
        have hnone : ls.filter (Link.reaches at') = [] :=
          List.filter_eq_nil_iff.2 fun k hk => hearlier k (hlast k hk l List.mem_cons_self)
        rw [if_neg (by simpa using hline), if_neg (fun h => hline (Link.reaches_iff.1 h).1), hnone]
        rfl
    · have hreaches : ¬ l.reaches at' = true := by
        rw [Link.reaches_iff]
        rw [Spot.le_iff] at hle
        omega
      rw [if_neg hle, if_neg hreaches, List.append_nil, List.append_nil, ← ih hls, lookup]

theorem mem_of_lookup {ls : List Link} {at' : Spot} {l : Link} (h : lookup ls at' = some l) :
    l ∈ ls := by
  rw [lookup, Option.filter_eq_some_iff] at h
  exact List.mem_of_mem_filter (List.mem_of_getLast? h.1)

theorem lookup_map {g : Link → Link} (hg : ∀ l, (g l).generated = l.generated) (ls : List Link)
    (at' : Spot) : lookup (ls.map g) at' = (lookup ls at').map g := by
  simp only [lookup, List.filter_map, List.getLast?_map, Option.filter_map, Function.comp_def, hg]

theorem isSome_lookup_links (m : SourceMap) (at' : Spot) :
    (lookup m.links at').isSome = true ↔ ∃ l ∈ m.sourced, l.reaches at' = true := by
  rw [lookup_eq_getLast? (ordered_links m), Option.isSome_iff_ne_none, ne_eq,
    List.getLast?_eq_none_iff, List.filter_eq_nil_iff]
  simp only [mem_links, not_forall, not_not, exists_prop]

/-- The last of those links that stand furthest to the right. -/
def rightmost (ls : List Link) : Option Link :=
  (ls.filter fun l => ls.all fun k => decide (k.generated.column ≤ l.generated.column)).getLast?

/-- A look-up is told by the tokens in the order of the map. -/
theorem lookup_links (m : SourceMap) (at' : Spot) :
    lookup m.links at' = rightmost (m.sourced.filter (Link.reaches at')) := by
  have hmem : ∀ l : Link, l ∈ m.links.filter (Link.reaches at') ↔
      l ∈ m.sourced.filter (Link.reaches at') := fun l => by
    rw [List.mem_filter, List.mem_filter, mem_links]
  rw [lookup_eq_getLast? (ordered_links m), rightmost]
  generalize hfurthest : (fun l : Link => (m.sourced.filter (Link.reaches at')).all fun k =>
    decide (k.generated.column ≤ l.generated.column)) = furthest
  have hright : ∀ l, furthest l = true ↔ ∀ k ∈ m.sourced.filter (Link.reaches at'),
      k.generated.column ≤ l.generated.column := fun l => by
    simp only [← hfurthest, List.all_eq_true, decide_eq_true_eq]
  -- Links furthest to the right are in any order, so sorting keeps the one that they have.
  have hkept : m.links.filter (fun l => furthest l && l.reaches at') =
      m.sourced.filter fun l => furthest l && l.reaches at' := by
    refine filter_mergeSort Link.le_trans Link.le_total ?_
    refine List.pairwise_of_forall_mem_list fun k hk l hl => ?_
    rw [List.mem_filter, Bool.and_eq_true] at hk hl
    have hcolumn := (hright l).1 hl.2.1 k (List.mem_filter.2 ⟨hk.1, hk.2.2⟩)
    have hkline := (Link.reaches_iff.1 hk.2.2).1
    have hlline := (Link.reaches_iff.1 hl.2.2).1
    exact Spot.le_iff.2 (.inr ⟨hkline.trans hlline.symm, hcolumn⟩)
  rw [List.filter_filter, ← hkept, ← List.filter_filter]
  cases hlast : (m.links.filter (Link.reaches at')).getLast? with
  | none =>
    rw [List.getLast?_eq_none_iff.1 hlast]
    rfl
  | some l =>
    refine (getLast?_filter_of_last hlast ((hright l).2 fun k hk => ?_)).symm
    obtain ⟨before, hbefore⟩ := List.getLast?_eq_some_iff.1 hlast
    have hordered : Ordered (before ++ [l]) := hbefore ▸ (ordered_links m).filter _
    have hline := (List.mem_filter.1 ((hmem l).1 (List.mem_of_getLast? hlast))).2
    have hkmem := (hmem k).2 hk
    rw [hbefore] at hkmem
    rw [Link.reaches_iff] at hline
    rcases List.mem_append.1 hkmem with hkb | hkl
    · have hle := Spot.le_iff.1 ((List.pairwise_append.1 hordered).2.2 k hkb l List.mem_cons_self)
      have hkline := Link.reaches_iff.1 (List.mem_filter.1 hk).2
      omega
    · obtain rfl := List.mem_singleton.1 hkl
      exact Nat.le_refl _

end SourceMap

end Stylesmith
