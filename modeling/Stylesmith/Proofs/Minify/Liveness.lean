import Stylesmith.Proofs.Stylesheet.Subnodes

set_option autoImplicit false

namespace Stylesmith.Node

variable {α : Type}

mutual

/-- Whether a node has an effect: declarations and statements have one, comments if they are to be
preserved, rules by what stands in them, and groups also by themselves unless they are conditional. -/
def isLive : Node α → Bool
  | rule _ children _ => anyLive children
  | group name _ children _ => !conditionalGroups.contains name || anyLive children
  | statement _ _ _ => true
  | declaration _ _ _ _ => true
  | comment text _ => text.head? == some '!'

def anyLive : List (Node α) → Bool
  | [] => false
  | n :: ns => isLive n || anyLive ns

end

mutual

/-- The node with only the live nodes of its block, at every depth. -/
def keepLive : Node α → Node α
  | rule selectors children o => rule selectors (keepAllLive children) o
  | group name prelude children o => group name prelude (keepAllLive children) o
  | statement name prelude o => statement name prelude o
  | declaration property value important o => declaration property value important o
  | comment text o => comment text o

def keepAllLive : List (Node α) → List (Node α)
  | [] => []
  | n :: ns => if isLive n then keepLive n :: keepAllLive ns else keepAllLive ns

end

/-- The value of a declaration as minifying leaves it. -/
def compactValue (property value : Text) : Text :=
  if isCustomProperty property then value else Value.compact property value

mutual

def compact : Node α → Node α
  | rule selectors children o => rule (selectors.map Selector.compact) (compactAll children) o
  | group name prelude children o => group name (Prelude.compact prelude) (compactAll children) o
  | statement name prelude o => statement name (Prelude.compact prelude) o
  | declaration property value important o =>
    declaration property (compactValue property value) important o
  | comment text o => comment text o

def compactAll : List (Node α) → List (Node α)
  | [] => []
  | n :: ns => compact n :: compactAll ns

end

theorem anyLive_eq_any (ns : List (Node α)) : anyLive ns = ns.any isLive := by
  induction ns with
  | nil => rfl
  | cons n ns ih => simp [anyLive, ih]

theorem keepAllLive_eq (ns : List (Node α)) :
    keepAllLive ns = (ns.filter isLive).map keepLive := by
  induction ns with
  | nil => rfl
  | cons n ns ih =>
    rw [keepAllLive, ih, List.filter_cons]
    split <;> rfl

theorem compactAll_eq_map (ns : List (Node α)) : compactAll ns = ns.map compact := by
  induction ns with
  | nil => rfl
  | cons n ns ih => simp [compactAll, ih]

theorem keepAllLive_eq_nil_iff {ns : List (Node α)} : keepAllLive ns = [] ↔ anyLive ns = false := by
  rw [keepAllLive_eq, anyLive_eq_any, List.map_eq_nil_iff, List.filter_eq_nil_iff, List.any_eq_false]

/-- The match of `minify?` on the minified block, read on the block itself. -/
theorem compactAll_keepAllLive_cases (children : List (Node α)) :
    (anyLive children = false ∧ compactAll (keepAllLive children) = []) ∨
      (anyLive children = true ∧ ∃ n ns, compactAll (keepAllLive children) = n :: ns) := by
  cases h : anyLive children with
  | false =>
    rw [keepAllLive_eq_nil_iff.2 h]
    exact .inl ⟨rfl, rfl⟩
  | true =>
    have hne : compactAll (keepAllLive children) ≠ [] := by
      rw [compactAll_eq_map, ne_eq, List.map_eq_nil_iff, keepAllLive_eq_nil_iff, h]
      decide
    exact .inr ⟨rfl, List.exists_cons_of_ne_nil hne⟩

mutual

theorem minify?_eq (n : Node α) :
    minify? n = if isLive n then some (compact (keepLive n)) else none := by
  cases n with
  | rule selectors children o =>
    rw [minify?, minifyAll_eq children, isLive, keepLive, compact]
    obtain ⟨hlive, hnil⟩ | ⟨hlive, k, ks, hcons⟩ := compactAll_keepAllLive_cases children
    · rw [hnil, hlive]
      rfl
    · rw [hcons, hlive]
      rfl
  | group name prelude children o =>
    rw [minify?, minifyAll_eq children, isLive, keepLive, compact]
    obtain ⟨hlive, hnil⟩ | ⟨hlive, k, ks, hcons⟩ := compactAll_keepAllLive_cases children
    · rw [hnil, hlive]
      cases conditionalGroups.contains name <;> rfl
    · rw [hcons, hlive, Bool.or_true]
      rfl
  | statement | declaration => rfl
  | comment text o => simp [minify?, isLive, keepLive, compact]

/-- Minifying keeps the live nodes, at every depth, and makes them compact. -/
theorem minifyAll_eq (ns : List (Node α)) : minifyAll ns = compactAll (keepAllLive ns) := by
  cases ns with
  | nil => rfl
  | cons n ns =>
    rw [minifyAll, minify?_eq n, minifyAll_eq ns, keepAllLive]
    cases isLive n <;> rfl

end

mutual

theorem isLive_subnodes_of_not_isLive {n : Node α} (h : isLive n = false) :
    ∀ m ∈ subnodes n, isLive m = false := by
  intro m hm
  cases n with
  | rule selectors children o =>
    rw [subnodes, List.mem_cons] at hm
    rcases hm with rfl | hm
    · exact h
    · exact isLive_allSubnodes_of_not_anyLive h m hm
  | group name prelude children o =>
    rw [subnodes, List.mem_cons] at hm
    rcases hm with rfl | hm
    · exact h
    · rw [isLive, Bool.or_eq_false_iff] at h
      exact isLive_allSubnodes_of_not_anyLive h.2 m hm
  | statement | declaration => cases h
  | comment text o => exact List.mem_singleton.1 hm ▸ h

theorem isLive_allSubnodes_of_not_anyLive {ns : List (Node α)} (h : anyLive ns = false) :
    ∀ m ∈ allSubnodes ns, isLive m = false := by
  intro m hm
  cases ns with
  | nil => exact absurd hm List.not_mem_nil
  | cons n ns =>
    rw [anyLive, Bool.or_eq_false_iff] at h
    rw [allSubnodes, List.mem_append] at hm
    rcases hm with hm | hm
    · exact isLive_subnodes_of_not_isLive h.1 m hm
    · exact isLive_allSubnodes_of_not_anyLive h.2 m hm

end

mutual

theorem subnodes_compact (n : Node α) : subnodes (compact n) = (subnodes n).map compact := by
  cases n with
  | rule selectors children o =>
    rw [compact, subnodes, subnodes, allSubnodes_compactAll children, List.map_cons, compact]
  | group name prelude children o =>
    rw [compact, subnodes, subnodes, allSubnodes_compactAll children, List.map_cons, compact]
  | statement | declaration | comment => rfl

theorem allSubnodes_compactAll (ns : List (Node α)) :
    allSubnodes (compactAll ns) = (allSubnodes ns).map compact := by
  cases ns with
  | nil => rfl
  | cons n ns =>
    rw [compactAll, allSubnodes, allSubnodes, subnodes_compact n, allSubnodes_compactAll ns,
      List.map_append]

end

mutual

theorem subnodes_keepLive {n : Node α} (h : isLive n = true) :
    subnodes (keepLive n) = ((subnodes n).filter isLive).map keepLive := by
  cases n with
  | rule selectors children o =>
    rw [keepLive, subnodes, subnodes, allSubnodes_keepAllLive children, List.filter_cons_of_pos h,
      List.map_cons, keepLive]
  | group name prelude children o =>
    rw [keepLive, subnodes, subnodes, allSubnodes_keepAllLive children, List.filter_cons_of_pos h,
      List.map_cons, keepLive]
  | statement | declaration => rfl
  | comment text o =>
    rw [keepLive, subnodes, List.filter_cons_of_pos h]
    rfl

/-- The nodes of a tree of which only the live ones are kept are the live nodes of the tree. -/
theorem allSubnodes_keepAllLive (ns : List (Node α)) :
    allSubnodes (keepAllLive ns) = ((allSubnodes ns).filter isLive).map keepLive := by
  cases ns with
  | nil => rfl
  | cons n ns =>
    rw [keepAllLive, allSubnodes, List.filter_append, List.map_append, ← allSubnodes_keepAllLive ns]
    split
    next h => rw [allSubnodes, subnodes_keepLive h]
    next h =>
      -- a dead node takes no live one with it
      have hdead := isLive_subnodes_of_not_isLive (Bool.eq_false_iff.2 h)
      rw [List.filter_eq_nil_iff.2 fun m hm => by simp [hdead m hm]]
      rfl

end

end Stylesmith.Node
