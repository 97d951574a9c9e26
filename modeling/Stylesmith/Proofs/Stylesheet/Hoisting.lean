import Mathlib.Data.List.Basic
import Stylesmith.Stylesheet.Merge

set_option autoImplicit false

namespace Stylesmith.Merge

variable {α : Type}

/-- Whether the node at a position is an import with only comments, `@charset` and imports before
it. -/
def isLeadingImport (ns : List (Node α)) (i : Nat) : Bool :=
  ns[i]?.any (·.isImport) && (ns.take i).all keepsLead

/-- Whether the node at a position is a comment, and the next one that is none a leading import. -/
def isAttached (ns : List (Node α)) (i : Nat) : Bool :=
  ns[i]?.any (·.isComment) &&
    isLeadingImport ns (i + 1 + (ns.drop (i + 1)).findIdx (!·.isComment))

/-- The nodes of a fragment, each with whether it is an import or an attached comment. -/
def marked (ns : List (Node α)) : List (Node α × Bool) :=
  ns.zipIdx.map fun p => (p.1, p.1.isImport || isAttached ns p.2)

def withMark (mark : Bool) (ms : List (Node α × Bool)) : List (Node α) :=
  (ms.filter (·.2 == mark)).map (·.1)

def importNext (ns : List (Node α)) : Bool :=
  ns[ns.findIdx (!·.isComment)]?.any (·.isImport)

def markedFrom (leading : Bool) : List (Node α) → List (Node α × Bool)
  | [] => []
  | n :: ns =>
    (n, n.isImport || (leading && n.isComment && importNext ns)) ::
      markedFrom (leading && keepsLead n) ns

theorem importNext_cons (n : Node α) (ns : List (Node α)) :
    importNext (n :: ns) = if n.isComment then importNext ns else n.isImport := by
  cases h : n.isComment <;> simp [importNext, List.findIdx_cons, h]

theorem all_keepsLead_take_findIdx (ns : List (Node α)) :
    (ns.take (ns.findIdx (!·.isComment))).all keepsLead = true := by
  induction ns with
  | nil => rfl
  | cons n ns ih => cases h : n.isComment <;> simp [List.findIdx_cons, h, keepsLead, ih]

theorem isAttached_append (before : List (Node α)) (n : Node α) (after : List (Node α)) :
    isAttached (before ++ n :: after) before.length =
      (before.all keepsLead && n.isComment && importNext after) := by
  have hdrop : (before ++ n :: after).drop (before.length + 1) = after := by simp
  have hget : (before ++ n :: after)[before.length]? = some n := by simp
  have hnext : ∀ k, (before ++ n :: after)[before.length + 1 + k]? = after[k]? := by
    intro k
    rw [List.getElem?_append_right (by omega)]
    simp [show before.length + 1 + k - before.length = k + 1 by omega]
  have htake : ∀ k, (before ++ n :: after).take (before.length + 1 + k) =
      before ++ n :: after.take k := by
    intro k
    rw [Nat.add_assoc, List.take_length_add_append, Nat.add_comm 1 k, List.take_succ_cons]
  rw [isAttached, isLeadingImport, hdrop, hget, hnext, htake, List.all_append, List.all_cons,
    all_keepsLead_take_findIdx, ← importNext, Bool.and_true]
  -- a comment keeps the lead itself
  cases h : n.isComment <;> simp [keepsLead, h, Bool.and_comm]

/-- Marks by position are marks by recursion. -/
theorem marked_eq (ns : List (Node α)) : marked ns = markedFrom true ns := by
  have hfrom : ∀ before ns : List (Node α), (ns.zipIdx before.length).map
      (fun p => (p.1, p.1.isImport || isAttached (before ++ ns) p.2)) =
        markedFrom (before.all keepsLead) ns := by
    intro before ns
    induction ns generalizing before with
    | nil => rfl
    | cons n ns ih =>
      have hrest := ih (before ++ [n])
      rw [List.length_append, List.append_assoc, List.all_append] at hrest
      rw [List.zipIdx_cons, List.map_cons, isAttached_append, markedFrom]
      simpa using hrest
  exact hfrom [] ns

theorem withMark_cons (mark : Bool) (m : Node α × Bool) (ms : List (Node α × Bool)) :
    withMark mark (m :: ms) = if m.2 == mark then m.1 :: withMark mark ms else withMark mark ms := by
  rw [withMark, List.filter_cons]
  split <;> rfl

theorem not_isImport_of_isComment {n : Node α} (h : n.isComment = true) : n.isImport = false := by
  cases n with
  | comment => rfl
  | rule | group | statement | declaration => cases h

/-- The invariant of the loop: where the comments that wait go is decided by what comes next. -/
theorem hoist_eq {leading : Bool} {pending : List (Node α)} (h : leading = false → pending = [])
    (ns : List (Node α)) :
    hoist leading pending ns =
      if importNext ns then
        (pending ++ withMark true (markedFrom leading ns), withMark false (markedFrom leading ns))
      else
        (withMark true (markedFrom leading ns), pending ++ withMark false (markedFrom leading ns)) := by
  induction ns generalizing leading pending with
  | nil => simp [hoist, importNext, markedFrom, withMark]
  | cons n ns ih =>
    -- with no comments waiting it does not matter what comes next
    have hnone : ∀ leading, hoist leading [] ns =
        (withMark true (markedFrom leading ns), withMark false (markedFrom leading ns)) := by
      intro leading
      rw [ih (fun _ => rfl)]
      split <;> rfl
    rw [hoist, importNext_cons, markedFrom, withMark_cons, withMark_cons]
    by_cases hcomment : n.isComment = true
    · have himport := not_isImport_of_isComment hcomment
      cases leading with
      | true =>
        -- the comment waits too
        rw [if_pos (by simp [hcomment]), ih (by simp)]
        cases importNext ns <;> simp [hcomment, himport, keepsLead]
      | false =>
        rw [h rfl]
        simp [hcomment, himport, hnone]
    · by_cases himport : n.isImport = true
      · simp [hcomment, himport, keepsLead, hnone]
      · simp [hcomment, himport, keepsLead, hnone]

theorem hoist_true (ns : List (Node α)) :
    hoist true [] ns = (withMark true (marked ns), withMark false (marked ns)) := by
  rw [hoist_eq (fun _ => rfl), marked_eq]
  split <;> rfl

theorem marked_of_isImport {ns : List (Node α)} {m : Node α × Bool} (hm : m ∈ marked ns)
    (h : m.1.isImport = true) : m.2 = true := by
  obtain ⟨p, _, rfl⟩ := List.mem_map.1 hm
  simp only at h
  simp [h]

theorem map_fst_marked (ns : List (Node α)) : (marked ns).map (·.1) = ns := by
  rw [marked, List.map_map]
  exact List.zipIdx_map_fst 0 ns

def allMarked (sheets : List Stylesheet) : List (Node Provenance × Bool) :=
  sheets.flatMap fun s => marked s.children

theorem withMark_allMarked (mark : Bool) (sheets : List Stylesheet) :
    withMark mark (allMarked sheets) = sheets.flatMap fun s => withMark mark (marked s.children) := by
  simp only [withMark, allMarked, List.filter_flatMap, List.map_flatMap]

theorem map_fst_allMarked (sheets : List Stylesheet) :
    (allMarked sheets).map (·.1) = sheets.flatMap (·.children) := by
  simp only [allMarked, List.map_flatMap, map_fst_marked]

theorem allMarked_of_isImport {sheets : List Stylesheet} {m : Node Provenance × Bool}
    (hm : m ∈ allMarked sheets) (h : m.1.isImport = true) : m.2 = true := by
  obtain ⟨s, _, hs⟩ := List.mem_flatMap.1 hm
  exact marked_of_isImport hs h

theorem children_eq_withMark (sheets : List Stylesheet) :
    children sheets = withMark true (allMarked sheets) ++ withMark false (allMarked sheets) := by
  simp only [children, hoist_true, withMark_allMarked, List.flatMap_map]

theorem not_isImport_of_mem_withMark {sheets : List Stylesheet} {n : Node Provenance}
    (h : n ∈ withMark false (allMarked sheets)) : n.isImport = false := by
  obtain ⟨m, hm, rfl⟩ := List.mem_map.1 h
  obtain ⟨hm, hmark⟩ := List.mem_filter.1 hm
  rw [Bool.eq_false_iff]
  intro himport
  simp [allMarked_of_isImport hm himport] at hmark

theorem hoist_of_not_isImport {ns : List (Node α)} (h : ∀ n ∈ ns, n.isImport = false)
    (leading : Bool) (pending : List (Node α)) : hoist leading pending ns = ([], pending ++ ns) := by
  induction ns generalizing leading pending with
  | nil => rw [hoist, List.append_nil]
  | cons n ns ih =>
    rw [List.forall_mem_cons] at h
    rw [hoist]
    split_ifs with hwaits himport
    · rw [ih h.2, List.append_assoc]
      rfl
    · simp [h.1] at himport
    · rw [ih h.2]
      rfl

/-- Merging moves the imports and the comments attached to leading ones to the front, and moves
nothing else: both parts are in the order of the fragments. So no other node stands before an
import, and without imports the fragments are merely strung together. -/
theorem children_merge (sheets : List Stylesheet) :
    (allMarked sheets).map (·.1) = sheets.flatMap (·.children) ∧
      (Stylesheet.merge false sheets).children =
        withMark true (allMarked sheets) ++ withMark false (allMarked sheets) ∧
      ((allMarked sheets).filter (·.2 == true) ++ (allMarked sheets).filter (·.2 == false)).Pairwise
        (fun a b => b.1.isImport = true → a.2 = true) ∧
      ((∀ s ∈ sheets, ∀ n ∈ s.children, n.isImport = false) →
        (Stylesheet.merge false sheets).children = sheets.flatMap (·.children)) := by
  refine ⟨map_fst_allMarked sheets, children_eq_withMark sheets, ?_, ?_⟩
  · rw [List.pairwise_append]
    refine ⟨List.pairwise_of_forall_mem_list ?_, List.pairwise_of_forall_mem_list ?_, ?_⟩
    · intro a ha b _ _
      simpa using (List.mem_filter.1 ha).2
    · intro a _ b hb himport
      have hmark := allMarked_of_isImport (List.mem_filter.1 hb).1 himport
      simp [hmark] at hb
    · intro a ha b _ _
      simpa using (List.mem_filter.1 ha).2
  · intro h
    have hparts : sheets.map (fun s => hoist true [] s.children) =
        sheets.map fun s => ([], s.children) :=
      List.map_congr_left fun s hs => hoist_of_not_isImport (h s hs) true []
    simp [Stylesheet.merge, children, hparts, List.flatMap_map]

/-- Two fragments, of which the first has comments before a `@charset`, before a leading import and
before a late one. -/
def mixedFragments : List Stylesheet :=
  let here : Provenance := ⟨"a.css", none⟩
  [⟨some "a.css", [.comment "a" here, .statement "charset" "\"utf-8\"" here, .comment "b" here,
      .statement "import" "\"x.css\"" here, .rule ["c"] [] here, .comment "d" here,
      .statement "import" "\"y.css\"" here]⟩,
    ⟨some "b.css", [.comment "e" here, .rule ["f"] [] here]⟩]

theorem children_merge_mixedFragments :
    (allMarked mixedFragments).map (·.2) =
        [false, false, true, true, false, false, true, false, false] ∧
      (∀ s ∈ mixedFragments.drop 1, ∀ n ∈ s.children, n.isImport = false) ∧
      (Stylesheet.merge false (mixedFragments.drop 1)).children =
        (mixedFragments.drop 1).flatMap (·.children) := by
  have hnone : ∀ s ∈ mixedFragments.drop 1, ∀ n ∈ s.children, n.isImport = false := by
    simp [mixedFragments, Node.isImport, Node.atName?]
  exact ⟨by decide, hnone, (children_merge (mixedFragments.drop 1)).2.2.2 hnone⟩

end Stylesmith.Merge
