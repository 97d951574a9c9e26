import Stylesmith.Proofs.Stylesheet.Hoisting

set_option autoImplicit false

namespace Stylesmith.Merge

variable {α : Type}

/-- What moves to the front: imports, each with comments before it. -/
inductive Front : List (Node α) → Prop where
  | nil : Front []
  | cons {comments : List (Node α)} {n : Node α} {ns : List (Node α)}
      (hcomments : ∀ c ∈ comments, c.isComment = true) (hn : n.isImport = true) (hns : Front ns) :
      Front (comments ++ n :: ns)

theorem Front.append {ms ns : List (Node α)} (hms : Front ms) (hns : Front ns) :
    Front (ms ++ ns) := by
  induction hms with
  | nil => exact hns
  | cons hcomments hn _ ih =>
    rw [List.append_assoc, List.cons_append]
    exact .cons hcomments hn ih

theorem front_hoist {leading : Bool} {pending : List (Node α)}
    (h : ∀ c ∈ pending, c.isComment = true) (ns : List (Node α)) :
    Front (hoist leading pending ns).1 := by
  induction ns generalizing leading pending with
  | nil => exact .nil
  | cons n ns ih =>
    have hnone : ∀ c ∈ ([] : List (Node α)), c.isComment = true := by simp
    rw [hoist]
    split_ifs with hwaits himport
    · refine ih fun c hc => ?_
      rcases List.mem_append.1 hc with hc | hc
      · exact h c hc
      · rw [List.mem_singleton.1 hc]
        exact ((Bool.and_eq_true _ _).mp hwaits).2
    · exact .cons h himport (ih hnone)
    · exact ih hnone

theorem front_withMark (sheets : List Stylesheet) : Front (withMark true (allMarked sheets)) := by
  rw [withMark_allMarked]
  induction sheets with
  | nil => exact .nil
  | cons s sheets ih =>
    have hfront := @front_hoist _ true [] (by simp) s.children
    rw [hoist_true] at hfront
    exact hfront.append ih

theorem hoist_comments {comments : List (Node α)} (h : ∀ c ∈ comments, c.isComment = true)
    (pending ns : List (Node α)) :
    hoist true pending (comments ++ ns) = hoist true (pending ++ comments) ns := by
  induction comments generalizing pending with
  | nil => rw [List.append_nil, List.nil_append]
  | cons c comments ih =>
    rw [List.forall_mem_cons] at h
    rw [List.cons_append, hoist, if_pos (by simp [h.1]), ih h.2, List.append_assoc]
    rfl

/-- What once moved to the front moves there again, as it is. -/
theorem hoist_front {ms : List (Node α)} (h : Front ms) (ns : List (Node α)) :
    hoist true [] (ms ++ ns) = (ms ++ (hoist true [] ns).1, (hoist true [] ns).2) := by
  induction h with
  | nil => rfl
  | @cons comments n ms hcomments hn _ ih =>
    have hcomment : n.isComment = false :=
      Bool.eq_false_iff.2 fun hc => by simp [not_isImport_of_isComment hc] at hn
    rw [List.append_assoc, hoist_comments hcomments, List.cons_append, hoist, if_neg (by simp [hcomment]),
      if_pos hn, ih]
    simp

theorem hoist_children (sheets : List Stylesheet) :
    hoist true [] (children sheets) =
      (withMark true (allMarked sheets), withMark false (allMarked sheets)) := by
  rw [children_eq_withMark, hoist_front (front_withMark sheets),
    hoist_of_not_isImport fun n hn => not_isImport_of_mem_withMark hn]
  simp

/-- Fragments are merged in batches as they are at once. -/
theorem children_batches (batches : List (List Stylesheet)) :
    children (batches.map (Stylesheet.merge false)) = children batches.flatten := by
  have hmerge : ∀ b : List Stylesheet, hoist true [] (Stylesheet.merge false b).children =
      (withMark true (allMarked b), withMark false (allMarked b)) := hoist_children
  have hflatten : ∀ mark, withMark mark (allMarked batches.flatten) =
      batches.flatMap fun b => withMark mark (allMarked b) := by
    intro mark
    simp only [withMark_allMarked, List.flatten_eq_flatMap, List.flatMap_assoc]
    rfl
  rw [children_eq_withMark batches.flatten, hflatten, hflatten]
  simp only [children, List.map_map, List.flatMap_map, Function.comp_apply, hmerge]

theorem remarksOn_of_isComment {n : Node α} (h : n.isComment = true) (leading : Bool) :
    remarksOn leading n = [] := by
  cases n with
  | comment => rfl
  | rule | group | statement | declaration => cases h

theorem remarksOn_of_isImport {n : Node α} (h : n.isImport = true) : remarksOn true n = [] := by
  cases n with
  | group | statement => simp_all [Node.isImport, Node.atName?, remarksOn]
  | rule | declaration | comment => cases h

theorem lateImport_notMem_remarksOn {n : Node α} (h : n.isImport = false) (leading : Bool) :
    .lateImport ∉ remarksOn leading n := by
  cases n with
  | group name | statement name =>
    have hname : name ≠ "import" := by simpa [Node.isImport, Node.atName?] using h
    rw [remarksOn, if_neg hname]
    split_ifs <;> simp
  | rule | declaration | comment => simp [remarksOn]

theorem remarks_front {ms : List (Node α)} (h : Front ms) (ns : List (Node α)) :
    remarks true (ms ++ ns) = remarks true ns := by
  induction h with
  | nil => rfl
  | @cons comments n ms hcomments hn _ ih =>
    induction comments with
    | nil => simp [remarks, remarksOn_of_isImport hn, keepsLead, hn, ih]
    | cons c comments ihc =>
      rw [List.forall_mem_cons] at hcomments
      have hrest := ihc hcomments.2
      simp only [List.cons_append, remarks, remarksOn_of_isComment hcomments.1, keepsLead,
        hcomments.1] at hrest ⊢
      exact hrest

theorem lateImport_notMem_remarks {ns : List (Node α)} (h : ∀ n ∈ ns, n.isImport = false)
    (leading : Bool) : .lateImport ∉ remarks leading ns := by
  induction ns generalizing leading with
  | nil => exact List.not_mem_nil
  | cons n ns ih =>
    rw [List.forall_mem_cons] at h
    rw [remarks, List.mem_append, not_or]
    exact ⟨lateImport_notMem_remarksOn h.1 leading, ih h.2 _⟩

theorem lateImport_notMem_remarks_children (sheets : List Stylesheet) :
    .lateImport ∉ remarks true (children sheets) := by
  rw [children_eq_withMark, remarks_front (front_withMark sheets)]
  exact lateImport_notMem_remarks (fun n hn => not_isImport_of_mem_withMark hn) true

/-- Sheets that are merged of fragments are merged again to what all the fragments are merged to,
and their imports are never too late. -/
theorem merge_merged :
    (∀ a b : List Stylesheet,
      (Stylesheet.merge false [Stylesheet.merge false a, Stylesheet.merge false b]).children =
        (Stylesheet.merge false (a ++ b)).children) ∧
      (∀ a : List Stylesheet, (Stylesheet.merge false [Stylesheet.merge false a]).children =
        (Stylesheet.merge false a).children) ∧
      ∀ batches : List (List Stylesheet),
        .lateImport ∉ (Stylesheet.mergeWarnings (batches.map (Stylesheet.merge false))).map
          (·.remark) := by
  refine ⟨fun a b => ?_, fun a => ?_, fun batches hmem => ?_⟩
  · have hbatches := children_batches [a, b]
    rw [List.flatten_cons, List.flatten_singleton] at hbatches
    exact hbatches
  · have hbatches := children_batches [a]
    rw [List.flatten_singleton] at hbatches
    exact hbatches
  · obtain ⟨w, hw, hremark⟩ := List.mem_map.1 hmem
    obtain ⟨s, hs, hws⟩ := List.mem_flatMap.1 hw
    obtain ⟨b, _, rfl⟩ := List.mem_map.1 hs
    obtain ⟨r, hr, rfl⟩ := List.mem_map.1 hws
    exact lateImport_notMem_remarks_children b (hremark ▸ hr)

end Stylesmith.Merge
