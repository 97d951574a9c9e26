import Mathlib.Data.List.Infix
import Stylesmith.Proofs.Stylesheet.Batches
import Stylesmith.Proofs.Text.Trimming

set_option autoImplicit false

namespace Stylesmith

variable {α : Type}

def Node.prelude? : Node α → Option Text
  | .group _ prelude _ _ | .statement _ prelude _ => some prelude
  | _ => none

namespace Merge

def IsQuote (c : Char) : Prop := c = '"' ∨ c = '\''

/-- The prelude is the encoding in as many quotes as there are on each side. -/
structure Quotes (prelude encoding : Text) : Prop where
  around : ∃ l r : Text, prelude = l ++ (encoding ++ r) ∧ ∀ c ∈ l ++ r, IsQuote c
  head : ∀ c ∈ encoding.head?, ¬ IsQuote c
  last : ∀ c ∈ encoding.getLast?, ¬ IsQuote c

/-- What is to be remarked on a node with the nodes `before` before it in its fragment. -/
inductive Due (before : List (Node α)) : Node α → Remark → Prop
  | lateImport {n m : Node α} (hn : n.isImport = true) (hm : m ∈ before)
      (hcomment : m.isComment = false) (hcharset : m.isCharset = false)
      (himport : m.isImport = false) : Due before n .lateImport
  | encoding {n : Node α} {prelude encoding : Text} (hn : n.isCharset = true)
      (hprelude : n.prelude? = some prelude) (hquotes : Quotes prelude encoding)
      (hother : encoding.map Char.toLower ≠ ("utf-8" : Text)) :
      Due before n (.encoding encoding)
  | looseDeclaration {property value : Text} {important : Bool} {o : α} :
      Due before (.declaration property value important o) (.looseDeclaration property)

def remark? (before : List (Node α)) (n : Node α) : Option Remark :=
  (remarksOn (before.all keepsLead) n).head?

/-- The nodes of a fragment, each with the nodes before it. -/
def withEarlier (ns : List (Node α)) : List (List (Node α) × Node α) := ns.inits.zip ns

theorem isImport_iff {n : Node α} : n.isImport = true ↔ n.atName? = some ("import" : Text) := by
  simp [Node.isImport]

theorem isCharset_iff {n : Node α} : n.isCharset = true ↔ n.atName? = some ("charset" : Text) := by
  simp [Node.isCharset]

theorem quotes_iff {prelude encoding : Text} :
    Quotes prelude encoding ↔ encodingOf prelude = encoding := by
  have hquote : ∀ c : Char, (c == '"' || c == '\'') = true ↔ IsQuote c := fun c => by
    simp [IsQuote]
  have hother : ∀ c : Char, (c == '"' || c == '\'') = false ↔ ¬ IsQuote c := fun c => by
    rw [← hquote, Bool.not_eq_true]
  rw [encodingOf, Text.trimWhile_eq_iff]
  simp only [hquote, hother]
  constructor
  · rintro ⟨⟨l, r, htext, hall⟩, hhead, hlast⟩
    exact ⟨l, r, htext, hall, hhead, hlast⟩
  · rintro ⟨l, r, htext, hall, hhead, hlast⟩
    exact ⟨⟨l, r, htext, hall⟩, hhead, hlast⟩

theorem isUtf8_iff {encoding : Text} : Text.eqIgnoringCase encoding "utf-8" = true ↔
    encoding.map Char.toLower = ("utf-8" : Text) := beq_iff_eq

theorem remarksOn_eq_toList (leading : Bool) (n : Node α) :
    remarksOn leading n = (remarksOn leading n).head?.toList := by
  cases n with
  | group | statement =>
    rw [remarksOn]
    split_ifs <;> rfl
  | rule | declaration | comment => rfl

theorem remarksOn_of_isImport_eq {n : Node α} (h : n.isImport = true) (leading : Bool) :
    remarksOn leading n = if leading then [] else [.lateImport] := by
  cases n with
  | group | statement =>
    rw [remarksOn]
    exact if_pos (Option.some.inj (isImport_iff.1 h))
  | rule | declaration | comment => cases h

theorem remarksOn_of_isCharset {n : Node α} (h : n.isCharset = true) {prelude : Text}
    (hprelude : n.prelude? = some prelude) (leading : Bool) : remarksOn leading n =
      if Text.eqIgnoringCase (encodingOf prelude) "utf-8" then []
      else [.encoding (encodingOf prelude)] := by
  cases n with
  | group | statement =>
    obtain rfl := Option.some.inj (isCharset_iff.1 h)
    obtain rfl := Option.some.inj hprelude
    rw [remarksOn, if_neg (by decide), if_pos rfl]
  | rule | declaration | comment => cases h

theorem exists_content_iff {before : List (Node α)} : before.all keepsLead = false ↔
    ∃ m ∈ before, m.isComment = false ∧ m.isCharset = false ∧ m.isImport = false := by
  simp only [List.all_eq_false, Bool.not_eq_true, keepsLead, Bool.or_eq_false_iff]
  exact exists_congr fun m => and_congr_right fun _ => by tauto

theorem remark?_eq_some_iff {before : List (Node α)} {n : Node α} {r : Remark} :
    remark? before n = some r ↔ Due before n r := by
  constructor
  · intro h
    rw [remark?] at h
    cases n with
    | group name prelude | statement name prelude =>
      rw [remarksOn] at h
      split_ifs at h with himport hleads hcharset hutf <;> cases h
      · obtain ⟨m, hm, hcomment, hcharset, hother⟩ :=
          exists_content_iff.1 (Bool.eq_false_iff.2 hleads)
        exact .lateImport (isImport_iff.2 (congrArg some himport)) hm hcomment hcharset hother
      · exact .encoding (isCharset_iff.2 (congrArg some hcharset)) rfl (quotes_iff.2 rfl)
          (mt isUtf8_iff.2 hutf)
    | declaration =>
      cases h
      exact .looseDeclaration
    | rule | comment => cases h
  · intro h
    cases h with
    | lateImport hn hm hcomment hcharset himport =>
      have hlate : before.all keepsLead = false :=
        exists_content_iff.2 ⟨_, hm, hcomment, hcharset, himport⟩
      rw [remark?, remarksOn_of_isImport_eq hn, hlate]
      rfl
    | encoding hn hprelude hquotes hother =>
      rw [remark?, remarksOn_of_isCharset hn hprelude, quotes_iff.1 hquotes,
        if_neg (mt isUtf8_iff.1 hother)]
      rfl
    | looseDeclaration => rfl

theorem remarks_eq (ns : List (Node α)) :
    remarks true ns = (withEarlier ns).filterMap fun p => remark? p.1 p.2 := by
  have hfrom : ∀ before ns : List (Node α), remarks (before.all keepsLead) ns =
      ((ns.inits.map (before ++ ·)).zip ns).filterMap fun p => remark? p.1 p.2 := by
    intro before ns
    induction ns generalizing before with
    | nil => rfl
    | cons n ns ih =>
      have hrest := ih (before ++ [n])
      have hinits : ((n :: ns).inits.map (before ++ ·)).zip (n :: ns) =
          (before, n) :: (ns.inits.map (before ++ [n] ++ ·)).zip ns := by
        simp [Function.comp_def]
      rw [List.all_append, List.all_cons, List.all_nil, Bool.and_true] at hrest
      rw [hinits, List.filterMap_cons, ← hrest, remarks, remarksOn_eq_toList, remark?]
      cases (remarksOn (before.all keepsLead) n).head? <;> rfl
  simpa [withEarlier] using hfrom [] ns

/-- Where a walk over the nodes of the fragments stands: what goes to the front and what stays, the
warnings so far, whether imports still lead, and the comments that wait for what comes next. -/
structure Walk where
  front : List (Node Provenance)
  body : List (Node Provenance)
  warnings : List Warning
  leading : Bool
  pending : List (Node Provenance)

namespace Walk

def start : Walk := ⟨[], [], [], true, []⟩

def keep (w : Walk) (n : Node Provenance) : Walk :=
  { w with body := w.body ++ w.pending ++ [n], pending := [] }

def warn (w : Walk) (path : Text) (r : Remark) : Walk :=
  { w with warnings := w.warnings ++ [⟨path, r⟩] }

def pass (path : Text) (w : Walk) (n : Node Provenance) : Walk :=
  if w.leading && n.isComment then { w with pending := w.pending ++ [n] }
  else if n.isImport then
    if w.leading then { w with front := w.front ++ w.pending ++ [n], pending := [] }
    else { w.warn path .lateImport with front := w.front ++ [n] }
  else if n.isCharset then
    let encoding := encodingOf (n.prelude?.getD [])
    if Text.eqIgnoringCase encoding "utf-8" then w.keep n else (w.warn path (.encoding encoding)).keep n
  else
    match n with
    | .declaration property _ _ _ =>
      { (w.warn path (.looseDeclaration property)).keep n with leading := false }
    | _ => { w.keep n with leading := false }

def fragment (anchor : Bool) (w : Walk) (s : Stylesheet) : Walk :=
  let path := s.source.getD []
  let done := s.children.foldl
    (fun w n => pass path w (if anchor then n.anchorReferences path else n))
    { w with leading := true, pending := [] }
  { done with body := done.body ++ done.pending, pending := [] }

def merge (anchor : Bool) (sheets : List Stylesheet) : Stylesheet × List Warning :=
  let done := sheets.foldl (fragment anchor) start
  (⟨none, done.front ++ done.body⟩, done.warnings)

theorem pass_eq {w : Walk} (h : w.leading = false → w.pending = []) (path : Text)
    (n : Node Provenance) : pass path w n =
      ⟨w.front ++ (if n.isImport then w.pending ++ [n] else []),
        w.body ++ (if n.isImport || (w.leading && n.isComment) then [] else w.pending ++ [n]),
        w.warnings ++ (remarksOn w.leading n).map (⟨path, ·⟩),
        w.leading && keepsLead n,
        if w.leading && n.isComment then w.pending ++ [n] else []⟩ := by
  obtain ⟨front, body, warnings, leading, pending⟩ := w
  cases n with
  | group name | statement name =>
    by_cases himport : name = "import"
    · cases leading <;>
        simp_all [pass, warn, remarksOn, keepsLead, Node.isComment, Node.isImport, Node.atName?]
    · by_cases hcharset : name = "charset"
      · simp only [pass, keep, warn]
        split_ifs <;>
          simp_all [remarksOn, keepsLead, Node.isComment, Node.isImport, Node.isCharset,
            Node.atName?, Node.prelude?]
      · simp_all [pass, keep, remarksOn, keepsLead, Node.isComment, Node.isImport, Node.isCharset,
          Node.atName?]
  | comment =>
    cases leading <;>
      simp_all [pass, keep, remarksOn, keepsLead, Node.isComment, Node.isImport, Node.isCharset,
        Node.atName?]
  | rule | declaration =>
    simp [pass, keep, warn, remarksOn, keepsLead, Node.isComment, Node.isImport, Node.isCharset,
      Node.atName?]

theorem foldl_pass (path : Text) {w : Walk} (h : w.leading = false → w.pending = [])
    (ns : List (Node Provenance)) :
    (ns.foldl (pass path) w).front = w.front ++ (hoist w.leading w.pending ns).1 ∧
      (ns.foldl (pass path) w).body ++ (ns.foldl (pass path) w).pending =
        w.body ++ (hoist w.leading w.pending ns).2 ∧
      (ns.foldl (pass path) w).warnings =
        w.warnings ++ (remarks w.leading ns).map (⟨path, ·⟩) := by
  induction ns generalizing w with
  | nil => simp [hoist, remarks]
  | cons n ns ih =>
    have hnext : (pass path w n).leading = false → (pass path w n).pending = [] := by
      rw [pass_eq h]
      cases hwaits : w.leading && n.isComment <;> simp_all [keepsLead]
    obtain ⟨hfront, hbody, hwarnings⟩ := ih hnext
    rw [List.foldl_cons, hfront, hbody, hwarnings, pass_eq h, hoist, remarks]
    cases hwaits : w.leading && n.isComment with
    | true =>
      obtain ⟨hleading, hcomment⟩ := Bool.and_eq_true_iff.1 hwaits
      simp [hleading, hcomment, not_isImport_of_isComment hcomment, keepsLead]
    | false =>
      cases himport : n.isImport with
      | true =>
        have hlead : (w.leading && keepsLead n) = w.leading := by simp [keepsLead, himport]
        simp only [hlead, Bool.false_eq_true, if_false, if_true, Bool.true_or]
        simp
      | false =>
        have hlead : (w.leading && keepsLead n) = (w.leading && n.isCharset) := by
          rw [keepsLead, himport, Bool.or_false, Bool.and_or_distrib_left, hwaits, Bool.false_or]
        simp only [hlead, Bool.false_eq_true, if_false, Bool.false_or]
        simp

theorem remarksOn_anchorReferences (path : Text) (leading : Bool) (n : Node Provenance) :
    remarksOn leading (n.anchorReferences path) = remarksOn leading n := by
  cases n with
  | group name prelude | statement name prelude =>
    by_cases hname : name = "import"
    · simp only [Node.anchorReferences, remarksOn, if_pos hname]
    · simp only [Node.anchorReferences, remarksOn, if_neg hname]
  | rule | declaration | comment => rfl

theorem keepsLead_anchorReferences (path : Text) (n : Node Provenance) :
    keepsLead (n.anchorReferences path) = keepsLead n := by
  cases n <;> rfl

/-- References play no part in what is remarked. -/
theorem remarks_anchorAllReferences (path : Text) (leading : Bool) (ns : List (Node Provenance)) :
    remarks leading (Node.anchorAllReferences path ns) = remarks leading ns := by
  induction ns generalizing leading with
  | nil => rfl
  | cons n ns ih =>
    rw [Node.anchorAllReferences, remarks, remarks, remarksOn_anchorReferences,
      keepsLead_anchorReferences, ih]

def given (anchor : Bool) (s : Stylesheet) : Stylesheet := if anchor then anchorReferences s else s

theorem children_given (anchor : Bool) (s : Stylesheet) : (given anchor s).children =
    s.children.map fun n => if anchor then n.anchorReferences (s.source.getD []) else n := by
  have hmap : ∀ (path : Text) (ns : List (Node Provenance)),
      Node.anchorAllReferences path ns = ns.map (Node.anchorReferences path) := by
    intro path ns
    induction ns with
    | nil => rfl
    | cons n ns ih => rw [Node.anchorAllReferences, ih, List.map_cons]
  cases anchor with
  | true => exact hmap _ _
  | false => exact (List.map_id _).symm

theorem remarks_given (anchor : Bool) (s : Stylesheet) :
    remarks true (given anchor s).children = remarks true s.children := by
  cases anchor with
  | true => exact remarks_anchorAllReferences _ true s.children
  | false => rfl

theorem fragment_eq (anchor : Bool) (w : Walk) (s : Stylesheet) :
    (fragment anchor w s).front = w.front ++ (hoist true [] (given anchor s).children).1 ∧
      (fragment anchor w s).body = w.body ++ (hoist true [] (given anchor s).children).2 ∧
      (fragment anchor w s).warnings =
        w.warnings ++ (remarks true s.children).map (⟨s.source.getD [], ·⟩) := by
  have hfold := @foldl_pass (s.source.getD []) { w with leading := true, pending := [] }
    (fun _ => rfl) (given anchor s).children
  rw [remarks_given, children_given, List.foldl_map] at hfold
  rw [children_given]
  exact hfold

/-- One walk over the nodes, each anchored as it comes, gives the merged sheet and the warnings. -/
theorem merge_eq (anchor : Bool) (sheets : List Stylesheet) :
    merge anchor sheets = (Stylesheet.merge anchor sheets, Stylesheet.mergeWarnings sheets) := by
  have hfold : ∀ (w : Walk) (sheets : List Stylesheet),
      (sheets.foldl (fragment anchor) w).front =
          w.front ++ sheets.flatMap (fun s => (hoist true [] (given anchor s).children).1) ∧
        (sheets.foldl (fragment anchor) w).body =
          w.body ++ sheets.flatMap (fun s => (hoist true [] (given anchor s).children).2) ∧
        (sheets.foldl (fragment anchor) w).warnings = w.warnings ++ Merge.warnings sheets := by
    intro w sheets
    induction sheets generalizing w with
    | nil => simp [Merge.warnings]
    | cons s sheets ih =>
      obtain ⟨hfront, hbody, hwarnings⟩ := ih (fragment anchor w s)
      obtain ⟨hfront', hbody', hwarnings'⟩ := fragment_eq anchor w s
      rw [List.foldl_cons, hfront, hbody, hwarnings, hfront', hbody', hwarnings']
      simp [Merge.warnings]
  obtain ⟨hfront, hbody, hwarnings⟩ := hfold start sheets
  have hgiven : (if anchor then sheets.map anchorReferences else sheets) =
      sheets.map (given anchor) := by
    cases anchor with
    | true => rfl
    | false => exact (List.map_id _).symm
  rw [merge]
  simp only [hfront, hbody, hwarnings, Stylesheet.merge, Stylesheet.mergeWarnings, hgiven,
    Merge.children, List.flatMap_map, List.map_map]
  rfl

end Walk

end Merge

namespace Stylesheet

open Merge

theorem mergeWarnings_anchorReferences (sheets : List Stylesheet) :
    mergeWarnings (sheets.map anchorReferences) = mergeWarnings sheets := by
  simp only [mergeWarnings, warnings, List.flatMap_map, anchorReferences,
    Walk.remarks_anchorAllReferences]

/-- Merging warns of each node on which a remark is due and of no other, in the order of the
fragments and of their nodes. It makes no difference for the sheet and the warnings whether the
references are anchored beforehand or node by node. -/
theorem mergeWarnings_exact :
    (∀ (before : List (Node Provenance)) (n : Node Provenance) (r : Remark),
      remark? before n = some r ↔ Due before n r) ∧
    ∀ sheets : List Stylesheet,
      ((mergeWarnings sheets).map fun w => (w.path, w.remark.message)) =
        (sheets.flatMap fun s => (withEarlier s.children).filterMap fun (before, n) =>
          (remark? before n).map fun r => (s.source.getD [], r.message)) ∧
      (∀ anchor, Walk.merge anchor sheets = (merge anchor sheets, mergeWarnings sheets)) ∧
      Walk.merge true sheets = (merge false (sheets.map anchorReferences),
        mergeWarnings (sheets.map anchorReferences)) := by
  refine ⟨fun _ _ _ => remark?_eq_some_iff, fun sheets => ⟨?_, fun _ => Walk.merge_eq _ _, ?_⟩⟩
  · simp only [mergeWarnings, warnings, List.map_flatMap, remarks_eq, List.map_filterMap,
      Option.map_map, Function.comp_def]
  · rw [Walk.merge_eq, mergeWarnings_anchorReferences]
    rfl

end Stylesheet

end Stylesmith
