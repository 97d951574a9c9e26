import Stylesmith.Proofs.Cursor.Scanning

set_option autoImplicit false

namespace Stylesmith.Cursor.Input

open Lexeme (isIdent)

variable {i : Input} {r r' : Reader} {c : Char} {t start stop rest : Text}

inductive Leads (i : Input) (r : Reader) : Item → Reader → Prop
  | skipped (afterIdent : Bool) (rest : Text) :
      Leads i r (.skipped (i.offset rest)) (r.skip afterIdent rest)
  | node (n : Node Text) (rest : Text) :
      Leads i r (.node (n.mapOrigin i.mark) (i.offset rest)) (r.push n rest)
  | opened (header : Header) {start body : Text} : start <:+ i.text → start ≠ [] →
      '{' :: body <:+ i.text →
      Leads i r (.opened header (i.offset start) (i.offset ('{' :: body)))
        (r.enter header start ('{' :: body) body)
  | closed {b : OpenBlock} {blocks : List OpenBlock} {rest : Text} : r.blocks = b :: blocks →
      '}' :: rest <:+ i.text →
      Leads i r (.closed (i.offset rest)) ⟨blocks, b.node r.nodes.reverse :: b.earlier, false, rest⟩

def Gives (i : Input) (r : Reader) (m : Checked Item) : Except Fault Reader → Prop
  | .error f => m = throw (i.report f)
  | .ok r' => ∃ it, m = pure it ∧ i.Leads r it r' ∧ r'.rest <:+ i.text ∧
      i.Agrees r'.afterIdent r'.rest

/-- The checked reading `m` of an item, in the last `size` characters, goes as that of the reader,
with at most one step for each character that it passes and one more. -/
def Reads (i : Input) (r : Reader) (size : Nat) (m : Checked Item) : Except Fault Reader → Prop
  | .error f => Yields m (.error (i.report f)) (size + 1)
  | .ok r' => ∃ it, Yields m (.ok it) (size - r'.rest.length + 1) ∧ i.Leads r it r' ∧
      r'.rest <:+ i.text ∧ i.Agrees r'.afterIdent r'.rest

theorem Gives.reads {m : Checked Item} {x : Except Fault Reader} (h : i.Gives r m x) (size : Nat) :
    i.Reads r size m x := by
  cases x with
  | error f =>
    rw [h]
    exact (yields_throw _).mono (Nat.zero_le _)
  | ok r' =>
    obtain ⟨it, rfl, h⟩ := h
    exact ⟨it, (yields_pure it).mono (Nat.zero_le _), h⟩

theorem gives_pure {it : Item} (hleads : i.Leads r it r') (hrest : r'.rest <:+ i.text)
    (hagrees : i.Agrees r'.afterIdent r'.rest) : i.Gives r (pure it) (.ok r') :=
  ⟨it, rfl, hleads, hrest, hagrees⟩

theorem gives_fail (cause : SyntaxError.Cause) (h : rest <:+ i.text) (hne : rest ≠ []) :
    i.Gives r (i.fail cause (i.offset rest)) (.error ⟨cause, rest⟩) :=
  fail_offset cause h hne

theorem gives_skipped {mark : Text} {d : Char} (h : start <:+ i.text) (hmark : mark ++ [d] <+: start) :
    i.Gives r (pure (.skipped (i.advance (i.offset start) (mark.length + 1))))
      (.ok (r.skip (isIdent d) (start.drop (mark.length + 1)))) := by
  obtain ⟨rest, rfl⟩ := hmark
  have hrest : (mark ++ [d] ++ rest).drop (mark.length + 1) = rest := List.drop_left' (by simp)
  rw [List.append_assoc] at h
  rw [hrest, advance_offset (by rwa [List.append_assoc]), hrest]
  have hlast : d :: rest <:+ i.text := (List.suffix_append mark (d :: rest)).trans h
  exact gives_pure (.skipped (isIdent d) rest) (suffix_tail hlast) (agrees_behind hlast)

theorem gives_comment (h : '/' :: '*' :: t <:+ i.text) :
    i.Gives r (i.comment (i.offset ('/' :: '*' :: t))) (r.comment ('/' :: '*' :: t)) := by
  rw [comment, skipComment_offset h, Reader.comment]
  simp only [List.drop_succ_cons, List.drop_zero]
  rcases hspan : Lexeme.spanComment t with ⟨body, _ | rest⟩
  · rfl
  · obtain ⟨_, rfl⟩ := Lexeme.spanComment_eq_some_iff.1 hspan
    have hstart : i.offset ('/' :: '*' :: (body ++ '*' :: '/' :: rest)) + 2 =
        i.offset (body ++ '*' :: '/' :: rest) := offset_add h (by simp)
    have hbody : body ++ '*' :: '/' :: rest <:+ i.text := suffix_tail (suffix_tail h)
    have hend : '*' :: '/' :: rest <:+ body ++ '*' :: '/' :: rest := List.suffix_append _ _
    have hslash : '/' :: rest <:+ i.text := suffix_tail (hend.trans hbody)
    have hstop : i.offset rest - 2 = i.offset ('*' :: '/' :: rest) := by
      rw [← offset_tail hslash, ← offset_tail (hend.trans hbody)]
      rfl
    simp only [pure_bind, hstart, hstop, slice_offset hbody hend, Text.before_append,
      origin_offset h (List.cons_ne_nil _ _)]
    exact gives_pure (.node (.comment body _) rest) (suffix_tail hslash) (agrees_behind hslash)

/-- No scan starts within an identifier behind the name of an at-rule. -/
theorem not_ident_spanName (t : Text) : (Text.spanName t).2.head?.any isIdent = false := by
  fun_induction Text.spanName t with
  | case1 => rfl
  | case2 c t name rest hspan ih => rwa [hspan] at ih
  | case3 c t hne hc name rest hspan ih => rwa [hspan] at ih
  | case4 c t hne hc =>
    rw [not_or, Bool.not_eq_true] at hc
    exact hc.2

theorem not_ident_of_toStop {s : Scan.State} (h : Scan.toStop s t = .ok stop) :
    stop.head?.any isIdent = false := by
  cases stop with
  | nil => rfl
  | cons c stop =>
    rcases Scan.isStop_iff.1 (Scan.isStop_of_toStop h) with rfl | rfl | rfl <;> rfl

/-- A reading that goes on without steps from the stop that a scan finds. -/
theorem reads_scan {a : Bool} {size : Nat} {f : Nat → Checked Item} {g : Text → Except Fault Reader}
    (h : t <:+ i.text) (hsize : t.length ≤ size) (hagrees : i.Agrees a t)
    (hgives : ∀ stop, Scan.toStop ⟨a, []⟩ t = .ok stop → i.Gives r (f (i.offset stop)) (g stop))
    (hrest : ∀ stop r', g stop = .ok r' → r'.rest.length ≤ stop.length) :
    i.Reads r size (i.scan (i.offset t) [] >>= f)
      (match Scan.toStop ⟨a, []⟩ t with
        | .error f => .error f
        | .ok stop => g stop) := by
  have hscan := yields_scan (s := ⟨a, []⟩) h hagrees fun _ hp => absurd hp List.not_mem_nil
  cases hstop : Scan.toStop ⟨a, []⟩ t with
  | error fault =>
    rw [hstop] at hscan
    exact hscan.bind_error.mono (Nat.add_le_add_right ((Nat.sub_le _ _).trans hsize) 1)
  | ok stop =>
    rw [hstop] at hscan
    have hle := Scan.toStop_length_le hstop
    have hgives := hgives stop hstop
    simp only
    cases hg : g stop with
    | error fault =>
      rw [hg] at hgives
      refine (hscan.bind (hgives ▸ yields_throw _)).mono ?_
      simp only [left]
      omega
    | ok r' =>
      rw [hg] at hgives
      obtain ⟨it, hpure, hleads⟩ := hgives
      have := hrest stop r' hg
      refine ⟨it, (hscan.bind (hpure ▸ yields_pure it)).mono ?_, hleads⟩
      simp only [left]
      omega

theorem gives_addAtRule {name prelude : Text} (hstart : start <:+ i.text) (hne : start ≠ [])
    (hstop : stop <:+ i.text) (hident : stop.head?.any isIdent = false) :
    i.Gives r
      (if stop.head? = some '{' then
        pure (.opened (.group name prelude) (i.offset start) (i.offset stop))
      else do
        let origin ← i.origin (i.offset start)
        pure (.node (.statement name prelude origin)
          (if stop.head? = some ';' then i.offset stop + 1 else i.offset stop)))
      (.ok (r.addAtRule name prelude start stop)) := by
  rw [origin_offset hstart hne, pure_bind]
  by_cases hopen : stop.head? = some '{'
  · obtain ⟨body, rfl⟩ := List.head?_eq_some_iff.1 hopen
    exact gives_pure (.opened _ hstart hne hstop) (suffix_tail hstop) (agrees_behind hstop)
  by_cases hsemi : stop.head? = some ';'
  · obtain ⟨rest, rfl⟩ := List.head?_eq_some_iff.1 hsemi
    rw [if_neg hopen, if_pos hsemi, offset_tail hstop]
    exact gives_pure (.node (.statement name prelude start) rest) (suffix_tail hstop)
      (agrees_behind hstop)
  · have hadd : r.addAtRule name prelude start stop = r.push (.statement name prelude start) stop := by
      unfold Reader.addAtRule
      split
      · exact absurd rfl hopen
      · exact absurd rfl hsemi
      · rfl
    rw [if_neg hopen, if_neg hsemi, hadd]
    exact gives_pure (.node (.statement name prelude start) stop) hstop (agrees_of_not_ident hident)

theorem reads_atRule {size : Nat} (h : '@' :: t <:+ i.text) (hsize : t.length < size) :
    i.Reads r size (i.atRule (i.offset ('@' :: t))) (r.atRule ('@' :: t)) := by
  rw [atRule, Reader.atRule, offset_tail h, skipName_offset (suffix_tail h)]
  have hident := not_ident_spanName t
  rcases hname : Text.spanName t with ⟨name, after⟩
  rw [hname] at hident
  obtain rfl := spanName_append hname
  have hafter : after <:+ name ++ after := List.suffix_append name after
  have hall := suffix_tail h
  simp only [List.tail_cons, hname, slice_offset hall hafter, Text.before_append, pure_bind]
  cases name with
  | nil =>
    rw [List.isEmpty_nil, if_pos rfl]
    exact (gives_fail .missingName h (List.cons_ne_nil _ _)).reads size
  | cons d name =>
    rw [List.isEmpty_cons, if_neg Bool.false_ne_true]
    have hafterText := hafter.trans hall
    refine reads_scan (g := fun stop => .ok _) hafterText ?_ (agrees_of_not_ident hident) ?_ ?_
    · rw [List.length_append] at hsize
      omega
    · intro stop hstop
      have hstopText := (Scan.suffix_of_toStop hstop).trans hafterText
      simp only [slice_offset hafterText (Scan.suffix_of_toStop hstop), pure_bind,
        getElem?_offset hstopText]
      exact gives_addAtRule h (List.cons_ne_nil _ _) hstopText (not_ident_of_toStop hstop)
    · rintro stop r' hr
      cases hr
      exact Reader.addAtRule_rest_length_le _ _ _ _ _

theorem gives_ruleHeader {body : Text} (hstart : start <:+ i.text) (hne : start ≠ [])
    (hstop : '{' :: body <:+ start) :
    i.Gives r (i.ruleHeader (i.offset start) (i.offset ('{' :: body)))
      (r.enterRule start ('{' :: body)) := by
  have hbrace := hstop.trans hstart
  rw [ruleHeader, slice_offset hstart hstop, pure_bind, Reader.enterRule, Reader.selectors]
  simp only [parts_eq, pure_bind]
  cases (Text.splitTop ',' (Text.collapse (start.before ('{' :: body)))).filter (!·.isEmpty) with
  | nil => exact gives_fail .missingSelector hstart hne
  | cons selector others =>
    exact gives_pure (.opened _ hstart hne hbrace) (suffix_tail hbrace) (agrees_behind hbrace)

theorem declaration_offset (hstart : start <:+ i.text) (hne : start ≠ []) (hstop : stop <:+ start) :
    i.declaration (i.offset start) (i.offset stop) =
      ofExcept (i.result (fun n => .node (n.mapOrigin i.mark) (i.offset stop))
        (Reader.declaration start (start.before stop))) := by
  rw [declaration, slice_offset hstart hstop, pure_bind, Reader.declaration]
  generalize start.before stop = raw
  rcases hcut : Text.cutTop? ':' raw with _ | ⟨name, rawValue⟩
  · rw [topByte_none hcut]
    exact fail_offset .unknownWord hstart hne
  · obtain ⟨hcolon, rfl⟩ := topByte_some hcut
    have hvalue : cutBytes (name ++ ':' :: rawValue) (Text.bytes name + 1) =
        pure (name ++ [':'], rawValue) := by
      have hcut := cutBytes_append (name ++ [':']) rawValue
      rwa [List.append_assoc, Text.bytes_append] at hcut
    simp only [hcolon, cutBytes_append, hvalue, pure_bind, cutMark_eq, origin_offset hstart hne]
    split_ifs
    · exact fail_offset .missingProperty hstart hne
    · exact fail_offset .unknownWord hstart hne
    · rfl
    · rfl

theorem reads_item {size : Nat} (h : start <:+ i.text) (hne : start ≠ [])
    (hsize : start.length ≤ size) (hagrees : i.Agrees r.afterIdent start) :
    i.Reads r size (i.ruleOrDeclaration (!r.blocks.isEmpty) (i.offset start)) (r.item start) := by
  rw [ruleOrDeclaration, Reader.item]
  refine reads_scan h hsize hagrees ?_ ?_
  · intro stop hscan
    have hsuffix := Scan.suffix_of_toStop hscan
    have hstop := hsuffix.trans h
    rw [getElem?_offset hstop]
    split
    · rename_i hopen
      obtain ⟨body, rfl⟩ := List.head?_eq_some_iff.1 hopen
      exact gives_ruleHeader h hne hsuffix
    · rw [Reader.addDeclaration]
      cases hblocks : r.blocks with
      | nil =>
        rw [List.isEmpty_nil, Bool.not_true, if_neg Bool.false_ne_true]
        simp only
        split
        · rename_i hclose
          obtain ⟨after, rfl⟩ := List.head?_eq_some_iff.1 hclose
          exact gives_fail .unexpectedBrace hstop (List.cons_ne_nil _ _)
        · exact gives_fail .unknownWord h hne
      | cons b blocks =>
        rw [List.isEmpty_cons, Bool.not_false, if_pos rfl, declaration_offset h hne hsuffix]
        simp only
        cases Reader.declaration start (start.before stop) with
        | error fault => rfl
        | ok n =>
          exact gives_pure (.node n stop) hstop (agrees_of_not_ident (not_ident_of_toStop hscan))
  · intro stop r' hr
    split at hr
    · rename_i hopen
      exact (Reader.enterRule_rest_length_lt (by rintro rfl; cases hopen) hr).le
    · rw [Reader.addDeclaration_rest hr]

/-- The checked parser reads the next item as the reader does. -/
theorem reads_read {size : Nat} (h : c :: t <:+ i.text) (hsize : t.length < size)
    (hagrees : i.Agrees r.afterIdent (c :: t)) :
    i.Reads r size (i.item (!r.blocks.isEmpty) c (i.offset (c :: t))) (r.read c t) := by
  have hne := List.cons_ne_nil c t
  have htail := suffix_tail h
  unfold item Reader.read
  rw [getElem?_offset_succ h, drop_offset h, offset_tail h]
  split
  · rename_i hclose
    subst hclose
    rw [Reader.close]
    cases hblocks : r.blocks with
    | nil => exact (gives_fail .unexpectedBrace h hne).reads size
    | cons b blocks =>
      exact (gives_pure (.closed hblocks h) htail (agrees_behind h)).reads size
  split
  · rename_i hsemi
    subst hsemi
    exact (gives_pure (.skipped false t) htail (agrees_behind h)).reads size
  split
  · rename_i hcomment
    obtain ⟨rfl, hstar⟩ := hcomment
    obtain ⟨t, rfl⟩ := List.head?_eq_some_iff.1 hstar
    exact (gives_comment h).reads size
  split
  · rename_i hat
    subst hat
    exact reads_atRule h hsize
  rw [Bool.not_not]
  split
  · rename_i hopen
    have hmark : ("<!-" : Text) ++ ['-'] <+: c :: t := List.isPrefixOf_iff_prefix.1 hopen.2
    exact (gives_skipped h hmark).reads size
  split
  · rename_i hclose
    have hmark : ("--" : Text) ++ ['>'] <+: c :: t := List.isPrefixOf_iff_prefix.1 hclose.2
    exact (gives_skipped h hmark).reads size
  · exact reads_item h hne hsize hagrees

end Stylesmith.Cursor.Input
