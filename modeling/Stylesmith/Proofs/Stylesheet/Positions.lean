import Stylesmith.Proofs.Stylesheet.Sequences

set_option autoImplicit false

namespace Stylesmith

namespace Position

theorem lt_past (p : Position) (c : Char) (next : Option Char) : p.lt (p.past c next) := by
  unfold past lt
  split
  · exact .inl (Nat.lt_succ_self p.line)
  · exact .inr ⟨rfl, Nat.lt_succ_self p.column⟩

theorem lt_after (p : Position) {t : Text} (ht : t ≠ []) (next : Option Char) :
    p.lt (p.after t next) := by
  induction t generalizing p with
  | nil => exact absurd rfl ht
  | cons c t ih =>
    have hstep := lt_past p c (t.head?.or next)
    rw [after]
    cases t with
    | nil => exact hstep
    | cons d t => exact lt_trans hstep (ih _ (List.cons_ne_nil d t))

/-- Of two suffixes of a text, the shorter one has the later position. -/
theorem ofSuffix_lt {t long short : Text} (hlong : long <:+ t) (hshort : short <:+ t)
    (h : short.length < long.length) : (ofSuffix t long).lt (ofSuffix t short) := by
  obtain ⟨u, rfl⟩ := List.suffix_of_suffix_length_le hshort hlong h.le
  obtain ⟨before, rfl⟩ := hlong
  have hu : u ≠ [] := by
    rintro rfl
    exact absurd h (lt_irrefl _)
  have hbefore : Text.before (before ++ (u ++ short)) short = before ++ u := by
    rw [← List.append_assoc, Text.before_append]
  rw [ofSuffix, Text.before_append, ofSuffix, hbefore, after_append, List.head?_append]
  exact lt_after _ hu _

end Position

/-- The nodes of a list begin one behind the other, each with more than `low` characters and at most
`high` characters from its beginning on. -/
structure Descends (low high : Nat) (l : List (Node Text)) : Prop where
  ordered : l.Pairwise fun m n => n.origin.length < m.origin.length
  low_lt : ∀ n ∈ l, low < n.origin.length
  le_high : ∀ n ∈ l, n.origin.length ≤ high

namespace Descends

variable {low mid mid' high : Nat} {l l' : List (Node Text)}

theorem nil (low high : Nat) : Descends low high [] :=
  ⟨.nil, fun _ hn => absurd hn List.not_mem_nil, fun _ hn => absurd hn List.not_mem_nil⟩

theorem mono (h : Descends mid mid' l) (hlow : low ≤ mid) (hhigh : mid' ≤ high) :
    Descends low high l :=
  ⟨h.ordered, fun n hn => hlow.trans_lt (h.low_lt n hn), fun n hn => (h.le_high n hn).trans hhigh⟩

theorem append (h : Descends mid high l) (h' : Descends low mid l') (hlow : low ≤ mid)
    (hhigh : mid ≤ high) : Descends low high (l ++ l') := by
  refine ⟨List.pairwise_append.2 ⟨h.ordered, h'.ordered, fun m hm n hn => ?_⟩, ?_, ?_⟩
  · exact (h'.le_high n hn).trans_lt (h.low_lt m hm)
  · intro n hn
    rcases List.mem_append.1 hn with hn | hn
    · exact hlow.trans_lt (h.low_lt n hn)
    · exact h'.low_lt n hn
  · intro n hn
    rcases List.mem_append.1 hn with hn | hn
    · exact h.le_high n hn
    · exact (h'.le_high n hn).trans hhigh

theorem cons {n : Node Text} (hn : n.origin.length = high) (h : Descends low mid l)
    (hlow : low ≤ mid) (hmid : mid < high) : Descends low high (n :: l) := by
  refine append (l := [n]) ⟨List.pairwise_singleton _ _, ?_, ?_⟩ h hlow hmid.le
  · intro m hm
    rw [List.mem_singleton.1 hm, hn]
    exact hmid
  · intro m hm
    rw [List.mem_singleton.1 hm, hn]

end Descends

theorem length_lt_of_item {a : Bool} {start stop : Text} (hs : StartsItem false start)
    (hstop : Scan.toStop ⟨a, []⟩ start = .ok stop) (hopen : stop.head? ≠ some '{') :
    stop.length < start.length := by
  obtain ⟨c, t, rfl, _, hclose, hsemi, _⟩ := hs
  have hc : c ≠ '{' := by
    rintro rfl
    rw [Scan.toStop_of_isStop rfl (Scan.atStop_cons.2 rfl)] at hstop
    cases hstop
    exact hopen rfl
  have hmoves := Scan.toStop_length_le_tail (by simp [Scan.isStop, hc, hsemi, hclose]) hstop
  exact Nat.lt_succ_of_le hmoves

/-- The nodes that a text spells begin one behind the other between its ends: each node begins where
it was read, and its block and its successors are read from what is left. -/
theorem descends_of_spells {top a : Bool} {t rest : Text} {ns : List (Node Text)}
    (h : Spells top a t ns rest) : Descends rest.length t.length (Node.allSubnodes ns) := by
  induction h with
  | endOfText | endOfBlock => exact .nil _ _
  | skip hs _ ih => exact ih.mono le_rfl (suffix_of_skips hs).length_le
  | @comment _ _ t body after _ _ hspan hns ih =>
    obtain ⟨_, rfl⟩ := Lexeme.spanComment_eq_some_iff.1 hspan
    refine .cons rfl ih (suffix_of_spells hns).length_le ?_
    simp only [List.length_cons, List.length_append]
    omega
  | @statement _ _ t name after stop _ _ hname _ hstop _ hns ih =>
    obtain ⟨hafter, hsuffix⟩ := suffixes_of_header hname hstop
    have hlength := hsuffix.length_le
    obtain rfl := spanName_append hname
    refine .cons rfl ih (suffix_of_spells hns).length_le ?_
    simp only [List.length_cons, List.length_append]
    omega
  | @group _ _ t name after body close _ children ns hname _ hstop hchildren hns ihc ih =>
    obtain ⟨hafter, hsuffix⟩ := suffixes_of_header hname hstop
    have hbody := hsuffix.length_le
    have hclose := (suffix_of_spells hchildren).length_le
    have hrest := (suffix_of_spells hns).length_le
    obtain rfl := spanName_append hname
    rw [List.length_cons] at hbody hclose
    have hblock := ihc.append (ih.mono le_rfl (Nat.le_succ _)) (hrest.trans (Nat.le_succ _)) hclose
    refine .cons rfl hblock (hrest.trans ((Nat.le_succ _).trans hclose)) ?_
    simp only [List.length_cons, List.length_append]
    omega
  | @rule _ _ start body close _ children ns hstart hstop _ hchildren hns ihc ih =>
    have hbody := (Scan.suffix_of_toStop hstop).length_le
    have hclose := (suffix_of_spells hchildren).length_le
    have hrest := (suffix_of_spells hns).length_le
    rw [List.length_cons] at hbody hclose
    have hblock := ihc.append (ih.mono le_rfl (Nat.le_succ _)) (hrest.trans (Nat.le_succ _)) hclose
    exact .cons rfl hblock (hrest.trans ((Nat.le_succ _).trans hclose)) hbody
  | @declaration _ start stop _ n ns hstart hstop hopen hread hns ih =>
    obtain ⟨_, _, _, _, _, _, _, _, _, _, rfl⟩ := Reader.declaration_eq_ok_iff.1 hread
    exact .cons rfl ih (suffix_of_spells hns).length_le (length_lt_of_item hstart hstop hopen)

/-- Whether a node stands at the character `c` where it begins: comments at their slash, at-rules at
their sign, nothing at a blank. -/
structure Node.BeginsAt {α : Type} (n : Node α) (c : Char) (after : Text) : Prop where
  not_blank : Text.isBlank c = false
  comment : n.isComment = true → c = '/' ∧ after.head? = some '*'
  atRule : n.atName?.isSome = true → c = '@'

theorem Node.Begins.beginsAt {n : Node Text} (h : n.Begins) :
    ∃ c after, n.origin = c :: after ∧ n.BeginsAt c after := by
  cases n with
  | rule selectors children o =>
    obtain ⟨⟨header, body, rfl, _⟩, hblank⟩ := h
    cases header with
    | nil => exact ⟨'{', body, rfl, rfl, nofun, nofun⟩
    | cons c header => exact ⟨c, header ++ '{' :: body, rfl, hblank c rfl, nofun, nofun⟩
  | group name prelude children o =>
    obtain ⟨_, _, _, rfl, _⟩ := h
    exact ⟨'@', _, rfl, rfl, nofun, fun _ => rfl⟩
  | statement name prelude o =>
    obtain ⟨_, _, _, rfl, _⟩ := h
    exact ⟨'@', _, rfl, rfl, nofun, fun _ => rfl⟩
  | declaration property value important o =>
    obtain ⟨⟨raw, stop, rfl, hread⟩, hblank⟩ := h
    obtain ⟨name, rawValue, _, _, _, hcut, _⟩ := Reader.declaration_eq_ok_iff.1 hread
    have hraw := Lexeme.cut?_text hcut
    rw [Lexeme.flatMap_ofText] at hraw
    -- There is a colon, so there is a first character.
    cases raw with
    | nil => exact absurd hraw (by simp)
    | cons c raw => exact ⟨c, raw ++ stop, rfl, hblank c rfl, nofun, nofun⟩
  | comment text o =>
    obtain ⟨rest, rfl⟩ := h
    exact ⟨'/', _, rfl, rfl, fun _ => ⟨rfl, rfl⟩, nofun⟩

theorem Node.BeginsAt.mapOrigin {α β : Type} {n : Node α} {c : Char} {after : Text}
    (h : n.BeginsAt c after) (f : α → β) : (n.mapOrigin f).BeginsAt c after := by
  cases n <;> exact ⟨h.not_blank, h.comment, h.atRule⟩

namespace Stylesheet

/-- Asking for positions adds positions and nothing else. They grow strictly from node to node, and
each is that of the character at which its node begins. -/
theorem parse_positions (source t : Text) :
    parse source t false =
        (parse source t true).map (fun s => ⟨s.source, Node.unplaced s.children⟩) ∧
      ∀ s, parse source t true = .ok s → ∃ ps : List Position,
        (Node.allSubnodes s.children).map (·.origin.position) = ps.map some ∧
        ps.Pairwise Position.lt ∧
        ∀ n ∈ Node.allSubnodes s.children, ∃ before c after, t = before ++ c :: after ∧
          n.origin.position = some (Position.afterText before) ∧ n.BeginsAt c after := by
  constructor
  · unfold parse
    cases nodes t with
    | error f => rfl
    | ok ns =>
      rw [Except.map, Node.unplaced_provenance]
      rfl
  · intro s hs
    obtain ⟨ns, hns, rfl⟩ := parse_eq_ok_iff.1 hs
    have hspells := nodes_eq_ok_iff.1 hns
    have hbegins := begins_of_spells hspells
    have hposition : ∀ n : Node Text,
        (n.mapOrigin (provenance source t true)).origin.position =
          some (Position.ofSuffix t n.origin) := by
      intro n
      cases n <;> rfl
    rw [Node.allSubnodes_mapOrigins, List.map_map]
    refine ⟨(Node.allSubnodes ns).map fun n => Position.ofSuffix t n.origin, ?_, ?_, ?_⟩
    · rw [List.map_map]
      exact List.map_congr_left fun n _ => hposition n
    · refine List.pairwise_map.2 ((descends_of_spells hspells).ordered.imp_of_mem ?_)
      exact fun hm hn hlt => Position.ofSuffix_lt (hbegins _ hm).2 (hbegins _ hn).2 hlt
    · intro n hn
      obtain ⟨m, hm, rfl⟩ := List.mem_map.1 hn
      obtain ⟨hmbegins, before, hbefore⟩ := hbegins m hm
      obtain ⟨c, after, horigin, hat⟩ := hmbegins.beginsAt
      refine ⟨before, c, after, ?_, ?_, hat.mapOrigin _⟩
      · rw [← hbefore, horigin]
      · rw [hposition, ← hbefore, Position.ofSuffix_append (head_ne_of_begins hmbegins)]

/-- Line ends of three kinds stand between the nodes, and the last one is in a block. -/
theorem parse_positions_mixedLineEnds :
    let t : Text := "/*\r\n*/\r@x y;\x0c é\x7bb:c\x7d"
    ∃ s, parse "a.css" t true = .ok s ∧
      (Node.allSubnodes s.children).map (·.origin.position) =
        [some ⟨1, 1⟩, some ⟨3, 1⟩, some ⟨4, 2⟩, some ⟨4, 4⟩] ∧
      ∃ ps : List Position, (Node.allSubnodes s.children).map (·.origin.position) = ps.map some ∧
        ps.Pairwise Position.lt ∧
        ∀ n ∈ Node.allSubnodes s.children, ∃ before c after, t = before ++ c :: after ∧
          n.origin.position = some (Position.afterText before) ∧ n.BeginsAt c after := by
  intro t
  have hread : (parse "a.css" t true).toOption.any (fun s =>
      (Node.allSubnodes s.children).map (·.origin.position) ==
        [some ⟨1, 1⟩, some ⟨3, 1⟩, some ⟨4, 2⟩, some ⟨4, 4⟩]) = true := by
    decide +kernel
  obtain ⟨s, hs, hplaces⟩ := exists_ok_of_any hread
  exact ⟨s, hs, beq_iff_eq.1 hplaces, (parse_positions "a.css" t).2 s hs⟩

end Stylesheet

end Stylesmith
