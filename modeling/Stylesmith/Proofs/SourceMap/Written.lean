import Mathlib.Data.List.Basic
import Mathlib.Tactic.Ring
import Stylesmith.Proofs.Json.Written
import Stylesmith.Proofs.Text.Splitting
import Stylesmith.SourceMap.Json

set_option autoImplicit false

namespace Stylesmith.SourceMap

/-! ## Numbers -/

theorem base64Value?_base64Digit : ∀ n < 64, base64Value? (base64Digit n) = some n := by decide

theorem base64Digit_mem {n : Nat} (h : n < 64) : base64Digit n ∈ base64 := by
  rw [base64Digit, List.getElem?_eq_getElem (show n < base64.length from h)]
  exact List.getElem_mem h

namespace Vlq

def values (segment : Text) : List Nat :=
  segment.flatMap fun c =>
    match base64Value? c with
    | some n => [n]
    | none => List.replicate c.utf8Size 63

theorem values_append (a b : Text) : values (a ++ b) = values a ++ values b :=
  List.flatMap_append

theorem values_base64Digit {n : Nat} (h : n < 64) : values [base64Digit n] = [n] := by
  simp [values, base64Value?_base64Digit n h]

def signed (n : Nat) : Int := if n % 2 = 1 then -(n / 2 : Nat) else (n / 2 : Nat)

theorem go_last {sum shift n : Nat} (hn : n < 32) (hshift : shift < 64)
    (hsum : sum + n * 2 ^ shift < beyond63) (ns : List Nat) :
    decode.go sum shift (n :: ns) =
      (decode.go 0 0 ns).map (signed (sum + n * 2 ^ shift) :: ·) := by
  have hbeyond : beyond63 ≤ beyond64 := by decide
  rw [decode.go, if_neg (by omega)]
  simp only [Nat.mod_eq_of_lt hn, Nat.pow_eq, Nat.mod_eq_of_lt (Nat.lt_of_lt_of_le hsum hbeyond),
    if_neg (show ¬ n ≥ 32 by omega), if_neg (Nat.not_le.2 hsum), signed]
  norm_cast

theorem go_digit {sum shift n : Nat} (hn : n < 32) (hshift : shift < 64)
    (hsum : sum + n * 2 ^ shift < beyond64) (ns : List Nat) :
    decode.go sum shift ((32 + n) :: ns) = decode.go (sum + n * 2 ^ shift) (shift + 5) ns := by
  rw [decode.go, if_neg (by omega)]
  simp only [Nat.add_mod_left, Nat.mod_eq_of_lt hn, Nat.pow_eq, Nat.mod_eq_of_lt hsum]
  rw [if_pos (by omega)]

theorem shift_lt {sum shift n : Nat} (h : 0 < n ∨ shift = 0)
    (hsum : sum + n * 2 ^ shift < beyond63) : shift < 64 := by
  rcases h with hpos | rfl
  · have hpow : 2 ^ shift < 2 ^ 64 := by
      calc 2 ^ shift ≤ n * 2 ^ shift := Nat.le_mul_of_pos_left _ hpos
        _ < beyond63 := by omega
        _ < 2 ^ 64 := by decide
    exact (Nat.pow_lt_pow_iff_right (by decide)).1 hpow
  · decide

/-- The digits of a number are read back after those of a smaller one that it was split from. -/
theorem go_encodeNat {fuel sum shift n : Nat} (hfuel : n < 2 ^ (fuel + 1)) (h : 0 < n ∨ shift = 0)
    (hsum : sum + n * 2 ^ shift < beyond63) (ns : List Nat) :
    decode.go sum shift (values (encodeNat (fuel + 1) n) ++ ns) =
      (decode.go 0 0 ns).map (signed (sum + n * 2 ^ shift) :: ·) := by
  have hshift := shift_lt h hsum
  induction fuel generalizing sum shift n with
  | zero =>
    have hn : n < 32 := Nat.lt_trans hfuel (by decide)
    rw [encodeNat, if_pos hn, values_base64Digit (by omega)]
    exact go_last hn hshift hsum ns
  | succ fuel ih =>
    by_cases hn : n < 32
    · rw [encodeNat, if_pos hn, values_base64Digit (by omega)]
      exact go_last hn hshift hsum ns
    · have hsplit : sum + n % 32 * 2 ^ shift + n / 32 * 2 ^ (shift + 5) = sum + n * 2 ^ shift := by
        calc sum + n % 32 * 2 ^ shift + n / 32 * 2 ^ (shift + 5)
            = sum + (n % 32 + 32 * (n / 32)) * 2 ^ shift := by ring
          _ = sum + n * 2 ^ shift := by rw [Nat.mod_add_div]
      have hbeyond : beyond63 ≤ beyond64 := by decide
      have hfewer : n / 32 < 2 ^ (fuel + 1) := by
        rw [Nat.pow_succ] at hfuel
        omega
      have hrest : 0 < n / 32 ∨ shift + 5 = 0 := .inl (by omega)
      have hsum' : sum + n % 32 * 2 ^ shift + n / 32 * 2 ^ (shift + 5) < beyond63 := hsplit ▸ hsum
      rw [encodeNat, if_neg hn, ← List.singleton_append, values_append,
        values_base64Digit (by omega), List.append_assoc, List.singleton_append,
        go_digit (Nat.mod_lt n (by decide)) hshift (by omega),
        ih hfewer hrest hsum' (shift_lt hrest hsum'), hsplit]

theorem go_encode {i : Int} (h : i.natAbs < beyond32) (ns : List Nat) :
    decode.go 0 0 (values (encode i) ++ ns) = (decode.go 0 0 ns).map (i :: ·) := by
  have hwide : 2 * beyond32 ≤ beyond63 := by decide
  have hread (n : Nat) (hn : n < beyond63) (hi : signed n = i) :
      decode.go 0 0 (values (encodeNat (n.log2 + 1) n) ++ ns) =
        (decode.go 0 0 ns).map (i :: ·) := by
    have hgo : decode.go 0 0 (values (encodeNat (n.log2 + 1) n) ++ ns) =
        (decode.go 0 0 ns).map (signed (0 + n * 2 ^ 0) :: ·) :=
      go_encodeNat Nat.lt_log2_self (.inr rfl) (by simpa using hn) ns
    simpa [hi] using hgo
  cases i with
  | ofNat n =>
    have hn : n < beyond32 := h
    exact hread (2 * n) (by omega) (by simp [signed])
  | negSucc n =>
    have hn : n + 1 < beyond32 := h
    have hsign : signed (2 * (n + 1) + 1) = .negSucc n := by
      rw [signed, if_pos (by omega)]
      omega
    exact hread (2 * (n + 1) + 1) (by omega) hsign

theorem decode_flatMap {is : List Int} (h : ∀ i ∈ is, i.natAbs < beyond32) :
    decode (is.flatMap encode) = some is := by
  have hgo : decode.go 0 0 (values (is.flatMap encode)) = some is := by
    induction is with
    | nil => rfl
    | cons i is ih =>
      obtain ⟨hi, his⟩ := List.forall_mem_cons.1 h
      rw [List.flatMap_cons, values_append, go_encode hi, ih his]
      rfl
  exact hgo

theorem mem_encodeNat {fuel n : Nat} {c : Char} (h : c ∈ encodeNat fuel n) : c ∈ base64 := by
  induction fuel generalizing n with
  | zero => cases h
  | succ fuel ih =>
    rw [encodeNat] at h
    split_ifs at h with hn
    · obtain rfl := List.mem_singleton.1 h
      exact base64Digit_mem (by omega)
    · rcases List.mem_cons.1 h with rfl | h
      · exact base64Digit_mem (by omega)
      · exact ih h

theorem encode_ne_nil (i : Int) : encode i ≠ [] := by
  have hne (fuel n : Nat) : encodeNat (fuel + 1) n ≠ [] := by
    rw [encodeNat]
    split_ifs <;> exact List.cons_ne_nil _ _
  cases i <;> exact hne _ _

end Vlq

/-! ## Segments -/

namespace Base

def restart (b : Base) : Base := { b with column := 0 }

def next (b : Base) (t : Token) : Base :=
  match t.origin with
  | none => { b with column := t.generated.column }
  | some (source, spot) => { b with column := t.generated.column, source, spot }

def deltas (b : Base) (t : Token) : List Int :=
  (t.generated.column - b.column : Int) ::
    match t.origin with
    | none => []
    | some (source, spot) =>
      [(source - b.source : Int), (spot.line - b.spot.line : Int),
        (spot.column - b.spot.column : Int)]

structure IsSmall (b : Base) : Prop where
  column : b.column < beyond32
  source : b.source < beyond32
  line : b.spot.line < beyond32
  spotColumn : b.spot.column < beyond32

end Base

/-- Whether the numbers of a token have 32 bits. -/
structure Token.IsSmall (t : Token) : Prop where
  column : t.generated.column < beyond32
  origin : ∀ source spot, t.origin = some (source, spot) →
    source < beyond32 ∧ spot.line < beyond32 ∧ spot.column < beyond32

variable {b : Base} {t : Token}

theorem Base.IsSmall.restart (hb : b.IsSmall) : b.restart.IsSmall :=
  ⟨show 0 < beyond32 by decide, hb.source, hb.line, hb.spotColumn⟩

theorem Base.IsSmall.next (hb : b.IsSmall) (ht : t.IsSmall) : (b.next t).IsSmall := by
  obtain ⟨generated, _ | ⟨source, spot⟩⟩ := t
  · exact ⟨ht.column, hb.source, hb.line, hb.spotColumn⟩
  · obtain ⟨hsource, hline, hcolumn⟩ := ht.origin source spot rfl
    exact ⟨ht.column, hsource, hline, hcolumn⟩

theorem Base.IsSmall.deltas (hb : b.IsSmall) (ht : t.IsSmall) :
    ∀ i ∈ b.deltas t, i.natAbs < beyond32 := by
  have hdelta {m n : Nat} (hm : m < beyond32) (hn : n < beyond32) :
      ((m : Int) - n).natAbs < beyond32 := by
    omega
  obtain ⟨generated, _ | ⟨source, spot⟩⟩ := t
  · exact List.forall_mem_singleton.2 (hdelta ht.column hb.column)
  · obtain ⟨hsource, hline, hcolumn⟩ := ht.origin source spot rfl
    simp only [Base.deltas, List.forall_mem_cons]
    exact ⟨hdelta ht.column hb.column, hdelta hsource hb.source, hdelta hline hb.line,
      hdelta hcolumn hb.spotColumn, by simp⟩

theorem shift?_sub {n m : Nat} (h : m < beyond32) : shift? n ((m : Int) - n) = some m := by
  have hsum : (n : Int) + (m - n) = m := by omega
  rw [shift?, hsum, if_neg (by omega), Int.toNat_natCast, Nat.mod_eq_of_lt h]

theorem index?_sub {items n m : Nat} (h : m < items) :
    index? items n ((m : Int) - n) = some m := by
  have hsum : (n : Int) + (m - n) = m := by omega
  simp only [index?, hsum]
  rw [if_pos (by omega), Int.toNat_natCast]

theorem decodeSegment_deltas {sources : Nat} (names : Nat) (hb : b.IsSmall) (ht : t.IsSmall)
    (hlisted : ∀ source spot, t.origin = some (source, spot) → source < sources) :
    decodeSegment sources names t.generated.line b ((b.deltas t).flatMap Vlq.encode) =
      some (b.next t, t) := by
  rw [decodeSegment, Vlq.decode_flatMap (hb.deltas ht)]
  obtain ⟨⟨line, column⟩, _ | ⟨source, spot⟩⟩ := t
  · simp [Base.deltas, Base.next, shift?_sub ht.column]
  · obtain ⟨_, hline, hcolumn⟩ := ht.origin source spot rfl
    simp [Base.deltas, Base.next, shift?_sub ht.column, shift?_sub hline, shift?_sub hcolumn,
      index?_sub (hlisted source spot rfl)]

theorem not_mem_deltas {c : Char} (hc : c ∉ base64) (b : Base) (t : Token) :
    c ∉ (b.deltas t).flatMap Vlq.encode := by
  rw [List.mem_flatMap]
  rintro ⟨i, _, h⟩
  exact hc (Vlq.mem_encodeNat h)

theorem deltas_ne_nil (b : Base) (t : Token) : (b.deltas t).flatMap Vlq.encode ≠ [] := by
  rw [Base.deltas, List.flatMap_cons]
  exact List.append_ne_nil_of_left_ne_nil (Vlq.encode_ne_nil _) _

/-! ## Lines -/

section Lines

variable {sources names line : Nat}

def decodeRest (sources names line : Nat) (b : Base) (rest : Text) : Option (List Token) :=
  match Text.splitOn ';' rest with
  | [] => some []
  | l :: ls =>
    (decodeLine sources names line b (Text.splitOn ',' l)).bind fun (b, tokens) =>
      (decodeLines sources names (line + 1) b ls).map (tokens ++ ·)

theorem decodeRest_of_splitOn {rest l : Text} {ls : List Text}
    (h : Text.splitOn ';' rest = l :: ls) (b : Base) :
    decodeRest sources names line b rest =
      (decodeLine sources names line b (Text.splitOn ',' l)).bind fun (b, tokens) =>
        (decodeLines sources names (line + 1) b ls).map (tokens ++ ·) := by
  rw [decodeRest, h]

theorem decodeLines_splitOn (b : Base) (rest : Text) :
    decodeLines sources names line b (Text.splitOn ';' rest) =
      decodeRest sources names line b.restart rest := by
  obtain ⟨l, ls, h⟩ := List.exists_cons_of_ne_nil (Text.splitOn_ne_nil ';' rest)
  rw [decodeRest_of_splitOn h, h]
  rfl

theorem decodeRest_semicolon (b : Base) (rest : Text) :
    decodeRest sources names line b (';' :: rest) =
      decodeRest sources names (line + 1) b.restart rest := by
  rw [decodeRest_of_splitOn (Text.splitOn_sep rest), ← decodeLines_splitOn]
  exact Option.map_id'

theorem decodeRest_replicate (b : Base) (k : Nat) (rest : Text) :
    decodeRest sources names line b (List.replicate (k + 1) ';' ++ rest) =
      decodeRest sources names (line + (k + 1)) b.restart rest := by
  induction k generalizing line b with
  | zero => exact decodeRest_semicolon b rest
  | succ k ih =>
    rw [List.replicate_succ, List.cons_append, decodeRest_semicolon, ih,
      show line + 1 + (k + 1) = line + (k + 1 + 1) by omega]
    rfl

theorem decodeRest_comma (b : Base) (rest : Text) :
    decodeRest sources names line b (',' :: rest) = decodeRest sources names line b rest := by
  obtain ⟨l, ls, h⟩ := List.exists_cons_of_ne_nil (Text.splitOn_ne_nil ';' rest)
  rw [← List.singleton_append, decodeRest_of_splitOn h,
    decodeRest_of_splitOn (Text.splitOn_append_of_not_mem (by decide) h), List.singleton_append,
    Text.splitOn_sep, decodeLine]

/-- A segment is read before what follows a comma or the end of the line. -/
theorem decodeLine_segment {b b' : Base} {t : Token} {segment l : Text} (hne : segment ≠ [])
    (hcomma : ',' ∉ segment) (hl : l = [] ∨ ∃ after, l = ',' :: after)
    (h : decodeSegment sources names line b segment = some (b', t)) :
    decodeLine sources names line b (Text.splitOn ',' (segment ++ l)) =
      (decodeLine sources names line b' (Text.splitOn ',' l)).map fun (b, tokens) =>
        (b, t :: tokens) := by
  have hread (segments : List Text) : decodeLine sources names line b (segment :: segments) =
      (decodeLine sources names line b' segments).map fun (b, tokens) => (b, t :: tokens) := by
    rw [decodeLine.eq_3 _ _ _ _ _ _ hne, h]
    rfl
  rcases hl with rfl | ⟨after, rfl⟩
  · rw [List.append_nil, Text.splitOn_of_not_mem hcomma, hread]
    rfl
  · rw [Text.splitOn_append, Text.splitOn_of_not_mem hcomma, List.singleton_append, hread,
      Text.splitOn_sep, decodeLine]

theorem decodeRest_segment {b b' : Base} {t : Token} {segment rest : Text} (hne : segment ≠ [])
    (hcomma : ',' ∉ segment) (hsemicolon : ';' ∉ segment)
    (hrest : rest = [] ∨ (∃ after, rest = ',' :: after) ∨ ∃ after, rest = ';' :: after)
    (h : decodeSegment sources names line b segment = some (b', t)) :
    decodeRest sources names line b (segment ++ rest) =
      (decodeRest sources names line b' rest).map (t :: ·) := by
  obtain ⟨l, ls, hsplit, hl⟩ : ∃ l ls, Text.splitOn ';' rest = l :: ls ∧
      (l = [] ∨ ∃ after, l = ',' :: after) := by
    rcases hrest with rfl | ⟨after, rfl⟩ | ⟨after, rfl⟩
    · exact ⟨[], [], rfl, .inl rfl⟩
    · obtain ⟨l, ls, hafter⟩ := List.exists_cons_of_ne_nil (Text.splitOn_ne_nil ';' after)
      have hsplit := Text.splitOn_append_of_not_mem (a := [',']) (by decide) hafter
      exact ⟨',' :: l, ls, hsplit, .inr ⟨l, rfl⟩⟩
    · exact ⟨[], _, Text.splitOn_sep after, .inl rfl⟩
  rw [decodeRest_of_splitOn hsplit,
    decodeRest_of_splitOn (Text.splitOn_append_of_not_mem hsemicolon hsplit),
    decodeLine_segment hne hcomma hl h]
  cases decodeLine sources names line b' (Text.splitOn ',' l) with
  | none => rfl
  | some r =>
    rw [Option.map_some, Option.bind_some, Option.bind_some, Option.map_map]
    rfl

/-! ## Mappings -/

def gap (started : Bool) (line : Nat) (t : Token) : Text :=
  if t.generated.line = line then if started then [','] else []
  else List.replicate (t.generated.line - line) ';'

def Base.toward (b : Base) (line : Nat) (t : Token) : Base :=
  if t.generated.line = line then b else b.restart

theorem encodeFrom_cons (started : Bool) (b : Base) (t : Token) (ts : List Token) :
    encodeFrom started line b (t :: ts) =
      gap started line t ++ (((b.toward line t).deltas t).flatMap Vlq.encode ++
        encodeFrom true t.generated.line ((b.toward line t).next t) ts) := by
  obtain ⟨⟨line', column⟩, _ | ⟨source, spot⟩⟩ := t <;>
  · by_cases h : line' = line
    · simp [encodeFrom, gap, Base.toward, Base.deltas, Base.next, h]
    · simp [encodeFrom, gap, Base.toward, Base.deltas, Base.next, Base.restart, h]

theorem decodeRest_gap (started : Bool) (b : Base) {t : Token} (h : line ≤ t.generated.line)
    (rest : Text) :
    decodeRest sources names line b (gap started line t ++ rest) =
      decodeRest sources names t.generated.line (b.toward line t) rest := by
  rw [gap, Base.toward]
  split_ifs with hline hstarted
  · rw [hline]
    exact decodeRest_comma b rest
  · rw [hline]
    rfl
  · obtain ⟨k, hk⟩ := Nat.exists_eq_add_of_lt (Nat.lt_of_le_of_ne h (Ne.symm hline))
    rw [hk, Nat.add_assoc, Nat.add_sub_cancel_left]
    exact decodeRest_replicate b k rest

theorem encodeFrom_start {b : Base} {ts : List Token} (h : ∀ t ∈ ts, line ≤ t.generated.line) :
    encodeFrom true line b ts = [] ∨ (∃ after, encodeFrom true line b ts = ',' :: after) ∨
      ∃ after, encodeFrom true line b ts = ';' :: after := by
  cases ts with
  | nil => exact .inl rfl
  | cons t ts =>
    have ht := h t List.mem_cons_self
    rw [encodeFrom_cons, gap]
    split_ifs with hline hstarted
    · exact .inr (.inl ⟨_, rfl⟩)
    · exact absurd rfl hstarted
    · obtain ⟨k, hk⟩ := Nat.exists_eq_add_of_lt (Nat.lt_of_le_of_ne ht (Ne.symm hline))
      rw [hk, Nat.add_assoc, Nat.add_sub_cancel_left]
      exact .inr (.inr ⟨_, rfl⟩)

/-- Written tokens are read back from a place before them. -/
theorem decodeRest_encodeFrom {ts : List Token} {b : Base} (started : Bool) (hb : b.IsSmall)
    (hsmall : ∀ t ∈ ts, t.IsSmall)
    (hlisted : ∀ t ∈ ts, ∀ source spot, t.origin = some (source, spot) → source < sources)
    (hline : ∀ t ∈ ts, line ≤ t.generated.line)
    (hordered : ts.Pairwise fun s t => s.generated.line ≤ t.generated.line) :
    decodeRest sources names line b (encodeFrom started line b ts) = some ts := by
  induction ts generalizing line b started with
  | nil => rfl
  | cons t ts ih =>
    obtain ⟨ht, hts⟩ := List.forall_mem_cons.1 hsmall
    obtain ⟨hsource, hsources⟩ := List.forall_mem_cons.1 hlisted
    obtain ⟨hafter, hrest⟩ := List.pairwise_cons.1 hordered
    have htoward : (b.toward line t).IsSmall := by
      rw [Base.toward]
      split_ifs
      · exact hb
      · exact hb.restart
    rw [encodeFrom_cons, decodeRest_gap started b (hline t List.mem_cons_self),
      decodeRest_segment (deltas_ne_nil _ t) (not_mem_deltas (by decide) _ t)
        (not_mem_deltas (by decide) _ t) (encodeFrom_start hafter)
        (decodeSegment_deltas names htoward ht hsource),
      ih true (htoward.next ht) hts hsources hafter hrest]
    rfl

theorem mem_encodeFrom {started : Bool} {b : Base} {ts : List Token} {c : Char}
    (h : c ∈ encodeFrom started line b ts) : c ∈ ';' :: ',' :: base64 := by
  induction ts generalizing started line b with
  | nil => cases h
  | cons t ts ih =>
    rw [encodeFrom_cons, List.mem_append, List.mem_append] at h
    rcases h with h | h | h
    · rw [gap] at h
      split_ifs at h
      · simp [List.mem_singleton.1 h]
      · cases h
      · simp [(List.mem_replicate.1 h).2]
    · obtain ⟨i, _, hi⟩ := List.mem_flatMap.1 h
      exact List.mem_cons_of_mem _ (List.mem_cons_of_mem _ (Vlq.mem_encodeNat hi))
    · exact ih h

end Lines

theorem quote_encodeMappings (ts : List Token) :
    Json.quote (encodeMappings ts) = '"' :: (encodeMappings ts ++ ['"']) := by
  have hplain : ∀ c ∈ ';' :: ',' :: base64, Json.escapeChar c = [c] := Text.forall_of_all rfl
  have hall : (encodeMappings ts).flatMap Json.escapeChar = encodeMappings ts := by
    calc (encodeMappings ts).flatMap Json.escapeChar
        = (encodeMappings ts).flatMap fun c => [c] :=
          List.flatMap_congr fun c hc => hplain c (mem_encodeFrom hc)
      _ = encodeMappings ts := List.flatMap_singleton' _
  rw [Json.quote, hall]
  rfl

/-- What is written says everything of a map whose tokens are in the order of their lines and name
listed sources, and whose contents are known. -/
structure IsComplete (m : SourceMap) : Prop where
  ordered : m.tokens.Pairwise fun s t => s.generated.line ≤ t.generated.line
  listed : ∀ t ∈ m.tokens, ∀ source spot, t.origin = some (source, spot) →
    source < m.sources.length
  known : ∀ c ∈ m.contents, c.isSome = true

theorem decodeMappings_encodeMappings {m : SourceMap} (h : m.IsComplete)
    (hsmall : ∀ t ∈ m.tokens, t.IsSmall) (names : Nat) :
    decodeMappings m.sources.length names (encodeMappings m.tokens) = some m.tokens := by
  have hzero : (⟨0, 0, ⟨0, 0⟩, 0⟩ : Base).IsSmall := ⟨by decide, by decide, by decide, by decide⟩
  rw [decodeMappings, decodeLines_splitOn]
  exact decodeRest_encodeFrom false hzero hsmall h.listed (fun _ _ => Nat.zero_le _) h.ordered

/-! ## Texts -/

def writtenFields (m : SourceMap) : List (Text × Text) :=
  ("version".toList, "3".toList) :: ("names".toList, "[]".toList) ::
    ("sources".toList, '[' :: quoteAll m.sources ++ [']']) ::
    ((if m.contents.isEmpty then []
      else [("sourcesContent".toList, '[' :: quoteAll (m.contents.map (·.getD [])) ++ [']'])]) ++
    [("mappings".toList, Json.quote (encodeMappings m.tokens))])

theorem text_eq (m : SourceMap) : m.text = '\x7b' ::
    (Text.join [','] (m.writtenFields.map fun f => Json.quote f.1 ++ ':' :: f.2) ++ ['\x7d']) := by
  have hversion : Json.quote "version".toList = "\"version\"".toList := by decide
  have hnames : Json.quote "names".toList = "\"names\"".toList := by decide
  have hsources : Json.quote "sources".toList = "\"sources\"".toList := by decide
  have hcontents : Json.quote "sourcesContent".toList = "\"sourcesContent\"".toList := by decide
  have hmappings : Json.quote "mappings".toList = "\"mappings\"".toList := by decide
  rw [writtenFields, quote_encodeMappings]
  unfold text
  generalize encodeMappings m.tokens = written
  cases m.contents.isEmpty <;>
  · simp only [Bool.false_eq_true, if_true, if_false, List.cons_append, List.nil_append,
      List.map_cons, List.map_nil, Text.join, hversion, hnames, hsources, hcontents, hmappings]
    simp

def readFields (m : SourceMap) : Fields where
  version := some (.number (.natural 3))
  file := none
  mappings := some (.string (encodeMappings m.tokens))
  sourceRoot := none
  sources := some (.array (m.sources.map .string))
  contents := if m.contents.isEmpty then none
    else some (.array ((m.contents.map (·.getD [])).map .string))
  names := some (.array [])
  debugId := none
  ignored := none

theorem ofObject?_writtenFields (m : SourceMap) :
    Fields.ofObject? m.writtenFields = some m.readFields := by
  have hversion : Json.parse ['3'] = .ok (.number (.natural 3)) := rfl
  have hnames : Json.parse ['[', ']'] = .ok (.array []) := rfl
  have harray (ts : List Text) :
      Json.parse ('[' :: (quoteAll ts ++ [']'])) = .ok (.array (ts.map .string)) :=
    Json.parse_array ts
  rw [writtenFields, readFields]
  cases m.contents.isEmpty <;>
    simp [Fields.ofObject?, field?, hversion, hnames, harray, Json.parse_quote, Except.toOption]

theorem listOf?_strings {α : Type} {item : Json.Value → Option α} {f : Text → α}
    (h : ∀ s, item (.string s) = some (f s)) (ts : List Text) :
    Json.Value.listOf? item (.array (ts.map .string)) = some (ts.map f) := by
  rw [Json.Value.listOf?]
  induction ts with
  | nil => rfl
  | cons s ts ih =>
    rw [List.map_cons, List.mapM_cons, h, ih]
    rfl

theorem isSkipped_version : Json.IsSkipped ['3'] := by
  intro rest hrest
  cases rest with
  | nil => simp at hrest
  | cons c rest =>
    simp only [List.head?_cons, Option.some.injEq] at hrest
    rcases hrest with rfl | rfl <;> rfl

theorem isSkipped_writtenFields (m : SourceMap) : ∀ f ∈ m.writtenFields, Json.IsSkipped f.2 := by
  have hcontents : ∀ f ∈ (if m.contents.isEmpty then []
      else [("sourcesContent".toList, '[' :: quoteAll (m.contents.map (·.getD [])) ++ [']'])]),
      Json.IsSkipped f.2 := by
    split
    · simp
    · exact List.forall_mem_singleton.2 (Json.isSkipped_array _)
  simp only [writtenFields, List.forall_mem_cons, List.forall_mem_append]
  exact ⟨isSkipped_version, Json.isSkipped_array [], Json.isSkipped_array m.sources, hcontents,
    Json.isSkipped_quote _, by simp⟩

theorem ofFields?_readFields {m : SourceMap} (h : m.IsComplete)
    (hsmall : ∀ t ∈ m.tokens, t.IsSmall) : ofFields? m.readFields = some m := by
  have hversion : Json.Value.natural32? (.number (.natural 3)) = some 3 := rfl
  have hsources : Json.Value.listOf? Json.Value.string? (.array (m.sources.map .string)) =
      some m.sources := by
    rw [listOf?_strings (f := id) fun _ => rfl, List.map_id]
  have hnames : Json.Value.listOf? Json.Value.string? (.array []) = some [] := rfl
  have hcontents : (m.contents.map (·.getD [])).map some = m.contents := by
    refine (List.map_map ..).trans ((List.map_congr_left fun c hc => ?_).trans (List.map_id _))
    obtain ⟨t, rfl⟩ := Option.isSome_iff_exists.1 (h.known c hc)
    rfl
  rw [readFields, ofFields?]
  simp only [Option.bind_eq_bind, Option.bind_some, hversion, Json.Value.string?, hsources,
    Option.getD_some, hnames]
  cases hempty : m.contents.isEmpty with
  | true =>
    rw [List.isEmpty_iff] at hempty
    simp [Json.Value.optional?, List.length_nil, decodeMappings_encodeMappings h hsmall, ← hempty]
  | false =>
    simp only [Bool.false_eq_true, if_false, Json.Value.optional?]
    rw [listOf?_strings (f := some) ?_, hcontents]
    · simp [decodeMappings_encodeMappings h hsmall]
    · intro s
      rfl

/-- A complete map whose numbers have 32 bits is read back from its text. -/
theorem parse?_text {m : SourceMap} (h : m.IsComplete) (hsmall : ∀ t ∈ m.tokens, t.IsSmall) :
    parse? m.text = some m := by
  rw [parse?, text_eq, Json.fieldTexts?_join (isSkipped_writtenFields m)]
  simp only [ofObject?_writtenFields, Option.bind_eq_bind, Option.bind_some]
  exact ofFields?_readFields h hsmall

end Stylesmith.SourceMap
