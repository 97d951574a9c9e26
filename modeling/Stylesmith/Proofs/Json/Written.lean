import Mathlib.Tactic.SplitIfs
import Stylesmith.Json.Skip
import Stylesmith.Json.Writer

set_option autoImplicit false

namespace Stylesmith.Json

/-! ## Strings -/

theorem hexValue?_hexDigit : ∀ n < 16, hexValue? (hexDigit n) = some n := by decide

inductive Escaped (c : Char) : Text → Prop where
  | plain (hquote : c ≠ '"') (hslash : c ≠ '\\') (hcode : 32 ≤ c.toNat) : Escaped c [c]
  | short (e : Char) (h : (e, c) ∈ [('"', '"'), ('\\', '\\'), ('n', '\n'), ('r', '\r'), ('t', '\t'),
      ('b', '\x08'), ('f', '\x0c')]) : Escaped c ['\\', e]
  | long (hcode : c.toNat < 32) :
      Escaped c ['\\', 'u', '0', '0', hexDigit (c.toNat / 16), hexDigit (c.toNat % 16)]

theorem escaped_escapeChar (c : Char) : Escaped c (escapeChar c) := by
  rw [escapeChar.eq_def]
  split
  all_goals try exact .short _ (by decide)
  next hquote hslash _ _ _ _ _ =>
    split_ifs with hcode
    · exact .long hcode
    · exact .plain hquote hslash (by omega)

theorem readUnicode_hexDigit {n : Nat} (h : n < 32) (t : Text) :
    readUnicode ('0' :: '0' :: hexDigit (n / 16) :: hexDigit (n % 16) :: t) =
      .ok (Char.ofNat n, t) := by
  have hhex : readHex ('0' :: '0' :: hexDigit (n / 16) :: hexDigit (n % 16) :: t) = .ok (n, t) := by
    simp only [readHex, List.take_succ_cons, List.take_zero, List.map_cons, List.map_nil,
      hexValue?_hexDigit _ (show n / 16 < 16 by omega),
      hexValue?_hexDigit _ (show n % 16 < 16 by omega), show hexValue? '0' = some 0 from rfl]
    rw [show ((0 * 16 + 0) * 16 + n / 16) * 16 + n % 16 = n by omega]
    rfl
  rw [readUnicode, hhex]
  simp only [bind, Except.bind]
  rw [if_neg (by omega), if_pos (by omega)]

/-- A written character is read back, whatever follows it. -/
theorem readString_escapeChar (fuel : Nat) (c : Char) (t : Text) :
    readString (fuel + 1) (escapeChar c ++ t) =
      (readString fuel t).map fun (s, rest) => (c :: s, rest) := by
  generalize hw : escapeChar c = w
  cases hw ▸ escaped_escapeChar c with
  | plain hquote hslash hcode =>
    simp only [List.singleton_append, readString]
    rw [if_neg hquote, if_neg hslash, if_neg (by omega)]
    cases readString fuel t <;> rfl
  | short e h =>
    simp only [List.mem_cons, Prod.mk.injEq, List.not_mem_nil, or_false] at h
    rcases h with ⟨rfl, rfl⟩ | ⟨rfl, rfl⟩ | ⟨rfl, rfl⟩ | ⟨rfl, rfl⟩ | ⟨rfl, rfl⟩ | ⟨rfl, rfl⟩ |
      ⟨rfl, rfl⟩ <;>
    · simp only [List.cons_append, List.nil_append, readString, bind, Except.bind]
      rw [if_neg (by decide), if_pos trivial]
      cases readString fuel t <;> rfl
  | long hcode =>
    simp only [List.cons_append, List.nil_append, readString]
    rw [if_neg (by decide), if_pos trivial, readUnicode_hexDigit hcode, Char.ofNat_toNat]
    simp only [bind, Except.bind]
    cases readString fuel t <;> rfl

theorem length_le_of_escaped {c : Char} {w : Text} (h : Escaped c w) : 1 ≤ w.length := by
  cases h <;> simp

theorem readString_flatMap {fuel : Nat} {s : Text} (h : s.length < fuel) (rest : Text) :
    readString fuel (s.flatMap escapeChar ++ '"' :: rest) = .ok (s, rest) := by
  induction s generalizing fuel with
  | nil =>
    cases fuel with
    | zero => exact absurd h (Nat.not_lt_zero _)
    | succ fuel => simp [readString]
  | cons c s ih =>
    cases fuel with
    | zero => exact absurd h (Nat.not_lt_zero _)
    | succ fuel =>
      rw [List.flatMap_cons, List.append_assoc, readString_escapeChar,
        ih (Nat.lt_of_succ_lt_succ h)]
      rfl

theorem length_le_length_flatMap (s : Text) : s.length ≤ (s.flatMap escapeChar).length := by
  induction s with
  | nil => exact Nat.le_refl 0
  | cons c s ih =>
    have hc := length_le_of_escaped (escaped_escapeChar c)
    rw [List.flatMap_cons, List.length_append, List.length_cons]
    omega

theorem readString_quote (s rest : Text) :
    let t := s.flatMap escapeChar ++ '"' :: rest
    readString (t.length + 1) t = .ok (s, rest) := by
  have hlength := length_le_length_flatMap s
  refine readString_flatMap ?_ rest
  rw [List.length_append]
  omega

theorem skipString?_escapeChar (c : Char) (t : Text) :
    skipString? (escapeChar c ++ t) = skipString? t := by
  generalize hw : escapeChar c = w
  cases hw ▸ escaped_escapeChar c with
  | plain hquote hslash hcode =>
    rw [List.singleton_append, skipString?, if_neg (by simp [hslash]; omega)]
    all_goals simp [hquote, hslash]
  | short e h =>
    simp only [List.mem_cons, Prod.mk.injEq, List.not_mem_nil, or_false] at h
    rcases h with ⟨rfl, rfl⟩ | ⟨rfl, rfl⟩ | ⟨rfl, rfl⟩ | ⟨rfl, rfl⟩ | ⟨rfl, rfl⟩ | ⟨rfl, rfl⟩ |
      ⟨rfl, rfl⟩ <;> (simp [skipString?])
  | long hcode =>
    simp [skipString?, hexValue?_hexDigit _ (show c.toNat / 16 < 16 by omega),
      hexValue?_hexDigit _ (show c.toNat % 16 < 16 by omega), show hexValue? '0' = some 0 from rfl]

theorem skipString?_flatMap (s rest : Text) :
    skipString? (s.flatMap escapeChar ++ '"' :: rest) = some rest := by
  induction s with
  | nil => rw [List.flatMap_nil, List.nil_append, skipString?]
  | cons c s ih => rw [List.flatMap_cons, List.append_assoc, skipString?_escapeChar, ih]

/-! ## Series -/

theorem mul_length_le_length_join {k : Nat} {ws : List Text} (h : ∀ w ∈ ws, k ≤ w.length)
    (sep : Text) : k * ws.length ≤ (Text.join sep ws).length := by
  induction ws with
  | nil => exact Nat.le_refl 0
  | cons w ws ih =>
    obtain ⟨hw, hws⟩ := List.forall_mem_cons.1 h
    cases ws with
    | nil => simpa [Text.join] using hw
    | cons v ws =>
      have hrest := ih hws
      rw [Text.join, List.length_append, List.length_append, List.length_cons, Nat.mul_add]
      omega

section Series

variable {α : Type} {item : Text → Option (α × Text)} {close : Char} {w : Text} {a : α}

theorem afterMark?_self {c : Char} (h : isBlank c = false) (t : Text) :
    afterMark? c (c :: t) = some t := by
  rw [afterMark?, skipBlanks, List.dropWhile_cons_of_neg (Bool.eq_false_iff.1 h)]
  exact if_pos rfl

theorem afterMark?_of_ne {c d : Char} (h : isBlank d = false) (hne : d ≠ c) (t : Text) :
    afterMark? c (d :: t) = none := by
  rw [afterMark?, skipBlanks, List.dropWhile_cons_of_neg (Bool.eq_false_iff.1 h)]
  exact if_neg hne

def Reads (item : Text → Option (α × Text)) (close : Char) (w : Text) (a : α) : Prop :=
  ∀ rest : Text, rest.head? = some ',' ∨ rest.head? = some close → item (w ++ rest) = some (a, rest)

theorem series?_join (hblank : isBlank close = false) (hcomma : close ≠ ',')
    {ws : List (Text × α)} (hne : ws ≠ []) (hreads : ∀ w ∈ ws, Reads item close w.1 w.2)
    {fuel : Nat} (hfuel : ws.length ≤ fuel) (rest : Text) :
    series? item close fuel (Text.join [','] (ws.map Prod.fst) ++ close :: rest) =
      some (ws.map Prod.snd, rest) := by
  induction ws generalizing fuel with
  | nil => exact absurd rfl hne
  | cons w ws ih =>
    obtain ⟨hw, hws⟩ := List.forall_mem_cons.1 hreads
    rw [List.length_cons] at hfuel
    obtain ⟨fuel, rfl⟩ : ∃ n, fuel = n + 1 := Nat.exists_eq_add_one.2 (by omega)
    cases ws with
    | nil =>
      simp only [List.map_cons, List.map_nil, Text.join, series?, hw (close :: rest) (.inr rfl),
        Option.bind_eq_bind, Option.bind_some, afterMark?_self hblank]
    | cons v ws =>
      have hsep := hw (',' :: (Text.join [','] ((v :: ws).map Prod.fst) ++ close :: rest))
        (.inl rfl)
      have hrest := ih (by simp) hws (Nat.le_of_succ_le_succ hfuel)
      simp only [List.map_cons] at hsep hrest ⊢
      simp only [Text.join, List.append_assoc, List.cons_append, List.nil_append, series?, hsep,
        hrest, Option.bind_eq_bind, Option.bind_some,
        afterMark?_self (show isBlank ',' = false from rfl),
        afterMark?_of_ne (show isBlank ',' = false from rfl) hcomma.symm]

/-- Items that start with quotes are read between marks as they were written. -/
theorem enclosed?_join (hblank : isBlank close = false) (hcomma : close ≠ ',')
    (hquote : close ≠ '"') {ws : List (Text × α)} (hreads : ∀ w ∈ ws, Reads item close w.1 w.2)
    (hstart : ∀ w ∈ ws, w.1.head? = some '"') (rest : Text) :
    enclosed? item close (Text.join [','] (ws.map Prod.fst) ++ close :: rest) =
      some (ws.map Prod.snd, rest) := by
  cases ws with
  | nil => simp [Text.join, enclosed?, afterMark?_self hblank]
  | cons w ws =>
    obtain ⟨t, ht⟩ : ∃ t, Text.join [','] ((w :: ws).map Prod.fst) ++ close :: rest = '"' :: t := by
      obtain ⟨lead, hlead⟩ := List.head?_eq_some_iff.1 (hstart w List.mem_cons_self)
      cases ws <;> simp [Text.join, hlead]
    have hlength : ∀ v ∈ (w :: ws).map Prod.fst, 1 ≤ v.length := by
      intro v hv
      obtain ⟨u, hu, rfl⟩ := List.mem_map.1 hv
      obtain ⟨lead, hlead⟩ := List.head?_eq_some_iff.1 (hstart u hu)
      simp [hlead]
    have hcount := mul_length_le_length_join hlength [',']
    rw [enclosed?, ht, afterMark?_of_ne rfl hquote.symm, ← ht]
    refine series?_join hblank hcomma (by simp) hreads ?_ rest
    simp only [List.length_append, List.length_map] at hcount ⊢
    omega

end Series

/-! ## Values in fields -/

theorem quote_append (s rest : Text) :
    quote s ++ rest = '"' :: (s.flatMap escapeChar ++ '"' :: rest) := by
  simp [quote]

theorem skipValue?_quote (depth : Nat) (s rest : Text) :
    skipValue? (depth + 1) (quote s ++ rest) = some rest := by
  rw [quote_append]
  exact skipString?_flatMap s rest

theorem skipValue?_array (depth : Nat) (ts : List Text) (rest : Text) :
    skipValue? (depth + 2) ('[' :: (Text.join [','] (ts.map quote) ++ ']' :: rest)) =
      some rest := by
  let item (t : Text) : Option (Unit × Text) := (skipValue? (depth + 1) t).map ((), ·)
  have hreads : ∀ w ∈ ts.map fun s => (quote s, ()), Reads item ']' w.1 w.2 := by
    intro w hw rest _
    obtain ⟨s, _, rfl⟩ := List.mem_map.1 hw
    exact congrArg (Option.map ((), ·)) (skipValue?_quote depth s rest)
  have hstart : ∀ w ∈ ts.map fun s => (quote s, ()), w.1.head? = some '"' := by
    intro w hw
    obtain ⟨s, _, rfl⟩ := List.mem_map.1 hw
    rfl
  have hjoin := enclosed?_join rfl (by decide) (by decide) hreads hstart rest
  rw [List.map_map] at hjoin
  rw [skipValue?]
  exact congrArg (Option.map Prod.snd) hjoin

def IsSkipped (value : Text) : Prop :=
  ∀ rest : Text, rest.head? = some ',' ∨ rest.head? = some '\x7d' →
    skipValue? ((value ++ rest).length + 1) (value ++ rest) = some rest

theorem isSkipped_quote (s : Text) : IsSkipped (quote s) := fun rest _ => skipValue?_quote _ s rest

theorem isSkipped_array (ts : List Text) :
    IsSkipped ('[' :: Text.join [','] (ts.map quote) ++ [']']) := by
  intro rest _
  have hskip := skipValue?_array (Text.join [','] (ts.map quote) ++ ']' :: rest).length ts rest
  simpa using hskip

theorem reads_field {key value : Text} (h : IsSkipped value) :
    Reads fieldText? '\x7d' (quote key ++ ':' :: value) (key, value) := by
  intro rest hrest
  rw [fieldText?, List.append_assoc, quote_append, List.cons_append,
    afterMark?_self (show isBlank '"' = false from rfl)]
  simp only [Option.bind_eq_bind, Option.bind_some, readString_quote, Except.toOption,
    afterMark?_self (show isBlank ':' = false from rfl), h rest hrest, Text.before_append]

/-- The fields of a written object are found again, with the texts of their values. -/
theorem fieldTexts?_join {fields : List (Text × Text)} (h : ∀ f ∈ fields, IsSkipped f.2) :
    fieldTexts? ('\x7b' :: (Text.join [','] (fields.map fun f => quote f.1 ++ ':' :: f.2) ++
      ['\x7d'])) = some fields := by
  let written (f : Text × Text) : Text × Text × Text := (quote f.1 ++ ':' :: f.2, f)
  have hreads : ∀ w ∈ fields.map written, Reads fieldText? '\x7d' w.1 w.2 := by
    intro w hw
    obtain ⟨f, hf, rfl⟩ := List.mem_map.1 hw
    exact reads_field (h f hf)
  have hstart : ∀ w ∈ fields.map written, w.1.head? = some '"' := by
    intro w hw
    obtain ⟨f, _, rfl⟩ := List.mem_map.1 hw
    rfl
  have hjoin := enclosed?_join rfl (by decide) (by decide) hreads hstart []
  have hsnd : fields.map (Prod.snd ∘ written) = fields := List.map_id fields
  rw [List.map_map, List.map_map, hsnd] at hjoin
  rw [fieldTexts?, afterMark?_self (show isBlank '\x7b' = false from rfl)]
  change (enclosed? fieldText? '\x7d' (Text.join [','] (fields.map (Prod.fst ∘ written)) ++
    ['\x7d'])).bind _ = _
  rw [hjoin]
  rfl

/-! ## Values -/

theorem tokens_quote (fuel : Nat) (s rest : Text) :
    tokens (fuel + 1) (quote s ++ rest) =
      (.scalar (.string s), quote s ++ rest) :: tokens fuel rest := by
  rw [quote_append, tokens, List.dropWhile_cons_of_neg (by decide)]
  simp only [Token.first, if_true, readString_quote, Except.map]

theorem tokens_nil (fuel : Nat) : tokens fuel [] = [] := by
  cases fuel <;> rfl

theorem parse_quote (s : Text) : parse (quote s) = .ok (.string s) := by
  have htokens := tokens_quote (quote s).length s []
  rw [List.append_nil, tokens_nil] at htokens
  rw [parse, htokens]
  rfl

theorem parseTokens_string {goal : Goal} (hgoal : goal = .firstItem ∨ goal = .laterItem)
    (items : List Value) (s here : Text) (more : List (Token × Text)) :
    parseTokens [.array items] goal ((.scalar (.string s), here) :: more) =
      parseTokens [.array (.string s :: items)] .comma more := by
  rcases hgoal with rfl | rfl <;> rfl

theorem parseTokens_items {ts : List Text} (hne : ts ≠ []) {goal : Goal}
    (hgoal : goal = .firstItem ∨ goal = .laterItem) {fuel : Nat} (hfuel : 2 * ts.length ≤ fuel)
    (items : List Value) :
    parseTokens [.array items] goal (tokens fuel (Text.join [','] (ts.map quote) ++ [']'])) =
      .ok (.array (items.reverse ++ ts.map .string)) := by
  induction ts generalizing goal fuel items with
  | nil => exact absurd rfl hne
  | cons s ts ih =>
    rw [List.length_cons] at hfuel
    obtain ⟨fuel, rfl⟩ : ∃ n, fuel = n + 2 := Nat.exists_eq_add_of_le' (by omega)
    cases ts with
    | nil =>
      have hend : tokens (fuel + 1) [']'] = [(.mark ']', [']'])] := by
        rw [tokens]
        exact congrArg _ (tokens_nil fuel)
      rw [List.map_singleton, Text.join, tokens_quote, parseTokens_string hgoal, hend]
      change Except.ok (Value.array (.string s :: items).reverse) = _
      rw [List.reverse_cons, List.map_singleton]
    | cons u ts =>
      have hrest := ih (by simp) (.inr rfl) (show 2 * (u :: ts).length ≤ fuel by omega)
        (.string s :: items)
      rw [List.reverse_cons, List.append_assoc] at hrest
      rw [List.map_cons, List.map_cons, Text.join, List.append_assoc, List.append_assoc,
        tokens_quote, parseTokens_string hgoal]
      exact hrest

/-- A written array of strings is read back. -/
theorem parse_array (ts : List Text) :
    parse ('[' :: (Text.join [','] (ts.map quote) ++ [']'])) = .ok (.array (ts.map .string)) := by
  cases ts with
  | nil => rfl
  | cons s ts =>
    have hquotes : ∀ w ∈ (s :: ts).map quote, 2 ≤ w.length := by
      intro w hw
      obtain ⟨u, _, rfl⟩ := List.mem_map.1 hw
      simp [quote]
    have hlength := mul_length_le_length_join hquotes [',']
    rw [List.length_map] at hlength
    refine parseTokens_items (by simp) (.inl rfl) ?_ []
    change 2 * (s :: ts).length ≤ (Text.join [','] ((s :: ts).map quote) ++ [']']).length + 1
    rw [List.length_append]
    omega

end Stylesmith.Json
