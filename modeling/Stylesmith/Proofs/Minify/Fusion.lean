import Stylesmith.Proofs.Minify.Leftovers

/-!
# Numbers that are read together

A compact value has the quantities of the value, a zero length perhaps without its unit, except
where what is left of a number is read together with what stands behind it. That happens to a number
that loses its fraction or its unit before another fraction, and to one that loses its unit before a
percent sign.
-/

set_option autoImplicit false

namespace Stylesmith.Value

open Lexeme (isIdent)
open Numeral (ofParts Parts)

/-- Whether a numeral behind the character `last` is shortened. Behind a word or a point it is only
if a plus sign sets it apart. -/
def IsShortened (last : Option Char) (numeral : Text) : Prop :=
  blocks last = false ∨ numeral.head? = some '+'

instance (last : Option Char) (numeral : Text) : Decidable (IsShortened last numeral) :=
  inferInstanceAs (Decidable (_ ∨ _))

/-- Whether what is left of a token behind the character `last` is read together with the beginning
of the tokens `rest` behind it. -/
def Fuses (keepUnit : Bool) (depth : ℕ) (last : Option Char) : Token → List Token → Prop
  | .number numeral unit, rest =>
    IsShortened last numeral ∧
      (keptUnit keepUnit depth numeral unit = [] ∧ numeral.any Numeral.isE = false ∧
          '.' ∉ Numeral.shorten numeral ∧ rest.head?.any Token.isFraction = true ∨
        keptUnit keepUnit depth numeral unit ≠ unit ∧ rest.head? = some (.char '%'))
  | _, _ => False

instance (keepUnit : Bool) (depth : ℕ) (last : Option Char) (token : Token) (rest : List Token) :
    Decidable (Fuses keepUnit depth last token rest) :=
  match token with
  | .number _ _ => inferInstanceAs (Decidable (_ ∧ _))
  | .word _ | .char _ => inferInstanceAs (Decidable False)

/-- Whether a plus sign behind the letter `e` of a number is that of an exponent which is read as
one. -/
def PlainPlus (last : Option Char) : Token → List Token → Prop
  | .number numeral unit, rest =>
    (IsShortened last numeral ∨ '+' ∉ numeral) ∧
      ((unit = ['e'] ∨ unit = ['E']) → numeral.any Numeral.isE = false →
        ∀ token ∈ rest.head?, token.text.head? ≠ some '+')
  | _, _ => True

instance (last : Option Char) (token : Token) (rest : List Token) :
    Decidable (PlainPlus last token rest) :=
  match token with
  | .number _ _ => inferInstanceAs (Decidable (_ ∧ _))
  | .word _ | .char _ => inferInstanceAs (Decidable True)

/-- Whether something holds of each token, given the depth of parentheses and the last character
before it, and the tokens behind it. -/
def Everywhere (P : ℕ → Option Char → Token → List Token → Prop) (depth : ℕ)
    (last : Option Char) : List Token → Prop
  | [] => True
  | token :: rest =>
    P depth last token rest ∧
      Everywhere P (token.deepen depth) (token.text.getLast?.or last) rest

def Everywhere.decide {P : ℕ → Option Char → Token → List Token → Prop}
    [∀ depth last token rest, Decidable (P depth last token rest)] (depth : ℕ)
    (last : Option Char) : (ts : List Token) → Decidable (Everywhere P depth last ts)
  | [] => inferInstanceAs (Decidable True)
  | token :: rest =>
    have := Everywhere.decide (P := P) (token.deepen depth) (token.text.getLast?.or last) rest
    inferInstanceAs (Decidable (_ ∧ _))

instance {P : ℕ → Option Char → Token → List Token → Prop}
    [∀ depth last token rest, Decidable (P depth last token rest)] (depth : ℕ)
    (last : Option Char) (ts : List Token) : Decidable (Everywhere P depth last ts) :=
  Everywhere.decide depth last ts

/-- Whether no token is read together with what is behind it. -/
def Separate (keepUnit : Bool) (depth : ℕ) (last : Option Char) (ts : List Token) : Prop :=
  Everywhere (fun depth last token rest => ¬ Fuses keepUnit depth last token rest) depth last ts

instance (keepUnit : Bool) (depth : ℕ) (last : Option Char) (ts : List Token) :
    Decidable (Separate keepUnit depth last ts) :=
  inferInstanceAs (Decidable (Everywhere _ depth last ts))

/-- Whether a quantity is left as it was, or as a zero without its unit of length. -/
structure Survives (keepUnit : Bool) (a b : Quantity) : Prop where
  amount : b.amount = a.amount
  unit : b.unit = a.unit ∨ b.unit = [] ∧ a.amount = 0 ∧
    lengthUnits.contains (Text.lowerAscii a.unit) = true ∧ a.depth = 0 ∧ keepUnit = false

/-- Whether compacting the rest `t` of a value from a place on adds no quantity, and keeps them
exactly if nothing is read together. The character before `t` is `last`. -/
structure Kept (p : Place) (last : Option Char) (t : Text) : Prop where
  length_le : (quantities p.depth (tokens (p.compact t))).length ≤
    (quantities p.depth (tokens t)).length
  survive_iff : List.Forall₂ (Survives p.keepUnit) (quantities p.depth (tokens t))
      (quantities p.depth (tokens (p.compact t))) ↔ Separate p.keepUnit p.depth last (tokens t)

section Kept

variable {p q : Place} {last : Option Char} {c : Char} {t rest : Text}

theorem Kept.skip (q : Place) {token : Token}
    (hnone : ∀ numeral unit, token ≠ .number numeral unit)
    (hkeep : q.keepUnit = p.keepUnit) (hdepth : q.depth = token.deepen p.depth)
    (ht : tokens t = token :: tokens rest)
    (hout : quantities p.depth (tokens (p.compact t)) =
      quantities q.depth (tokens (q.compact rest)))
    (h : Kept q (token.text.getLast?.or last) rest) : Kept p last t := by
  have hskip : quantities p.depth (token :: tokens rest) = quantities q.depth (tokens rest) := by
    rw [hdepth]
    cases token with
    | number numeral unit => exact absurd rfl (hnone numeral unit)
    | word | char => rfl
  have hfuses : ¬ Fuses p.keepUnit p.depth last token (tokens rest) := by
    cases token with
    | number numeral unit => exact absurd rfl (hnone numeral unit)
    | word | char => exact id
  constructor
  · rw [hout, ht, hskip]
    exact h.length_le
  · rw [hout, ht, hskip, ← hkeep, h.survive_iff, hdepth, hkeep]
    exact ⟨fun hrest => ⟨hfuses, hrest⟩, fun hall => hall.2⟩

theorem Kept.number (q : Place) {numeral unit numeral' unit' : Text}
    (hkeep : q.keepUnit = p.keepUnit) (hdepth : q.depth = p.depth)
    (ht : tokens t = .number numeral unit :: tokens rest)
    (hout : tokens (p.compact t) = .number numeral' unit' :: tokens (q.compact rest))
    (hsurvives : Survives p.keepUnit ⟨Numeral.amount numeral, unit, p.depth⟩
      ⟨Numeral.amount numeral', unit', p.depth⟩)
    (hfuses : ¬ Fuses p.keepUnit p.depth last (.number numeral unit) (tokens rest))
    (h : Kept q ((numeral ++ unit).getLast?.or last) rest) : Kept p last t := by
  obtain ⟨hlength, hiff⟩ := h
  rw [hdepth] at hlength
  rw [hkeep, hdepth] at hiff
  constructor
  · rw [hout, ht, quantities, quantities, List.length_cons, List.length_cons]
    exact Nat.succ_le_succ hlength
  · rw [hout, ht, quantities, quantities, List.forall₂_cons, hiff]
    exact ⟨fun hall => ⟨hfuses, hall.2⟩, fun hall => ⟨hsurvives, hall.2⟩⟩

theorem Kept.fused {numeral unit : Text} (ht : tokens t = .number numeral unit :: tokens rest)
    (hfuses : Fuses p.keepUnit p.depth last (.number numeral unit) (tokens rest))
    (hlength : (quantities p.depth (tokens (p.compact t))).length ≤
      (quantities p.depth (tokens rest)).length + 1)
    (hlost : ¬ List.Forall₂ (Survives p.keepUnit) (quantities p.depth (tokens t))
      (quantities p.depth (tokens (p.compact t)))) : Kept p last t := by
  constructor
  · rw [ht, quantities, List.length_cons]
    exact hlength
  · rw [ht] at hlost ⊢
    exact ⟨fun hall => absurd hall hlost, fun hall => absurd hfuses hall.1⟩

def Fits (p : Place) (last : Option Char) (t : Text) : Prop :=
  blocks p.last = blocks last ∨ ∃ d, t.head? = some d ∧ IsSeparator d

def Keeps (t : Text) : Prop :=
  ∀ p last, Plain t → Fits p last t → Everywhere (fun _ => PlainPlus) p.depth last (tokens t) →
    Kept p last t

theorem blocks_behind {numeral unit : Text} (hn : ∃ d ∈ numeral.getLast?, d.isDigit = true)
    (hunit : unit ≠ ['%'] → ∀ d ∈ unit, isIdent d = true) (last : Option Char) :
    blocks ((numeral ++ unit).getLast?.or last) = decide (unit ≠ ['%']) := by
  by_cases hne : unit = ['%']
  · rw [hne, List.getLast?_append]
    rfl
  · rw [blocks_of_isIdent (isIdent_getLast_append hn (hunit hne) last), decide_eq_true hne]

theorem not_separator_of_starts (h : Numeral.starts (c :: t) = true) : ¬ IsSeparator c := by
  rintro (rfl | rfl | rfl) <;> cases h

section Number

variable {sign whole fraction exponent unit sign' whole' fraction' left : Text}

/-- What is left of a number stands for the same quantity. -/
theorem survives_shorten (h : Parts sign whole fraction exponent) (keepUnit : Bool)
    (depth : ℕ) (unit : Text) : let numeral := ofParts sign whole fraction exponent
    Survives keepUnit ⟨Numeral.amount numeral, unit, depth⟩
      ⟨Numeral.amount (Numeral.shorten numeral), keptUnit keepUnit depth numeral unit, depth⟩ := by
  intro numeral
  refine ⟨h.amount_shorten, ?_⟩
  unfold keptUnit
  split_ifs with hdrop
  · simp only [Bool.and_eq_true, Bool.not_eq_true', beq_iff_eq] at hdrop
    obtain ⟨⟨⟨hkeep, hdepth⟩, hzero⟩, hlength⟩ := hdrop
    refine .inr ⟨rfl, ?_, hlength, hdepth, hkeep⟩
    rw [← h.amount_shorten, hzero, Numeral.amount_zero]
  · exact .inl rfl

/-- A whole number takes in a fraction behind it. -/
theorem length_quantities_fraction (h : Parts sign whole [] [])
    (hq : q.last.any isIdent = true) (hplain : Plain rest)
    (hrest : rest.head?.any isIdent = false) (hfraction : Numeral.StartsFraction rest) :
    (quantities q.depth (tokens (ofParts sign whole [] [] ++ q.compact rest))).length =
      (quantities q.depth (tokens (q.compact rest))).length := by
  have htext : ofParts sign whole [] [] = sign ++ whole := by
    simp [ofParts, Numeral.point]
  rw [htext]
  exact length_quantities_fused h.of_sign h.of_whole
    ((startsFraction_compact hq hplain hrest).2 hfraction) q.depth

/-- A number takes in a percent sign behind it as its unit. -/
theorem quantities_percent (h : Parts sign whole fraction exponent)
    (hq : q.last.any isIdent = true) (hplain : Plain rest) (hpercent : rest.head? = some '%') :
    let numeral := ofParts sign whole fraction exponent
    quantities q.depth (tokens (numeral ++ q.compact rest)) =
      ⟨Numeral.amount numeral, ['%'], q.depth⟩ ::
        quantities q.depth (tokens (q.compact rest)) := by
  intro numeral
  obtain ⟨u, rfl⟩ : ∃ u, rest = '%' :: u := ⟨rest.tail, (List.cons_head?_tail hpercent).symm⟩
  rw [compact_plain hplain (opensNumber_of_isIdent hq) (by decide), tokens_of_not_isIdent rfl rfl]
  exact congrArg (quantities q.depth) (tokens_ofParts (reading_percent h _))

/-- What is behind a number is kept behind what is left of it. -/
theorem Leaves.kept_rest
    (h : Leaves sign whole fraction exponent unit rest sign' whole' fraction' left)
    (hplus : Everywhere (fun _ => PlainPlus) p.depth
      ((ofParts sign whole fraction exponent ++ unit).getLast?.or last) (tokens rest))
    (ih : Keeps rest) :
    Kept (p.behind (ofParts sign' whole' fraction' exponent ++ left))
      ((ofParts sign whole fraction exponent ++ unit).getLast?.or last) rest := by
  refine ih _ _ h.plain (.inl ?_) hplus
  have hbefore := blocks_behind h.reading.parts.getLast_ofParts
    (fun hne => (h.reading.isIdent_unit hne).1) last
  rw [hbefore]
  by_cases hne : unit = ['%']
  · obtain rfl : left = unit := h.unit.resolve_right fun hleft => hleft.2 hne
    exact blocks_behind h.parts.getLast_ofParts h.isIdent_left p.last
  · rw [blocks_of_isIdent (h.isIdent_behind p hne), decide_eq_true hne]

theorem Leaves.kept (h : Leaves sign whole fraction exponent unit rest sign' whole' fraction' left)
    (hplus : Everywhere (fun _ => PlainPlus) p.depth last
      (tokens (ofParts sign whole fraction exponent ++ (unit ++ rest))))
    (hout : p.compact (ofParts sign whole fraction exponent ++ (unit ++ rest)) =
      ofParts sign' whole' fraction' exponent ++ left ++
        (p.behind (ofParts sign' whole' fraction' exponent ++ left)).compact rest)
    (hsurvives : Survives p.keepUnit
      ⟨Numeral.amount (ofParts sign whole fraction exponent), unit, p.depth⟩
      ⟨Numeral.amount (ofParts sign' whole' fraction' exponent), left, p.depth⟩)
    (hfuses : ¬ Fuses p.keepUnit p.depth last
      (.number (ofParts sign whole fraction exponent) unit) (tokens rest))
    (hfraction : left = [] → exponent = [] → fraction' = [] → ¬ Numeral.StartsFraction rest)
    (hpercent : left ≠ unit → rest.head? ≠ some '%') (ih : Keeps rest) :
    Kept p last (ofParts sign whole fraction exponent ++ (unit ++ rest)) := by
  have ht := tokens_ofParts h.reading
  rw [ht] at hplus
  obtain ⟨⟨_, hexponent⟩, hplus⟩ := hplus
  have noplus : unit = ['e'] ∨ unit = ['E'] → exponent = [] → rest.head? ≠ some '+' := by
    intro hunit hnone hhead
    obtain ⟨token, htoken, hplus⟩ := head_tokens.1 hhead
    exact hexponent hunit (h.reading.parts.any_isE_iff.2 hnone) token htoken hplus
  have hreading := h.reading_compact (h.isIdent_behind p) noplus hfraction hpercent
  have hkept : Kept (p.behind (ofParts sign' whole' fraction' exponent ++ left)) _ rest :=
    h.kept_rest hplus ih
  refine Kept.number (p.behind _) rfl rfl ht ?_ hsurvives hfuses hkept
  rw [hout, List.append_assoc, tokens_ofParts hreading]

/-- A number of which only digits are left is not kept before a fraction. -/
theorem Leaves.fused_fraction
    (h : Leaves sign whole fraction [] unit rest sign' whole' [] [])
    (hplus : Everywhere (fun _ => PlainPlus) p.depth last
      (tokens (ofParts sign whole fraction [] ++ (unit ++ rest))))
    (hout : p.compact (ofParts sign whole fraction [] ++ (unit ++ rest)) =
      ofParts sign' whole' [] [] ++ [] ++
        (p.behind (ofParts sign' whole' [] [] ++ [])).compact rest)
    (hfuses : Fuses p.keepUnit p.depth last
      (.number (ofParts sign whole fraction []) unit) (tokens rest))
    (hfraction : Numeral.StartsFraction rest) (ih : Keeps rest) :
    Kept p last (ofParts sign whole fraction [] ++ (unit ++ rest)) := by
  have ht := tokens_ofParts h.reading
  have hne : unit ≠ ['%'] := by
    rcases h.unit with rfl | ⟨_, hne⟩
    · exact (List.cons_ne_nil _ _).symm
    · exact hne
  rw [ht] at hplus
  have hkept := h.kept_rest hplus.2 ih
  have hlength := length_quantities_fraction h.parts (h.isIdent_behind p hne) h.plain
    (h.reading.isIdent_unit hne).2 hfraction
  rw [List.append_nil] at hout hkept hlength
  have hle : (quantities p.depth (tokens (p.compact
      (ofParts sign whole fraction [] ++ (unit ++ rest))))).length ≤
      (quantities p.depth (tokens rest)).length := by
    rw [hout]
    exact hlength.trans_le hkept.length_le
  refine Kept.fused ht hfuses (Nat.le_succ_of_le hle) fun hall => ?_
  have hsame := hall.length_eq
  rw [ht, quantities, List.length_cons] at hsame
  omega

/-- A number that loses its unit is not kept before a percent sign. -/
theorem Leaves.fused_percent
    (h : Leaves sign whole fraction exponent unit rest sign' whole' fraction' left)
    (hplus : Everywhere (fun _ => PlainPlus) p.depth last
      (tokens (ofParts sign whole fraction exponent ++ (unit ++ rest))))
    (hout : p.compact (ofParts sign whole fraction exponent ++ (unit ++ rest)) =
      ofParts sign' whole' fraction' exponent ++ left ++
        (p.behind (ofParts sign' whole' fraction' exponent ++ left)).compact rest)
    (hfuses : Fuses p.keepUnit p.depth last
      (.number (ofParts sign whole fraction exponent) unit) (tokens rest))
    (hleft : left ≠ unit) (hpercent : rest.head? = some '%') (ih : Keeps rest) :
    Kept p last (ofParts sign whole fraction exponent ++ (unit ++ rest)) := by
  have ht := tokens_ofParts h.reading
  obtain ⟨rfl, hne⟩ := h.unit.resolve_left hleft
  rw [ht] at hplus
  have hkept := h.kept_rest hplus.2 ih
  have hquantities := quantities_percent h.parts (h.isIdent_behind p hne) h.plain hpercent
  rw [List.append_nil] at hout hkept hquantities
  refine Kept.fused ht hfuses ?_ ?_
  · rw [hout]
    exact (congrArg List.length hquantities).trans_le (Nat.succ_le_succ hkept.length_le)
  · rw [ht, hout, quantities]
    intro hall
    rw [show quantities p.depth _ = _ from hquantities] at hall
    rcases (List.forall₂_cons.1 hall).1.unit with hunit | ⟨hunit, _⟩
    · exact hne hunit.symm
    · cases hunit

theorem kept_shortened (h : Reading sign whole fraction exponent unit rest)
    (hp : blocks p.last = false)
    (hshortened : IsShortened last (ofParts sign whole fraction exponent))
    (hplain : Plain (ofParts sign whole fraction exponent ++ (unit ++ rest)))
    (hplus : Everywhere (fun _ => PlainPlus) p.depth last
      (tokens (ofParts sign whole fraction exponent ++ (unit ++ rest))))
    (ih : Keeps rest) : Kept p last (ofParts sign whole fraction exponent ++ (unit ++ rest)) := by
  have hE := h.parts.any_isE_iff
  have hout := compact_number h hp hplain
  have hsurvives := survives_shorten h.parts p.keepUnit p.depth unit
  have hleft := keptUnit_cases p.keepUnit p.depth (ofParts sign whole fraction exponent) unit
  obtain ⟨sign', whole', fraction', hparts, hshort, _⟩ := Numeral.shorten_parts h.parts
  have hpoint : exponent = [] →
      ('.' ∉ Numeral.shorten (ofParts sign whole fraction exponent) ↔ fraction' = []) := by
    rintro rfl
    rw [hshort, hparts.point_mem_iff, not_not]
  have hleaves : Leaves sign whole fraction exponent unit rest sign' whole' fraction' _ :=
    ⟨h, hparts, hleft, hplain.append_right.append_right⟩
  dsimp only at hout hsurvives
  rw [hshort] at hout hsurvives
  by_cases hfuses : Fuses p.keepUnit p.depth last
    (.number (ofParts sign whole fraction exponent) unit) (tokens rest)
  · obtain ⟨_, ⟨hnil, hnone, hdigits, hfraction⟩ | ⟨hne, hpercent⟩⟩ := id hfuses
    · obtain rfl := hE.1 hnone
      obtain rfl := (hpoint rfl).1 hdigits
      rw [hnil] at hleaves hout
      exact hleaves.fused_fraction hplus hout hfuses (head_fraction.1 hfraction) ih
    · exact hleaves.fused_percent hplus hout hfuses hne (head_percent.1 hpercent) ih
  · refine hleaves.kept hplus hout hsurvives hfuses ?_ ?_ ih
    · intro hnil hnone hwhole hfraction
      exact hfuses ⟨hshortened,
        .inl ⟨hnil, hE.2 hnone, (hpoint hnone).2 hwhole, head_fraction.2 hfraction⟩⟩
    · intro hne hpercent
      exact hfuses ⟨hshortened, .inr ⟨hne, head_percent.2 hpercent⟩⟩

theorem kept_blocked (h : Reading sign whole fraction exponent unit rest)
    (hp : blocks p.last = true)
    (hshortened : ¬ IsShortened last (ofParts sign whole fraction exponent))
    (hplain : Plain (ofParts sign whole fraction exponent ++ (unit ++ rest)))
    (hplus : Everywhere (fun _ => PlainPlus) p.depth last
      (tokens (ofParts sign whole fraction exponent ++ (unit ++ rest))))
    (ih : Keeps rest) : Kept p last (ofParts sign whole fraction exponent ++ (unit ++ rest)) := by
  have hsign : '+' ∉ ofParts sign whole fraction exponent := by
    rw [tokens_ofParts h] at hplus
    exact hplus.1.1.resolve_left hshortened
  have hleaves : Leaves sign whole fraction exponent unit rest sign whole fraction unit :=
    ⟨h, h.parts, .inl rfl, hplain.append_right.append_right⟩
  refine hleaves.kept hplus (compact_number_blocked h hp hsign hplain) ⟨rfl, .inl rfl⟩
    (fun hfuses => hshortened hfuses.1) (fun hnil hnone hwhole => ?_) (fun hne => absurd rfl hne) ih
  have hnot := h.ends.not_fraction hnone hwhole
  rwa [hnil] at hnot

theorem not_fuses_of_isE {numeral : Text} (h : numeral.any Numeral.isE = true) (keepUnit : Bool)
    (depth : ℕ) (last : Option Char) (ts : List Token) :
    ¬ Fuses keepUnit depth last (.number numeral unit) ts := by
  rintro ⟨_, ⟨_, hnone, _⟩ | ⟨hne, _⟩⟩
  · rw [h] at hnone
    cases hnone
  · refine hne (if_neg fun hdrop => ?_)
    have hzero : Numeral.shorten numeral = ['0'] := by
      simp only [Bool.and_eq_true, beq_iff_eq] at hdrop
      exact hdrop.1.2
    rw [Numeral.shorten_of_isE h] at hzero
    rw [hzero] at h
    cases h

/-- A plus sign before a number is read together with nothing more than the number is. -/
theorem fuses_plus (h : Parts [] whole fraction exponent) (keepUnit : Bool) (depth : ℕ)
    (last : Option Char) (ts : List Token) :
    Fuses keepUnit depth last (.number (ofParts ['+'] whole fraction exponent) unit) ts ↔
      Fuses keepUnit depth (some '+') (.number (ofParts [] whole fraction exponent) unit)
        ts := by
  have hread : IsShortened last (ofParts ['+'] whole fraction exponent) ∧
      IsShortened (some '+') (ofParts [] whole fraction exponent) := ⟨.inr rfl, .inl rfl⟩
  cases exponent with
  | nil =>
    have hshort : Numeral.shorten (ofParts ['+'] whole fraction []) =
        Numeral.shorten (ofParts [] whole fraction []) := by
      rw [Numeral.shorten_eq h.plus, Numeral.shorten_eq h]
      rfl
    rw [Fuses, Fuses, keptUnit, keptUnit, hshort, h.plus.any_isE, h.any_isE]
    simp only [hread.1, hread.2]
  | cons e exponent =>
    exact iff_of_false (not_fuses_of_isE h.plus.any_isE_cons keepUnit depth last ts)
      (not_fuses_of_isE h.any_isE_cons keepUnit depth _ ts)

/-- Behind a character that blocks numerals, a plus sign sets the number apart. -/
theorem kept_plus (h : Reading [] whole fraction exponent unit rest) (hp : blocks p.last = true)
    (hplain : Plain ('+' :: (ofParts [] whole fraction exponent ++ (unit ++ rest))))
    (hplus : Everywhere (fun _ => PlainPlus) p.depth last
      (tokens ('+' :: (ofParts [] whole fraction exponent ++ (unit ++ rest)))))
    (ih : Keeps (ofParts [] whole fraction exponent ++ (unit ++ rest))) :
    Kept p last ('+' :: (ofParts [] whole fraction exponent ++ (unit ++ rest))) := by
  have ht : tokens ('+' :: (ofParts [] whole fraction exponent ++ (unit ++ rest))) =
      .number (ofParts ['+'] whole fraction exponent) unit :: tokens rest :=
    tokens_ofParts h.plus
  have hlast : (ofParts ['+'] whole fraction exponent ++ unit).getLast?.or last =
      (ofParts [] whole fraction exponent ++ unit).getLast?.or (some '+') :=
    getLast_cons_or '+' _ last
  have hout : p.compact ('+' :: (ofParts [] whole fraction exponent ++ (unit ++ rest))) =
      '+' :: Place.compact ⟨p.keepUnit, p.depth, some '+'⟩ _ :=
    compact_plain hplain (opensNumber_of_blocks hp _) (by decide)
  obtain ⟨hlength, hiff⟩ : Kept ⟨p.keepUnit, p.depth, some '+'⟩ (some '+')
      (ofParts [] whole fraction exponent ++ (unit ++ rest)) := by
    refine ih _ _ hplain.tail (.inl rfl) ?_
    rw [ht] at hplus
    rw [tokens_ofParts h]
    refine ⟨⟨.inl (.inl rfl), fun hunit hnone => hplus.1.2 hunit ?_⟩, ?_⟩
    · rwa [h.plus.parts.any_isE_iff, ← h.parts.any_isE_iff]
    · exact hlast ▸ hplus.2
  constructor
  · rw [hout, quantities_plus, quantities_plus]
    exact hlength
  · rw [hout, quantities_plus, quantities_plus, hiff, tokens_ofParts h, ht]
    refine and_congr (not_congr ?_) (hlast ▸ Iff.rfl)
    exact (fuses_plus h.parts p.keepUnit p.depth last _).symm

end Number

theorem kept_number (hstarts : Numeral.starts (c :: t) = true) (hplain : Plain (c :: t))
    (hfits : Fits p last (c :: t))
    (hplus : Everywhere (fun _ => PlainPlus) p.depth last (tokens (c :: t)))
    (ih : ∀ u : Text, u.length < (c :: t).length → Keeps u) : Kept p last (c :: t) := by
  have hblocks : blocks p.last = blocks last := by
    refine hfits.resolve_right ?_
    rintro ⟨d, hd, hsep⟩
    exact not_separator_of_starts hstarts (Option.some.inj hd ▸ hsep)
  obtain ⟨sign, whole, fraction, exponent, unit, rest, h, htext⟩ := reading_of_starts hstarts
  have hrest : Keeps rest := by
    refine ih rest ?_
    have hpos := h.parts.length_pos
    rw [htext, List.length_append, List.length_append]
    omega
  cases hp : blocks p.last with
  | false =>
    rw [htext] at hplain hplus ⊢
    exact kept_shortened h hp (.inl (hblocks ▸ hp)) hplain hplus hrest
  | true =>
    by_cases hsign : sign = ['+']
    · subst hsign
      obtain ⟨rfl, rfl⟩ := List.cons.inj htext
      have hunsigned : Reading [] whole fraction exponent unit rest :=
        { h with parts := { h.parts with of_sign := .inl rfl } }
      exact kept_plus hunsigned hp hplain hplus (ih _ (Nat.lt_succ_self _))
    · rw [htext] at hplain hplus ⊢
      refine kept_blocked h hp ?_ hplain hplus hrest
      rintro (hopen | hhead)
      · rw [← hblocks, hp] at hopen
        cases hopen
      · exact hsign (h.parts.sign_of_head hhead)

theorem kept_word (hstarts : Numeral.starts (c :: t) = false) (hc : isIdent c = true)
    (hplain : Plain (c :: t))
    (hplus : Everywhere (fun _ => PlainPlus) p.depth last (tokens (c :: t)))
    (ih : Keeps (t.dropWhile isIdent)) : Kept p last (c :: t) := by
  have hspan : t.takeWhile isIdent ++ t.dropWhile isIdent = t := List.takeWhile_append_dropWhile
  have hw : ∀ d ∈ t.takeWhile isIdent, isIdent d = true := fun _ hd => List.mem_takeWhile_imp hd
  have hrest := Text.head_dropWhile isIdent t
  generalize t.takeWhile isIdent = w at hspan hw
  generalize t.dropWhile isIdent = rest at hspan hrest ih
  subst hspan
  have ht := tokens_word_append hstarts hc hw hrest
  have hq : (p.behind (c :: w)).last.any isIdent = true := by
    rw [Place.behind, getLast_cons_or]
    cases hd : w.getLast? with
    | none => exact hc
    | some d => exact hw d (List.mem_of_getLast? hd)
  have hout : tokens (p.compact (c :: (w ++ rest))) =
      .word (c :: w) :: tokens ((p.behind (c :: w)).compact rest) := by
    rw [compact_word hc hw hplain hstarts]
    exact tokens_word_append (not_starts_word hc hw hq hstarts) hc hw (not_isIdent_compact hq hrest)
  rw [ht] at hplus
  have hfits : Fits (p.behind (c :: w)) ((c :: w).getLast?.or last) rest := by
    refine .inl ?_
    rw [Place.behind, getLast_cons_or, getLast_cons_or]
  refine Kept.skip (p.behind (c :: w)) (fun _ _ h => by cases h) rfl rfl ht ?_
    (ih _ _ hplain.tail.append_right hfits hplus.2)
  rw [hout]
  rfl

theorem kept_char (hstarts : Numeral.starts (c :: t) = false) (hc : isIdent c = false)
    (hplain : Plain (c :: t)) (hfits : Fits p last (c :: t))
    (hplus : Everywhere (fun _ => PlainPlus) p.depth last (tokens (c :: t)))
    (ih : Keeps t) : Kept p last (c :: t) := by
  have ht := tokens_of_not_isIdent hstarts hc
  have hnone : ∀ numeral unit, Token.char c ≠ .number numeral unit := fun _ _ h => by cases h
  rw [ht] at hplus
  by_cases hdrop : c = ' ' ∧ dropsSpace p.last t.head? = true
  · obtain ⟨rfl, hdrop⟩ := hdrop
    have hout : p.compact (' ' :: t) = p.compact t := by
      rw [Place.compact_cons, Place.after, written_dropped hdrop, first_mark (.inl rfl)]
      rfl
    have hfits : Fits p (some ' ') t := by
      rw [dropsSpace, Bool.or_eq_true, Option.any_eq_true, Option.any_eq_true] at hdrop
      rcases hdrop with ⟨d, hd, hsep⟩ | ⟨d, hd, hsep⟩
      · refine .inl ?_
        rw [hd]
        simp only [Bool.or_eq_true, beq_iff_eq] at hsep
        rcases hsep with (rfl | rfl) | rfl <;> rfl
      · exact .inr ⟨d, hd, by simpa [IsSeparator, or_assoc] using hsep⟩
    exact Kept.skip p hnone rfl rfl ht (by rw [hout]) (ih p _ hplain.tail hfits hplus.2)
  · have hout : p.compact (c :: t) =
        c :: Place.compact ⟨p.keepUnit, (Token.char c).deepen p.depth, some c⟩ t := by
      by_cases hspace : c = ' '
      · subst hspace
        rw [Place.compact_cons, Place.after, written_kept fun h => hdrop ⟨rfl, h⟩,
          first_mark (.inl rfl)]
        rfl
      · exact compact_plain hplain (opensNumber_of_not_starts hstarts) hspace
    refine Kept.skip ⟨p.keepUnit, (Token.char c).deepen p.depth, some c⟩ hnone rfl rfl ht ?_
      (ih _ _ hplain.tail (.inl rfl) hplus.2)
    rw [hout]
    refine quantities_char hc (fun hpoint => ?_) p.depth
    -- A digit behind the point would be one of the value, where it makes a number with the point.
    subst hpoint
    refine Bool.eq_false_iff.2 fun hdigit => ?_
    have hbefore : t.head?.any Char.isDigit = true :=
      digit_compact (ne_separator_of_last rfl (by decide)) (fun ho => by cases ho) hdigit
    cases t with
    | nil => cases hbefore
    | cons d t =>
      rw [show Numeral.starts ('.' :: d :: t) = d.isDigit from rfl] at hstarts
      exact absurd hbefore (Bool.eq_false_iff.1 hstarts)

/-- By induction on the length: each token leads to a place that fits the text behind it. -/
theorem keeps (t : Text) : Keeps t := by
  induction hn : t.length using Nat.strong_induction_on generalizing t with
  | _ n ih =>
  intro p last hplain hfits hplus
  subst hn
  cases t with
  | nil =>
    constructor
    · rw [Place.compact_nil]
    · rw [Place.compact_nil, tokens_nil]
      exact iff_of_true .nil trivial
  | cons c t =>
    have ih : ∀ u : Text, u.length < (c :: t).length → Keeps u := fun u hu => ih _ hu u rfl
    cases hstarts : Numeral.starts (c :: t) with
    | true => exact kept_number hstarts hplain hfits hplus ih
    | false =>
      cases hc : isIdent c with
      | true =>
        refine kept_word hstarts hc hplain hplus (ih _ ?_)
        exact Nat.lt_succ_of_le (List.dropWhile_sublist _).length_le
      | false => exact kept_char hstarts hc hplain hfits hplus (ih t (Nat.lt_succ_self _))

end Kept

/-- Whether the compact value of a property has the quantities of the value. -/
def KeepsQuantities (property value : Text) : Prop :=
  List.Forall₂ (Survives (unitKeepers.contains (Text.lowerAscii property)))
    (quantities 0 (tokens value)) (quantities 0 (tokens (compact property value)))

/-- A compact value has the same quantities, but for zeros without their unit of length, exactly if
no token of the value is read together with what is behind it. -/
theorem keepsQuantities_iff {property value : Text}
    (hproperty : Text.lowerAscii property ≠ "unicode-range") (hplain : Plain value)
    (hplus : Everywhere (fun _ => PlainPlus) 0 none (tokens value)) :
    KeepsQuantities property value ↔
      Separate (unitKeepers.contains (Text.lowerAscii property)) 0 none (tokens value) := by
  have hcompact : compact property value =
      Place.compact ⟨unitKeepers.contains (Text.lowerAscii property), 0, none⟩ value :=
    if_neg hproperty
  rw [KeepsQuantities, hcompact]
  exact (keeps value ⟨_, 0, none⟩ none hplain (.inl rfl) hplus).survive_iff

/-- Numbers that are shortened behind words, signs, spaces and parentheses, and before fractions. -/
theorem keepsQuantities_shorthand :
    let value : Text := "-0.50em -webkit-calc(+1.0*0px) a+00.10 0.0e+5.5 0px 10.25.50%"
    Text.lowerAscii "Margin" ≠ "unicode-range" ∧ Plain value ∧
      Everywhere (fun _ => PlainPlus) 0 none (tokens value) ∧
      compact "Margin" value = "-.5em -webkit-calc(1*0px) a+.1 0.0e+5.5 0 10.25.50%" ∧
      KeepsQuantities "Margin" value := by
  intro value
  have hproperty : Text.lowerAscii "Margin" ≠ "unicode-range" := by decide
  have hplain : Plain value := by decide +kernel
  have hplus : Everywhere (fun _ => PlainPlus) 0 none (tokens value) := by decide +kernel
  exact ⟨hproperty, hplain, hplus, by decide +kernel,
    (keepsQuantities_iff hproperty hplain hplus).2 (by decide +kernel)⟩

/-- A zero that loses its unit is read together with the fraction behind it. -/
theorem not_keepsQuantities_zeroBeforeFraction :
    let value : Text := "0px.5em"
    Text.lowerAscii "margin" ≠ "unicode-range" ∧ ' ' ∉ value ∧ Plain value ∧
      compact "margin" value = "0.5em" ∧ ¬ KeepsQuantities "margin" value := by
  intro value
  refine ⟨by decide, by decide, by decide +kernel, by decide +kernel, fun h => ?_⟩
  have hlength := h.length_eq
  revert hlength
  decide +kernel

end Stylesmith.Value
