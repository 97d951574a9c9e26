import Stylesmith.Proofs.Cursor.Checked
import Stylesmith.Proofs.Stylesheet.Clean

set_option autoImplicit false

namespace Stylesmith

def Lexeme.topBytes (sep : Char) (depth n : Nat) : List Lexeme → List Nat
  | [] => []
  | plain c :: ls =>
    if c = sep ∧ depth = 0 then n :: topBytes sep depth (n + c.utf8Size) ls
    else topBytes sep (deepen depth c) (n + c.utf8Size) ls
  | l :: ls => topBytes sep depth (n + Text.bytes l.text) ls

namespace Text

def isImportance (t : Text) : Bool :=
  match t.dropWhile isWide with
  | '!' :: u =>
    let word := u.dropWhile isWide
    startsIgnoringCase "important" word && (word.drop 9).all isWide
  | _ => false

def markByte? (n : Nat) : Text → Option Nat
  | [] => none
  | c :: t => if isImportance (c :: t) then some n else markByte? (n + c.utf8Size) t

end Text

namespace Cursor

def parts (sep : Char) (t : Text) (start : Nat) : List Nat → Checked (List Text)
  | [] => do
    let (_, part) ← cutBytes t start
    pure [Text.trim part]
  | stop :: stops => do
    let (ahead, _) ← cutBytes t stop
    let (_, part) ← cutBytes ahead start
    let others ← parts sep t (stop + sep.utf8Size) stops
    pure (Text.trim part :: others)

/-- A value without the mark of importance at its end, and whether it had one. -/
def cutMark (value : Text) : Checked (Text × Bool) :=
  match Text.markByte? 0 value with
  | none => pure (value, false)
  | some n => do
    let (value, _) ← cutBytes value n
    pure (value, true)

end Cursor

namespace Text

theorem bytes_append (a b : Text) : bytes (a ++ b) = bytes a + bytes b := by
  induction a with
  | nil => simp [bytes]
  | cons c a ih => rw [List.cons_append, bytes, bytes, ih, Nat.add_assoc]

theorem cutBytes?_append (a b : Text) : cutBytes? (bytes a) (a ++ b) = some (a, b) := by
  induction a with
  | nil => rw [bytes, List.nil_append, cutBytes?]
  | cons c a ih =>
    obtain ⟨n, hn⟩ : ∃ n, c.utf8Size + bytes a = n + 1 :=
      Nat.exists_eq_add_one_of_ne_zero (by have := c.utf8Size_pos; omega)
    rw [bytes, hn, List.cons_append, cutBytes?, if_pos (by omega), ← hn, Nat.add_sub_cancel_left, ih]
    rfl

end Text

namespace Cursor

open Text (bytes)

theorem cutBytes_append (a b : Text) : cutBytes (a ++ b) (bytes a) = pure (a, b) := by
  rw [cutBytes, Text.cutBytes?_append]

/-- The cuts between separators give what stands between them. -/
theorem parts_topBytes {sep : Char} {depth n : Nat} {ls : List Lexeme} {ahead part : Text}
    (hn : n = bytes (ahead ++ part)) :
    parts sep (ahead ++ (part ++ ls.flatMap Lexeme.text)) (bytes ahead)
        (Lexeme.topBytes sep depth n ls) =
      pure ((Lexeme.split.glue part (Lexeme.split sep depth ls)).map Text.trim) := by
  fun_induction Lexeme.topBytes sep depth n ls generalizing ahead part with
  | case1 =>
    simp only [parts, cutBytes_append, pure_bind, Lexeme.split, Lexeme.split.glue,
      List.flatMap_nil, List.append_nil, List.map_cons, List.map_nil]
  | case2 depth n c ls hc ih =>
    obtain ⟨rfl, rfl⟩ := hc
    have hcut : cutBytes (ahead ++ (part ++ c :: ls.flatMap Lexeme.text)) n =
        pure (ahead ++ part, c :: ls.flatMap Lexeme.text) := by
      rw [hn, ← List.append_assoc, cutBytes_append]
    have hnext : n + c.utf8Size = bytes ((ahead ++ part ++ [c]) ++ []) := by
      simp only [hn, Text.bytes_append, bytes, Nat.add_zero]
    have hothers := ih hnext
    rw [List.append_nil] at hnext
    rw [Lexeme.glue_nil (Lexeme.split_ne_nil c 0 ls), List.nil_append, ← hnext,
      List.append_assoc, List.append_assoc, List.singleton_append] at hothers
    rw [List.flatMap_cons, Lexeme.text, List.singleton_append, parts, hcut, pure_bind]
    simp only [cutBytes_append, pure_bind, hothers, Lexeme.split, and_self, if_true,
      Lexeme.split.glue, List.append_nil, List.map_cons]
  | case3 depth n c ls hc ih =>
    have hnext : n + c.utf8Size = bytes (ahead ++ (part ++ [c])) := by
      simp only [hn, Text.bytes_append, bytes, Nat.add_assoc, Nat.add_zero]
    have hothers := ih hnext
    rw [List.flatMap_cons, Lexeme.split, if_neg hc, Lexeme.glue_glue, ← hothers, List.append_assoc]
    rfl
  | case4 depth n l ls hl ih =>
    have hnext : n + bytes l.text = bytes (ahead ++ (part ++ l.text)) := by
      simp only [hn, Text.bytes_append, Nat.add_assoc]
    have hothers := ih hnext
    rw [List.flatMap_cons, Lexeme.split, Lexeme.glue_glue, ← hothers, List.append_assoc]
    exact hl

/-- Cutting a text at all separators outside brackets splits it. -/
theorem parts_eq (sep : Char) (t : Text) :
    parts sep t 0 (Lexeme.topBytes sep 0 0 (Lexeme.ofText t)) = pure (Text.splitTop sep t) := by
  have h := @parts_topBytes sep 0 0 (Lexeme.ofText t) [] [] rfl
  rwa [List.nil_append, List.nil_append, Lexeme.flatMap_ofText, Lexeme.glue_nil
    (Lexeme.split_ne_nil sep 0 _)] at h

end Cursor

namespace Lexeme

theorem head?_topBytes (sep : Char) (depth n : Nat) (ls : List Lexeme) :
    (topBytes sep depth n ls).head? = (cut? sep depth ls).map fun p => n + Text.bytes p.1 := by
  fun_induction topBytes sep depth n ls with
  | case1 => rfl
  | case2 depth n c ls hc =>
    rw [cut?, if_pos hc]
    rfl
  | case3 depth n c ls hc ih =>
    rw [cut?, if_neg hc, ih, Option.map_map]
    congr 1
    funext p
    simp only [Function.comp_apply, Text.bytes, Nat.add_assoc]
  | case4 depth n l ls hl ih =>
    rw [cut?, ih, Option.map_map]
    · congr 1
      funext p
      simp only [Function.comp_apply, Text.bytes_append, Nat.add_assoc]
    · exact hl

end Lexeme

namespace Cursor

theorem topByte_none {sep : Char} {t : Text} (h : Text.cutTop? sep t = none) :
    (Lexeme.topBytes sep 0 0 (Lexeme.ofText t)).head? = none := by
  rw [Lexeme.head?_topBytes, ← Text.cutTop?, h]
  rfl

/-- The offset of the first separator is where the text before it ends. -/
theorem topByte_some {sep : Char} {t a b : Text} (h : Text.cutTop? sep t = some (a, b)) :
    (Lexeme.topBytes sep 0 0 (Lexeme.ofText t)).head? = some (Text.bytes a) ∧ t = a ++ sep :: b := by
  constructor
  · rw [Lexeme.head?_topBytes, ← Text.cutTop?, h, Option.map_some, Nat.zero_add]
  · rw [← Lexeme.cut?_text h, Lexeme.flatMap_ofText]

end Cursor

namespace Text

theorem isImportance_iff {t : Text} : isImportance t = true ↔ IsMark t := by
  constructor
  · intro h
    unfold isImportance at h
    split at h
    · rename_i u hu
      simp only [Bool.and_eq_true, startsIgnoringCase, eqIgnoringCase, beq_iff_eq,
        List.all_eq_true] at h
      refine ⟨t.takeWhile isWide, u.takeWhile isWide, (u.dropWhile isWide).take 9,
        (u.dropWhile isWide).drop 9, wide_takeWhile t, wide_takeWhile u, h.2, h.1.symm, ?_⟩
      rw [List.take_append_drop, List.cons_append, List.takeWhile_append_dropWhile, ← hu,
        List.takeWhile_append_dropWhile]
    · cases h
  · rintro ⟨before, between, word, after, hbefore, hbetween, hafter, hword, rfl⟩
    have hnine := length_of_important hword
    have hwide := not_wide_of_important hword
    have hne : word ≠ [] := List.ne_nil_of_length_pos (by omega)
    have hbang := (run_append (t := '!' :: between ++ (word ++ after)) hbefore rfl).2
    have hrest := (run_append hbetween (head_not_wide (u := after) hne hwide)).2
    unfold isImportance
    rw [hbang]
    simp only [List.cons_append, hrest, Bool.and_eq_true, List.all_eq_true]
    constructor
    · rw [startsIgnoringCase, eqIgnoringCase, beq_iff_eq,
        show ("important" : Text).length = 9 from rfl, List.take_left' hnine, hword]
      rfl
    · rw [List.drop_left' hnine]
      exact hafter

theorem isImportance_cons_wide {c : Char} {t : Text} (hc : isWide c = true) :
    isImportance (c :: t) = isImportance t := by
  rw [isImportance, isImportance, List.dropWhile_cons_of_pos hc]

/-- The longest mark that ends a text is found where the text before it ends, which is no white
space; what has no mark at its end has no offset of one. -/
theorem markByte?_cases (n : Nat) (t : Text) :
    markByte? n t = none ∧ (∀ u, u <:+ t → isImportance u = false) ∨
      ∃ v mark, t = v ++ mark ∧ markByte? n t = some (n + bytes v) ∧ isImportance mark = true ∧
        ∀ c ∈ v.getLast?, isWide c = false := by
  induction t generalizing n with
  | nil =>
    left
    refine ⟨rfl, fun u hu => ?_⟩
    rw [List.suffix_nil.1 hu]
    rfl
  | cons c t ih =>
    by_cases hc : isImportance (c :: t) = true
    · exact .inr ⟨[], c :: t, rfl, if_pos hc, hc, fun _ h => nomatch h⟩
    · rw [markByte?, if_neg hc]
      rcases ih (n + c.utf8Size) with ⟨hnone, hno⟩ | ⟨v, mark, rfl, hsome, hmark, hlast⟩
      · left
        refine ⟨hnone, fun u hu => ?_⟩
        rcases List.suffix_cons_iff.1 hu with rfl | hu
        · simpa using hc
        · exact hno u hu
      · right
        refine ⟨c :: v, mark, rfl, by rw [hsome, bytes, Nat.add_assoc], hmark, fun d hd => ?_⟩
        cases v with
        | nil =>
          cases hd
          rw [← Bool.not_eq_true]
          intro hwide
          exact hc ((isImportance_cons_wide hwide).trans hmark)
        | cons e v => exact hlast d hd

end Text

namespace Cursor

theorem cutMark_eq (value : Text) : cutMark value = pure (Text.cutImportant value) := by
  rcases Text.markByte?_cases 0 value with ⟨hnone, hno⟩ | ⟨v, mark, rfl, hsome, hmark, hlast⟩
  · rw [cutMark, hnone]
    rcases Text.cutImportant_cases value with hcut | ⟨v, mark, _, rfl, hmark⟩
    · rw [hcut]
    · have habsurd := hno mark (List.suffix_append v mark)
      rw [Text.isImportance_iff.2 hmark] at habsurd
      cases habsurd
  · rw [Nat.zero_add] at hsome
    rw [cutMark, hsome, Text.cutImportant_append_mark hlast (Text.isImportance_iff.1 hmark)]
    simp only [cutBytes_append, pure_bind]

end Cursor

end Stylesmith
