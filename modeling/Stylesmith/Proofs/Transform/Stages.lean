import Mathlib.Data.List.Induction
import Stylesmith.Transform.Basic

set_option autoImplicit false

namespace Stylesmith.Stage

open Transform (Context Failure Output)
open SourceMap (composeText? parse?)

/-- What the transforms return, each for the text that the one before it made, or the first
failure. -/
def outputs (c : Context) : Stage → Text → Except Failure (List Output)
  | [], _ => .ok []
  | tr :: ts, t => (tr.run c t).bind fun next => (outputs c ts next.text).map (next :: ·)

def lastText (t : Text) (outs : List Output) : Text := (outs.getLast?.map (·.text)).getD t

theorem lastText_cons (t : Text) (out : Output) (outs : List Output) :
    lastText t (out :: outs) = lastText out.text outs := by
  rw [lastText, lastText, List.getLast?_cons]
  cases outs.getLast? <;> rfl

theorem lastText_append (t : Text) (first second : List Output) :
    lastText t (first ++ second) = lastText (lastText t first) second := by
  induction first generalizing t with
  | nil => rfl
  | cons out first ih => rw [List.cons_append, lastText_cons, lastText_cons, ih]

def warnings (ts : Stage) (outs : List Output) : List Text :=
  (ts.zip outs).flatMap fun (tr, out) => out.warnings.map fun w => tr.name ++ (": " : Text) ++ w

/-- The map through some steps, from the maps of the steps in order: each is composed with all that
come before it. -/
def mapThrough : List Text → Option Text
  | [] => none
  | map :: maps => maps.foldlM (fun before next => composeText? next before) map

/-- Each map but the first can be composed with all before it: both are source maps. -/
def Composable (maps : List Text) : Prop :=
  ∀ k map, 0 < k → maps[k]? = some map → ∃ before, mapThrough (maps.take k) = some before ∧
    (parse? map).isSome = true ∧ (parse? before).isSome = true

theorem isSome_composeText? (outer inner : Text) : (composeText? outer inner).isSome = true ↔
    (parse? outer).isSome = true ∧ (parse? inner).isSome = true := by
  rw [composeText?]
  cases parse? outer with
  | none => simp
  | some a => cases parse? inner <;> simp

theorem mapThrough_snoc {maps : List Text} (hmaps : maps ≠ []) (map : Text) :
    mapThrough (maps ++ [map]) = (mapThrough maps).bind (composeText? map) := by
  obtain ⟨first, maps, rfl⟩ := List.exists_cons_of_ne_nil hmaps
  rw [List.cons_append, mapThrough, mapThrough, List.foldlM_append]
  congr 1
  funext before
  rw [List.foldlM_cons]
  exact bind_pure _

theorem composable_snoc {maps : List Text} (hmaps : maps ≠ []) (map : Text) :
    Composable (maps ++ [map]) ↔ Composable maps ∧ ∃ before, mapThrough maps = some before ∧
      (parse? map).isSome = true ∧ (parse? before).isSome = true := by
  have hpos := List.length_pos_iff.2 hmaps
  constructor
  · intro h
    constructor
    · intro k next hk hnext
      have hlt := (List.getElem?_eq_some_iff.1 hnext).1
      obtain ⟨before, hbefore, hparse⟩ := h k next hk (by rwa [List.getElem?_append_left hlt])
      rw [List.take_append_of_le_length (Nat.le_of_lt hlt)] at hbefore
      exact ⟨before, hbefore, hparse⟩
    · obtain ⟨before, hbefore, hparse⟩ := h maps.length map hpos List.getElem?_concat_length
      rw [List.take_left] at hbefore
      exact ⟨before, hbefore, hparse⟩
  · rintro ⟨h, hlast⟩ k next hk hnext
    rcases Nat.lt_trichotomy k maps.length with hlt | rfl | hgt
    · rw [List.getElem?_append_left hlt] at hnext
      rw [List.take_append_of_le_length (Nat.le_of_lt hlt)]
      exact h k next hk hnext
    · rw [List.getElem?_concat_length, Option.some.injEq] at hnext
      rw [List.take_left, ← hnext]
      exact hlast
    · rw [List.getElem?_eq_none (by rw [List.length_append]; exact hgt)] at hnext
      cases hnext

/-- There is a map through some steps exactly if there are steps and all maps can be composed. -/
theorem isSome_mapThrough (maps : List Text) :
    (mapThrough maps).isSome = true ↔ maps ≠ [] ∧ Composable maps := by
  induction maps using List.reverseRec with
  | nil => simp [mapThrough]
  | append_singleton maps map ih =>
    rcases eq_or_ne maps [] with rfl | hmaps
    · have hsingle : Composable [map] := by
        intro k next hk hnext
        rw [List.getElem?_eq_none (Nat.succ_le_of_lt hk)] at hnext
        cases hnext
      simpa [mapThrough] using hsingle
    · rw [mapThrough_snoc hmaps, composable_snoc hmaps]
      have hne : maps ++ [map] ≠ [] := by simp
      cases hbefore : mapThrough maps with
      | none => simp
      | some before =>
        have hcomposable := (ih.1 (by rw [hbefore]; rfl)).2
        rw [Option.bind_some, isSome_composeText?]
        simp [hne, hcomposable]

def mapAfter : (mapped : Bool) → (before : Option Text) → List Output → Option Text
  | _, before, [] => before
  | mapped, before, out :: outs =>
    let now := if mapped then chain out.map before else none
    mapAfter now.isSome now outs

theorem result_runFrom (c : Context) (mapped : Bool) (made : Output) (ts : Stage) :
    (runFrom c mapped made ts).result = (outputs c ts made.text).map fun outs =>
      ⟨lastText made.text outs, mapAfter mapped made.map outs,
        made.warnings ++ warnings ts outs⟩ := by
  induction ts generalizing mapped made with
  | nil => simp [runFrom, outputs, Except.map, lastText, mapAfter, warnings]
  | cons tr ts ih =>
    rw [runFrom, outputs]
    cases tr.run c made.text with
    | error f => rfl
    | ok next =>
      change (runFrom c _ (advance mapped made tr.name next) ts).result =
        ((outputs c ts next.text).map (next :: ·)).map _
      rw [ih]
      cases houts : outputs c ts next.text with
      | error f => simp only [advance, houts]; rfl
      | ok outs =>
        simp only [advance, houts, Except.map, lastText_cons]
        simp [mapAfter, warnings]

theorem mapAfter_lost (outs : List Output) : mapAfter false none outs = none := by
  induction outs with
  | nil => rfl
  | cons out outs ih => exact ih

def maps? (outs : List Output) : Option (List Text) := outs.mapM (·.map)

theorem maps?_cons (out : Output) (outs : List Output) :
    maps? (out :: outs) = out.map.bind fun map => (maps? outs).map (map :: ·) := by
  rw [maps?, List.mapM_cons, ← maps?]
  cases out.map with
  | none => rfl
  | some map => cases maps? outs <;> rfl

theorem mapAfter_some (before : Text) (outs : List Output) :
    mapAfter true (some before) outs = (maps? outs).bind fun maps =>
      maps.foldlM (fun before next => composeText? next before) before := by
  induction outs generalizing before with
  | nil => rfl
  | cons out outs ih =>
    rw [mapAfter, maps?_cons]
    cases out.map with
    | none => exact mapAfter_lost outs
    | some map =>
      simp only [if_true, chain]
      cases hcompose : composeText? map before with
      | none =>
        rw [Option.isSome_none, mapAfter_lost]
        cases maps? outs <;> simp [hcompose]
      | some now =>
        rw [Option.isSome_some, ih]
        cases maps? outs <;> simp [hcompose]

theorem mapAfter_fresh (outs : List Output) :
    mapAfter true none outs = (maps? outs).bind mapThrough := by
  cases outs with
  | nil => rfl
  | cons out outs =>
    rw [mapAfter, maps?_cons]
    cases out.map with
    | none => exact mapAfter_lost outs
    | some map =>
      simp only [if_true, chain, Option.isSome_some]
      rw [mapAfter_some]
      cases maps? outs <;> rfl

theorem maps?_eq (outs : List Output) : maps? outs =
    if ∀ out ∈ outs, out.map.isSome = true then some (outs.filterMap (·.map)) else none := by
  induction outs with
  | nil => rfl
  | cons out outs ih =>
    rw [maps?_cons, ih]
    cases hmap : out.map with
    | none => simp [hmap]
    | some map =>
      rw [List.filterMap_cons_some hmap]
      simp only [List.forall_mem_cons, hmap, Option.isSome_some, true_and, Option.bind_some]
      split <;> rfl

/-- What a stage makes: the text that the last transform leaves, a map, and all warnings. -/
theorem result_run (c : Context) (ts : Stage) (t : Text) :
    (run ts c t).result = (outputs c ts t).map fun outs =>
      ⟨lastText t outs, mapAfter c.sourceMap none outs, warnings ts outs⟩ :=
  result_runFrom c c.sourceMap ⟨t, none, []⟩ ts

theorem outputs_append (c : Context) (S T : Stage) (t : Text) :
    outputs c (S ++ T) t = (outputs c S t).bind fun first =>
      (outputs c T (lastText t first)).map (first ++ ·) := by
  induction S generalizing t with
  | nil =>
    change outputs c T t = (outputs c T t).map ([] ++ ·)
    cases outputs c T t <;> rfl
  | cons tr S ih =>
    rw [List.cons_append, outputs, outputs]
    cases tr.run c t with
    | error f => rfl
    | ok next =>
      change (outputs c (S ++ T) next.text).map (next :: ·) =
        ((outputs c S next.text).map (next :: ·)).bind _
      rw [ih]
      cases outputs c S next.text with
      | error f => rfl
      | ok first =>
        simp only [Except.bind, Except.map, lastText_cons]
        cases outputs c T (lastText next.text first) <;> rfl

theorem warnings_append {S T : Stage} {first : List Output} (h : first.length = S.length)
    (second : List Output) :
    warnings (S ++ T) (first ++ second) = warnings S first ++ warnings T second := by
  rw [warnings, List.zip_append h.symm, List.flatMap_append]
  rfl

theorem length_outputs {c : Context} {ts : Stage} {t : Text} {outs : List Output}
    (h : outputs c ts t = .ok outs) : outs.length = ts.length := by
  induction ts generalizing t outs with
  | nil =>
    cases h
    rfl
  | cons tr ts ih =>
    rw [outputs] at h
    cases hrun : tr.run c t with
    | error f =>
      rw [hrun] at h
      cases h
    | ok next =>
      rw [hrun] at h
      change (outputs c ts next.text).map (next :: ·) = .ok outs at h
      cases hlater : outputs c ts next.text with
      | error f =>
        rw [hlater] at h
        cases h
      | ok later =>
        rw [hlater] at h
        cases h
        rw [List.length_cons, List.length_cons, ih hlater]

theorem mapAfter_append (mapped : Bool) (before : Option Text) {first : List Output}
    (hfirst : first ≠ []) (second : List Output) : mapAfter mapped before (first ++ second) =
      mapAfter (mapAfter mapped before first).isSome (mapAfter mapped before first) second := by
  have later : ∀ now outs, mapAfter (Option.isSome now) now (outs ++ second) =
      mapAfter (mapAfter now.isSome now outs).isSome (mapAfter now.isSome now outs) second := by
    intro now outs
    induction outs generalizing now with
    | nil => rfl
    | cons out outs ih => exact ih _
  obtain ⟨out, outs, rfl⟩ := List.exists_cons_of_ne_nil hfirst
  exact later _ outs

/-- What the map of a stage is for these outputs of its transforms: the map through all steps. It is
there exactly if maps are asked for, and each transform has one that can be composed with those
before. -/
structure IsMapOf (c : Context) (outs : List Output) (map : Option Text) : Prop where
  isSome_iff : map.isSome = true ↔ c.sourceMap = true ∧ outs ≠ [] ∧
    (∀ out ∈ outs, out.map.isSome = true) ∧ Composable (outs.filterMap (·.map))
  eq_mapThrough : ∀ m, map = some m → mapThrough (outs.filterMap (·.map)) = some m

theorem isMapOf_mapAfter (c : Context) (outs : List Output) :
    IsMapOf c outs (mapAfter c.sourceMap none outs) := by
  cases hmaps : c.sourceMap with
  | false =>
    rw [mapAfter_lost]
    exact ⟨by simp [hmaps], nofun⟩
  | true =>
    rw [mapAfter_fresh, maps?_eq]
    by_cases hall : ∀ out ∈ outs, out.map.isSome = true
    · rw [if_pos hall, Option.bind_some]
      refine ⟨?_, fun m h => h⟩
      have hne : outs.filterMap (·.map) ≠ [] ↔ outs ≠ [] := by
        rw [ne_eq, List.filterMap_eq_nil_iff]
        cases outs with
        | nil => simp
        | cons out outs =>
          have hout := hall out List.mem_cons_self
          simp only [ne_eq, reduceCtorEq, not_false_eq_true, iff_true, not_forall]
          exact ⟨out, List.mem_cons_self, Option.isSome_iff_ne_none.1 hout⟩
      rw [isSome_mapThrough, hne]
      exact ⟨fun h => ⟨hmaps, h.1, hall, h.2⟩, fun h => ⟨h.2.1, h.2.2.2⟩⟩
    · rw [if_neg hall]
      exact ⟨by simp [hall], nofun⟩

/-- Two stages in a row are run one after the other, on the text and for the warnings, and fail as
the first of them that fails. The map of a stage is that of its outputs. Once there is none behind
some transform, there is none whatever is run later. -/
theorem run_sequential (S T : Stage) (c : Context) (t : Text) :
    (run (S ++ T) c t).result.map (fun made => (made.text, made.warnings)) =
      ((run S c t).result.bind fun first => (run T c first.text).result.map fun second =>
        (second.text, first.warnings ++ second.warnings)) ∧
    (run S c t).result.map (fun made => (made.text, made.warnings)) =
      (outputs c S t).map (fun outs => (lastText t outs, warnings S outs)) ∧
    ∀ made, (run S c t).result = .ok made →
      (∃ outs, outputs c S t = .ok outs ∧ outs.length = S.length ∧ IsMapOf c outs made.map) ∧
      (S ≠ [] → made.map = none →
        ∀ later, (run (S ++ T) c t).result = .ok later → later.map = none) := by
  rw [result_run, result_run, outputs_append]
  cases hfirst : outputs c S t with
  | error f => exact ⟨rfl, rfl, nofun⟩
  | ok first =>
    have hlength := length_outputs hfirst
    refine ⟨?_, rfl, ?_⟩
    · simp only [Except.bind, Except.map, result_run]
      cases outputs c T (lastText t first) with
      | error f => rfl
      | ok second =>
        simp only [lastText_append, warnings_append hlength]
    · rintro made ⟨⟩
      refine ⟨⟨first, rfl, hlength, isMapOf_mapAfter c first⟩, fun hS hlost later hlater => ?_⟩
      have hne : first ≠ [] := by
        rintro rfl
        exact hS (List.length_eq_zero_iff.1 hlength.symm)
      cases hsecond : outputs c T (lastText t first) with
      | error f =>
        rw [Except.bind, hsecond] at hlater
        cases hlater
      | ok second =>
        rw [Except.bind, hsecond] at hlater
        cases hlater
        change mapAfter c.sourceMap none first = none at hlost
        change mapAfter c.sourceMap none (first ++ second) = none
        rw [mapAfter_append _ _ hne, hlost]
        exact mapAfter_lost second

def shift : Transform where
  name := "shift"
  run _ t := .ok ⟨'\n' :: t, some
    "\x7b\"version\":3,\"sources\":[\"in.css\"],\"names\":[],\"mappings\":\";AAAA;AACA\"\x7d", []⟩

def note : Transform where
  name := "note"
  run _ t := .ok ⟨t, none, ["seen"]⟩

/-- The map through two steps is lost at the third one, and the fourth does not bring it back. -/
theorem run_sequential_lostMap :
    let c : Context := ⟨[], none, true⟩
    ∃ made lost later, (run [shift, shift] c "a").result = .ok made ∧ made.map.isSome = true ∧
      (∃ outs, outputs c [shift, shift] "a" = .ok outs ∧ outs.length = 2 ∧
        IsMapOf c outs made.map) ∧
      (run [shift, shift, note] c "a").result = .ok lost ∧ lost.map = none ∧
      lost.warnings = [("note: seen" : Text)] ∧
      (run ([shift, shift, note] ++ [shift]) c "a").result = .ok later ∧ later.text = "\n\n\na" ∧
      later.map = none := by
  intro c
  have hmap : ((run [shift, shift] c "a").result.toOption.bind (·.map)).isSome = true := by
    decide +kernel
  cases hmade : (run [shift, shift] c "a").result with
  | error f =>
    rw [hmade] at hmap
    cases hmap
  | ok made =>
    rw [hmade] at hmap
    have houts := ((run_sequential [shift, shift] [] c "a").2.2 made hmade).1
    have hlost : (run [shift, shift, note] c "a").result =
        .ok ⟨"\n\na", none, [("note: seen" : Text)]⟩ := rfl
    have hlater := ((run_sequential [shift, shift, note] [shift] c "a").2.2 _ hlost).2
      (List.cons_ne_nil _ _) rfl _ rfl
    exact ⟨made, _, _, rfl, hmap, houts, hlost, rfl, rfl, rfl, rfl, hlater⟩

end Stylesmith.Stage
