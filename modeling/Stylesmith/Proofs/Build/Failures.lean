import Mathlib.Data.List.Range
import Stylesmith.Proofs.Build.Maps

set_option autoImplicit false

namespace Stylesmith.Build

variable {setup : Setup} {work : Text} {maps : Bool} {s : Source}

def Source.context (setup : Setup) (work : Text) (maps : Bool) (s : Source) : Transform.Context :=
  ⟨origin work s.url, setup.config.parser, maps⟩

inductive Source.Yields (setup : Setup) (work : Text) (maps : Bool) (s : Source) : Text → Prop where
  | asIs {t : Text} (hcontents : s.contents = .ok t) (h : setup.transforms s.path = false) :
      s.Yields setup work maps t
  | transformed {t : Text} {made : Transform.Output} (hcontents : s.contents = .ok t)
      (h : setup.transforms s.path = true)
      (hrun : (setup.stage.run (s.context setup work maps) t).result = .ok made) :
      s.Yields setup work maps made.text

inductive Source.FailsWith (setup : Setup) (work : Text) (maps : Bool) (s : Source) :
    FragmentError → Prop where
  | unreadable {reason : Text} (hcontents : s.contents = .error reason) :
      s.FailsWith setup work maps
        (.plain (("failed to read " : Text) ++ s.path ++ (": " : Text) ++ reason))
  | rejected {t : Text} {f : Transform.Failure} (hcontents : s.contents = .ok t)
      (h : setup.transforms s.path = true)
      (hrun : (setup.stage.run (s.context setup work maps) t).result = .error f) :
      s.FailsWith setup work maps f.toFragmentError
  | unparsable {t : Text} {e : SyntaxError} (hyields : s.Yields setup work maps t)
      (hparse : Stylesheet.parse s.path t true = .error e) :
      s.FailsWith setup work maps (.ofSyntaxError e)

def Source.Fails (setup : Setup) (work : Text) (maps : Bool) (s : Source) : Prop :=
  ∃ e, s.FailsWith setup work maps e

theorem process_of_yields {t : Text} (h : s.Yields setup work maps t) :
    ∃ map warnings calls, process setup work maps s = parseInto s.path t map warnings calls := by
  cases h with
  | asIs hcontents h =>
    refine ⟨s.map, 0, [], ?_⟩
    rw [process, hcontents]
    simp only [h, Bool.false_eq_true, if_false]
  | @transformed t made hcontents h hrun =>
    refine ⟨mapThrough s t made.map, made.warnings.length,
      (setup.stage.run (s.context setup work maps) t).calls, ?_⟩
    rw [Source.context] at hrun ⊢
    rw [process, hcontents]
    simp only [h, if_true, hrun]

theorem process_of_failsWith {e : FragmentError} (h : s.FailsWith setup work maps e) :
    ∃ warnings calls, process setup work maps s = .failed s.path e warnings calls := by
  cases h with
  | unreadable hcontents =>
    refine ⟨0, [], ?_⟩
    rw [process, hcontents]
  | @rejected t f hcontents h hrun =>
    refine ⟨0, (setup.stage.run (s.context setup work maps) t).calls, ?_⟩
    rw [Source.context] at hrun ⊢
    rw [process, hcontents]
    simp only [h, if_true, hrun]
  | unparsable hyields hparse =>
    obtain ⟨map, warnings, calls, hprocess⟩ := process_of_yields hyields
    refine ⟨warnings, calls, ?_⟩
    rw [hprocess, parseInto, hparse]

theorem exists_yields_or_failsWith (setup : Setup) (work : Text) (maps : Bool) (s : Source) :
    (∃ t, s.Yields setup work maps t) ∨ ∃ e, s.FailsWith setup work maps e := by
  cases hcontents : s.contents with
  | error reason => exact .inr ⟨_, .unreadable hcontents⟩
  | ok t =>
    cases h : setup.transforms s.path with
    | false => exact .inl ⟨t, .asIs hcontents h⟩
    | true =>
      cases hrun : (setup.stage.run (s.context setup work maps) t).result with
      | error f => exact .inr ⟨_, .rejected hcontents h hrun⟩
      | ok made => exact .inl ⟨_, .transformed hcontents h hrun⟩

/-- What becomes of a file: it fails, or its text is parsed. -/
theorem process_cases (setup : Setup) (work : Text) (maps : Bool) (s : Source) :
    (∃ e warnings calls, s.FailsWith setup work maps e ∧
        process setup work maps s = .failed s.path e warnings calls) ∨
      ∃ t sheet map warnings calls, s.Yields setup work maps t ∧
        Stylesheet.parse s.path t true = .ok sheet ∧
        process setup work maps s = ⟨s.path, sheet, t, map, none, warnings, calls⟩ := by
  have hfailed : ∀ {e}, s.FailsWith setup work maps e → ∃ e warnings calls,
      s.FailsWith setup work maps e ∧
        process setup work maps s = .failed s.path e warnings calls := by
    intro e h
    obtain ⟨warnings, calls, hprocess⟩ := process_of_failsWith h
    exact ⟨e, warnings, calls, h, hprocess⟩
  obtain ⟨t, hyields⟩ | ⟨e, h⟩ := exists_yields_or_failsWith setup work maps s
  · cases hparse : Stylesheet.parse s.path t true with
    | error e => exact .inl (hfailed (.unparsable hyields hparse))
    | ok sheet =>
      obtain ⟨map, warnings, calls, hprocess⟩ := process_of_yields hyields
      rw [parseInto, hparse] at hprocess
      exact .inr ⟨t, sheet, map, warnings, calls, hyields, hparse, hprocess⟩
  · exact .inl (hfailed h)

theorem error_process_eq_some_iff {e : FragmentError} :
    (process setup work maps s).error = some e ↔ s.FailsWith setup work maps e := by
  constructor
  · intro h
    obtain ⟨e', _, _, hfails, hprocess⟩ | ⟨_, _, _, _, _, _, _, hprocess⟩ :=
      process_cases setup work maps s
    · rw [hprocess] at h
      cases h
      exact hfails
    · rw [hprocess] at h
      cases h
  · intro h
    obtain ⟨_, _, hprocess⟩ := process_of_failsWith h
    rw [hprocess]
    rfl

theorem error_process_eq_none_iff :
    (process setup work maps s).error = none ↔ ¬ s.Fails setup work maps := by
  rw [Source.Fails]
  simp only [← error_process_eq_some_iff]
  cases (process setup work maps s).error <;> simp

instance (s : Source) : Decidable (s.Fails setup work maps) :=
  decidable_of_iff ((process setup work maps s).error ≠ none) (by
    rw [ne_eq, error_process_eq_none_iff, not_not])

variable {o : Options} {files : List Source}

/-- The errors that a pass reports are those of the files that it reads. -/
theorem errors_pass : (pass setup work o files).errors =
    (files.zipIdx.filter fun p => !isImportOnly p.1.address).filterMap fun p =>
      (process setup work o.sourceMaps p.1).error.map fun e => (p.2, e) := by
  unfold pass
  dsimp only
  split
  next hempty =>
    rw [List.isEmpty_iff.1 hempty]
    rfl
  next =>
    split <;> (dsimp only; rw [List.filterMap_map]; rfl)

theorem mem_errors_pass {i : Nat} {e : FragmentError} :
    (i, e) ∈ (pass setup work o files).errors ↔ ∃ s, files[i]? = some s ∧
      isImportOnly s.address = false ∧ s.FailsWith setup work o.sourceMaps e := by
  simp only [errors_pass, List.mem_filterMap, List.mem_filter, Option.map_eq_some_iff,
    error_process_eq_some_iff, Bool.not_eq_true']
  constructor
  · rintro ⟨⟨s, j⟩, ⟨hmem, hread⟩, _, hfails, heq⟩
    cases heq
    exact ⟨s, List.mk_mem_zipIdx_iff_getElem?.1 hmem, hread, hfails⟩
  · rintro ⟨s, hs, hread, hfails⟩
    exact ⟨(s, i), ⟨List.mk_mem_zipIdx_iff_getElem?.2 hs, hread⟩, e, hfails, rfl⟩

theorem pairwise_errors_pass :
    (pass setup work o files).errors.Pairwise fun a b => a.1 < b.1 := by
  have hindices : files.zipIdx.Pairwise fun a b => a.2 < b.2 := by
    rw [← List.pairwise_map, List.zipIdx_map_snd]
    exact List.pairwise_lt_range'
  rw [errors_pass, List.pairwise_filterMap]
  refine (hindices.filter _).imp ?_
  rintro ⟨s, i⟩ ⟨s', j⟩ hij a ha b hb
  obtain ⟨_, _, rfl⟩ := Option.map_eq_some_iff.1 ha
  obtain ⟨_, _, rfl⟩ := Option.map_eq_some_iff.1 hb
  exact hij

end Stylesmith.Build
