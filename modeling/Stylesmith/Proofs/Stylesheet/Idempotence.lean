import Stylesmith.Proofs.Stylesheet.Reread

set_option autoImplicit false

namespace Stylesmith.Stylesheet

open Node

variable {α : Type}

theorem exists_ok_of_any {ε : Type} {e : Except ε α} {p : α → Bool}
    (h : e.toOption.any p = true) : ∃ a, e = .ok a ∧ p a = true := by
  cases e with
  | error => cases h
  | ok a => exact ⟨a, rfl, h⟩

theorem parse_eq_ok_iff {source t : Text} {positions : Bool} {s : Stylesheet} :
    parse source t positions = .ok s ↔ ∃ ns, nodes t = .ok ns ∧
      s = ⟨some source, mapOrigins (provenance source t positions) ns⟩ := by
  unfold parse
  split
  · simp_all
  · rename_i ns h
    simp [h, eq_comm]

theorem exists_parse_iff {source t : Text} {positions : Bool} {p : List (Node Unit) → Prop} :
    (∃ s, parse source t positions = .ok s ∧ p (bare s.children)) ↔
      ∃ ms, nodes t = .ok ms ∧ p (bare ms) := by
  constructor
  · rintro ⟨s, hs, hp⟩
    obtain ⟨ms, hms, rfl⟩ := parse_eq_ok_iff.1 hs
    rw [bare_mapOrigins] at hp
    exact ⟨ms, hms, hp⟩
  · rintro ⟨ms, hms, hp⟩
    refine ⟨_, parse_eq_ok_iff.2 ⟨ms, hms, rfl⟩, ?_⟩
    rwa [bare_mapOrigins]

/-- A tree is legible exactly when parsing its text gives the tree. -/
theorem parse_render_iff {layout : Layout} {source : Text} {positions : Bool} {ns : List (Node α)} :
    (∃ s, parse source (render layout ns) positions = .ok s ∧ bare s.children = bare ns) ↔
      AllLegible layout 0 ns := by
  rw [← reread_iff_allLegible]
  exact exists_parse_iff (p := fun ms => ms = bare ns)

/-- Printing is idempotent exactly on the sheets whose text is that of a legible tree, and parsing
the text of a sheet gives the sheet exactly if it is legible itself. -/
theorem print_idempotent_iff (layout : Layout) (source t : Text) (positions : Bool) :
    ((∃ s, parse source t positions = .ok s ∧
        ∃ s', parse source (render layout s.children) positions = .ok s' ∧
          render layout s'.children = render layout s.children) ↔
      ∃ s, parse source t positions = .ok s ∧ ∃ ms : List (Node Unit),
        AllLegible layout 0 ms ∧ render layout ms = render layout s.children) ∧
    ((∃ s, parse source t positions = .ok s ∧
        ∃ s', parse source (render layout s.children) positions = .ok s' ∧
          bare s'.children = bare s.children) ↔
      ∃ s, parse source t positions = .ok s ∧ AllLegible layout 0 s.children) := by
  have again : ∀ s : Stylesheet, (∃ s', parse source (render layout s.children) positions = .ok s' ∧
      render layout s'.children = render layout s.children) ↔ ∃ ms : List (Node Unit),
        AllLegible layout 0 ms ∧ render layout ms = render layout s.children := by
    intro s
    constructor
    · rintro ⟨s', hs', hr⟩
      refine ⟨bare s'.children, ?_, (render_mapOrigins _ _ _).trans hr⟩
      rw [← @parse_render_iff _ layout source positions, bare,
        render_mapOrigins, hr]
      exact ⟨s', hs', (bare_mapOrigins _ _).symm⟩
    · rintro ⟨ms, hms, hr⟩
      obtain ⟨s', hs', hb⟩ := parse_render_iff.2 hms
      rw [hr] at hs'
      exact ⟨s', hs', (render_eq_of_bare hb).trans hr⟩
  constructor
  · simp only [again]
  · simp only [parse_render_iff]

/-- The scanner takes the reference as a whole, but its value ends where a comment seems to start. -/
theorem print_not_idempotent : ¬ ∀ (layout : Layout) (source t : Text) (positions : Bool)
    (s : Stylesheet), parse source t positions = .ok s →
      ∃ s', parse source (render layout s.children) positions = .ok s' ∧
        render layout s'.children = render layout s.children := by
  intro h
  have hprint : (match parse "a.css" "a\x7bb:url(x/*.png)\x7d" false with
      | .ok s => some (render .pretty s.children)
      | .error _ => none) = some ("a \x7b\n  b: url(x;\n\x7d\n" : Text) := by
    decide +kernel
  cases hs : parse "a.css" "a\x7bb:url(x/*.png)\x7d" false with
  | error e =>
    rw [hs] at hprint
    cases hprint
  | ok s =>
    rw [hs] at hprint
    obtain ⟨s', hs', _⟩ := h .pretty _ _ _ s hs
    have hparse : (parse "a.css" "a \x7b\n  b: url(x;\n\x7d\n" false).toOption.isSome = false := by
      decide +kernel
    rw [Option.some.inj hprint] at hs'
    rw [hs'] at hparse
    cases hparse

end Stylesmith.Stylesheet
