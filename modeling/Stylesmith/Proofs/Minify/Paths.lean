import Stylesmith.Proofs.Minify.Chunks
import Stylesmith.Proofs.Stylesheet.Idempotence
import Stylesmith.Stylesheet.Merge

set_option autoImplicit false

namespace Stylesmith

open Node

variable {α : Type}

namespace Node

theorem allLegible_iff_forall {layout : Layout} {depth : Nat} {ns : List (Node α)} :
    AllLegible layout depth ns ↔ ∀ n ∈ ns, Legible layout depth n := by
  induction ns with
  | nil => exact ⟨fun _ _ hn => absurd hn List.not_mem_nil, fun _ => trivial⟩
  | cons n ns ih => rw [AllLegible, ih, List.forall_mem_cons]

theorem exists_not_wide (layout : Layout) (depth : Nat) (n : Node α) :
    ∃ c ∈ written layout depth n, Text.isWide c = false := by
  cases n with
  | rule selectors children o =>
    rw [written_rule]
    exact ⟨'{', by simp, rfl⟩
  | group name prelude children o =>
    rw [written_group]
    exact ⟨'@', by simp, rfl⟩
  | statement name prelude o =>
    rw [written_statement]
    exact ⟨'@', by simp, rfl⟩
  | declaration property value important o =>
    rw [written_declaration]
    refine ⟨':', List.mem_append_left _ ?_, rfl⟩
    cases layout <;>
      exact List.mem_append_left _ (List.mem_append_left _ (List.mem_append_right _ (by decide)))
  | comment text o =>
    rw [written_comment]
    exact ⟨'/', by simp, rfl⟩

end Node

theorem isWide_of_trim {t : Text} (h : Text.trim t = []) : ∀ c ∈ t, Text.isWide c = true := by
  obtain ⟨w, hw, hdrop⟩ := trimEnd_append (t.dropWhile Text.isWide)
  have hend : Text.trimEnd (t.dropWhile Text.isWide) = [] := h
  rw [hend, List.nil_append] at hdrop
  intro c hc
  rw [← List.takeWhile_append_dropWhile (p := Text.isWide) (l := t), List.mem_append] at hc
  rcases hc with hc | hc
  · exact wide_takeWhile t c hc
  · exact hw c (hdrop ▸ hc)

namespace Merge

theorem mem_hoist {leading : Bool} {pending ns : List (Node α)} {n : Node α} :
    n ∈ (hoist leading pending ns).1 ∨ n ∈ (hoist leading pending ns).2 ↔
      n ∈ pending ∨ n ∈ ns := by
  induction ns generalizing leading pending with
  | nil => simp [hoist]
  | cons m ns ih =>
    rw [hoist]
    split_ifs
    · rw [ih]
      simp [or_assoc]
    · have hrest := @ih leading []
      simp only [List.not_mem_nil, false_or] at hrest
      simp only [List.mem_append, List.mem_cons, ← hrest]
      tauto
    · have hrest := @ih (leading && m.isCharset) []
      simp only [List.not_mem_nil, false_or] at hrest
      simp only [List.mem_append, List.mem_cons, ← hrest]
      tauto

theorem mem_children {sheets : List Stylesheet} {n : Node Provenance} :
    n ∈ children sheets ↔ ∃ s ∈ sheets, n ∈ s.children := by
  have hoisted : ∀ s : Stylesheet, n ∈ s.children ↔
      n ∈ (hoist true [] s.children).1 ∨ n ∈ (hoist true [] s.children).2 := by
    intro s
    rw [mem_hoist]
    simp
  simp only [children, List.mem_append, List.mem_flatMap, List.mem_map, hoisted]
  constructor
  · rintro (⟨_, ⟨s, hs, rfl⟩, hn⟩ | ⟨_, ⟨s, hs, rfl⟩, hn⟩)
    · exact ⟨s, hs, .inl hn⟩
    · exact ⟨s, hs, .inr hn⟩
  · rintro ⟨s, hs, hn | hn⟩
    · exact .inl ⟨_, ⟨s, hs, rfl⟩, hn⟩
    · exact .inr ⟨_, ⟨s, hs, rfl⟩, hn⟩

/-- A merged sheet is legible if the sheets that it is merged of are. -/
theorem allLegible_children {layout : Layout} {sheets : List Stylesheet} :
    AllLegible layout 0 (children sheets) ↔ ∀ s ∈ sheets, AllLegible layout 0 s.children := by
  simp only [allLegible_iff_forall, mem_children]
  constructor
  · intro h s hs n hn
    exact h n ⟨s, hs, hn⟩
  · rintro h n ⟨s, hs, hn⟩
    exact h s hs n hn

end Merge

namespace Stylesheet

theorem toChunks_ofChunks (ts : List Text) : (Minified.ofChunks ts).toChunks = ts := by
  unfold Minified.ofChunks
  split <;> rfl

theorem map_text_minify (budget : Option Nat) (withMappings : Bool) (s : Stylesheet) :
    (s.minify budget withMappings).map (·.text) =
      (minifiedChunks budget s.children).map (render .compact) := by
  rw [minify, List.map_map]
  rfl

/-- Only an empty sheet has nothing but white space written of it. -/
theorem eq_nil_of_trim_render {layout : Layout} {ns : List (Node α)}
    (h : Text.trim (render layout ns) = []) : ns = [] := by
  have hwide := isWide_of_trim h
  cases ns with
  | nil => rfl
  | cons n ns =>
    rw [render_cons] at hwide
    obtain ⟨c, hc, hcw⟩ := exists_not_wide layout 0 n
    rw [hwide c (List.mem_append_left _ hc)] at hcw
    cases hcw

theorem minifyText_render_iff {layout : Layout} {ns : List (Node α)} {budget : Option Nat}
    {m : Minified} : minifyText budget (render layout ns) = .ok m ↔
      ∃ s, parse mergedName (render layout ns) false = .ok s ∧
        m = .ofChunks ((minifiedChunks budget s.children).map (render .compact)) := by
  by_cases hempty : (Text.trim (render layout ns)).isEmpty = true
  · obtain rfl := eq_nil_of_trim_render (List.isEmpty_iff.1 hempty)
    have hnil : AllLegible layout 0 ([] : List (Node α)) := trivial
    obtain ⟨s, hs, hb⟩ := parse_render_iff.2 hnil
    have hchunks : (minifiedChunks budget s.children).map (render .compact) = [[]] := by
      rw [map_render_minifiedChunks hb]
      simp [minifiedChunks, minifyAll, Chunk.split, selectorCounts, render_nil, Layout.topEnd]
    rw [minifyText, if_pos hempty]
    constructor
    · rintro h
      cases h
      exact ⟨s, hs, by rw [hchunks]; rfl⟩
    · rintro ⟨s', hs', rfl⟩
      rw [hs] at hs'
      cases hs'
      rw [hchunks]
      rfl
  · rw [minifyText, if_neg hempty]
    cases parse mergedName (render layout ns) false with
    | error e => simp [Except.map]
    | ok s => simp [Except.map, eq_comm]

/-- Both ways agree for every budget exactly if the text of the merged sheet is read as one that
is minified alike. It is read as the merged sheet itself, and so both ways agree, exactly if the
tree of each fragment is legible, its references anchored if they are to be. -/
theorem minify_paths_agree_iff (anchor : Bool) (sheets : List Stylesheet) :
    ((∀ budget, ∃ m,
        minifyText budget (render .pretty (merge anchor sheets).children) = .ok m ∧
          m.toChunks = ((merge anchor sheets).minify budget true).map (·.text)) ↔
      ∃ s, parse mergedName (render .pretty (merge anchor sheets).children) false = .ok s ∧
        ∀ budget, (s.minify budget true).map (·.text) =
          ((merge anchor sheets).minify budget true).map (·.text)) ∧
    ((∃ s, parse mergedName (render .pretty (merge anchor sheets).children) false = .ok s ∧
        bare s.children = bare (merge anchor sheets).children ∧
        ∀ budget, (s.minify budget true).map (·.text) =
          ((merge anchor sheets).minify budget true).map (·.text)) ↔
      ∀ s ∈ (if anchor then sheets.map Merge.anchorReferences else sheets),
        AllLegible .pretty 0 s.children) := by
  simp only [map_text_minify]
  constructor
  · constructor
    · intro h
      obtain ⟨m, hm, _⟩ := h none
      obtain ⟨s, hs, -⟩ := minifyText_render_iff.1 hm
      refine ⟨s, hs, fun budget => ?_⟩
      obtain ⟨m, hm, hchunks⟩ := h budget
      obtain ⟨s', hs', rfl⟩ := minifyText_render_iff.1 hm
      rw [hs] at hs'
      cases hs'
      rwa [toChunks_ofChunks] at hchunks
    · rintro ⟨s, hs, hchunks⟩ budget
      refine ⟨_, minifyText_render_iff.2 ⟨s, hs, rfl⟩, ?_⟩
      rw [toChunks_ofChunks, hchunks]
  · rw [← Merge.allLegible_children]
    constructor
    · rintro ⟨s, hs, hb, _⟩
      exact parse_render_iff.1 ⟨s, hs, hb⟩
    · intro h
      obtain ⟨s, hs, hb⟩ := parse_render_iff.2 h
      exact ⟨s, hs, hb, map_render_minifiedChunks hb⟩

/-- A fragment that is parsed may make the second way fail. -/
theorem minify_paths_disagree : ¬ ∀ (anchor : Bool) (budget : Option Nat) (sheets : List Stylesheet),
    (∀ s ∈ sheets, ∃ source t, parse source t true = .ok s) →
      ∃ m, minifyText budget (render .pretty (merge anchor sheets).children) = .ok m ∧
        m.toChunks = ((merge anchor sheets).minify budget true).map (·.text) := by
  intro h
  have hminify : (match parse "a.css" "a\x7bb:url(x/*.png)\x7d" true with
      | .ok s => (minifyText none (render .pretty (merge false [s]).children)).toOption.isSome
      | .error _ => true) = false := by
    decide +kernel
  cases hs : parse "a.css" "a\x7bb:url(x/*.png)\x7d" true with
  | error e =>
    rw [hs] at hminify
    cases hminify
  | ok s =>
    rw [hs] at hminify
    obtain ⟨m, hm, _⟩ := h false none [s] fun s' hs' => ⟨_, _, List.mem_singleton.1 hs' ▸ hs⟩
    simp only [hm] at hminify
    cases hminify

end Stylesheet

end Stylesmith
