import Stylesmith.Minify.Basic
import Stylesmith.Proofs.Stylesheet.Pieces

set_option autoImplicit false

namespace Stylesmith

variable {α β : Type}

namespace Node

mutual

theorem minify?_mapOrigin (f : α → β) (n : Node α) :
    minify? (mapOrigin f n) = (minify? n).map (mapOrigin f) := by
  cases n with
  | rule selectors children o =>
    simp only [mapOrigin, minify?]
    rw [minifyAll_mapOrigins f children]
    cases minifyAll children <;> rfl
  | group name prelude children o =>
    simp only [mapOrigin, minify?]
    rw [minifyAll_mapOrigins f children]
    cases minifyAll children with
    | nil =>
      simp only [mapOrigins]
      split <;> rfl
    | cons => rfl
  | statement | declaration => rfl
  | comment text o =>
    simp only [mapOrigin, minify?]
    split <;> rfl

theorem minifyAll_mapOrigins (f : α → β) (ns : List (Node α)) :
    minifyAll (mapOrigins f ns) = mapOrigins f (minifyAll ns) := by
  cases ns with
  | nil => rfl
  | cons n ns =>
    simp only [mapOrigins, minifyAll]
    rw [minify?_mapOrigin f n, minifyAll_mapOrigins f ns]
    cases minify? n <;> rfl

end

mutual

theorem selectorCount_mapOrigin (f : α → β) (n : Node α) :
    selectorCount (mapOrigin f n) = selectorCount n := by
  cases n with
  | rule | group => simp only [mapOrigin, selectorCount, selectorCounts_mapOrigins]
  | statement | declaration | comment => rfl

theorem selectorCounts_mapOrigins (f : α → β) (ns : List (Node α)) :
    selectorCounts (mapOrigins f ns) = selectorCounts ns := by
  cases ns with
  | nil => rfl
  | cons n ns =>
    simp only [mapOrigins, selectorCounts, selectorCount_mapOrigin, selectorCounts_mapOrigins]

end

theorem filter_mapOrigins (f : α → β) {p : Node α → Bool} {q : Node β → Bool}
    (h : ∀ n, q (mapOrigin f n) = p n) (ns : List (Node α)) :
    (mapOrigins f ns).filter q = mapOrigins f (ns.filter p) := by
  rw [mapOrigins_eq_map, mapOrigins_eq_map, List.filter_map]
  congr 1
  exact List.filter_congr fun n _ => h n

theorem mapOrigins_append (f : α → β) (ns ms : List (Node α)) :
    mapOrigins f (ns ++ ms) = mapOrigins f ns ++ mapOrigins f ms := by
  simp only [mapOrigins_eq_map, List.map_append]

theorem isComment_mapOrigin (f : α → β) (n : Node α) : (mapOrigin f n).isComment = n.isComment := by
  cases n <;> rfl

theorem isStatementNamed_mapOrigin (f : α → β) (name : Text) (n : Node α) :
    (mapOrigin f n).isStatementNamed name = n.isStatementNamed name := by
  cases n <;> rfl

theorem isBody_mapOrigin (f : α → β) (n : Node α) : (mapOrigin f n).isBody = n.isBody := by
  simp only [isBody, isStatementNamed_mapOrigin]

end Node

open Node

namespace Chunk

theorem any_mapOrigins (f : α → β) (run : List (Node α)) :
    (mapOrigins f run).any (!·.isComment) = run.any (!·.isComment) := by
  rw [mapOrigins_eq_map, List.any_map]
  congr 1
  funext n
  exact congrArg (!·) (isComment_mapOrigin f n)

theorem runs_mapOrigins (f : α → β) (budget : Nat) (run : List (Node α)) (count : Nat)
    (ns : List (Node α)) : runs budget (mapOrigins f run) count (mapOrigins f ns) =
      (runs budget run count ns).map (mapOrigins f) := by
  induction ns generalizing run count with
  | nil => rfl
  | cons n ns ih =>
    have hone := ih [n] n.selectorCount
    have hmore := ih (run ++ [n]) (count + n.selectorCount)
    rw [mapOrigins_append] at hmore
    simp only [mapOrigins, runs, selectorCount_mapOrigin, any_mapOrigins] at hone hmore ⊢
    rw [hone, hmore]
    split <;> rfl

theorem split_mapOrigins (f : α → β) (budget : Option Nat) (ns : List (Node α)) :
    split budget (mapOrigins f ns) = (split budget ns).map (mapOrigins f) := by
  have hruns := runs_mapOrigins f (budget.getD 0) [] 0 (ns.filter (·.isBody))
  simp only [split, selectorCounts_mapOrigins]
  rw [filter_mapOrigins f (isStatementNamed_mapOrigin f "charset"),
    filter_mapOrigins f (isStatementNamed_mapOrigin f "import"),
    filter_mapOrigins f (isStatementNamed_mapOrigin f "namespace"),
    filter_mapOrigins f (isBody_mapOrigin f)]
  rw [mapOrigins] at hruns
  split
  · rfl
  · rw [hruns]
    cases runs (budget.getD 0) [] 0 (ns.filter (·.isBody)) with
    | nil => rfl
    | cons first others => simp [mapOrigins_append]

theorem runs_ne_nil (budget : Nat) (run : List (Node α)) (count : Nat) (ns : List (Node α)) :
    runs budget run count ns ≠ [] := by
  induction ns generalizing run count with
  | nil => exact List.cons_ne_nil run []
  | cons n ns ih =>
    rw [runs]
    split
    · exact List.cons_ne_nil run _
    · exact ih _ _

theorem split_ne_nil (budget : Option Nat) (ns : List (Node α)) : split budget ns ≠ [] := by
  unfold split
  dsimp only
  split
  · exact List.cons_ne_nil ns []
  · have hne := runs_ne_nil (budget.getD 0) [] 0 (ns.filter (·.isBody))
    split
    · contradiction
    · exact List.cons_ne_nil _ _

end Chunk

namespace Stylesheet

theorem minifiedChunks_mapOrigins (f : α → β) (budget : Option Nat) (ns : List (Node α)) :
    minifiedChunks budget (mapOrigins f ns) = (minifiedChunks budget ns).map (mapOrigins f) := by
  rw [minifiedChunks, minifyAll_mapOrigins, Chunk.split_mapOrigins]
  rfl

/-- Trees that differ in their origins only have the same minified texts. -/
theorem map_render_minifiedChunks {layout : Layout} {ms : List (Node α)} {ns : List (Node β)}
    (h : bare ms = bare ns) (budget : Option Nat) :
    (minifiedChunks budget ms).map (render layout) =
      (minifiedChunks budget ns).map (render layout) := by
  have hbare : ∀ {γ : Type} (ns : List (Node γ)), (minifiedChunks budget ns).map (render layout) =
      (minifiedChunks budget (bare ns)).map (render layout) := by
    intro γ ns
    rw [bare, minifiedChunks_mapOrigins, List.map_map]
    exact List.map_congr_left fun chunk _ => (render_mapOrigins _ layout chunk).symm
  rw [hbare ms, hbare ns, h]

end Stylesheet

end Stylesmith
