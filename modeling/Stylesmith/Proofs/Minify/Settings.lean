import Stylesmith.Proofs.Minify.Liveness

set_option autoImplicit false

namespace Stylesmith

variable {α β : Type}

/-- What stands before a block. -/
inductive BlockHeader where
  | selectors (ss : List Text)
  | atRule (name prelude : Text)
  deriving DecidableEq, Repr

/-- A declaration with the headers of the blocks around it, the outermost first. -/
structure Setting (α : Type) where
  headers : List BlockHeader
  property : Text
  value : Text
  important : Bool
  origin : α

def BlockHeader.compact : BlockHeader → BlockHeader
  | selectors ss => selectors (ss.map Selector.compact)
  | atRule name prelude => atRule name (Prelude.compact prelude)

def Setting.compact (s : Setting α) : Setting α :=
  { s with
    headers := s.headers.map BlockHeader.compact
    value := Node.compactValue s.property s.value }

namespace Node

mutual

def settings (above : List BlockHeader) : Node α → List (Setting α)
  | rule selectors children _ => allSettings (above ++ [.selectors selectors]) children
  | group name prelude children _ => allSettings (above ++ [.atRule name prelude]) children
  | statement _ _ _ => []
  | declaration property value important o => [⟨above, property, value, important, o⟩]
  | comment _ _ => []

def allSettings (above : List BlockHeader) : List (Node α) → List (Setting α)
  | [] => []
  | n :: ns => settings above n ++ allSettings above ns

end

theorem allSettings_eq_flatMap (above : List BlockHeader) (ns : List (Node α)) :
    allSettings above ns = ns.flatMap (settings above) := by
  induction ns with
  | nil => rfl
  | cons n ns ih => rw [allSettings, ih, List.flatMap_cons]

mutual

theorem settings_compact (above : List BlockHeader) (n : Node α) :
    settings (above.map BlockHeader.compact) (compact n) = (settings above n).map Setting.compact := by
  cases n with
  | rule selectors children o =>
    rw [compact, settings, settings, ← allSettings_compactAll, List.map_append]
    rfl
  | group name prelude children o =>
    rw [compact, settings, settings, ← allSettings_compactAll, List.map_append]
    rfl
  | statement | declaration | comment => rfl

theorem allSettings_compactAll (above : List BlockHeader) (ns : List (Node α)) :
    allSettings (above.map BlockHeader.compact) (compactAll ns) =
      (allSettings above ns).map Setting.compact := by
  cases ns with
  | nil => rfl
  | cons n ns =>
    rw [compactAll, allSettings, allSettings, settings_compact above n,
      allSettings_compactAll above ns, List.map_append]

end

mutual

theorem settings_eq_nil_of_not_isLive (above : List BlockHeader) {n : Node α}
    (h : isLive n = false) : settings above n = [] := by
  cases n with
  | rule selectors children o => exact allSettings_eq_nil_of_not_anyLive _ h
  | group name prelude children o =>
    rw [isLive, Bool.or_eq_false_iff] at h
    exact allSettings_eq_nil_of_not_anyLive _ h.2
  | statement | comment => rfl
  | declaration => cases h

theorem allSettings_eq_nil_of_not_anyLive (above : List BlockHeader) {ns : List (Node α)}
    (h : anyLive ns = false) : allSettings above ns = [] := by
  cases ns with
  | nil => rfl
  | cons n ns =>
    rw [anyLive, Bool.or_eq_false_iff] at h
    rw [allSettings, settings_eq_nil_of_not_isLive above h.1,
      allSettings_eq_nil_of_not_anyLive above h.2, List.append_nil]

end

mutual

theorem settings_keepLive (above : List BlockHeader) (n : Node α) :
    settings above (keepLive n) = settings above n := by
  cases n with
  | rule selectors children o => rw [keepLive, settings, settings, allSettings_keepAllLive]
  | group name prelude children o => rw [keepLive, settings, settings, allSettings_keepAllLive]
  | statement | declaration | comment => rfl

theorem allSettings_keepAllLive (above : List BlockHeader) (ns : List (Node α)) :
    allSettings above (keepAllLive ns) = allSettings above ns := by
  cases ns with
  | nil => rfl
  | cons n ns =>
    rw [keepAllLive, allSettings]
    split
    next h => rw [allSettings, settings_keepLive above n, allSettings_keepAllLive above ns]
    next h =>
      rw [settings_eq_nil_of_not_isLive above (Bool.eq_false_iff.2 h),
        allSettings_keepAllLive above ns, List.nil_append]

end

/-- Minifying makes the texts of all settings compact and does nothing else to them. -/
theorem allSettings_minifyAll (ns : List (Node α)) :
    allSettings [] (minifyAll ns) = (allSettings [] ns).map Setting.compact := by
  rw [minifyAll_eq, ← allSettings_keepAllLive [] ns, ← allSettings_compactAll]
  rfl

theorem settings_eq_nil_of_isStatement (above : List BlockHeader) {n : Node α}
    (h : n.isStatement = true) : settings above n = [] := by
  cases n with
  | statement => rfl
  | rule | group | declaration | comment => cases h

theorem isStatement_of_isStatementNamed {name : Text} {n : Node α}
    (h : n.isStatementNamed name = true) : n.isStatement = true := by
  cases n with
  | statement => rfl
  | rule | group | declaration | comment => cases h

theorem isStatement_of_not_isBody {n : Node α} (h : n.isBody = false) : n.isStatement = true := by
  cases n with
  | statement => rfl
  | rule | group | declaration | comment => cases h

end Node

namespace Chunk

variable {f : Node α → List β}

/-- Splitting into runs cuts the nodes and moves none of them. -/
theorem flatten_runs (budget : Nat) (run : List (Node α)) (count : Nat) (ns : List (Node α)) :
    (runs budget run count ns).flatten = run ++ ns := by
  induction ns generalizing run count with
  | nil => simp [runs]
  | cons n ns ih =>
    rw [runs]
    split
    · rw [List.flatten_cons, ih, List.singleton_append]
    · rw [ih, List.append_assoc, List.singleton_append]

theorem flatMap_isStatementNamed (hf : ∀ n, n.isStatement = true → f n = []) (name : Text)
    (ns : List (Node α)) : (ns.filter (·.isStatementNamed name)).flatMap f = [] := by
  refine List.flatMap_eq_nil_iff.2 fun n hn => hf n ?_
  exact Node.isStatement_of_isStatementNamed (List.mem_filter.1 hn).2

theorem flatMap_flatten_map_append {lead : List (Node α)} (hlead : lead.flatMap f = [])
    (runs : List (List (Node α))) :
    (runs.map (lead ++ ·)).flatten.flatMap f = runs.flatten.flatMap f := by
  induction runs with
  | nil => rfl
  | cons run runs ih =>
    simp only [List.map_cons, List.flatten_cons, List.flatMap_append, hlead, ih, List.nil_append]

/-- What is collected from the nodes that are no statements is collected from the chunks just as
from the sheet, once and in order. -/
theorem flatMap_flatten_split (hf : ∀ n, n.isStatement = true → f n = []) (budget : Option Nat)
    (ns : List (Node α)) : (split budget ns).flatten.flatMap f = ns.flatMap f := by
  have hcharsets := flatMap_isStatementNamed hf "charset" ns
  have himports := flatMap_isStatementNamed hf "import" ns
  have hnamespaces := flatMap_isStatementNamed hf "namespace" ns
  have hbody : (runs (budget.getD 0) [] 0 (ns.filter (·.isBody))).flatten.flatMap f =
      ns.flatMap f := by
    rw [flatten_runs, List.nil_append]
    exact flatMap_filter fun n _ h => hf n (Node.isStatement_of_not_isBody h)
  unfold split
  dsimp only
  split
  · rw [List.flatten_singleton]
  · rw [← hbody]
    cases runs (budget.getD 0) [] 0 (ns.filter (·.isBody)) with
    | nil => rfl
    | cons first others =>
      have hlead : (ns.filter (·.isStatementNamed "charset") ++
          ns.filter (·.isStatementNamed "namespace")).flatMap f = [] := by
        rw [List.flatMap_append, hcharsets, hnamespaces, List.append_nil]
      dsimp only
      rw [List.flatten_cons, List.flatMap_append, flatMap_flatten_map_append hlead]
      simp only [List.flatMap_append, hcharsets, himports, hnamespaces, List.nil_append,
        List.flatten_cons]

end Chunk

namespace Stylesheet

/-- The chunks of a minified tree have the settings of the tree, each once, in order and with
compact texts. Minifying keeps the live nodes at every depth, and makes them compact; they are all
the nodes of the tree that are live, in their order. -/
theorem settings_minifiedChunks (budget : Option Nat) (ns : List (Node α)) :
    Node.allSettings [] (minifiedChunks budget ns).flatten =
        (Node.allSettings [] ns).map Setting.compact ∧
      Node.minifyAll ns = Node.compactAll (Node.keepAllLive ns) ∧
      Node.allSubnodes (Node.minifyAll ns) =
        ((Node.allSubnodes ns).filter Node.isLive).map fun n => n.keepLive.compact := by
  refine ⟨?_, Node.minifyAll_eq ns, ?_⟩
  · have hsplit := Chunk.flatMap_flatten_split
      (fun _ => Node.settings_eq_nil_of_isStatement []) budget (Node.minifyAll ns)
    rw [minifiedChunks, Node.allSettings_eq_flatMap, hsplit, ← Node.allSettings_eq_flatMap]
    exact Node.allSettings_minifyAll ns
  · rw [Node.minifyAll_eq, Node.allSubnodes_compactAll, Node.allSubnodes_keepAllLive, List.map_map]
    rfl

end Stylesheet

end Stylesmith
