import Mathlib.Tactic.SplitIfs
import Stylesmith.Proofs.Text.Splitting
import Stylesmith.Stylesheet.Reference

set_option autoImplicit false

namespace Stylesmith.Path

structure IsName (segment : Text) : Prop where
  ne_nil : segment ≠ []
  ne_dot : segment ≠ ['.']
  ne_dots : segment ≠ ['.', '.']
  no_slash : '/' ∉ segment

def walk (above segments : List Text) : List Text := segments.foldl descend above

def climb (n : Nat) : Text := (List.replicate n ("../" : Text)).flatten

variable {above : List Text}

theorem walk_append (above a b : List Text) : walk above (a ++ b) = walk (walk above a) b :=
  List.foldl_append

theorem walk_idle (segments : List Text) : walk above ([] :: segments) = walk above segments := by
  rw [walk, List.foldl_cons, descend, if_pos (Or.inl rfl)]
  rfl

theorem walk_up (segments : List Text) :
    walk above (['.', '.'] :: segments) = walk above.tail segments := rfl

theorem descend_name {segment : Text} (h : IsName segment) :
    descend above segment = segment :: above := by
  rw [descend, if_neg (not_or.2 ⟨h.ne_nil, h.ne_dot⟩), if_neg h.ne_dots]

theorem isName_descend {segment : Text} (hsegment : '/' ∉ segment) (h : ∀ s ∈ above, IsName s) :
    ∀ s ∈ descend above segment, IsName s := by
  unfold descend
  split_ifs with hidle hup
  · exact h
  · intro s hs
    exact h s (List.mem_of_mem_tail hs)
  · rw [not_or] at hidle
    exact List.forall_mem_cons.2 ⟨⟨hidle.1, hidle.2, hup, hsegment⟩, h⟩

theorem isName_walk {segments : List Text} (hsegments : ∀ s ∈ segments, '/' ∉ s)
    (h : ∀ s ∈ above, IsName s) : ∀ s ∈ walk above segments, IsName s := by
  induction segments generalizing above with
  | nil => exact h
  | cons segment segments ih =>
    rw [List.forall_mem_cons] at hsegments
    exact ih hsegments.2 (isName_descend hsegments.1 h)

theorem walk_names {names : List Text} (h : ∀ s ∈ names, IsName s) :
    walk above names = names.reverse ++ above := by
  induction names generalizing above with
  | nil => rfl
  | cons name names ih =>
    rw [List.forall_mem_cons] at h
    rw [walk, List.foldl_cons, descend_name h.1, List.reverse_cons, List.append_assoc]
    exact ih h.2

/-- One segment leads at most one name further down. -/
theorem length_walk_le (segments : List Text) :
    (walk above segments).length ≤ above.length + segments.length := by
  induction segments generalizing above with
  | nil => exact Nat.le_refl _
  | cons segment segments ih =>
    have hstep : (descend above segment).length ≤ above.length + 1 := by
      unfold descend
      split_ifs
      · exact Nat.le_succ _
      · rw [List.length_tail]
        omega
      · exact Nat.le_refl _
    have hrest := @ih (descend above segment)
    rw [walk, List.foldl_cons, List.length_cons]
    rw [walk] at hrest
    omega

section Resolve

variable (base target next : Text)

def names : List Text := walk [] (Text.splitOn '/' base ++ Text.splitOn '/' target)

theorem resolve_eq : resolve base target = '/' :: Text.join ['/'] (names base target).reverse := rfl

theorem isName_names : ∀ s ∈ (names base target).reverse, IsName s := by
  intro s hs
  have hsegments : ∀ s ∈ Text.splitOn '/' base ++ Text.splitOn '/' target, '/' ∉ s := by
    intro s hs
    rcases List.mem_append.1 hs with hs | hs <;> exact Text.not_mem_of_mem_splitOn hs
  exact isName_walk hsegments (fun s hs => absurd hs List.not_mem_nil) s (List.mem_reverse.1 hs)

theorem splitOn_tail_resolve : Text.splitOn '/' (resolve base target).tail =
    if names base target = [] then [[]] else (names base target).reverse := by
  rw [resolve_eq, List.tail_cons]
  split_ifs with h
  · rw [h]
    rfl
  · exact Text.splitOn_join (mt List.reverse_eq_nil_iff.1 h)
      fun s hs => (isName_names base target s hs).no_slash

theorem walk_resolve : walk [] (Text.splitOn '/' (resolve base target)) = names base target := by
  have htail := splitOn_tail_resolve base target
  rw [resolve_eq, List.tail_cons] at htail
  rw [resolve_eq, Text.splitOn_sep, walk_idle, htail]
  split_ifs with h
  · rw [h]
    exact walk_idle []
  · rw [walk_names (isName_names base target), List.reverse_reverse, List.append_nil]

theorem names_resolve : names (resolve base target) next = names base (target ++ '/' :: next) := by
  rw [names, walk_append, walk_resolve, names, names, Text.splitOn_append, ← List.append_assoc,
    walk_append [] (_ ++ _)]

theorem names_root : names [] (resolve base target) = names base target := by
  rw [names, walk_append]
  exact walk_resolve base target

theorem splitOn_climb (n : Nat) : Text.splitOn '/' (climb n ++ target) =
    List.replicate n ['.', '.'] ++ Text.splitOn '/' target := by
  induction n with
  | zero => rfl
  | succ n ih =>
    have hstep : climb (n + 1) ++ target = ['.', '.'] ++ '/' :: (climb n ++ target) := rfl
    rw [hstep, Text.splitOn_append, ih]
    rfl

theorem walk_climb (n : Nat) : walk above (List.replicate n ['.', '.']) = above.drop n := by
  induction n generalizing above with
  | zero => rfl
  | succ n ih =>
    rw [List.replicate_succ, walk_up, ih, List.drop_tail]

/-- Enough steps upwards lead to the root, and none leads further. -/
theorem names_climb {n : Nat} (h : (Text.splitOn '/' base).length ≤ n) :
    names base (climb n ++ target) = names [] target := by
  have hlength := @length_walk_le [] (Text.splitOn '/' base)
  rw [List.length_nil, Nat.zero_add] at hlength
  have hroot : (walk [] (Text.splitOn '/' base)).drop n = [] :=
    List.drop_eq_nil_of_le (Nat.le_trans hlength h)
  rw [names, splitOn_climb, walk_append, walk_append, walk_climb, hroot, names, walk_append]
  rfl

/-- A resolved path starts at the root and holds names only, or nothing at all; it is absolute and
resolved to itself, a target is resolved from it as from where it came from, and no number of double
dots leads above the root. -/
theorem resolve_folded :
    (resolve base target).head? = some '/' ∧
    (∀ s ∈ Text.splitOn '/' (resolve base target).tail,
      s ≠ ['.'] ∧ s ≠ ['.', '.'] ∧ (s = [] → resolve base target = ['/'])) ∧
    Reference.isAbsolute (resolve base target) = true ∧
    resolve [] (resolve base target) = resolve base target ∧
    resolve (resolve base target) next = resolve base (target ++ '/' :: next) ∧
    ∀ n, (Text.splitOn '/' base).length ≤ n →
      resolve base (climb n ++ target) = resolve [] target := by
  refine ⟨rfl, ?_, rfl, ?_, ?_, ?_⟩
  · intro s hs
    rw [splitOn_tail_resolve] at hs
    split_ifs at hs with h
    · obtain rfl := List.mem_singleton.1 hs
      refine ⟨by decide, by decide, fun _ => ?_⟩
      rw [resolve_eq, h]
      rfl
    · have hname := isName_names base target s hs
      exact ⟨hname.ne_dot, hname.ne_dots, fun hnil => absurd hnil hname.ne_nil⟩
  · rw [resolve_eq, names_root, ← resolve_eq]
  · rw [resolve_eq, names_resolve, ← resolve_eq]
  · intro n h
    rw [resolve_eq, names_climb base target h, ← resolve_eq]

/-- Four steps upwards from a directory that is two names below the root. -/
theorem resolve_folded_aboveRoot :
    ("c.png" : Text) ∈ Text.splitOn '/' (resolve "a/./b" "../d//../c.png").tail ∧
    ("c.png" : Text) ≠ ['.', '.'] ∧
    (Text.splitOn '/' "a/./b").length ≤ 4 ∧
    resolve "a/./b" (climb 4 ++ ("c.png" : Text)) = resolve [] "c.png" := by
  have hmem : ("c.png" : Text) ∈ Text.splitOn '/' (resolve "a/./b" "../d//../c.png").tail := by
    decide
  have hlength : (Text.splitOn '/' "a/./b").length ≤ 4 := by decide
  obtain ⟨_, hsegments, _⟩ := resolve_folded "a/./b" "../d//../c.png" []
  obtain ⟨_, _, _, _, _, hclimb⟩ := resolve_folded "a/./b" "c.png" []
  exact ⟨hmem, (hsegments _ hmem).2.1, hlength, hclimb 4 hlength⟩

end Resolve

end Stylesmith.Path
