import Mathlib.Tactic.SplitIfs
import Stylesmith.FileTree.Basic
import Stylesmith.Proofs.Text.Splitting

set_option autoImplicit false

namespace Stylesmith

namespace FilePath

structure IsEntry (name : Text) : Prop where
  no_slash : '/' ∉ name
  not_idle : isIdle name = false
  not_up : name ≠ ['.', '.']

variable {name : Text}

theorem IsEntry.of_length (hslash : '/' ∉ name) (hlength : 2 < name.length) : IsEntry name := by
  refine ⟨hslash, Bool.eq_false_iff.2 fun hidle => ?_, ?_⟩
  · rw [isIdle, Bool.or_eq_true, List.isEmpty_iff, beq_iff_eq] at hidle
    rcases hidle with rfl | rfl <;> simp at hlength
  · rintro rfl
    simp at hlength

theorem IsEntry.ne_nil (h : IsEntry name) : name ≠ [] := by
  rintro rfl
  exact absurd h.not_idle (by decide)

theorem IsEntry.not_absolute (h : IsEntry name) : isAbsolute name = false := by
  cases name with
  | nil => rfl
  | cons c t =>
    refine beq_eq_false_iff_ne.2 fun hc => h.no_slash ?_
    rw [Option.some.inj hc]
    exact List.mem_cons_self

end FilePath

namespace FileTree

open FilePath (IsEntry)

variable {t t' : FileTree} {here names : List Text} {name : Text}

theorem walk_append (a b : List Text) :
    t.walk here (a ++ b) = (t.walk here a).bind fun there => t.walk there b := by
  induction a generalizing here with
  | nil => rfl
  | cons name a ih =>
    rw [List.cons_append, walk, walk]
    cases t.checkDirectory here with
    | error e => rfl
    | ok _ => exact ih

theorem walk_idle : t.walk here [[]] = (t.checkDirectory here).map fun _ => here := by
  rw [walk]
  cases t.checkDirectory here <;> rfl

theorem walk_append_name (h : IsEntry name) (segments : List Text) :
    t.walk here (segments ++ [name]) = (t.walk here (segments ++ [[]])).map (· ++ [name]) := by
  rw [walk_append, walk_append]
  cases t.walk here segments with
  | error e => rfl
  | ok there =>
    show t.walk there [name] = (t.walk there [[]]).map (· ++ [name])
    rw [walk_idle, walk, step, if_neg (Bool.eq_false_iff.1 h.not_idle), if_neg h.not_up]
    cases t.checkDirectory there <;> rfl

theorem walk_append_idle (segments : List Text) :
    t.walk here (segments ++ [[]] ++ [[]]) = t.walk here (segments ++ [[]]) := by
  rw [walk_append (segments ++ [[]]), walk_append]
  cases t.walk here segments with
  | error e => rfl
  | ok there =>
    show (t.walk there [[]]).bind _ = t.walk there [[]]
    rw [walk_idle]
    cases hcheck : t.checkDirectory there with
    | error e => rfl
    | ok _ =>
      show t.walk there [[]] = .ok there
      rw [walk_idle, hcheck]
      rfl

def locate (t : FileTree) (path : Text) : Except Fault (List Text) :=
  t.walk (if FilePath.isAbsolute path then [] else t.work) (Text.splitOn '/' path ++ [[]])

theorem resolve_of_splitOn {directory path : Text} (segments : List Text) (h : IsEntry name)
    (hne : path ≠ []) (habsolute : FilePath.isAbsolute path = FilePath.isAbsolute directory)
    (hsplit : Text.splitOn '/' path = segments ++ [name])
    (hsegments : Text.splitOn '/' directory = segments ∨
      Text.splitOn '/' directory = segments ++ [[]]) :
    t.resolve path = (t.locate directory).map (· ++ [name]) := by
  have hempty : path.isEmpty = false := by rwa [List.isEmpty_eq_false_iff]
  rw [resolve, hempty, if_neg Bool.false_ne_true, habsolute, hsplit, walk_append_name h, locate]
  rcases hsegments with hsegments | hsegments
  · rw [hsegments]
  · rw [hsegments, walk_append_idle]

/-- An entry is looked for in the directory that it is written into. -/
theorem resolve_join (h : IsEntry name) (directory : Text) :
    t.resolve (FilePath.join directory name) = (t.locate directory).map (· ++ [name]) := by
  have hname : Text.splitOn '/' name = [name] := Text.splitOn_of_not_mem h.no_slash
  rw [FilePath.join, h.not_absolute]
  rcases List.eq_nil_or_concat directory with rfl | ⟨lead, c, rfl⟩
  · rw [if_pos (.inr rfl)]
    exact resolve_of_splitOn [] h h.ne_nil h.not_absolute hname (.inr rfl)
  rw [List.concat_eq_append]
  have hne : lead ++ [c] ≠ [] := List.append_ne_nil_of_right_ne_nil lead (List.cons_ne_nil c [])
  have hempty : List.isEmpty (lead ++ [c]) = false := by rwa [List.isEmpty_eq_false_iff]
  rw [hempty, if_neg (by decide), List.getLast?_concat]
  split_ifs with hc
  · obtain rfl := Option.some.inj hc
    refine resolve_of_splitOn (Text.splitOn '/' lead) h ?_ ?_ ?_ (.inr ?_)
    · exact List.append_ne_nil_of_left_ne_nil hne name
    · cases lead <;> rfl
    · rw [List.append_assoc, List.singleton_append, Text.splitOn_append, hname]
    · exact Text.splitOn_append lead []
  · refine resolve_of_splitOn (Text.splitOn '/' (lead ++ [c])) h ?_ ?_ ?_ (.inl rfl)
    · exact List.append_ne_nil_of_left_ne_nil hne _
    · cases lead <;> rfl
    · rw [Text.splitOn_append, hname]

structure SameDirectories (t t' : FileTree) : Prop where
  work : t'.work = t.work
  directory (names : List Text) : t'.get? names = some .directory ↔ t.get? names = some .directory

theorem SameDirectories.refl (t : FileTree) : SameDirectories t t := ⟨rfl, fun _ => Iff.rfl⟩

theorem SameDirectories.trans {t'' : FileTree} (h : SameDirectories t t')
    (h' : SameDirectories t' t'') : SameDirectories t t'' :=
  ⟨h'.work.trans h.work, fun names => (h'.directory names).trans (h.directory names)⟩

theorem checkDirectory_eq_ok_iff :
    t.checkDirectory names = .ok () ↔ t.get? names = some .directory := by
  unfold checkDirectory
  split <;> simp_all

theorem SameDirectories.walk (h : SameDirectories t t') {segments : List Text}
    (hwalk : t.walk here segments = .ok names) : t'.walk here segments = .ok names := by
  induction segments generalizing here with
  | nil => exact hwalk
  | cons segment segments ih =>
    rw [FileTree.walk] at hwalk ⊢
    cases hcheck : t.checkDirectory here with
    | error e =>
      rw [hcheck] at hwalk
      cases hwalk
    | ok _ =>
      have hcheck' : t'.checkDirectory here = .ok () :=
        checkDirectory_eq_ok_iff.2 ((h.directory here).2 (checkDirectory_eq_ok_iff.1 hcheck))
      rw [hcheck] at hwalk
      rw [hcheck']
      exact ih hwalk

theorem SameDirectories.locate (h : SameDirectories t t') {path : Text}
    (hlocate : t.locate path = .ok names) : t'.locate path = .ok names := by
  rw [FileTree.locate] at hlocate ⊢
  rw [h.work]
  exact h.walk hlocate

/-- Where no directory stands, a file does not change the directories. -/
theorem sameDirectories_set (h : t.get? names ≠ some .directory) (text : Text) :
    SameDirectories t (t.set names (.file text)) := by
  refine ⟨rfl, fun other => ?_⟩
  by_cases hother : other = names
  · subst hother
    rw [get?_set_self]
    refine ⟨fun hfile => ?_, fun hdirectory => absurd hdirectory h⟩
    cases hfile
  · rw [get?_set_of_ne t hother]

def setFiles (here : List Text) : List (Text × Text) → FileTree → FileTree
  | [], t => t
  | (name, text) :: files, t => setFiles here files (t.set (here ++ [name]) (.file text))

/-- Whether none of some files would stand where a directory stands. -/
def IsFree (t : FileTree) (here : List Text) (files : List (Text × Text)) : Prop :=
  ∀ f ∈ files, t.get? (here ++ [f.1]) ≠ some .directory

variable {files : List (Text × Text)}

theorem SameDirectories.isFree_iff (h : SameDirectories t t') :
    t'.IsFree here files ↔ t.IsFree here files :=
  forall₂_congr fun _ _ => not_congr (h.directory _)

theorem isFree_append (files files' : List (Text × Text)) :
    t.IsFree here (files ++ files') ↔ t.IsFree here files ∧ t.IsFree here files' :=
  List.forall_mem_append

theorem setFiles_append (files files' : List (Text × Text)) (t : FileTree) :
    setFiles here (files ++ files') t = setFiles here files' (setFiles here files t) := by
  induction files generalizing t with
  | nil => rfl
  | cons f files ih => exact ih _

theorem sameDirectories_setFiles (h : t.IsFree here files) :
    SameDirectories t (setFiles here files t) := by
  induction files generalizing t with
  | nil => exact .refl t
  | cons f files ih =>
    rw [IsFree, List.forall_mem_cons] at h
    have hfirst := sameDirectories_set h.1 f.2
    exact hfirst.trans (ih (hfirst.isFree_iff.2 h.2))

/-- Writing files leaves what stands at other places. -/
theorem get?_setFiles_of_ne (h : ∀ f ∈ files, names ≠ here ++ [f.1]) :
    (setFiles here files t).get? names = t.get? names := by
  induction files generalizing t with
  | nil => rfl
  | cons f files ih =>
    rw [List.forall_mem_cons] at h
    exact (ih h.2).trans (get?_set_of_ne t h.1 _)

/-- Files with different names are all there in the end. -/
theorem get?_setFiles {f : Text × Text} (hf : f ∈ files) (h : (files.map Prod.fst).Nodup) :
    (setFiles here files t).get? (here ++ [f.1]) = some (.file f.2) := by
  induction files generalizing t with
  | nil => exact absurd hf List.not_mem_nil
  | cons first files ih =>
    rw [List.map_cons, List.nodup_cons] at h
    rcases List.mem_cons.1 hf with rfl | hf
    · have hothers : ∀ g ∈ files, here ++ [f.1] ≠ here ++ [g.1] := by
        intro g hg heq
        refine h.1 (List.mem_map.2 ⟨g, hg, ?_⟩)
        exact (List.singleton_inj.1 (List.append_cancel_left heq)).symm
      exact (get?_setFiles_of_ne hothers).trans (get?_set_self t _ _)
    · exact ih hf h.2

theorem resolve_join_eq_ok_iff (h : IsEntry name) {directory : Text} :
    t.resolve (FilePath.join directory name) = .ok names ↔
      ∃ here, t.locate directory = .ok here ∧ here ++ [name] = names := by
  rw [resolve_join h]
  cases t.locate directory with
  | error fault =>
    constructor
    · intro hmap
      cases hmap
    · rintro ⟨_, hok, _⟩
      cases hok
  | ok here => simp [Except.map]

/-- A file is written by its name where no directory stands. -/
theorem write_join {directory : Text} (hlocate : t.locate directory = .ok here) (h : IsEntry name)
    (text : Text) : t.write (FilePath.join directory name) text =
      if t.get? (here ++ [name]) = some .directory then .error .isDirectory
      else .ok (t.set (here ++ [name]) (.file text)) := by
  have hresolve := (resolve_join_eq_ok_iff h).2 ⟨here, hlocate, rfl⟩
  rcases hget : t.get? (here ++ [name]) with _ | (_ | _) <;>
    simp [write, hresolve, hget, bind, Except.bind]

theorem read_join {directory text : Text} (hlocate : t.locate directory = .ok here)
    (h : IsEntry name) (hfile : t.get? (here ++ [name]) = some (.file text)) :
    t.read (FilePath.join directory name) = .ok text := by
  have hresolve := (resolve_join_eq_ok_iff h).2 ⟨here, hlocate, rfl⟩
  simp [read, entry, hresolve, hfile, bind, Except.bind]

/-- Making a directory neither makes nor changes a file. -/
theorem file_makeDirectory {text : Text} (h : t.makeDirectory here = .ok t') :
    t'.get? names = some (.file text) ↔ t.get? names = some (.file text) := by
  unfold makeDirectory at h
  split at h
  · cases h
    rfl
  · cases h
  · rename_i hnone
    cases h
    by_cases hnames : names = here
    · subst hnames
      rw [get?_set_self, hnone]
      constructor <;> (intro h; cases h)
    · rw [get?_set_of_ne t hnames]

theorem file_makeAll {text : Text} {segments : List Text}
    (h : t.makeAll here segments = .ok t') :
    t'.get? names = some (.file text) ↔ t.get? names = some (.file text) := by
  induction segments generalizing t here with
  | nil =>
    cases h
    rfl
  | cons segment segments ih =>
    rw [makeAll] at h
    cases hfirst : t.makeDirectory (step here segment) with
    | error e =>
      rw [hfirst] at h
      cases h
    | ok made =>
      rw [hfirst] at h
      exact (ih h).trans (file_makeDirectory hfirst)

theorem file_makeDirectories {path text : Text} (h : t.makeDirectories path = .ok t') :
    t'.get? names = some (.file text) ↔ t.get? names = some (.file text) := by
  unfold makeDirectories at h
  dsimp only at h
  split_ifs at h
  · cases h
    rfl
  all_goals exact file_makeAll h

end FileTree

end Stylesmith
