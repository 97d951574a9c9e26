import Mathlib
import Stylesmith.Command.Outputs
import Stylesmith.Proofs.FileTree.Writing

set_option autoImplicit false

namespace Stylesmith.Command

open Build (Output)
open FilePath (IsEntry)
open FileTree (locate setFiles IsFree)

/-- Whether some sheets are those of a build: at least one, without names of their own, or a single
one with the name that development gives. -/
def IsBuilt (os : List Output) : Prop :=
  (os ≠ [] ∧ ∀ o ∈ os, o.path = none) ∨ ∃ o, os = [o] ∧ o.path = some Build.developmentPath

section Names

variable {count : Nat} {os : List Output} {name : Text}

structure IsSheetName (name : Text) : Prop where
  no_slash : '/' ∉ name
  length : 2 < name.length
  last : name.getLast? = some 's'

theorem IsSheetName.isEntry (h : IsSheetName name) : IsEntry name := .of_length h.no_slash h.length

theorem IsSheetName.isEntry_mapName (h : IsSheetName name) : IsEntry (mapName name) := by
  refine .of_length (fun hslash => ?_) ?_
  · rcases List.mem_append.1 hslash with hslash | hslash
    · exact h.no_slash hslash
    · exact absurd hslash (by decide)
  · have := h.length
    rw [mapName, List.length_append]
    omega

/-- The name of a source map does not end as that of a sheet. -/
theorem IsSheetName.ne_mapName (h : IsSheetName name) (other : Text) : name ≠ mapName other := by
  rintro rfl
  have hlast := h.last
  rw [mapName, List.getLast?_append] at hlast
  cases hlast

theorem mapName_injective {a b : Text} (h : mapName a = mapName b) : a = b :=
  List.append_cancel_right h

theorem freeName_injective {i j : Nat} (hi : i < count) (hj : j < count)
    (h : freeName count i = freeName count j) : i = j := by
  unfold freeName at h
  split_ifs at h
  · omega
  · have hrepr := List.append_cancel_left (List.append_cancel_right h)
    have := Nat.repr_injective (String.toList_injective hrepr)
    omega

theorem isSheetName_freeName (count i : Nat) : IsSheetName (freeName count i) := by
  unfold freeName
  split_ifs
  · exact ⟨by decide, by decide, rfl⟩
  · refine ⟨?_, ?_, ?_⟩
    · intro h
      simp only [List.mem_append] at h
      rcases h with (h | h) | h
      · exact absurd h (by decide)
      · rw [Nat.toList_repr] at h
        exact absurd (Nat.isDigit_of_mem_toDigits (by decide) (by decide) h) (by decide)
      · exact absurd h (by decide)
    · have hlead : ("styles-" : Text).length = 7 := rfl
      simp only [List.length_append]
      omega
    · rw [List.getLast?_append]
      rfl

theorem length_outputNames (os : List Output) : (outputNames os).length = os.length := by
  rw [outputNames, List.length_map, List.length_zipIdx]

theorem outputNames_unnamed (h : ∀ o ∈ os, o.path = none) :
    outputNames os = (List.range' 0 os.length).map (freeName os.length) := by
  rw [outputNames, ← List.zipIdx_map_snd, List.map_map]
  refine List.map_congr_left fun p hp => ?_
  have hpath := h p.1 (List.fst_mem_of_mem_zipIdx hp)
  show p.1.path.getD _ = _
  rw [hpath]
  rfl

theorem outputNames_developed {o : Output} (h : o.path = some Build.developmentPath) :
    outputNames [o] = [Build.developmentPath] := by
  show [o.path.getD _] = _
  rw [h]
  rfl

theorem IsBuilt.isSheetName (h : IsBuilt os) : ∀ name ∈ outputNames os, IsSheetName name := by
  intro name hname
  rcases h with ⟨_, hpath⟩ | ⟨o, rfl, hpath⟩
  · rw [outputNames_unnamed hpath] at hname
    obtain ⟨i, _, rfl⟩ := List.mem_map.1 hname
    exact isSheetName_freeName os.length i
  · rw [outputNames_developed hpath, List.mem_singleton] at hname
    subst hname
    exact ⟨by decide, by decide, rfl⟩

theorem IsBuilt.nodup (h : IsBuilt os) : (outputNames os).Nodup := by
  rcases h with ⟨_, hpath⟩ | ⟨o, rfl, hpath⟩
  · rw [outputNames_unnamed hpath]
    refine List.Nodup.map_on (fun i hi j hj => freeName_injective ?_ ?_) List.nodup_range'
    · simpa using hi
    · simpa using hj
  · rw [outputNames_developed hpath]
    exact List.nodup_singleton _

/-- No sheet has the name of another one or of a source map. -/
theorem IsBuilt.nodup_names (h : IsBuilt os) :
    (outputNames os ++ (outputNames os).map mapName).Nodup := by
  refine List.nodup_append.2 ⟨h.nodup, ?_, ?_⟩
  · exact List.Nodup.map_on (fun _ _ _ _ => mapName_injective) h.nodup
  · intro name hname other hother
    obtain ⟨sheet, _, rfl⟩ := List.mem_map.1 hother
    exact (h.isSheetName name hname).ne_mapName sheet

end Names

section Files

variable {p : Text × Output} {ps : List (Text × Output)} {f : Text × Text}

/-- The files that a sheet with its name is written to: its source map, if it has one, and itself. -/
def filesOf (p : Text × Output) : List (Text × Text) :=
  p.2.map.toList.map (mapName p.1, ·) ++ [(p.1, writtenText p.1 p.2)]

def files (ps : List (Text × Output)) : List (Text × Text) := ps.flatMap filesOf

theorem mem_filesOf : f ∈ filesOf p ↔
    (∃ map, p.2.map = some map ∧ f = (mapName p.1, map)) ∨ f = (p.1, writtenText p.1 p.2) := by
  rw [filesOf, List.mem_append, List.mem_map, List.mem_singleton]
  simp only [Option.mem_toList, eq_comm]

theorem name_of_mem_filesOf (h : f ∈ filesOf p) : f.1 = p.1 ∨ f.1 = mapName p.1 := by
  rcases mem_filesOf.1 h with ⟨_, _, rfl⟩ | rfl
  · exact .inr rfl
  · exact .inl rfl

theorem isEntry_of_mem_files (h : ∀ p ∈ ps, IsSheetName p.1) (hf : f ∈ files ps) :
    IsEntry f.1 := by
  obtain ⟨p, hp, hf⟩ := List.mem_flatMap.1 hf
  rcases name_of_mem_filesOf hf with hname | hname
  · rw [hname]
    exact (h p hp).isEntry
  · rw [hname]
    exact (h p hp).isEntry_mapName

theorem nodup_filesOf (h : IsSheetName p.1) : ((filesOf p).map Prod.fst).Nodup := by
  rw [filesOf]
  cases p.2.map with
  | none => exact List.nodup_singleton _
  | some map =>
    refine List.nodup_cons.2 ⟨fun hmem => ?_, List.nodup_singleton _⟩
    exact h.ne_mapName p.1 (List.mem_singleton.1 hmem).symm

theorem disjoint_filesOf {q : Text × Output} (hp : IsSheetName p.1) (hq : IsSheetName q.1)
    (hne : p.1 ≠ q.1) : List.Disjoint ((filesOf p).map Prod.fst) ((filesOf q).map Prod.fst) := by
  intro name hpname hqname
  obtain ⟨f, hf, rfl⟩ := List.mem_map.1 hpname
  obtain ⟨g, hg, hfg⟩ := List.mem_map.1 hqname
  rcases name_of_mem_filesOf hf with hf | hf <;> rcases name_of_mem_filesOf hg with hg | hg <;>
    rw [hf, hg] at hfg
  · exact hne hfg.symm
  · exact hp.ne_mapName q.1 hfg.symm
  · exact hq.ne_mapName p.1 hfg
  · exact hne (mapName_injective hfg).symm

/-- Sheets with different names are written to different files. -/
theorem nodup_files (h : ∀ p ∈ ps, IsSheetName p.1) (hnodup : (ps.map Prod.fst).Nodup) :
    ((files ps).map Prod.fst).Nodup := by
  rw [files, List.map_flatMap, List.nodup_flatMap]
  refine ⟨fun p hp => nodup_filesOf (h p hp), ?_⟩
  rw [List.Nodup, List.pairwise_map] at hnodup
  exact hnodup.imp_of_mem fun hp hq hne => disjoint_filesOf (h _ hp) (h _ hq) hne

end Files

section Writing

variable {t t' : FileTree} {directory name : Text} {here : List Text} {p : Text × Output}
  {ps : List (Text × Output)} {written : List (Text × Nat)}

theorem writeFile_join (hlocate : t.locate directory = .ok here) (h : IsEntry name) (text : Text) :
    writeFile t (FilePath.join directory name) text =
      if t.get? (here ++ [name]) = some .directory then
        .error ⟨FilePath.join directory name, .isDirectory⟩
      else .ok (t.set (here ++ [name]) (.file text)) := by
  rw [writeFile, FileTree.write_join hlocate h]
  split_ifs <;> rfl

def account (directory : Text) (p : Text × Output) : Text × Nat :=
  (FilePath.join directory p.1, Text.bytes (writtenText p.1 p.2))

theorem writeNamed_cons_of_isFree (hlocate : t.locate directory = .ok here)
    (hname : IsSheetName p.1) (hfree : t.IsFree here (filesOf p)) :
    writeNamed t directory (p :: ps) =
      ((writeNamed (setFiles here (filesOf p) t) directory ps).1,
        (writeNamed (setFiles here (filesOf p) t) directory ps).2.map
          fun written => account directory p :: written) := by
  obtain ⟨name, text, path, map⟩ := p
  have hsheet := hfree _ (mem_filesOf.2 (.inr rfl))
  cases map with
  | none =>
    rw [writeNamed]
    dsimp only
    rw [writeFile_join hlocate hname.isEntry, if_neg hsheet]
    rfl
  | some map =>
    have hmap := hfree _ (mem_filesOf.2 (.inl ⟨map, rfl, rfl⟩))
    have hsame := FileTree.sameDirectories_set hmap map
    rw [writeNamed]
    dsimp only
    rw [writeFile_join hlocate hname.isEntry_mapName, if_neg hmap]
    dsimp only
    rw [writeFile_join (hsame.locate hlocate) hname.isEntry,
      if_neg (mt (hsame.directory _).1 hsheet)]
    rfl

theorem writeNamed_cons_of_not_isFree (hlocate : t.locate directory = .ok here)
    (hname : IsSheetName p.1) (hfree : ¬ t.IsFree here (filesOf p)) (ps : List (Text × Output)) :
    ∃ t' e, writeNamed t directory (p :: ps) = (t', .error e) := by
  obtain ⟨name, text, path, map⟩ := p
  have hsheet : ∀ {t : FileTree}, t.locate directory = .ok here →
      t.get? (here ++ [name]) = some .directory →
      writeFile t (FilePath.join directory name) (writtenText name ⟨text, path, map⟩) =
        .error ⟨FilePath.join directory name, .isDirectory⟩ := by
    intro t hlocate hdirectory
    rw [writeFile_join hlocate hname.isEntry, if_pos hdirectory]
  simp only [IsFree, mem_filesOf, not_forall, not_not] at hfree
  obtain ⟨f, hf, hdirectory⟩ := hfree
  cases map with
  | none =>
    obtain ⟨map, hmap, _⟩ | rfl := hf
    · cases hmap
    rw [writeNamed]
    dsimp only
    rw [hsheet hlocate hdirectory]
    exact ⟨_, _, rfl⟩
  | some map =>
    rw [writeNamed]
    dsimp only
    by_cases hmap : t.get? (here ++ [mapName name]) = some .directory
    · rw [writeFile_join hlocate hname.isEntry_mapName, if_pos hmap]
      exact ⟨_, _, rfl⟩
    · have hsame := FileTree.sameDirectories_set hmap map
      obtain ⟨_, _, rfl⟩ | rfl := hf
      · exact absurd hdirectory hmap
      rw [writeFile_join hlocate hname.isEntry_mapName, if_neg hmap]
      dsimp only
      rw [hsheet (hsame.locate hlocate) ((hsame.directory _).2 hdirectory)]
      exact ⟨_, _, rfl⟩

/-- Where no directory stands in the way, all files are written. -/
theorem writeNamed_of_isFree (hlocate : t.locate directory = .ok here)
    (hnames : ∀ p ∈ ps, IsSheetName p.1) (hfree : t.IsFree here (files ps)) :
    writeNamed t directory ps = (setFiles here (files ps) t, .ok (ps.map (account directory))) := by
  induction ps generalizing t with
  | nil => rfl
  | cons p ps ih =>
    rw [List.forall_mem_cons] at hnames
    rw [files, List.flatMap_cons, FileTree.isFree_append] at hfree
    have hsame := FileTree.sameDirectories_setFiles hfree.1
    rw [writeNamed_cons_of_isFree hlocate hnames.1 hfree.1,
      ih (hsame.locate hlocate) hnames.2 (hsame.isFree_iff.2 hfree.2), files, files,
      List.flatMap_cons, FileTree.setFiles_append]
    rfl

theorem isFree_of_writeNamed (hlocate : t.locate directory = .ok here)
    (hnames : ∀ p ∈ ps, IsSheetName p.1) (h : writeNamed t directory ps = (t', .ok written)) :
    t.IsFree here (files ps) := by
  induction ps generalizing t t' written with
  | nil => exact fun f hf => absurd hf List.not_mem_nil
  | cons p ps ih =>
    rw [List.forall_mem_cons] at hnames
    by_cases hfree : t.IsFree here (filesOf p)
    · have hsame := FileTree.sameDirectories_setFiles hfree
      rw [writeNamed_cons_of_isFree hlocate hnames.1 hfree] at h
      obtain ⟨_, hrest⟩ := Prod.mk.inj h
      obtain ⟨rest, hwritten⟩ : ∃ rest,
          (writeNamed (setFiles here (filesOf p) t) directory ps).2 = .ok rest := by
        cases hcase : (writeNamed (setFiles here (filesOf p) t) directory ps).2 with
        | error e =>
          rw [hcase] at hrest
          cases hrest
        | ok rest => exact ⟨rest, rfl⟩
      have hothers := ih (hsame.locate hlocate) hnames.2 (Prod.ext rfl hwritten)
      rw [files, List.flatMap_cons, FileTree.isFree_append]
      exact ⟨hfree, hsame.isFree_iff.1 hothers⟩
    · obtain ⟨_, _, herror⟩ := writeNamed_cons_of_not_isFree hlocate hnames.1 hfree ps
      rw [herror] at h
      cases h

theorem writeFile_of_not_located {fault : FileTree.Fault}
    (hlocate : t.locate directory = .error fault) (h : IsEntry name) (text : Text) :
    writeFile t (FilePath.join directory name) text =
      .error ⟨FilePath.join directory name, fault⟩ := by
  rw [writeFile, FileTree.write, FileTree.resolve_join h, hlocate]
  rfl

/-- Nothing is written into a directory that is not found. -/
theorem locate_of_writeNamed (hnames : ∀ p ∈ ps, IsSheetName p.1) (hne : ps ≠ [])
    (h : writeNamed t directory ps = (t', .ok written)) :
    ∃ here, t.locate directory = .ok here := by
  cases hlocate : t.locate directory with
  | ok here => exact ⟨here, rfl⟩
  | error fault =>
    cases ps with
    | nil => exact absurd rfl hne
    | cons p ps =>
      obtain ⟨name, text, path, map⟩ := p
      have hname := hnames _ List.mem_cons_self
      rw [writeNamed] at h
      cases map with
      | none =>
        dsimp only at h
        rw [writeFile_of_not_located hlocate hname.isEntry] at h
        cases h
      | some map =>
        dsimp only at h
        rw [writeFile_of_not_located hlocate hname.isEntry_mapName] at h
        cases h

end Writing

section Outputs

variable {t t' made : FileTree} {directory : Text} {os : List Output} {written : List (Text × Nat)}

def named (os : List Output) : List (Text × Output) := (outputNames os).zip os

theorem map_fst_named (os : List Output) : (named os).map Prod.fst = outputNames os :=
  List.map_fst_zip (Nat.le_of_eq (length_outputNames os))

theorem IsBuilt.isSheetName_named (h : IsBuilt os) : ∀ p ∈ named os, IsSheetName p.1 :=
  fun _ hp => h.isSheetName _ (map_fst_named os ▸ List.mem_map_of_mem hp)

theorem IsBuilt.nodup_files (h : IsBuilt os) : ((files (named os)).map Prod.fst).Nodup := by
  refine Command.nodup_files h.isSheetName_named ?_
  rw [map_fst_named]
  exact h.nodup

theorem IsBuilt.isEntry_of_mem {f : Text × Text} (h : IsBuilt os) (hf : f ∈ files (named os)) :
    IsEntry f.1 :=
  isEntry_of_mem_files h.isSheetName_named hf

theorem IsBuilt.ne_nil (h : IsBuilt os) : os ≠ [] := by
  rcases h with ⟨hne, _⟩ | ⟨o, rfl, _⟩
  · exact hne
  · exact List.cons_ne_nil o []

theorem IsBuilt.named_ne_nil (h : IsBuilt os) : named os ≠ [] := by
  intro hnil
  have hnames := map_fst_named os
  rw [hnil] at hnames
  refine h.ne_nil (List.length_eq_zero_iff.1 ?_)
  rw [← length_outputNames, ← hnames]
  rfl

/-- What a successful run of writes does: it makes the directory, and sets all files in it. -/
theorem writeOutputs_eq_ok_iff (h : IsBuilt os) :
    writeOutputs t directory os = (t', .ok written) ↔
      ∃ made here, t.makeDirectories directory = .ok made ∧ made.locate directory = .ok here ∧
        made.IsFree here (files (named os)) ∧ t' = setFiles here (files (named os)) made ∧
        written = (named os).map (account directory) := by
  have hempty : os.isEmpty = false := List.isEmpty_eq_false_iff.2 h.ne_nil
  rw [writeOutputs, hempty, if_neg Bool.false_ne_true]
  cases hmade : t.makeDirectories directory with
  | error fault =>
    refine ⟨fun hwrite => (by cases hwrite), ?_⟩
    rintro ⟨made, _, hok, _⟩
    cases hok
  | ok made =>
    dsimp only
    constructor
    · intro hwrite
      obtain ⟨here, hlocate⟩ := locate_of_writeNamed h.isSheetName_named h.named_ne_nil hwrite
      have hfree := isFree_of_writeNamed hlocate h.isSheetName_named hwrite
      have hall := writeNamed_of_isFree hlocate h.isSheetName_named hfree
      obtain ⟨rfl, hwritten⟩ := Prod.mk.inj (hwrite.symm.trans hall)
      exact ⟨made, here, rfl, hlocate, hfree, rfl, Except.ok.inj hwritten⟩
    · rintro ⟨_, here, hok, hlocate, hfree, rfl, rfl⟩
      obtain rfl := Except.ok.inj hok
      exact writeNamed_of_isFree hlocate h.isSheetName_named hfree

/-- Writing succeeds where the directory can be made and no directory is in the way of a file. -/
theorem exists_writeOutputs_iff (h : IsBuilt os) :
    (∃ t' written, writeOutputs t directory os = (t', .ok written)) ↔
      ∃ made, t.makeDirectories directory = .ok made ∧
        ∀ f ∈ files (named os), ∃ names, made.resolve (FilePath.join directory f.1) = .ok names ∧
          made.get? names ≠ some .directory := by
  constructor
  · rintro ⟨t', written, hwrite⟩
    obtain ⟨made, here, hmade, hlocate, hfree, _⟩ := (writeOutputs_eq_ok_iff h).1 hwrite
    refine ⟨made, hmade, fun f hf => ⟨here ++ [f.1], ?_, hfree f hf⟩⟩
    exact (FileTree.resolve_join_eq_ok_iff (h.isEntry_of_mem hf)).2 ⟨here, hlocate, rfl⟩
  · rintro ⟨made, hmade, hresolve⟩
    obtain ⟨p, hp⟩ := List.exists_mem_of_ne_nil _ h.named_ne_nil
    have hsheet : (p.1, writtenText p.1 p.2) ∈ files (named os) :=
      List.mem_flatMap.2 ⟨p, hp, mem_filesOf.2 (.inr rfl)⟩
    obtain ⟨names, hnames, _⟩ := hresolve _ hsheet
    obtain ⟨here, hlocate, _⟩ :=
      (FileTree.resolve_join_eq_ok_iff (h.isEntry_of_mem hsheet)).1 hnames
    have hfree : made.IsFree here (files (named os)) := by
      intro f hf
      obtain ⟨there, hthere, hentry⟩ := hresolve f hf
      obtain ⟨here', hlocate', rfl⟩ :=
        (FileTree.resolve_join_eq_ok_iff (h.isEntry_of_mem hf)).1 hthere
      rwa [Except.ok.inj (hlocate'.symm.trans hlocate)] at hentry
    exact ⟨_, _, (writeOutputs_eq_ok_iff h).2 ⟨made, here, hmade, hlocate, hfree, rfl, rfl⟩⟩

/-- What is read in the end of a sheet that was written with the name `name`. -/
structure ReadsBack (t : FileTree) (directory name : Text) (o : Output) : Prop where
  sheet : t.read (FilePath.join directory name) = .ok (match o.map with
    | none => o.text
    | some _ => o.text ++ (if o.text = [] ∨ o.text.getLast? = some '\n' then [] else ['\n']) ++
        ("/*# sourceMappingURL=" : Text) ++ name ++ (".map */\n" : Text))
  map (m : Text) : o.map = some m →
    t.read (FilePath.join directory (name ++ (".map" : Text))) = .ok m

theorem readsBack_of_read {name : Text} {o : Output}
    (h : ∀ f ∈ filesOf (name, o), t.read (FilePath.join directory f.1) = .ok f.2) :
    ReadsBack t directory name o := by
  refine ⟨?_, fun m hm => h _ (mem_filesOf.2 (.inl ⟨m, hm, rfl⟩))⟩
  have hsheet := h _ (mem_filesOf.2 (.inr rfl))
  rw [hsheet, writtenText]
  cases o.map with
  | none => rfl
  | some m => simp [mapName, List.append_assoc]

/-- The names of the sheets of a build differ from each other and from those of all source maps. The
sheets are written exactly if the directory can be made and no other directory is in the way. Then
each sheet and each source map is read back, the account tells all sheets in their order with their
sizes, and the files with other names are as they were. -/
theorem writeOutputs_readBack (t : FileTree) (directory : Text) (os : List Output)
    (h : IsBuilt os) :
    (outputNames os).length = os.length ∧
    (outputNames os ++ (outputNames os).map mapName).Nodup ∧
    ((∃ t' written, writeOutputs t directory os = (t', .ok written)) ↔
      ∃ made, t.makeDirectories directory = .ok made ∧
        ∀ f ∈ files (named os), ∃ names, made.resolve (FilePath.join directory f.1) = .ok names ∧
          made.get? names ≠ some .directory) ∧
    ∀ t' written, writeOutputs t directory os = (t', .ok written) →
      (∀ p ∈ (outputNames os).zip os, ReadsBack t' directory p.1 p.2) ∧
      written = ((outputNames os).zip os).map (fun p =>
        (FilePath.join directory p.1, Text.bytes (writtenText p.1 p.2))) ∧
      ∀ names text,
        (∀ f ∈ files (named os), t'.resolve (FilePath.join directory f.1) ≠ .ok names) →
        (t'.get? names = some (.file text) ↔ t.get? names = some (.file text)) := by
  refine ⟨length_outputNames os, h.nodup_names, exists_writeOutputs_iff h, ?_⟩
  intro t' written hwrite
  obtain ⟨made, here, hmade, hlocate, hfree, rfl, rfl⟩ := (writeOutputs_eq_ok_iff h).1 hwrite
  have hlocate' := (FileTree.sameDirectories_setFiles hfree).locate hlocate
  refine ⟨fun p hp => readsBack_of_read fun f hf => ?_, rfl, fun names text hnames => ?_⟩
  · have hf : f ∈ files (named os) := List.mem_flatMap.2 ⟨p, hp, hf⟩
    exact FileTree.read_join hlocate' (h.isEntry_of_mem hf) (FileTree.get?_setFiles hf h.nodup_files)
  · rw [FileTree.get?_setFiles_of_ne, FileTree.file_makeDirectories hmade]
    intro f hf heq
    refine hnames f hf ?_
    exact (FileTree.resolve_join_eq_ok_iff (h.isEntry_of_mem hf)).2 ⟨here, hlocate', heq.symm⟩

def twoChunks : List Output := [⟨"a\x7b\x7d", none, some "map"⟩, ⟨"b\x7b\x7d", none, none⟩]

def builtBefore : FileTree := (FileTree.empty "/work").addFile "dist/old.css" "c\x7b\x7d"

def builtAgain : FileTree := (writeOutputs builtBefore "dist" twoChunks).1

theorem writeOutputs_readBack_twoChunks :
    IsBuilt twoChunks ∧
    writeOutputs builtBefore "dist" twoChunks =
      (builtAgain, .ok [("dist/styles-1.css", 45), ("dist/styles-2.css", 3)]) ∧
    ("styles-1.css".toList, ⟨"a\x7b\x7d", none, some "map"⟩) ∈
      (outputNames twoChunks).zip twoChunks ∧
    ReadsBack builtAgain "dist" "styles-1.css" ⟨"a\x7b\x7d", none, some "map"⟩ ∧
    (∀ f ∈ files (named twoChunks),
      builtAgain.resolve (FilePath.join "dist" f.1) ≠ .ok ["work", "dist", "old.css"]) ∧
    builtAgain.get? ["work", "dist", "old.css"] = some (.file "c\x7b\x7d") := by
  have hbuilt : IsBuilt twoChunks := .inl ⟨by decide, by decide⟩
  have hwritten : (writeOutputs builtBefore "dist" twoChunks).2 =
      .ok [("dist/styles-1.css", 45), ("dist/styles-2.css", 3)] := by decide +kernel
  have hwrite : writeOutputs builtBefore "dist" twoChunks =
      (builtAgain, .ok [("dist/styles-1.css", 45), ("dist/styles-2.css", 3)]) :=
    Prod.ext rfl hwritten
  have hmem : ("styles-1.css".toList, ⟨"a\x7b\x7d", none, some "map"⟩) ∈
      (outputNames twoChunks).zip twoChunks := by decide +kernel
  have hold : ∀ f ∈ files (named twoChunks),
      builtAgain.resolve (FilePath.join "dist" f.1) ≠ .ok ["work", "dist", "old.css"] := by
    decide +kernel
  have hbefore : builtBefore.get? ["work", "dist", "old.css"] = some (.file "c\x7b\x7d") := by
    decide +kernel
  obtain ⟨_, _, _, hrun⟩ := writeOutputs_readBack builtBefore "dist" twoChunks hbuilt
  obtain ⟨hread, _, hframe⟩ := hrun builtAgain _ hwrite
  exact ⟨hbuilt, hwrite, hmem, hread _ hmem, hold, (hframe _ _ hold).2 hbefore⟩

end Outputs

end Stylesmith.Command
