import Stylesmith.Proofs.Build.Accounts
import Stylesmith.Proofs.Build.Isolation

set_option autoImplicit false

namespace Stylesmith

namespace Stage

open Transform (Call Context Output)

/-- The text that transforms make one after the other, if none of them fails. -/
def text? (c : Context) (ts : List Transform) (t : Text) : Option Text :=
  ts.foldlM (fun t tr => (tr.run c t).toOption.map (·.text)) t

/-- One call for each transform that is reached, which it is if none before it fails. -/
def callsOn (stage : Stage) (c : Context) (t : Text) : List Call :=
  stage.zipIdx.filterMap fun (tr, i) =>
    (text? c (stage.take i) t).map fun reached => ⟨tr.name, c, reached⟩

theorem text?_cons (c : Context) (tr : Transform) (ts : List Transform) (t : Text) :
    text? c (tr :: ts) t = (tr.run c t).toOption.bind fun made => text? c ts made.text := by
  rw [text?, List.foldlM_cons]
  cases tr.run c t <;> rfl

theorem callsOn_cons (c : Context) (tr : Transform) (ts : Stage) (t : Text) :
    callsOn (tr :: ts) c t = ⟨tr.name, c, t⟩ ::
      ((tr.run c t).toOption.map fun made => callsOn ts c made.text).getD [] := by
  have hlater : ∀ p : Transform × Nat,
      (text? c ((tr :: ts).take (p.2 + 1)) t).map (fun reached => (⟨p.1.name, c, reached⟩ : Call)) =
        (tr.run c t).toOption.bind fun made =>
          (text? c (ts.take p.2) made.text).map fun reached => ⟨p.1.name, c, reached⟩ := by
    intro p
    rw [List.take_succ_cons, text?_cons, Option.map_bind]
    rfl
  have hrest : callsOn (tr :: ts) c t = ⟨tr.name, c, t⟩ :: ts.zipIdx.filterMap fun p =>
      (text? c ((tr :: ts).take (p.2 + 1)) t).map fun reached => ⟨p.1.name, c, reached⟩ := by
    rw [callsOn, List.zipIdx_cons, List.zipIdx_succ, List.filterMap_cons, List.filterMap_map]
    rfl
  rw [hrest]
  simp only [hlater]
  cases (tr.run c t).toOption with
  | none => simp
  | some made => rfl

theorem calls_runFrom (c : Context) (mapped : Bool) (made : Output) (ts : Stage) :
    (runFrom c mapped made ts).calls = callsOn ts c made.text := by
  induction ts generalizing mapped made with
  | nil => rfl
  | cons tr ts ih =>
    rw [callsOn_cons, runFrom]
    dsimp only
    cases hrun : tr.run c made.text with
    | error f => rfl
    | ok next =>
      exact congrArg _ (ih _ _)

end Stage

namespace Registry

/-- Registries that know the same plugins and refuse the same options alike. What the transforms do
may differ. -/
def Alike (r r' : Registry) : Prop :=
  ∀ p : Plugin, (r.resolve p).map (·.name) = (r'.resolve p).map (·.name)

theorem names_stage_cons (r : Registry) (p : Plugin) (plugins : List Plugin) :
    (r.stage (p :: plugins)).map Stage.names = ((r.resolve p).map (·.name)).bind fun name =>
      ((r.stage plugins).map Stage.names).map (name :: ·) := by
  rw [stage, List.mapM_cons, ← stage]
  cases r.resolve p with
  | error f => rfl
  | ok tr => cases r.stage plugins <;> rfl

theorem names_stage {r r' : Registry} (h : r.Alike r') (plugins : List Plugin) :
    (r.stage plugins).map Stage.names = (r'.stage plugins).map Stage.names := by
  induction plugins with
  | nil => rfl
  | cons p plugins ih => rw [names_stage_cons, names_stage_cons, h p, ih]

theorem find?_register (r : Registry) (name : Text) (f : Transform.Factory) (n : Text) :
    (r.register name f).find? n = if name = n then some f else r.find? n := by
  rw [find?, register, List.find?_append, find?_filter_bne Prod.fst]
  split_ifs with hn
  · simp [hn]
  · simp [hn, find?]

/-- Transforms of one name may be exchanged. -/
theorem Alike.registerTransform {r r' : Registry} (h : r.Alike r') {tr tr' : Transform}
    (hname : tr.name = tr'.name) : (r.registerTransform tr).Alike (r'.registerTransform tr') := by
  intro p
  have hp := h p
  rw [Registry.registerTransform, Registry.registerTransform, resolve, resolve, find?_register,
    find?_register, ← hname]
  rw [resolve, resolve] at hp
  by_cases he : tr.name = p.name
  · rw [if_pos he, if_pos he]
    exact congrArg Except.ok hname
  · rwa [if_neg he, if_neg he]

end Registry

namespace Build

variable {setup setup' : Setup} {work : Text} {maps : Bool} {o : Options} {files : List Source}

def seenFiles (setup : Setup) (files : List Source) : List (Source × Text) :=
  files.filterMap fun s =>
    if isImportOnly (s.url.getD s.path) || Package.excludes setup.config.excludedPackages s.path then
      none
    else s.contents.toOption.map fun t => (s, t)

theorem calls_parseInto (path t : Text) (map : Option Text) (warnings : Nat)
    (calls : List Transform.Call) : (parseInto path t map warnings calls).calls = calls := by
  rw [parseInto]
  split <;> rfl

/-- No transform is called for a file in an excluded package. A stage without transforms would not
call any either. -/
theorem calls_process {s : Source} {t : Text} (hcontents : s.contents = .ok t) :
    (process setup work maps s).calls =
      if Package.excludes setup.config.excludedPackages s.path then []
      else setup.stage.callsOn (s.context setup work maps) t := by
  have hrun : (setup.stage.run (s.context setup work maps) t).calls =
      setup.stage.callsOn (s.context setup work maps) t := Stage.calls_runFrom _ _ _ _
  have htransforms : setup.transforms s.path =
      (!Package.excludes setup.config.excludedPackages s.path && !setup.stage.isEmpty) := rfl
  rw [Source.context] at hrun ⊢
  rw [process, hcontents]
  cases hexcluded : Package.excludes setup.config.excludedPackages s.path with
  | true =>
    rw [hexcluded] at htransforms
    simp only [htransforms, Bool.not_true, Bool.false_and, Bool.false_eq_true, if_false, if_true,
      calls_parseInto]
  | false =>
    cases hstage : setup.stage with
    | nil =>
      rw [hexcluded, hstage] at htransforms
      simp only [htransforms, List.isEmpty_nil, Bool.not_true, Bool.and_false, Bool.false_eq_true,
        if_false, calls_parseInto]
      rfl
    | cons tr ts =>
      rw [hexcluded, hstage] at htransforms
      rw [hstage] at hrun
      simp only [htransforms, List.isEmpty_cons, Bool.not_false, Bool.and_true, if_true,
        Bool.false_eq_true, if_false, ← hrun]
      split
      · rfl
      · rw [calls_parseInto]

theorem calls_of_unreadable {s : Source} {reason : Text} (h : s.contents = .error reason) :
    (process setup work maps s).calls = [] := by
  rw [process, h]
  rfl

theorem calls_pass : (pass setup work o files).calls =
    (fragmentFiles files).flatMap fun s => (process setup work o.sourceMaps s).calls := by
  rw [← map_filter_zipIdx, List.flatMap_map]
  unfold pass
  dsimp only
  split
  next hempty =>
    rw [List.isEmpty_iff.1 hempty]
    rfl
  next =>
    split <;> (dsimp only; rw [List.map_map, List.flatMap_map]; rfl)

theorem flatMap_calls (files : List Source) :
    (fragmentFiles files).flatMap (fun s => (process setup work maps s).calls) =
      (seenFiles setup files).flatMap fun p =>
        setup.stage.callsOn (p.1.context setup work maps) p.2 := by
  induction files with
  | nil => rfl
  | cons s files ih =>
    rw [fragmentFiles] at ih
    rw [fragmentFiles, seenFiles, List.filterMap_cons, ← seenFiles]
    cases himport : isImportOnly s.address with
    | true =>
      have hurl : isImportOnly (s.url.getD s.path) = true := himport
      rw [List.filter_cons_of_neg (by simp [himport]), ih]
      simp only [hurl, Bool.true_or, if_true]
    | false =>
      have hurl : isImportOnly (s.url.getD s.path) = false := himport
      rw [List.filter_cons_of_pos (by simp [himport]), List.flatMap_cons, ih]
      cases hcontents : s.contents with
      | error reason =>
        rw [calls_of_unreadable hcontents]
        simp only [Except.toOption, Option.map_none, ite_self, List.nil_append]
      | ok t =>
        rw [calls_process hcontents]
        cases hexcluded : Package.excludes setup.config.excludedPackages s.path with
        | true =>
          simp only [Bool.or_true, if_true, List.nil_append]
        | false =>
          simp only [hurl, Bool.or_false, Bool.false_eq_true, if_false]
          rfl

theorem process_of_excluded (hconfig : setup'.config = setup.config) {s : Source}
    (h : Package.excludes setup.config.excludedPackages s.path = true) :
    process setup' work maps s = process setup work maps s := by
  have htransforms : setup.transforms s.path = false := by
    rw [Setup.transforms, h]
    rfl
  have htransforms' : setup'.transforms s.path = false := by
    rw [Setup.transforms, hconfig, h]
    rfl
  rw [process, process]
  simp only [htransforms, htransforms', Bool.false_eq_true, if_false]

def excludedErrors (setup : Setup) (files : List Source) (r : Report) : List (Nat × FragmentError) :=
  r.errors.filter fun e =>
    files[e.1]?.any fun s => Package.excludes setup.config.excludedPackages s.path

def excludedNodes (setup : Setup) (merged : Stylesheet) : List (Node Provenance) :=
  merged.children.filter fun n => Package.excludes setup.config.excludedPackages n.origin.source

theorem excludedErrors_pass (hconfig : setup'.config = setup.config) :
    excludedErrors setup files (pass setup' work o files) =
      excludedErrors setup files (pass setup work o files) := by
  rw [excludedErrors, excludedErrors, errors_pass, errors_pass, List.filter_filterMap,
    List.filter_filterMap]
  refine List.filterMap_congr fun p hp => ?_
  obtain ⟨s, i⟩ := p
  have hs : files[i]? = some s := List.mk_mem_zipIdx_iff_getElem?.1 (List.mem_filter.1 hp).1
  cases h : Package.excludes setup.config.excludedPackages s.path with
  | true => rw [process_of_excluded hconfig h]
  | false => simp [Option.filter_map, hs, h, Function.comp_def]

theorem exists_origin_of_mem_anchorAllReferences {source : Text} {ns : List (Node Provenance)}
    {n : Node Provenance} (h : n ∈ Node.anchorAllReferences source ns) :
    ∃ m ∈ ns, n.origin = m.origin := by
  induction ns with
  | nil => cases h
  | cons m ns ih =>
    rw [Node.anchorAllReferences, List.mem_cons] at h
    rcases h with rfl | h
    · exact ⟨m, List.mem_cons_self, by cases m <;> rfl⟩
    · obtain ⟨k, hk, horigin⟩ := ih h
      exact ⟨k, List.mem_cons_of_mem m hk, horigin⟩

section Merge

variable {β : Type} {f g : β → Stylesheet} {q : Provenance → Bool} {l : List β}

theorem filter_children (h : ∀ b ∈ l, f b = g b ∨ (∀ n ∈ (f b).children, q n.origin = false) ∧
    ∀ n ∈ (g b).children, q n.origin = false) :
    (Merge.children (l.map f)).filter (q ·.origin) =
      (Merge.children (l.map g)).filter (q ·.origin) := by
  have hnone : ∀ {ns : List (Node Provenance)}, (∀ n ∈ ns, q n.origin = false) →
      (Merge.hoist true [] ns).1.filter (q ·.origin) = [] ∧
        (Merge.hoist true [] ns).2.filter (q ·.origin) = [] := by
    intro ns hns
    simp only [List.filter_eq_nil_iff, Bool.not_eq_true]
    exact ⟨fun n hn => hns n ((Merge.mem_hoist.1 (.inl hn)).resolve_left List.not_mem_nil),
      fun n hn => hns n ((Merge.mem_hoist.1 (.inr hn)).resolve_left List.not_mem_nil)⟩
  have hparts : ∀ b ∈ l,
      (Merge.hoist true [] (f b).children).1.filter (q ·.origin) =
          (Merge.hoist true [] (g b).children).1.filter (q ·.origin) ∧
        (Merge.hoist true [] (f b).children).2.filter (q ·.origin) =
          (Merge.hoist true [] (g b).children).2.filter (q ·.origin) := by
    intro b hb
    rcases h b hb with heq | ⟨hf, hg⟩
    · rw [heq]
      exact ⟨rfl, rfl⟩
    · rw [(hnone hf).1, (hnone hf).2, (hnone hg).1, (hnone hg).2]
      exact ⟨rfl, rfl⟩
  simp only [Merge.children, List.map_map, List.flatMap_map, List.filter_append, List.filter_flatMap,
    Function.comp_apply]
  rw [List.flatMap_congr fun b hb => (hparts b hb).1, List.flatMap_congr fun b hb => (hparts b hb).2]

/-- What is merged of some sources does not depend on what it is merged with. -/
theorem filter_children_merge (h : ∀ b ∈ l, f b = g b ∨
    (∀ n ∈ (f b).children, q n.origin = false) ∧ ∀ n ∈ (g b).children, q n.origin = false)
    (anchor : Bool) : (Stylesheet.merge anchor (l.map f)).children.filter (q ·.origin) =
      (Stylesheet.merge anchor (l.map g)).children.filter (q ·.origin) := by
  cases anchor with
  | false => exact filter_children h
  | true =>
    have hanchored : ∀ {s : Stylesheet}, (∀ n ∈ s.children, q n.origin = false) →
        ∀ n ∈ (Merge.anchorReferences s).children, q n.origin = false := by
      intro s hs n hn
      obtain ⟨m, hm, horigin⟩ := exists_origin_of_mem_anchorAllReferences hn
      rw [horigin, hs m hm]
    have hsheets := @filter_children β (Merge.anchorReferences ∘ f) (Merge.anchorReferences ∘ g) q l
      fun b hb => (h b hb).imp (congrArg Merge.anchorReferences)
        (And.imp hanchored hanchored)
    simpa only [Stylesheet.merge, if_true, List.map_map] using hsheets

end Merge

theorem excludedNodes_mergedSheet (hconfig : setup'.config = setup.config) :
    excludedNodes setup (mergedSheet setup' work maps files) =
      excludedNodes setup (mergedSheet setup work maps files) := by
  rw [mergedSheet, mergedSheet, hconfig]
  refine filter_children_merge (q := fun o => Package.excludes _ o.source) (fun s _ => ?_) _
  cases h : Package.excludes setup.config.excludedPackages s.path with
  | true => exact .inl (by rw [process_of_excluded hconfig h])
  | false =>
    have hown : ∀ setup : Setup, ∀ n ∈ (process setup work maps s).sheet.children,
        n.origin.source = s.path := by
      intro setup n hn
      rw [← path_process setup work maps s]
      exact (process_sound s).own n (Node.mem_allSubnodes.2 ⟨n, hn, Node.mem_subnodes_self n⟩)
    exact .inr ⟨fun n hn => by rw [hown setup' n hn, h], fun n hn => by rw [hown setup n hn, h]⟩

theorem exists_setup_of_alike {registry registry' : Registry} (h : registry.Alike registry')
    {given : Except Config.Failure (Option Config)}
    (hsetup : Session.setup registry given = .ok setup) :
    ∃ setup', Session.setup registry' given = .ok setup' ∧ setup'.config = setup.config ∧
      setup'.stage.names = setup.stage.names := by
  cases given with
  | error f => cases hsetup
  | ok config =>
    have hnames := Registry.names_stage h (config.getD .default).plugins
    cases hstage : registry.stage (config.getD .default).plugins with
    | error f =>
      simp only [Session.setup, bind, Except.bind, hstage] at hsetup
      cases hsetup
    | ok stage =>
      simp only [Session.setup, bind, Except.bind, hstage] at hsetup
      cases hsetup
      rw [hstage] at hnames
      cases hstage' : registry'.stage (config.getD .default).plugins with
      | error f =>
        rw [hstage'] at hnames
        cases hnames
      | ok stage' =>
        rw [hstage'] at hnames
        refine ⟨⟨config.getD .default, stage'⟩, ?_, rfl, (Except.ok.inj hnames).symm⟩
        simp only [Session.setup, bind, Except.bind, hstage']

/-- The transforms are called for the files that are read and not excluded, one after the other up
to the first that fails. Registries whose transforms do other things merge the same nodes of excluded
files and report the same errors about them. -/
theorem pass_calls (setup : Setup) (work : Text) (o : Options) (files : List Source) :
    (pass setup work o files).calls = (seenFiles setup files).flatMap (fun p =>
      setup.stage.callsOn ⟨work ++ (p.1.url.map (Text.replaceFirst "/__cordova" [])).getD [],
        setup.config.parser, o.sourceMaps⟩ p.2) ∧
    ∀ (registry registry' : Registry) (given : Except Config.Failure (Option Config)),
      registry.Alike registry' → Session.setup registry given = .ok setup →
      ∃ setup', Session.setup registry' given = .ok setup' ∧
        setup'.stage.names = setup.stage.names ∧
        excludedNodes setup (mergedSheet setup' work o.sourceMaps files) =
          excludedNodes setup (mergedSheet setup work o.sourceMaps files) ∧
        excludedErrors setup files (pass setup' work o files) =
          excludedErrors setup files (pass setup work o files) := by
  refine ⟨?_, fun registry registry' given halike hsetup => ?_⟩
  · rw [calls_pass, flatMap_calls]
    rfl
  · obtain ⟨setup', hsetup', hconfig, hnames⟩ := exists_setup_of_alike halike hsetup
    exact ⟨setup', hsetup', hnames, excludedNodes_mergedSheet hconfig, excludedErrors_pass hconfig⟩

/-- Two files of an excluded package, one that is only imported, one of a device and one that a
transform rejects. -/
def packagedFiles : List Source :=
  [⟨"packages/acme_ui/a.css", none, .ok "@import \"b\";c\x7bd:e\x7d", none⟩,
    ⟨"m.css", some "/__cordova/m.css", .ok "m\x7bn:o\x7d", none⟩,
    ⟨"packages/acme_ui/f.css", none, .ok "\x7d", none⟩,
    ⟨"h.css", none, .ok "#h\x7bi:j\x7d", none⟩,
    ⟨"k.css", some "/imports/k.css", .ok "k\x7bl:m\x7d", none⟩]

def keeping : Registry := Registry.empty.registerTransform ⟨"t", fun _ t => .ok ⟨t, none, []⟩⟩

def changing : Registry :=
  Registry.empty.registerTransform ⟨"t", fun _ t =>
    if t.head? = some '#' then .error (.failed "t" "hash mark") else .ok ⟨t ++ "p\x7b\x7d", none, []⟩⟩

theorem pass_calls_packagedFiles :
    let config : Config := ⟨[.plain "t", .plain "t"], none, ["acme:ui"], true, none⟩
    let o : Options := ⟨.production, true⟩
    changing.Alike keeping ∧
    ∃ setup setup', Session.setup changing (.ok (some config)) = .ok setup ∧
      Session.setup keeping (.ok (some config)) = .ok setup' ∧
      (pass setup "/work" o packagedFiles).calls.map (fun c => (c.context.origin, c.text)) =
        [(("/work/m.css" : Text), ("m\x7bn:o\x7d" : Text)),
          (("/work/m.css" : Text), ("m\x7bn:o\x7dp\x7b\x7d" : Text)),
          (("/work" : Text), ("#h\x7bi:j\x7d" : Text))] ∧
      (excludedNodes setup (mergedSheet setup "/work" true packagedFiles)).length = 2 ∧
      excludedNodes setup (mergedSheet setup' "/work" true packagedFiles) =
        excludedNodes setup (mergedSheet setup "/work" true packagedFiles) ∧
      (excludedErrors setup packagedFiles (pass setup "/work" o packagedFiles)).map (·.1) = [2] ∧
      excludedErrors setup packagedFiles (pass setup' "/work" o packagedFiles) =
        excludedErrors setup packagedFiles (pass setup "/work" o packagedFiles) := by
  intro config o
  have halike : changing.Alike keeping :=
    Registry.Alike.registerTransform (fun _ => rfl) rfl
  obtain ⟨setup', hsetup', _, hnodes, herrors⟩ :=
    (pass_calls _ "/work" o packagedFiles).2 changing keeping (.ok (some config)) halike rfl
  exact ⟨halike, _, setup', rfl, hsetup', by decide +kernel, by decide +kernel, hnodes,
    by decide +kernel, herrors⟩

end Build

end Stylesmith
