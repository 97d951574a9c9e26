import Stylesmith.Build.Session

set_option autoImplicit false

namespace Stylesmith.Build.Session

variable {source : Nat → Except Config.Failure (Option Config)} {registry : Registry} {work : Text}

/-- The session after some passes in a row, and what each of them did. -/
def runs (s : Session) : List (Options × List Source) → Session × List Report
  | [] => (s, [])
  | (o, files) :: ps =>
    let (next, report) := s.run o files
    let (last, reports) := runs next ps
    (last, report :: reports)

def loadedOnce (source : Nat → Except Config.Failure (Option Config)) (registry : Registry)
    (work : Text) : Session :=
  ⟨source, registry, work, 1, some (setup registry (source 0))⟩

def reportOf (work : Text) (outcome : Except Config.Failure Setup) (o : Options)
    (files : List Source) : Report :=
  match outcome with
  | .error f => ⟨.error (.config f), [], [], [], []⟩
  | .ok setup => pass setup work o files

theorem run_eq (s : Session) (o : Options) (files : List Source) :
    s.run o files = (s.configure.1, reportOf s.configure.1.work s.configure.2 o files) := by
  unfold run
  obtain ⟨next, outcome⟩ := s.configure
  cases outcome <;> rfl

theorem run_start (o : Options) (files : List Source) : (start source registry work).run o files =
    (loadedOnce source registry work, reportOf work (setup registry (source 0)) o files) := by
  rw [run_eq]
  rfl

theorem run_loadedOnce (o : Options) (files : List Source) :
    (loadedOnce source registry work).run o files =
      (loadedOnce source registry work, reportOf work (setup registry (source 0)) o files) := by
  rw [run_eq]
  rfl

theorem runs_loadedOnce (ps : List (Options × List Source)) :
    (loadedOnce source registry work).runs ps = (loadedOnce source registry work,
      ps.map fun p => reportOf work (setup registry (source 0)) p.1 p.2) := by
  induction ps with
  | nil => rfl
  | cons p ps ih =>
    obtain ⟨o, files⟩ := p
    simp only [runs, run_loadedOnce, ih, List.map_cons]

theorem runs_start (ps : List (Options × List Source)) : (start source registry work).runs ps =
    (if ps.isEmpty then start source registry work else loadedOnce source registry work,
      ps.map fun p => reportOf work (setup registry (source 0)) p.1 p.2) := by
  cases ps with
  | nil => rfl
  | cons p ps =>
    obtain ⟨o, files⟩ := p
    simp only [runs, run_start, runs_loadedOnce, List.map_cons]
    rfl

theorem setup_of_refused {f : Config.Failure} (h : source 0 = .error f ∨ ∃ given,
    source 0 = .ok given ∧ registry.stage (given.getD .default).plugins = .error f) :
    setup registry (source 0) = .error f := by
  rcases h with h | ⟨given, h, hstage⟩
  · rw [h]
    rfl
  · rw [h]
    simp only [setup, bind, Except.bind, hstage]

theorem setup_of_given {given : Option Config} {stage : Stage} (h : source 0 = .ok given)
    (hstage : registry.stage (given.getD .default).plugins = .ok stage) :
    setup registry (source 0) = .ok ⟨given.getD .default, stage⟩ := by
  rw [h]
  simp only [setup, bind, Except.bind, hstage]

/-- Passes in a row load the configuration once, and none at all if there are none. If it cannot be
loaded, or no stage can be made of its plugins, each pass fails with that error and does nothing
else. Otherwise each pass does what it does as the only pass of a session whose source gives the
same, and the configuration can be seen from the first pass on. -/
theorem runs_from_start (source : Nat → Except Config.Failure (Option Config)) (registry : Registry)
    (work : Text) (ps : List (Options × List Source)) :
    ((start source registry work).runs ps).1.loads = (if ps.isEmpty then 0 else 1) ∧
    (∀ f, (source 0 = .error f ∨ ∃ given, source 0 = .ok given ∧
        registry.stage (given.getD .default).plugins = .error f) →
      ((start source registry work).runs ps).2 =
          ps.map (fun _ => ⟨.error (.config f), [], [], [], []⟩) ∧
        ((start source registry work).runs ps).1.config? = none) ∧
    (∀ given stage, source 0 = .ok given →
        registry.stage (given.getD .default).plugins = .ok stage →
      (∀ source' : Nat → Except Config.Failure (Option Config), source' 0 = source 0 →
        ((start source registry work).runs ps).2 =
          ps.map fun p => ((start source' registry work).run p.1 p.2).2) ∧
      ((start source registry work).runs ps).1.config? =
        if ps.isEmpty then none else some (given.getD .default)) := by
  rw [runs_start]
  refine ⟨?_, fun f hf => ⟨?_, ?_⟩, fun given stage hgiven hstage => ⟨fun source' hsource' => ?_, ?_⟩⟩
  · cases ps <;> rfl
  · rw [setup_of_refused hf]
    rfl
  · cases ps with
    | nil => rfl
    | cons p ps =>
      have hrefused := setup_of_refused hf
      simp only [List.isEmpty_cons, Bool.false_eq_true, if_false, loadedOnce, config?, hrefused]
  · refine List.map_congr_left fun p _ => ?_
    rw [run_start, hsource']
  · cases ps with
    | nil => rfl
    | cons p ps =>
      have hsetup := setup_of_given hgiven hstage
      simp only [List.isEmpty_cons, Bool.false_eq_true, if_false, loadedOnce, config?, hsetup]

def threePasses : List (Options × List Source) :=
  [(⟨.production, false⟩, []), (⟨.development, true⟩, [⟨"imports/a.css", none, .ok "a", none⟩]),
    (⟨.production, true⟩,
      [⟨"b.css", none, .ok "b\x7bc:d\x7d", none⟩, ⟨"e.css", none, .error "gone", none⟩])]

def shouting : Registry :=
  Registry.empty.registerTransform ⟨"loud", fun _ t => .ok ⟨t ++ ("/*!*/" : Text), none, []⟩⟩

/-- The first source would load at its second try only, and the second source at its first only. -/
theorem runs_from_start_threePasses :
    let late : Nat → Except Config.Failure (Option Config) := fun n =>
      if n = 0 then .error (.unknownPlugin "x") else .ok none
    let early : Nat → Except Config.Failure (Option Config) := fun n =>
      if n = 0 then .ok (some ⟨[.plain "loud"], none, [], false, none⟩) else late 0
    ((start late shouting []).runs threePasses).1.loads = 1 ∧
    ((start late shouting []).runs threePasses).2 =
      threePasses.map (fun _ => ⟨.error (.config (.unknownPlugin "x")), [], [], [], []⟩) ∧
    ((start early shouting []).runs threePasses).2 =
      threePasses.map (fun p => ((start (fun _ => early 0) shouting []).run p.1 p.2).2) ∧
    ((start early shouting []).runs threePasses).2.map (·.reads) = [[], [], [0, 1]] ∧
    ((start early shouting []).runs threePasses).2.map (fun r => r.outputs.map (·.text)) =
      [[], [], [("b\x7bc:d\x7d/*!*/" : Text)]] := by
  intro late early
  obtain ⟨hloads, hrefused, _⟩ := runs_from_start late shouting [] threePasses
  obtain ⟨_, _, hgiven⟩ := runs_from_start early shouting [] threePasses
  refine ⟨hloads, (hrefused _ (.inl rfl)).1, (hgiven _ _ rfl rfl).1 _ rfl, ?_, ?_⟩
  · decide +kernel
  · decide +kernel

end Stylesmith.Build.Session
