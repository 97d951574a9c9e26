import Stylesmith.Build.Pass

/-!
# Build sessions

A session runs many passes. Its configuration is loaded for the first one, and the outcome is kept
for all later ones, also when it is a failure.
-/

set_option autoImplicit false

namespace Stylesmith.Build

structure Session where
  /-- What the source of the configuration gives at each load, counted from zero. -/
  source : Nat → Except Config.Failure (Option Config)
  registry : Registry
  work : Text
  loads : Nat
  loaded : Option (Except Config.Failure Setup)

namespace Session

def start (source : Nat → Except Config.Failure (Option Config)) (registry : Registry)
    (work : Text) : Session :=
  ⟨source, registry, work, 0, none⟩

def setup (registry : Registry) (given : Except Config.Failure (Option Config)) :
    Except Config.Failure Setup := do
  let config := (← given).getD .default
  let stage ← registry.stage config.plugins
  .ok ⟨config, stage⟩

def configure (s : Session) : Session × Except Config.Failure Setup :=
  match s.loaded with
  | some outcome => (s, outcome)
  | none =>
    let outcome := setup s.registry (s.source s.loads)
    ({ s with loads := s.loads + 1, loaded := some outcome }, outcome)

def run (s : Session) (o : Options) (files : List Source) : Session × Report :=
  let (s, outcome) := s.configure
  match outcome with
  | .error f => (s, ⟨.error (.config f), [], [], [], []⟩)
  | .ok setup => (s, pass setup s.work o files)

def config? (s : Session) : Option Config :=
  match s.loaded with
  | some (.ok setup) => some setup.config
  | _ => none

end Session

end Stylesmith.Build
