import ShaderBind.Compile.Shader

/-!
# Assembly of pipelines

A pipeline whose shaders may still be on their way is assembled as soon as all of them are final
(`Assembly.run`). The first shader that failed, in order, makes it fail; otherwise it is remapped
as a whole. A crash is caught. Then, step by step (`Assembly.runSteps`), the caller is told the
outcome, the outcome is put where those who wait look for it, and they are woken. The caller has a
state of its own, which being told may change (`Callback`); should it crash, only a warning remains.
-/

namespace ShaderBind

/-- How an assembly ends. -/
abbrev PipelineOutcome := Except ShaderError RemappedPipeline

/-- What a caller does when it is told of an outcome, with a state of its own; it may crash. -/
abbrev Callback (σ : Type) := PipelineOutcome → ExceptT Crash (StateM σ) Unit

/-- A pipeline to be assembled. -/
structure Assembly where
  name : String
  remapper : Remapper
  device : Device

/-- What an assembly changes: the slot for the outcome, the state of the caller and the warnings. -/
structure AssemblyState (σ : Type) where
  slot : Option PipelineOutcome := none
  caller : σ
  warnings : List String := []

/-- A step of an assembly whose shaders are final. -/
inductive AssemblyStep
  /-- Gives the warnings of the remapping. -/
  | warn (warnings : List String)
  /-- Tells the caller. -/
  | tell (outcome : PipelineOutcome)
  /-- Puts the outcome into the slot. -/
  | write (outcome : PipelineOutcome)
  /-- Wakes those who wait. -/
  | notify

namespace Assembly

/-- The compiled shaders, or the failure of the first that failed. -/
def compiledAll : List Outcome → Except ShaderError (List Compiled)
  | [] => .ok []
  | outcome :: outcomes => do
    let c ← outcome
    let cs ← compiledAll outcomes
    return c :: cs

/-- Remaps the pipeline of final shaders. -/
def assemble (a : Assembly) (outcomes : List Outcome) : Noted RemappedPipeline := do
  let shaders ← Noted.ofError (compiledAll outcomes)
  RemappedPipeline.build a.name shaders a.remapper a.device

/-- The outcome of final shaders, and the warnings; a crash is caught. -/
def outcome (a : Assembly) (outcomes : List Outcome) : PipelineOutcome × List String :=
  match (a.assemble outcomes).outcome with
  | (.ok pipeline, warnings) => (.ok pipeline, warnings)
  | (.error stop, warnings) => (.error (stop.caught a.name .assembly), warnings)

/-- Tells the caller of an outcome; the warning that remains of a crash. -/
def tell {σ : Type} (a : Assembly) (onComplete : Callback σ) (outcome : PipelineOutcome) :
    StateM σ (List String) := do
  match ← (onComplete outcome).run with
  | .ok () => return []
  | .error crash => return [(ShaderError.crashed a.name .callback crash).message]

/-- What a step changes. -/
def step {σ : Type} (a : Assembly) (onComplete : Callback σ) (p : AssemblyState σ) :
    AssemblyStep → AssemblyState σ
  | .warn warnings => { p with warnings := p.warnings ++ warnings }
  | .tell outcome =>
    let (warnings, caller) := (a.tell onComplete outcome).run p.caller
    { p with caller, warnings := p.warnings ++ warnings }
  | .write outcome => { p with slot := some outcome }
  | .notify => p

/-- The steps of an assembly whose shaders have the given outcomes. -/
def runSteps (a : Assembly) (outcomes : List Outcome) : List AssemblyStep :=
  let (outcome, warnings) := a.outcome outcomes
  [.warn warnings, .tell outcome, .write outcome, .notify]

/-- Assembles a pipeline and tells the caller. -/
def run {σ : Type} (a : Assembly) (outcomes : List Outcome) (onComplete : Callback σ)
    (p : AssemblyState σ) : AssemblyState σ :=
  (a.runSteps outcomes).foldl (a.step onComplete) p

end Assembly

end ShaderBind
