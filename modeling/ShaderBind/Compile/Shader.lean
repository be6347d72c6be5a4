import ShaderBind.Compile.Run

/-!
# Shader objects

A shader is compiled once, perhaps while others look at it. Its run is a sequence of steps
(`Shader.runSteps`): it enters phases, publishes the outcome, and only then takes its final state,
so that whoever sees a final state finds the outcome there. It has the lock of those who wait while
it takes the final state and wakes them. `Shader.poll?` and `Shader.compiled` look at a shader at
any time.
-/

namespace ShaderBind

/-- How a compile ends. -/
abbrev Outcome := Except ShaderError Compiled

/-- How far a shader is. -/
inductive ShaderState
  | uninitialized
  | generating
  | reflecting
  | ready
  | failed
  deriving DecidableEq, Repr, Inhabited

namespace ShaderState

/-- Name of the state. -/
def name : ShaderState → String
  | uninitialized => "Uninitialized"
  | generating => "Translating"
  | reflecting => "Reflecting"
  | ready => "Ready"
  | failed => "Failed"

/-- Whether the state does not change any more. -/
def isFinal : ShaderState → Bool
  | ready => true
  | failed => true
  | _ => false

/-- The state of a shader in a phase. -/
def ofPhase : Phase → ShaderState
  | .generating => generating
  | .reflecting => reflecting

/-- The final state of a shader with an outcome. -/
def ofOutcome : Outcome → ShaderState
  | .ok _ => ready
  | .error _ => failed

end ShaderState

/-- A shader that is compiled once. -/
structure Shader where
  name : String
  state : ShaderState := .uninitialized
  outcome : Option Outcome := none

/-- A step of a shader's run. -/
inductive ShaderStep
  | store (state : ShaderState)
  | publish (outcome : Outcome)
  /-- Takes the lock that those who wait hold when they look at the state. -/
  | lock
  /-- Wakes those who wait. -/
  | notify
  | unlock

namespace Shader

/-- A shader that waits for its run. -/
def pending (i : CompileInfo) : Shader :=
  { name := i.shader }

/-- The shader after a step. An outcome that is published stays. -/
def step (s : Shader) : ShaderStep → Shader
  | .store state => { s with state }
  | .publish outcome => { s with outcome := s.outcome.or (some outcome) }
  | .lock => s
  | .notify => s
  | .unlock => s

/-- The outcome of a compile; a crash is caught. -/
def outcomeOf (shader : String) : Except Stop Compiled → Outcome
  | .ok compiled => .ok compiled
  | .error stop => .error (stop.caught shader .compilation)

/-- The steps of a run whose compile had the given events and result. -/
def runSteps (shader : String) (events : List Event) (result : Except Stop Compiled) :
    List ShaderStep :=
  let outcome := outcomeOf shader result
  (Event.phases events).map (fun phase => .store (.ofPhase phase)) ++
    [.publish outcome, .lock, .store (.ofOutcome outcome), .notify, .unlock]

/-- The steps of a shader's run. -/
def task (s : Shader) (c : Context) (i : CompileInfo) : StateM Trace (List ShaderStep) :=
  fun before =>
    let (result, after) := (compile c i).run.run before
    (runSteps s.name (after.events.drop before.events.length) result, after)

/-- Runs a shader's compile to its end. -/
def run (s : Shader) (c : Context) (i : CompileInfo) : StateM Trace Shader := do
  let steps ← s.task c i
  return steps.foldl step s

/-- Whether the compile ended well. -/
def isReady (s : Shader) : Bool := s.state = .ready

/-- The outcome, once the state is final. -/
def poll? (s : Shader) : Option Outcome :=
  if s.state.isFinal then s.outcome else none

/-- The outcome, or the failure that there is none yet. -/
def compiled (s : Shader) : Outcome :=
  s.poll?.getD (.error (.notReady s.name))

end Shader

end ShaderBind
