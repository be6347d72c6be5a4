import ShaderBind.Compile.Assembly

/-!
# Sessions

A session holds a context with its files and caches, shaders and pipelines under names, and a queue
of tasks that are run one by one and in any order. A task keeps the shader or the pipeline it was
made for, also when its name is given to another.
-/

namespace ShaderBind

/-- What a caller does when it is told of a pipeline. -/
inductive CallbackKind
  | returns
  | crashes
  deriving DecidableEq, Repr

/-- What a caller was told: the number of stages, or the shader of a failure. -/
inductive CallbackRecord
  | stages (n : Nat)
  | failure (shader : Option String)
  deriving DecidableEq, Repr

/-- What a caller writes down when it is told of an outcome. -/
def CallbackRecord.ofOutcome : PipelineOutcome → CallbackRecord
  | .ok pipeline => stages pipeline.stages.length
  | .error e => failure e.shader?

/-- What the caller does when it is told: it writes that down, and perhaps crashes. -/
def CallbackKind.run (kind : CallbackKind) : Callback (Option CallbackRecord) := fun outcome => do
  set (some (CallbackRecord.ofOutcome outcome))
  match kind with
  | .returns => return
  | .crashes => throw (.text "callback crashed")

/-- A pipeline of a session. -/
structure SessionPipeline where
  assembly : Assembly
  /-- The positions of its shaders. -/
  shaders : List Nat
  callback : CallbackKind
  /-- The slot for the outcome, and what the caller wrote down. -/
  state : AssemblyState (Option CallbackRecord) := { caller := none }

namespace SessionPipeline

/-- The outcome, once it is there. -/
def outcome (p : SessionPipeline) : Option PipelineOutcome := p.state.slot

/-- What the caller was told. -/
def told (p : SessionPipeline) : Option CallbackRecord := p.state.caller

end SessionPipeline

/-- A task that waits in the queue, with the position of its object. -/
inductive Task
  | shader (position : Nat) (info : CompileInfo)
  | pipeline (position : Nat)

/-- The state of a session. -/
structure Session where
  /-- The context, apart from its files. -/
  base : Context
  files : Option (List (String × String)) := none
  trace : Trace := {}
  shaders : List Shader := []
  shaderNames : List (String × Nat) := []
  pipelines : List SessionPipeline := []
  pipelineNames : List (String × Nat) := []
  queue : List Task := []

namespace Session

/-- The context with its files. -/
def context (s : Session) : Context :=
  { s.base with store := s.files.map Source.Store.ofFiles }

/-- Steps of a session. -/
abbrev Step := StateM Session

/-- The position that a name stands for now. -/
def position? (names : List (String × Nat)) (name : String) : Option Nat :=
  (names.find? fun n => n.1 = name).map Prod.snd

/-- The shader of a name. -/
def shader? (s : Session) (name : String) : Option Shader :=
  (position? s.shaderNames name).bind fun p => s.shaders[p]?

/-- The pipeline of a name. -/
def pipeline? (s : Session) (name : String) : Option SessionPipeline :=
  (position? s.pipelineNames name).bind fun p => s.pipelines[p]?

/-- Does work that leaves a trace. -/
def traced {α : Type} (x : StateM Trace α) : Step α := fun s =>
  let (a, trace) := x s.trace
  (a, { s with trace })

/-- The events since the last look at them. -/
def takeEvents : Step (List Event) := fun s =>
  (s.trace.events, { s with trace := { s.trace with events := [] } })

/-- Gives warnings. -/
def warnAll (texts : List String) : Step Unit := fun s =>
  ((), { s with
    trace := { s.trace with events := s.trace.events ++ texts.map Event.warned } })

/-- Compiles a shader without keeping it. -/
def compileOnce (i : CompileInfo) : Step (Except Stop Compiled) := do
  let s ← get
  traced (compile s.context i).run

/-- Adds a shader under a name; its position. -/
def addShader (name : String) (shader : Shader) : Step Nat := fun s =>
  (s.shaders.length,
    { s with
      shaders := s.shaders ++ [shader]
      shaderNames := (name, s.shaders.length) :: s.shaderNames })

/-- Runs the compile of the shader at a position. -/
def runShader (position : Nat) (i : CompileInfo) : Step Unit := do
  let s ← get
  match s.shaders[position]? with
  | none => pure ()
  | some shader =>
    let shader ← traced (shader.run s.context i)
    modify fun s => { s with shaders := s.shaders.set position shader }

/-- Compiles a shader at once and keeps it. -/
def create (name : String) (i : CompileInfo) : Step Unit := do
  let position ← addShader name (.pending i)
  runShader position i

/-- Puts a shader's compile into the queue. -/
def createLater (name : String) (i : CompileInfo) : Step Unit := do
  let position ← addShader name (.pending i)
  modify fun s => { s with queue := s.queue ++ [.shader position i] }

/-- The shaders of a pipeline. -/
def shadersOf (s : Session) (p : SessionPipeline) : List Shader :=
  p.shaders.filterMap fun position => s.shaders[position]?

/-- Whether a pipeline has to wait for shaders. -/
def isBlocked (s : Session) (p : SessionPipeline) : Bool :=
  (s.shadersOf p).any fun shader => !shader.state.isFinal

/-- Assembles the pipeline at a position. -/
def runPipeline (position : Nat) : Step Unit := do
  let s ← get
  match s.pipelines[position]? with
  | none => pure ()
  | some p =>
    let state := p.assembly.run ((s.shadersOf p).map Shader.compiled) p.callback.run p.state
    warnAll state.warnings
    modify fun s => { s with pipelines := s.pipelines.set position { p with state } }

/-- How a request to run a task ends. -/
inductive RunResult
  | ran (task : Task)
  | missing
  | wouldBlock

/-- Runs the task at a position of the queue. A pipeline that would have to wait stays there. -/
def runTask (index : Nat) : Step RunResult := do
  let s ← get
  match s.queue[index]? with
  | none => return .missing
  | some (.shader position info) =>
    set { s with queue := s.queue.eraseIdx index }
    runShader position info
    return .ran (.shader position info)
  | some (.pipeline position) =>
    if s.pipelines[position]?.any s.isBlocked then return .wouldBlock
    else
      set { s with queue := s.queue.eraseIdx index }
      runPipeline position
      return .ran (.pipeline position)

/-- Adds a pipeline under a name; its position. Names of shaders that are not there are left
out. -/
def addPipeline (name : String) (assembly : Assembly) (shaders : List String)
    (callback : CallbackKind) : Step Nat := fun s =>
  let positions := shaders.filterMap (position? s.shaderNames)
  (s.pipelines.length,
    { s with
      pipelines := s.pipelines ++ [{ assembly, shaders := positions, callback }]
      pipelineNames := (name, s.pipelines.length) :: s.pipelineNames })

/-- Puts a pipeline into the queue. -/
def submit (name : String) (assembly : Assembly) (shaders : List String)
    (callback : CallbackKind) : Step Unit := do
  let position ← addPipeline name assembly shaders callback
  modify fun s => { s with queue := s.queue ++ [.pipeline position] }

/-- Assembles a pipeline at once. -/
def submitNow (name : String) (assembly : Assembly) (shaders : List String)
    (callback : CallbackKind) : Step Unit := do
  let position ← addPipeline name assembly shaders callback
  runPipeline position

/-- Writes a file of the context. -/
def setFile (path text : String) : Step Unit := fun s =>
  ((), { s with files := s.files.map (· ++ [(path, text)]) })

/-- The compiled shaders of names, or the failure of the first that has none. -/
def compiledShaders (s : Session) (names : List String) : Except ShaderError (List Compiled) :=
  Assembly.compiledAll ((names.filterMap s.shader?).map Shader.compiled)

/-- Does work that gives warnings. -/
def noted {α : Type} (x : Noted α) : Step (Except Stop α) := do
  let (result, warnings) := x.outcome
  warnAll warnings
  return result

end Session

end ShaderBind
