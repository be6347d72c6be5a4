import ShaderBind.Compile.Shader
import Mathlib.Logic.Function.Basic

/-!
# Shaders that are watched

A shader is compiled by a task of its own while others look at it. The task and the readers take
steps in any order (`Watched.run`), and a step touches one thing that they share: the state, the
outcome or the lock. The task goes through the steps of the shader's run, one after the other
(`Watched.advance`); which these are and in what order is told by `Shader.task` alone. A reader asks
for the state or polls without a lock: it loads the state, and reads the outcome after it saw a
final one. Then it has seen the shader, with the state that it loaded and the outcome that it read,
and its answer is what `Shader.poll?` and `Shader.compiled` say of this shader (`Query.answer`). One
that waits takes the lock, looks at the state and sleeps until it is woken, as long as the state is
not final (`Watched.read`). A step of one who has to wait for the lock, or sleeps, changes nothing.

A watched shader also keeps what went on: the states it had, those that were seen and the answers
that were given, in order.
-/

namespace ShaderBind

/-- The compile of a shader: what it works with, and the trace that it begins with. -/
structure Job where
  context : Context
  info : CompileInfo
  before : Trace := {}

namespace Job

/-- What the compile gives, and the trace after it. -/
def compiled (j : Job) : Except Stop Compiled × Trace :=
  (compile j.context j.info).run.run j.before

/-- The phases that the compile enters. -/
def phases (j : Job) : List Phase :=
  Event.phases (j.compiled.2.events.drop j.before.events.length)

/-- The outcome of the compile; a crash is caught. -/
def outcome (j : Job) : Outcome :=
  Shader.outcomeOf j.info.shader j.compiled.1

/-- The steps of the run. -/
def steps (j : Job) : List ShaderStep :=
  ((Shader.pending j.info).task j.context j.info j.before).1

end Job

/-- What a reader asks for. -/
inductive Query
  | state
  | poll
  | compiled
  | wait
  deriving DecidableEq

/-- What a reader is told. -/
inductive Answer
  | state (state : ShaderState)
  | poll (outcome : Option Outcome)
  | outcome (outcome : Outcome)

/-- How far a reader is. -/
inductive Reader
  | idle
  /-- It has to load the state. -/
  | loading (query : Query)
  /-- It saw a final state and has to read the outcome. -/
  | reading (query : Query) (seen : ShaderState)
  | locking
  /-- It has the lock and has to load the state. -/
  | checking
  /-- It saw that it has to wait. -/
  | parking
  | parked
  /-- It saw a final state and has to give the lock back. -/
  | unlocking
  | answered (query : Query) (answer : Answer)

/-- Who has the lock of a shader. -/
inductive Holder (ι : Type)
  | runner
  | reader (i : ι)

/-- A shader, its task and its readers, and what went on among them. -/
structure Watched (ι : Type) where
  shader : Shader
  /-- The steps that the task has still to take. -/
  runner : List ShaderStep
  lock : Option (Holder ι) := none
  readers : ι → Reader := fun _ => .idle
  /-- The states of the shader so far. -/
  past : List ShaderState := [.uninitialized]
  /-- The states that readers saw. -/
  seen : List (ι × ShaderState) := []
  answers : List (ι × Query × Answer) := []

/-- Who takes a step; a reader that is not busy can ask. -/
inductive Turn (ι : Type)
  | runner
  | ask (i : ι) (query : Query)
  | reader (i : ι)

/-- The states of a shader after a step of its task. -/
def ShaderStep.extend (past : List ShaderState) : ShaderStep → List ShaderState
  | .store state => past ++ [state]
  | .publish _ => past
  | .lock => past
  | .notify => past
  | .unlock => past

/-- One who sleeps has to take the lock again when it is woken. -/
def Reader.woken : Reader → Reader
  | .parked => .locking
  | r => r

/-- The answer to a query by one who has seen a shader. -/
def Query.answer (seen : Shader) : Query → Answer
  | .state => .state seen.state
  | .poll => .poll seen.poll?
  | .compiled => .outcome seen.compiled
  | .wait => .outcome seen.compiled

/-- What a reader does first. -/
def Query.begin : Query → Reader
  | .wait => .locking
  | q => .loading q

namespace Watched

variable {ι : Type} [DecidableEq ι]

/-- A shader whose task has not begun. -/
def start (j : Job) : Watched ι :=
  { shader := .pending j.info, runner := j.steps }

/-- The shader and its past after a step of the task. -/
def apply (w : Watched ι) (step : ShaderStep) : Watched ι :=
  { w with shader := w.shader.step step, past := step.extend w.past }

/-- The task takes its next step. It does not go on before it has the lock that it needs. -/
def advance (w : Watched ι) : Watched ι :=
  match w.runner with
  | [] => w
  | step :: rest =>
    let next := { w.apply step with runner := rest }
    match step with
    | .store _ => next
    | .publish _ => next
    | .lock => if w.lock.isNone then { next with lock := some .runner } else w
    | .notify => { next with readers := fun i => (w.readers i).woken }
    | .unlock => { next with lock := none }

/-- A reader is at another place. -/
def move (w : Watched ι) (i : ι) (r : Reader) : Watched ι :=
  { w with readers := Function.update w.readers i r }

/-- A reader loads the state. -/
def load (w : Watched ι) (i : ι) : Watched ι :=
  { w with seen := w.seen ++ [(i, w.shader.state)] }

/-- A reader is told something. -/
def tell (w : Watched ι) (i : ι) (query : Query) (answer : Answer) : Watched ι :=
  { w.move i (.answered query answer) with answers := w.answers ++ [(i, query, answer)] }

/-- A reader asks for something. -/
def ask (w : Watched ι) (i : ι) (query : Query) : Watched ι :=
  match w.readers i with
  | .idle => w.move i query.begin
  | .answered .. => w.move i query.begin
  | _ => w

/-- A reader takes a step. -/
def read (w : Watched ι) (i : ι) : Watched ι :=
  match w.readers i with
  | .loading query =>
    if query = .state ∨ !w.shader.state.isFinal then
      (w.load i).tell i query (query.answer w.shader)
    else (w.load i).move i (.reading query w.shader.state)
  | .reading query seen => w.tell i query (query.answer { w.shader with state := seen })
  | .locking =>
    if w.lock.isNone then { w.move i .checking with lock := some (.reader i) } else w
  | .checking => (w.load i).move i (if w.shader.state.isFinal then .unlocking else .parking)
  | .parking => { w.move i .parked with lock := none }
  | .unlocking => { w.move i (.loading .wait) with lock := none }
  | .idle => w
  | .parked => w
  | .answered .. => w

/-- The next step is taken by the one whose turn it is. -/
def step (w : Watched ι) : Turn ι → Watched ι
  | .runner => w.advance
  | .ask i query => w.ask i query
  | .reader i => w.read i

/-- A shader after steps in the given order. -/
def run (j : Job) (schedule : List (Turn ι)) : Watched ι :=
  schedule.foldl step (start j)

end Watched

end ShaderBind
