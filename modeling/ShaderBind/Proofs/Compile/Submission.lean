import ShaderBind.Compile.Assembly
import ShaderBind.Proofs.Compile.Watching

/-!
# Pipelines that are submitted

A pipeline is assembled by a task of its own, perhaps while its shaders are compiled. The task waits
for one shader after the other, as one more reader of each (`Watched`), and stops at the first that
failed. Then it goes through the steps of the assembly, one after the other (`Assembling.advance`);
that it tells the caller, writes the outcome into a slot and wakes those who wait for it, and in
what order, is told by `Assembly.runSteps` alone. One who waits looks into the slot, and sleeps as
long as nothing is there (`Assembling.look`). The slot has a lock, which is held from the look to
the sleep and for each write: so these are single steps here. Shaders, their readers, the task and
those who wait take steps in any order (`Assembling.run`).
-/

namespace ShaderBind

/-- A pipeline to be assembled by a task of its own: its shaders, in order, with their compiles, and
what the caller does when it is told, with its state before. -/
structure Submission (κ σ : Type) where
  assembly : Assembly
  shaders : List κ
  jobs : κ → Job
  onComplete : Callback σ
  caller : σ

namespace Submission

variable {κ σ : Type}

/-- The outcomes of some shaders, in order. -/
def outcomesOf (s : Submission κ σ) (ks : List κ) : List Outcome :=
  ks.map fun k => (s.jobs k).outcome

/-- Before the task has begun. -/
def initial (s : Submission κ σ) : AssemblyState σ :=
  { caller := s.caller }

/-- What an assembly after all shaders changes. -/
def sequential (s : Submission κ σ) : AssemblyState σ :=
  s.assembly.run (s.outcomesOf s.shaders) s.onComplete s.initial

end Submission

/-- How far the task of a pipeline is. -/
inductive Assembler (κ : Type)
  /-- It has outcomes, and has to wait for these shaders. -/
  | gathering (got : List Outcome) (rest : List κ)
  /-- It waits for a shader, and then has to wait for the others. -/
  | awaiting (got : List Outcome) (k : κ) (rest : List κ)
  /-- It has the shaders, and has these steps left. -/
  | finishing (rest : List AssemblyStep)

/-- How far one who waits for a pipeline is. -/
inductive Waiter
  | idle
  /-- It has to look into the slot. -/
  | looking
  | parked
  | answered (outcome : PipelineOutcome)

/-- One who sleeps has to look again when it is woken. -/
def Waiter.woken : Waiter → Waiter
  | .parked => .looking
  | r => r

/-- Whether those who wait are woken. -/
def AssemblyStep.wakes : AssemblyStep → Bool
  | .notify => true
  | _ => false

/-- A submitted pipeline: its shaders, which the task reads as the reader `none`, the task and what
it changes, those who wait for the outcome, and the answers that they were given. -/
structure Assembling (κ ι σ : Type) where
  shaders : κ → Watched (Option ι)
  assembler : Assembler κ
  state : AssemblyState σ
  waiters : ι → Waiter := fun _ => .idle
  answers : List (ι × PipelineOutcome) := []

/-- Who takes a step; one that is not busy can ask a shader, or wait for the pipeline. -/
inductive PipelineTurn (κ ι : Type)
  | runner (k : κ)
  | ask (k : κ) (i : ι) (query : Query)
  | reader (k : κ) (i : Option ι)
  | assembler
  | wait (i : ι)
  | waiter (i : ι)

namespace Assembling

variable {κ ι σ : Type} [DecidableEq κ] [DecidableEq ι]

/-- A pipeline whose task and shaders have not begun. -/
def start (s : Submission κ σ) : Assembling κ ι σ :=
  { shaders := fun k => .start (s.jobs k)
    assembler := .gathering [] s.shaders
    state := s.initial }

/-- A shader is at another place. -/
def put (w : Assembling κ ι σ) (k : κ) (v : Watched (Option ι)) : Assembling κ ι σ :=
  { w with shaders := Function.update w.shaders k v }

/-- The shaders that are still to be waited for: none after a failure. -/
def remaining (outcome : Outcome) (rest : List κ) : List κ :=
  match outcome with
  | .ok _ => rest
  | .error _ => []

/-- The task of the pipeline takes a step. It does not go on before a shader has answered. -/
def advance (s : Submission κ σ) (w : Assembling κ ι σ) : Assembling κ ι σ :=
  match w.assembler with
  | .gathering got (k :: rest) =>
    { w.put k ((w.shaders k).ask none .wait) with assembler := .awaiting got k rest }
  | .gathering got [] => { w with assembler := .finishing (s.assembly.runSteps got) }
  | .awaiting got k rest =>
    match (w.shaders k).readers none with
    | .answered _ (.outcome outcome) =>
      { w with assembler := .gathering (got ++ [outcome]) (remaining outcome rest) }
    | _ => w
  | .finishing [] => w
  | .finishing (step :: rest) =>
    { w with
      assembler := .finishing rest
      state := s.assembly.step s.onComplete w.state step
      waiters := if step.wakes then fun i => (w.waiters i).woken else w.waiters }

/-- One who waits is at another place. -/
def move (w : Assembling κ ι σ) (i : ι) (r : Waiter) : Assembling κ ι σ :=
  { w with waiters := Function.update w.waiters i r }

/-- Someone begins to wait. -/
def wait (w : Assembling κ ι σ) (i : ι) : Assembling κ ι σ :=
  match w.waiters i with
  | .idle => w.move i .looking
  | .answered _ => w.move i .looking
  | _ => w

/-- One who waits looks into the slot, and sleeps if nothing is there. -/
def look (w : Assembling κ ι σ) (i : ι) : Assembling κ ι σ :=
  match w.waiters i with
  | .looking =>
    match w.state.slot with
    | some outcome => { w.move i (.answered outcome) with answers := w.answers ++ [(i, outcome)] }
    | none => w.move i .parked
  | _ => w

/-- The next step is taken by the one whose turn it is. -/
def step (s : Submission κ σ) (w : Assembling κ ι σ) : PipelineTurn κ ι → Assembling κ ι σ
  | .runner k => w.put k (w.shaders k).advance
  | .ask k i query => w.put k ((w.shaders k).ask (some i) query)
  | .reader k i => w.put k ((w.shaders k).read i)
  | .assembler => w.advance s
  | .wait i => w.wait i
  | .waiter i => w.look i

/-- A pipeline after steps in the given order. -/
def run (s : Submission κ σ) (schedule : List (PipelineTurn κ ι)) : Assembling κ ι σ :=
  schedule.foldl (step s) (start s)

end Assembling

end ShaderBind
