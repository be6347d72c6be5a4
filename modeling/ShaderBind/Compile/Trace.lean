import ShaderBind.Compile.Tool
import ShaderBind.Source.Cache

/-!
# The trace of a compile

A compile leaves a trace: the phases it goes through, the requests it puts to tools and the
warnings it gives, in order (`Trace.events`), and the sources it read, which later compiles reuse
(`Trace.sources`). Both remain when the compile stops early.
-/

namespace ShaderBind

/-- A phase of a compile. -/
inductive Phase
  | generating
  | reflecting
  deriving DecidableEq, Repr

/-- Something that happened in a compile. -/
inductive Event
  | entered (phase : Phase)
  | called (call : Call)
  | warned (text : String)
  deriving Repr

/-- What compiles leave behind. -/
structure Trace where
  events : List Event := []
  /-- Texts with their includes in place, by path. -/
  sources : Source.Cache String := .empty

/-- Work that leaves a trace and may stop. -/
abbrev Traced := ExceptT Stop (StateM Trace)

namespace Traced

variable {α : Type}

/-- Records an event. -/
def record (e : Event) : Traced Unit :=
  modify fun t => { t with events := t.events ++ [e] }

/-- Gives a warning. -/
def warn (text : String) : Traced Unit :=
  record (.warned text)

/-- Stops with a failure. -/
def fail (e : ShaderError) : Traced α :=
  throw (.failed e)

/-- A step that leaves no trace. -/
def ofStop (r : Except Stop α) : Traced α :=
  ExceptT.mk (pure r)

/-- A step that leaves no trace and can only fail. -/
def ofError (r : Except ShaderError α) : Traced α :=
  ofStop (Stop.ofError r)

/-- A step that gives warnings. -/
def ofNoted (x : Noted α) : Traced α := do
  let (result, warnings) := x.outcome
  for text in warnings do
    warn text
  ofStop result

end Traced

/-- The phases entered in some events. -/
def Event.phases (events : List Event) : List Phase :=
  events.filterMap fun | .entered phase => some phase | _ => none

/-- The warnings of some events. -/
def Event.warnings (events : List Event) : List String :=
  events.filterMap fun | .warned text => some text | _ => none

end ShaderBind
