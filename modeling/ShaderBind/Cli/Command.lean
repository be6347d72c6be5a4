import ShaderBind.Cli.Arguments
import ShaderBind.Device
import ShaderBind.Language
import ShaderBind.Source.Macro
import ShaderBind.Stage

/-!
# Commands

What the two programs are asked for. `analyze` lists the resources of a shader, `remap` moves its
bindings to those of a layout file. Both name a shader and say how it is to be compiled
(`ShaderArguments`), with WGSL on a WebGPU device unless told otherwise.
-/

namespace ShaderBind.Cli

/-- The programs. -/
inductive Program
  | analyze
  | remap
  deriving DecidableEq, Repr, Inhabited

/-- What both programs are told of a shader. -/
structure ShaderArguments where
  path : String
  stage : Stage
  language : Language := .wgsl
  device : Device := .webGpu
  entryPoint : Option String := none
  macros : List Source.Macro := []
  arraySuffix : Option String := none
  deriving Repr

/-- What is asked for. -/
inductive Command
  | analyze (shader : ShaderArguments) (includeDirs : List String)
      (combinedSamplerSuffix : Option String) (bufferLayout json : Bool)
  | remap (shader : ShaderArguments) (layout : String) (verifyOnly warn : Bool)
      (output : Option String)
  deriving Repr

/-- The shader that is asked about. -/
def Command.shader : Command → ShaderArguments
  | analyze shader .. => shader
  | remap shader .. => shader

/-- Whether a reading succeeds. -/
def reads {α : Type} (parse : String → Except UnknownName α) (value : String) : Bool :=
  match parse value with
  | .ok _ => true
  | .error _ => false

/-- Whether a path is one that can be opened. -/
def isPath (value : String) : Bool := !value.isEmpty

/-- The options of both programs. -/
def shaderOptions : List OptionSpec :=
  [{ long := "stage", short := some 's', accepts := reads Stage.parse },
   { long := "language", short := some 'l', accepts := reads Language.parse },
   { long := "device", short := some 'd', accepts := reads Device.parse },
   { long := "entry-point", short := some 'e' },
   { long := "define", short := some 'D', repeats := true },
   { long := "array-suffix" }]

/-- The options of a program. -/
def Program.options : Program → List OptionSpec
  | analyze => shaderOptions ++
    [{ long := "include-dir", short := some 'I', repeats := true, accepts := isPath },
     { long := "combined-sampler-suffix" },
     { long := "buffer-layout", takesValue := false },
     { long := "json", takesValue := false }]
  | remap => shaderOptions ++
    [{ long := "layout", accepts := isPath },
     { long := "verify-only", takesValue := false },
     { long := "warn", takesValue := false },
     { long := "output", short := some 'o', accepts := isPath }]

/-- What a program says of itself when asked for help. -/
def Program.help : Program → String
  | analyze => "Reflects a shader and dumps its resources\n\n" ++
    "Usage: analyze [OPTIONS] --stage <STAGE> <SHADER>\n"
  | remap => "Remaps shader resource bindings to a pipeline layout\n\n" ++
    "Usage: remap [OPTIONS] --layout <LAYOUT> --stage <STAGE> <SHADER>\n"

/-- A macro from a text NAME=VALUE. Without a value it is 1. -/
def macroOfText (text : String) : Source.Macro :=
  let name := String.ofList (text.toList.takeWhile (· ≠ '='))
  match text.toList.dropWhile (· ≠ '=') with
  | _ :: definition => ⟨name, String.ofList definition⟩
  | [] => ⟨name, "1"⟩

namespace Given

/-- The value of an option that has to be given. -/
def require (g : Given) (long : String) : Except Refusal String :=
  match g.value? long with
  | some value => .ok value
  | none => .error (.fault (.missingOption long))

/-- A value that is given as a name. -/
def name {α : Type} (parse : String → Except UnknownName α) (long value : String) :
    Except Refusal α :=
  match parse value with
  | .ok a => .ok a
  | .error _ => .error (.fault (.refusedValue long value))

/-- A value that is given as a name, or a default. -/
def nameOr {α : Type} (g : Given) (parse : String → Except UnknownName α) (long : String)
    (default : α) : Except Refusal α :=
  match g.value? long with
  | some value => name parse long value
  | none => .ok default

/-- What is said of the shader. -/
def shaderArguments (g : Given) : Except Refusal ShaderArguments := do
  let path ← match g.operand with
    | some path => .ok path
    | none => .error (.fault .missingOperand)
  let stage ← name Stage.parse "stage" (← g.require "stage")
  let language ← g.nameOr Language.parse "language" .wgsl
  let device ← g.nameOr Device.parse "device" .webGpu
  return {
    path, stage, language, device
    entryPoint := g.value? "entry-point"
    macros := (g.values "define").map macroOfText
    arraySuffix := g.value? "array-suffix" }

end Given

/-- The command that arguments stand for. -/
def Program.command (p : Program) (arguments : List String) : Except Refusal Command := do
  let g ← parse p.options arguments
  let shader ← g.shaderArguments
  match p with
  | analyze =>
    return .analyze shader (g.values "include-dir") (g.value? "combined-sampler-suffix")
      (g.has "buffer-layout") (g.has "json")
  | remap =>
    let layout ← g.require "layout"
    return .remap shader layout (g.has "verify-only") (g.has "warn") (g.value? "output")

end ShaderBind.Cli
