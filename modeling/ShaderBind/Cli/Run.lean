import ShaderBind.Cli.Command
import ShaderBind.Compile.Run
import ShaderBind.Json.Resource
import ShaderBind.Layout.File
import ShaderBind.Source.Tree

/-!
# Running a command

A command reads files and makes something to print or to save (`Command.run`). A failure is told on
one line that names the shader (`Failure.complaint`). `execute` runs a program over a tree of files
and says what is left: the exit code, what was printed and the tree.
-/

namespace ShaderBind.Cli

/-- Why a command fails. -/
inductive Failure
  | stopped (stop : Stop)
  | file (fault : Source.FileFault)
  | noFileName
  | noReflection (shader : String) (device : Device)
  deriving DecidableEq, Repr

/-- Wording of the failure. -/
def Failure.message : Failure → String
  | stopped (.failed e) => e.message
  | stopped (.crashed c) => c.message
  | file fault => fault.message
  | noFileName => "shader path has no file name"
  | noReflection shader device =>
    s!"shader '{shader}' carries no reflection on {device.label} devices"

/-- What a command makes. -/
inductive Product
  | text (content : String)
  /-- An artifact to save, or to print when no path is given. -/
  | artifact (content : Artifact) (path : Option String)
  deriving Repr

/-- A step that stops. -/
def orStop {α : Type} (r : Except Stop α) : Except Failure α :=
  match r with
  | .ok a => .ok a
  | .error s => .error (.stopped s)

/-- The name of a shader, after its file. -/
def ShaderArguments.name (a : ShaderArguments) : String :=
  match Source.fileName? a.path with
  | some file => Source.stem file
  | none => "shader"

/-- What is compiled, by the name of its file. -/
def ShaderArguments.info (a : ShaderArguments) : Except Failure CompileInfo :=
  match Source.fileName? a.path with
  | none => .error .noFileName
  | some file => .ok {
      name := some a.name
      stage := a.stage
      language := a.language
      entryPoint := a.entryPoint
      macros := a.macros
      path := some file
      arraySuffix := a.arraySuffix }

/-- Compiles a shader whose files are in search directories. -/
def compileFrom (read : Source.FileReader) (dirs : List String) (device : Device)
    (info : CompileInfo) : Except Failure Compiled :=
  let context : Context := { device, store := some (read.search dirs) }
  orStop (compile context info |>.run.run {}).1

namespace Command

/-- The directories that files of the shader are searched in: its own, then those that are
given. -/
def searchDirs : Command → List String
  | analyze shader dirs .. => Source.directoryOf shader.path :: dirs
  | remap shader .. => [Source.directoryOf shader.path]

/-- The report on the resources of a compiled shader. -/
def resourceReport (compiled : Compiled) (device : Device) (json : Bool) :
    Except Failure String :=
  match compiled.resources with
  | none => .error (.noReflection compiled.name device)
  | some resources => .ok (if json then resources.toJson.pretty else resources.report)

/-- Runs a command. -/
def run (read : Source.FileReader) (c : Command) : Except Failure Product :=
  match c with
  | analyze shader _ combinedSamplerSuffix bufferLayout json => do
    let info ← shader.info
    let compiled ← compileFrom read c.searchDirs shader.device
      { info with
        useCombinedSamplers := combinedSamplerSuffix.isSome
        combinedSamplerSuffix
        loadBufferLayout := bufferLayout }
    let report ← resourceReport compiled shader.device json
    return .text (report ++ "\n")
  | remap shader layout verifyOnly warn output => do
    let text ← match read layout with
      | .ok text => .ok text
      | .error fault => .error (.file fault)
    let mapping ← orStop (Stop.ofError (readLayout text))
    let info ← shader.info
    let compiled ← compileFrom read c.searchDirs shader.device info
    let options : RemapOptions := {
      mode := if verifyOnly then .verifyOnly else .patch
      severity := if warn then .warn else .error
      arraySuffix := shader.arraySuffix }
    let pipeline ← orStop
      (RemappedPipeline.build shader.name [compiled] ⟨mapping, options⟩ shader.device).outcome.1
    let artifact := match pipeline.stages with
      | stage :: _ => stage.artifact
      | [] => compiled.artifact
    return .artifact artifact output

/-- The line that tells a failure. -/
def complaint (c : Command) (f : Failure) : String :=
  let doing := match c with
    | analyze .. => "analyzing"
    | remap .. => "remapping"
  s!"Error {doing} shader '{c.shader.path}': {f.message}"

/-- Files that would let a command get past a failure if they were there. -/
def wanted (c : Command) : Failure → List String
  | .stopped (.failed (.sourceNotFound _ path)) => c.searchDirs.map fun dir => Source.join dir path
  | _ => []

end Command

/-- What is left of a run. -/
structure Finished where
  exit : Nat := 0
  output : String := ""
  errors : String := ""
  deriving DecidableEq, Repr, Inhabited

/-- Reading that ended early. A fault of the arguments has an exit code of its own. -/
def Refusal.finish (p : Program) : Refusal → Finished
  | .help => { output := p.help }
  | .fault f => { exit := 2, errors := s!"error: {f.message}\n\n{p.help}" }

/-- The exit code of a failure; a crash has its own. -/
def Failure.exit : Failure → Nat
  | stopped (.crashed _) => 101
  | _ => 1

/-- A failure of a command. -/
def Command.fail (c : Command) (f : Failure) : Finished :=
  { exit := f.exit, errors := c.complaint f ++ "\n" }

/-- Prints or saves what a command made. SPIR-V has no text, so it leaves an empty one. -/
def Product.deliver (tree : Source.FileTree) (cwd : Source.Location) :
    Product → Except Failure (String × Source.FileTree)
  | text content => .ok (content, tree)
  | artifact content none => .ok (content.text?.getD "", tree)
  | artifact content (some path) =>
    match tree.write cwd path (content.text?.getD "") with
    | .ok tree => .ok ("", tree)
    | .error fault => .error (.file fault)

/-- Runs a program in a directory of a tree of files. -/
def execute (tree : Source.FileTree) (cwd : Source.Location) (p : Program)
    (arguments : List String) : Finished × Source.FileTree :=
  match p.command arguments with
  | .error refusal => (refusal.finish p, tree)
  | .ok command =>
    match (command.run (tree.read cwd)).bind (Product.deliver tree cwd) with
    | .ok (output, tree) => ({ output }, tree)
    | .error failure => (command.fail failure, tree)

end ShaderBind.Cli
