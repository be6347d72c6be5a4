import ShaderBind.Coord
import ShaderBind.Device
import ShaderBind.Stage

/-!
# Failures

Everything that can go wrong between a shader source and a remapped artifact, as causes
(`ShaderError`), with the wording of each in one place (`ShaderError.message`). A computation ends
either in such a failure or in a crash (`Stop`).
-/

namespace ShaderBind

/-- Name shown for a shader that has none. -/
def displayName : Option String → String
  | some name => if name.isEmpty then "<null>" else name
  | none => "<null>"

/-- The log of a compiler and the source it was given. -/
structure Diagnostics where
  log : String
  source : String
  deriving DecidableEq, Repr

/-- The log, its last line closed, followed by the source. -/
def Diagnostics.blob (d : Diagnostics) : String :=
  (if d.log.isEmpty || d.log.endsWith "\n" then d.log else d.log ++ "\n") ++ d.source

/-- What is wrong with an include directive. -/
inductive IncludeFault
  | unclosedComment
  | missingDelimiter
  | unclosedQuote
  | unclosedAngle
  deriving DecidableEq, Repr

/-- Wording of the fault. -/
def IncludeFault.message : IncludeFault → String
  | unclosedComment => "missing end comment."
  | missingDelimiter => "missing opening quote or angle bracket after the include directive."
  | unclosedQuote => "missing closing quote in the include directive."
  | unclosedAngle => "missing closing angle bracket in the include directive."

/-- A property in which two declarations of one resource may differ. -/
inductive Property
  | category
  | dimension
  | sampleType
  | format
  | arraySize
  deriving DecidableEq, Repr

/-- Name of the property. -/
def Property.title : Property → String
  | category => "resource category"
  | dimension => "dimension"
  | sampleType => "sample type"
  | format => "texel format"
  | arraySize => "array size"

/-- A request that the tools do not serve. -/
inductive Unsupported
  | sharedCoordinates (first second : String) (place : Coord)
  | repeatedElement (index : UInt32) (base : String)
  | notForGlsl (language : Language)
  | separateSamplers
  | reflectedByDriver
  | assignedByDriver
  | withoutReflection
  | byteCodeOn (device : Device)
  | metalDevice
  | sourceOn (language : Language) (device : Device)
  | frontEndStage (stage : Stage)
  deriving DecidableEq, Repr

/-- Wording of the refusal. -/
def Unsupported.message : Unsupported → String
  | sharedCoordinates first second place =>
    s!"resources '{first}' and '{second}' share group {place.group} binding {place.binding}"
  | repeatedElement index base => s!"array element {index} of '{base}' is declared twice"
  | notForGlsl language => s!"{language.title} sources cannot be compiled to GLSL"
  | separateSamplers => "Combined texture samplers are required to convert HLSL source to GLSL"
  | reflectedByDriver => "GLSL artifacts are reflected by the driver after linking"
  | assignedByDriver => "GLSL bindings are assigned by the driver; use verify-only remapping"
  | withoutReflection => "the shader was compiled without reflection and cannot be remapped"
  | byteCodeOn device => s!"SPIR-V byte code is not supported on {device.label} devices"
  | metalDevice => "Metal devices are not supported"
  | sourceOn language device =>
    s!"{language.title} sources are not supported on {device.label} devices"
  | frontEndStage stage => s!"{stage.title} shaders cannot be compiled by the GLSL front end"

/-- A global variable that is no resource the tools know. -/
inductive ResourceFault
  | zeroSizedArray
  | runtimeSizedArray
  | oddType (description : String)
  deriving DecidableEq, Repr

/-- Wording of the fault. -/
def ResourceFault.message : ResourceFault → String
  | zeroSizedArray => "zero-sized resource array"
  | runtimeSizedArray => "runtime-sized binding array"
  | oddType description => description

/-- What is wrong with a sequence of SPIR-V words. -/
inductive SpirvFault
  | invalidHeader
  | malformedInstruction (word : Nat)
  | noSetDecoration (id : UInt32) (set : UInt32)
  deriving DecidableEq, Repr

/-- Wording of the fault. -/
def SpirvFault.message : SpirvFault → String
  | invalidHeader => "invalid SPIR-V header"
  | malformedInstruction word => s!"malformed instruction at word {word}"
  | noSetDecoration id set =>
    s!"variable %{id} has no DescriptorSet decoration to move to set {set}"

/-- Why the bindings of an artifact could not be patched. -/
inductive PatchFault
  | spirv (fault : SpirvFault)
  | missingDeclaration (name : String) (place : Coord) (kind : String)
  deriving DecidableEq, Repr

/-- Wording of the fault. -/
def PatchFault.message : PatchFault → String
  | spirv fault => fault.message
  | missingDeclaration name place kind =>
    s!"declaration of '{name}' at group {place.group} binding {place.binding} not found in the {kind} artifact"

/-- What is wrong with a resource layout. -/
inductive LayoutFault
  | unreadable
  | zeroArraySize (name : String)
  | pastLastBinding (name : String) (binding arraySize : UInt32)
  | repeatedName (name : String)
  | excludedStage (name : String) (stage : Stage) (shader : String)
  deriving DecidableEq, Repr

/-- Wording of the fault. -/
def LayoutFault.message : LayoutFault → String
  | unreadable => "the layout file cannot be read"
  | zeroArraySize name => s!"resource '{name}' has an array size of 0"
  | pastLastBinding name binding arraySize =>
    s!"resource '{name}' at binding {binding} with {arraySize} elements runs past the last binding index"
  | repeatedName name => s!"resource '{name}' is declared more than once"
  | excludedStage name stage shader =>
    s!"resource '{name}' is used by the {stage.title} stage of shader '{shader}', which its layout entry excludes"

/-- The work that was going on when a crash was caught. -/
inductive Work
  | compilation
  | assembly
  | callback
  deriving DecidableEq, Repr

/-- Name of the work. -/
def Work.title : Work → String
  | compilation => "compilation"
  | assembly => "pipeline assembly"
  | callback => "completion callback"

/-- The causes for which a shader cannot be compiled, reflected or remapped. -/
inductive ShaderError
  | sourceConflict (shader : String)
  | noSourceStore (shader : String)
  | sourceNotFound (shader path : String)
  | malformedInclude (shader file : String) (line offset : Nat) (fault : IncludeFault)
  | includeDepth (shader path : String) (limit : Nat)
  | parse (shader : String) (diagnostics : Diagnostics)
  | generate (shader : String) (diagnostics : Diagnostics)
  | missingFrontEnd (shader : String) (language : Language)
  | unsupported (shader : String) (what : Unsupported)
  | noEntryPoints (shader : String)
  | ambiguousEntryPoint (shader : String)
  | entryPointNotFound (shader entryPoint : String)
  | unsupportedResource (shader resource : String) (fault : ResourceFault)
  | incompatibleResource (shader resource : String) (stageA stageB : Stage)
      (property : Property) (valueA valueB : String)
  | unresolvedResource (shader resource : String)
  | arrayIndexOutOfRange (shader resource array : String) (index arraySize : UInt32)
  | bindingMismatch (shader resource : String) (expected actual : Coord)
  | patch (shader : String) (fault : PatchFault)
  | layout (fault : LayoutFault)
  | notReady (shader : String)
  | crashed (shader : String) (task : Work) (crash : Crash)
  deriving DecidableEq, Repr

namespace ShaderError

/-- Wording of the failure. -/
def message : ShaderError → String
  | sourceConflict shader =>
    s!"Shader '{shader}': exactly one of the source, the file path or the byte code must be provided"
  | noSourceStore shader =>
    s!"Shader '{shader}': the source contains #include directives, but no input stream factory was provided"
  | sourceNotFound shader path =>
    s!"Failed to load shader source file '{path}' (shader '{shader}')"
  | malformedInclude shader file line offset fault =>
    s!"Shader '{shader}': {file}: [{line},{offset}]: {fault.message}"
  | includeDepth shader path limit =>
    s!"Shader '{shader}': include depth limit of {limit} exceeded while unrolling '{path}'"
  | parse shader diagnostics => s!"Failed to parse shader source '{shader}':\n{diagnostics.log}"
  | generate shader diagnostics => s!"Failed to translate shader '{shader}':\n{diagnostics.log}"
  | missingFrontEnd shader language =>
    s!"Shader '{shader}': no front end registered for source language {language.title}"
  | unsupported shader what => s!"Shader '{shader}': {what.message}"
  | noEntryPoints shader => s!"The program '{shader}' does not contain any entry points"
  | ambiguousEntryPoint shader =>
    s!"The program '{shader}' contains more than one entry point. Please specify the entry point name."
  | entryPointNotFound shader entryPoint =>
    s!"Entry point '{entryPoint}' is not found in shader '{shader}'"
  | unsupportedResource shader resource fault =>
    s!"Shader '{shader}': resource '{resource}' has unsupported type: {fault.message}"
  | incompatibleResource shader resource stageA stageB property valueA valueB =>
    s!"Shader '{shader}': resource '{resource}' is declared incompatibly in {stageA.title} and {stageB.title} stages: {property.title} differs ({valueA} vs {valueB})"
  | unresolvedResource shader resource =>
    s!"Shader '{shader}': resource '{resource}' is not found in the resource mapping"
  | arrayIndexOutOfRange shader resource array index arraySize =>
    s!"Shader '{shader}': array element '{resource}' index {index} is out of range of '{array}[{arraySize}]'"
  | bindingMismatch shader resource expected actual =>
    s!"Shader '{shader}': resource '{resource}' is bound at (group {actual.group}, binding {actual.binding}) but the layout requires (group {expected.group}, binding {expected.binding})"
  | patch shader fault => s!"Shader '{shader}': failed to rewrite bindings: {fault.message}"
  | layout fault => s!"Invalid resource layout: {fault.message}"
  | notReady shader => s!"Shader '{shader}' is not ready"
  | crashed shader task crash => s!"Shader '{shader}': {task.title} panicked: {crash.message}"

/-- The shader a failure is about; faults of a layout are about none. -/
def shader? : ShaderError → Option String
  | sourceConflict s => some s
  | noSourceStore s => some s
  | sourceNotFound s _ => some s
  | malformedInclude s .. => some s
  | includeDepth s .. => some s
  | parse s _ => some s
  | generate s _ => some s
  | missingFrontEnd s _ => some s
  | unsupported s _ => some s
  | noEntryPoints s => some s
  | ambiguousEntryPoint s => some s
  | entryPointNotFound s _ => some s
  | unsupportedResource s .. => some s
  | incompatibleResource s .. => some s
  | unresolvedResource s _ => some s
  | arrayIndexOutOfRange s .. => some s
  | bindingMismatch s .. => some s
  | patch s _ => some s
  | layout _ => none
  | notReady s => some s
  | crashed s .. => some s

/-- The diagnostics of a parse or a generation. -/
def diagnostics? : ShaderError → Option Diagnostics
  | parse _ d => some d
  | generate _ d => some d
  | _ => none

end ShaderError

/-- How a computation ends early: by a failure it reports, or by a crash. -/
inductive Stop
  | failed (error : ShaderError)
  | crashed (crash : Crash)
  deriving DecidableEq, Repr

/-- A crash of the checked arithmetic stops the computation. -/
def Stop.ofCrash {α : Type} : Except Crash α → Except Stop α
  | .ok a => .ok a
  | .error c => .error (.crashed c)

/-- A failure stops the computation. -/
def Stop.ofError {α : Type} : Except ShaderError α → Except Stop α
  | .ok a => .ok a
  | .error e => .error (.failed e)

/-- A crash that is caught becomes a failure of the shader it happened to. -/
def Stop.caught (shader : String) (task : Work) : Stop → ShaderError
  | .failed e => e
  | .crashed c => .crashed shader task c

end ShaderBind
