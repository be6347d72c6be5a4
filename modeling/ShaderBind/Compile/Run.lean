import ShaderBind.Compile.Context
import ShaderBind.Resource.Merge
import ShaderBind.Source.Unroll
import ShaderBind.Table.Pipeline

/-!
# Compiles

One compile (`compile`): the source is loaded and its includes unrolled, it is turned into the
artifact that the device takes, and the resources of the artifact are listed. An artifact that was
made from SPIR-V is reflected on the SPIR-V. GL drivers report bindings themselves, so GLSL is not
reflected.
-/

namespace ShaderBind

/-- A source turned into an artifact. -/
structure Generated where
  artifact : Artifact
  /-- The SPIR-V that a text was made from. -/
  ir : Option (List UInt32) := none
  language : Language

namespace Compile

/-- The source of a shader with its includes in place. WGSL knows no line directives. -/
def unrolled (c : Context) (i : CompileInfo) (language : Language) (path : Option String)
    (raw : String) : Except Stop String :=
  Source.Unroller.unroll ⟨i.shader, c.store, !language.isWgslLike⟩ raw path

/-- Loads the source of a shader; files are read once. -/
def loadSource (c : Context) (i : CompileInfo) (language : Language) : Traced String :=
  match i.path with
  | some path => do
    let trace ← get
    let (text, sources) := trace.sources.getOrConvert path do
      let raw ← Stop.ofError (Source.readSource i.shader none (some path) c.store)
      unrolled c i language (some path) raw
    set { trace with sources }
    Traced.ofStop text
  | none => do
    let raw ← Traced.ofError (Source.readSource i.shader i.source none c.store)
    Traced.ofStop (unrolled c i language none raw)

/-- Asks the back end for a text. -/
def askBackEnd (c : Context) (request : TextRequest) : Traced String := do
  Traced.record (.called (.backEnd request))
  Traced.ofStop (c.backEnd request)

/-- Takes SPIR-V that the caller gives. -/
def generateByteCode (c : Context) (i : CompileInfo) (words : List UInt32) :
    Traced Generated :=
  if words.head? ≠ some Spirv.magic then
    Traced.fail (.parse i.shader ⟨SpirvFault.invalidHeader.message, ""⟩)
  else
    match c.device with
    | .vulkan => pure { artifact := .spirv words, language := i.language }
    | .webGpu => do
      let text ← askBackEnd c ⟨i.shader, words, i.language⟩
      return { artifact := .wgsl text, ir := some words, language := i.language }
    | device => Traced.fail (.unsupported i.shader (.byteCodeOn device))

/-- What is asked of a front end. Verbatim text gets no definitions. -/
def irRequest (c : Context) (i : CompileInfo) (source : String) (language : Language) : IrRequest :=
  let verbatim := language = .glslVerbatim
  { shader := i.shader
    stage := i.stage
    entryPoint := i.entryPoint
    source
    macros := if verbatim then [] else i.macros
    preamble := !verbatim
    target := c.target
    assignBindings := true
    fileName := i.path }

/-- Turns a source into SPIR-V by a front end, and into WGSL where the device takes that. -/
def generateByIr (c : Context) (i : CompileInfo) (language : Language)
    (frontEnd : IrRequest → Traced (List UInt32)) (source : String) : Traced Generated := do
  if language = .glslVerbatim && !i.macros.isEmpty then
    Traced.warn (Glsl.ignoredMacros i.shader)
  let words ← frontEnd (irRequest c i source language)
  if c.device = .webGpu then
    let text ← askBackEnd c ⟨i.shader, words, language⟩
    return { artifact := .wgsl text, ir := some words, language }
  else return { artifact := .spirv words, language }

/-- What a text for a GL driver is built from. -/
def glInfo (c : Context) (i : CompileInfo) (source : String) (language : Language) :
    Glsl.BuildInfo where
  shader := i.shader
  stage := i.stage
  language
  source
  fileName := i.path
  entryPoint := i.entryPoint.getD "main"
  macros := i.macros
  versions := i.versions
  extensions := i.glslExtensions
  device := c.device
  settings := c.gl
  flags := i.flags
  useCombinedSamplers := i.useCombinedSamplers
  combinedSamplerSuffix := i.samplerSuffix
  converter := c.converter

/-- Turns a source into GLSL for a driver. -/
def generateForGl (c : Context) (i : CompileInfo) (source : String) (language : Language) :
    Traced Generated :=
  match language with
  | .glsl | .glslVerbatim | .hlsl => do
    let text ← Glsl.build (glInfo c i source language)
    return { artifact := .glsl text, language }
  | other => Traced.fail (.unsupported i.shader (.sourceOn other c.device))

/-- Takes a WGSL source; where it is compiled, a marker at its end does not count. -/
def generateWgsl (c : Context) (i : CompileInfo) (source : String) : Traced Generated := do
  let language := match Source.languageOf source with
    | .unspecified => .wgsl
    | marked => marked
  if c.device = .webGpu then return { artifact := .wgsl source, language }
  else
    let words ← Traced.ofStop (c.wgslCompiler ⟨i.shader, Source.stripMarker source, c.target⟩)
    return { artifact := .spirv words, language }

/-- Turns a source into what the device takes. -/
def generateSource (c : Context) (i : CompileInfo) (source : String) (language : Language) :
    Traced Generated :=
  if c.device = .metal then Traced.fail (.unsupported i.shader .metalDevice)
  else if c.device.usesGlslText then generateForGl c i source language
  else
    match language with
    | .wgsl => generateWgsl c i source
    | .glsl | .glslVerbatim =>
      generateByIr c i language (fun request => do
        Traced.record (.called (.glslFrontEnd request))
        Traced.ofStop (c.glslFrontEnd request)) source
    | .hlsl =>
      match c.hlslFrontEnd with
      | none => Traced.fail (.missingFrontEnd i.shader .hlsl)
      | some frontEnd =>
        generateByIr c i language (fun request => do
          Traced.record (.called (.hlslFrontEnd request))
          Traced.ofStop (frontEnd request)) source
    | other => Traced.fail (.unsupported i.shader (.sourceOn other c.device))

/-- Turns what the caller gives into what the device takes. -/
def generate (c : Context) (i : CompileInfo) : Traced Generated :=
  match i.byteCode with
  | some words => generateByteCode c i words
  | none => do
    let language := c.resolveLanguage i.language
    let source ← loadSource c i language
    generateSource c i source language

/-- What is asked of the reflector. -/
def reflectRequest (i : CompileInfo) (language : Language) : ReflectRequest where
  shader := i.shader
  language
  stage := some i.stage
  entryPoint := i.entryPoint
  combinedSamplerSuffix := if i.useCombinedSamplers then some i.samplerSuffix else none
  loadBufferLayout := i.loadBufferLayout

/-- Lists the resources of what was generated; elements of arrays are put together on demand. -/
def reflect (c : Context) (i : CompileInfo) (t : Generated) : Traced (String × ResourceList) := do
  Traced.record (.entered .reflecting)
  let artifact := (t.ir.map Artifact.spirv).getD t.artifact
  let request := reflectRequest i t.language
  Traced.record (.called (.reflector artifact request))
  let reflected ← Traced.ofNoted (c.reflector artifact request)
  match ResourceList.usable i.arraySuffix with
  | some suffix =>
    let list ← Traced.ofError (reflected.resources.merge suffix)
    return (reflected.entryPoint, list)
  | none => return (reflected.entryPoint, reflected.resources)

/-- Whether the caller gives exactly one of a source, a path and byte code. -/
def hasOneSource (i : CompileInfo) : Bool :=
  [i.source.isSome, i.path.isSome, i.byteCode.isSome].count true == 1

/-- Whether the artifact is not reflected. -/
def skipsReflection (i : CompileInfo) : Artifact → Bool
  | .glsl _ => true
  | _ => i.flags.skipReflection

end Compile

open Compile in
/-- Compiles a shader. -/
def compile (c : Context) (i : CompileInfo) : Traced Compiled := do
  if !hasOneSource i then Traced.fail (.sourceConflict i.shader)
  Traced.record (.entered .generating)
  let t ← generate c i
  if skipsReflection i t.artifact then
    return { name := i.shader, stage := i.stage, entryPoint := i.entryPoint.getD "main"
             language := t.language, artifact := t.artifact, resources := none }
  else
    let (entryPoint, list) ← reflect c i t
    return { name := i.shader, stage := i.stage, entryPoint
             language := t.language, artifact := t.artifact, resources := some list }

end ShaderBind
