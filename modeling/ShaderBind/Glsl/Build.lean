import ShaderBind.Compile.Trace
import ShaderBind.Glsl.Header

/-!
# GLSL texts for drivers

The whole text that a GL driver compiles (`build`): a header and the body, which for HLSL comes from
a converter. Text that is to be taken verbatim stays as it is, without macros.
-/

namespace ShaderBind.Glsl

/-- What a text is built from. -/
structure BuildInfo where
  shader : String
  stage : Stage
  language : Language := .glsl
  /-- The body with its includes in place. -/
  source : String
  fileName : Option String := none
  entryPoint : String := "main"
  macros : List Source.Macro := []
  versions : DialectVersions := {}
  extensions : Option String := none
  device : Device
  settings : Settings := {}
  flags : CompileFlags := {}
  useCombinedSamplers : Bool := false
  combinedSamplerSuffix : String := "_sampler"
  converter : Option Converter := none

/-- The warning about macros of a verbatim text. -/
def ignoredMacros (shader : String) : String :=
  s!"Shader macros are ignored when compiling GLSL verbatim (shader '{shader}')"

/-- What is asked of the converter. -/
def BuildInfo.conversion (b : BuildInfo) : ConversionRequest where
  shader := b.shader
  source := b.source
  entryPoint := b.entryPoint
  stage := b.stage
  samplerSuffix := b.combinedSamplerSuffix
  useLocationQualifiers := b.settings.features.separablePrograms
  useRowMajorMatrices := b.flags.packMatrixRowMajor
  fileName := b.fileName

/-- The body converted from HLSL, whose textures and samplers have to be combined. -/
def convert (b : BuildInfo) : Traced String :=
  if !b.useCombinedSamplers then Traced.fail (.unsupported b.shader .separateSamplers)
  else
    match b.converter with
    | none => Traced.fail (.missingFrontEnd b.shader .hlsl)
    | some converter => do
      Traced.record (.called (.converter b.conversion))
      match ← Traced.ofStop (Stop.ofCrash (converter b.conversion)) with
      | .ok text => return text
      | .error log =>
        Traced.fail
          (.generate b.shader ⟨s!"Failed to convert HLSL source to GLSL: {log}", b.source⟩)

/-- A header, with the version chosen. -/
def buildHeader (b : BuildInfo) : Traced String := do
  let version ← Traced.ofNoted
    (chooseVersion b.versions b.settings.compiler b.device b.settings.mostVersions)
  return header
    { stage := b.stage
      device := b.device
      settings := b.settings
      extensions := b.extensions
      macros := b.macros } version

/-- The whole text. -/
def build (b : BuildInfo) : Traced String :=
  match b.language with
  | .glslVerbatim => do
    if !b.macros.isEmpty then
      Traced.warn (ignoredMacros b.shader)
    return b.source
  | .unspecified | .glsl => do
    let header ← buildHeader b
    return header ++ b.source
  | .hlsl => do
    let header ← buildHeader b
    let body ← convert b
    return header ++ body
  | language => Traced.fail (.unsupported b.shader (.notForGlsl language))

end ShaderBind.Glsl
