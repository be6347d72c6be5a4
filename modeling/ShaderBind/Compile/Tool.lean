import ShaderBind.Artifact
import ShaderBind.Module.Reflect
import ShaderBind.Source.Macro

/-!
# Compilers that work together

A compile goes through up to three tools: a front end that turns source text into SPIR-V, a back
end that turns SPIR-V into WGSL text, and a reflector that lists the resources of an artifact. WGSL
has a compiler of its own in place of a front end. For GL drivers a converter turns HLSL into GLSL.
Each of them is a function of a request, and may fail or crash.
-/

namespace ShaderBind

open Source (Macro)

/-- What is asked of a front end. -/
structure IrRequest where
  shader : String
  stage : Stage
  entryPoint : Option String := none
  /-- The text with its includes in place. -/
  source : String
  macros : List Macro := []
  /-- Whether the definitions of the stage and the macros go in front. -/
  preamble : Bool := true
  target : SpirvTarget := .vk100
  /-- Whether every resource gets a place of its own. -/
  assignBindings : Bool := true
  fileName : Option String := none
  deriving Repr

/-- What is asked of the compiler of WGSL. -/
structure WgslRequest where
  shader : String
  /-- The text without its marker. -/
  source : String
  target : SpirvTarget
  deriving Repr

/-- What is asked of a back end. -/
structure TextRequest where
  shader : String
  words : List UInt32
  /-- The language the author wrote. -/
  language : Language
  deriving Repr

/-- What is asked of a converter. -/
structure ConversionRequest where
  shader : String
  source : String
  entryPoint : String
  stage : Stage
  samplerSuffix : String
  useLocationQualifiers : Bool
  useRowMajorMatrices : Bool
  fileName : Option String
  deriving Repr

/-- Turns source text into SPIR-V words. -/
abbrev FrontEnd := IrRequest → Except Stop (List UInt32)

/-- Turns WGSL text into SPIR-V words. -/
abbrev WgslCompiler := WgslRequest → Except Stop (List UInt32)

/-- Turns SPIR-V words into WGSL text. -/
abbrev BackEnd := TextRequest → Except Stop String

/-- Lists the resources of an artifact. -/
abbrev Reflector := Artifact → ReflectRequest → Noted Reflected

/-- Turns HLSL into GLSL, or tells in its own words why not. -/
abbrev Converter := ConversionRequest → Except Crash (Except String String)

/-- A request that was put to a tool. -/
inductive Call
  | glslFrontEnd (request : IrRequest)
  | hlslFrontEnd (request : IrRequest)
  | backEnd (request : TextRequest)
  | reflector (artifact : Artifact) (request : ReflectRequest)
  | converter (request : ConversionRequest)
  deriving Repr

end ShaderBind
