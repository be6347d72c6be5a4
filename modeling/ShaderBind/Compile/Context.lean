import ShaderBind.Compile.BuiltIn
import ShaderBind.Glsl.Build
import ShaderBind.Glsl.FrontEnd
import ShaderBind.Source.Store

/-!
# What a compile works with

The settings and tools that all compiles on a device share (`Context`), and what a caller gives for
one shader (`CompileInfo`).
-/

namespace ShaderBind

/-- The device and the tools of compiles. -/
structure Context where
  device : Device
  target : SpirvTarget := .vk100
  store : Option Source.Store := none
  glslFrontEnd : FrontEnd := Glsl.frontEnd
  hlslFrontEnd : Option FrontEnd := none
  wgslCompiler : WgslCompiler := BuiltIn.wgslCompiler
  backEnd : BackEnd := BuiltIn.backEnd
  converter : Option Converter := none
  reflector : Reflector := BuiltIn.reflector
  gl : Glsl.Settings := {}

/-- The language that a source without one is written in. -/
def Context.resolveLanguage (c : Context) (language : Language) : Language :=
  match language with
  | .unspecified => if c.device = .webGpu then .wgsl else .hlsl
  | language => language

/-- What a caller gives for one shader. -/
structure CompileInfo where
  name : Option String := none
  stage : Stage := .pixel
  language : Language := .wgsl
  /-- The entry point to reflect. -/
  entryPoint : Option String := none
  macros : List Source.Macro := []
  source : Option String := none
  path : Option String := none
  byteCode : Option (List UInt32) := none
  flags : CompileFlags := {}
  useCombinedSamplers : Bool := false
  combinedSamplerSuffix : Option String := none
  /-- What stands between the name of an array and the index of an element. -/
  arraySuffix : Option String := none
  loadBufferLayout : Bool := false
  versions : Glsl.DialectVersions := {}
  glslExtensions : Option String := none
  deriving Repr

/-- The name of the shader in messages. -/
def CompileInfo.shader (i : CompileInfo) : String := displayName i.name

/-- What names the sampler of a texture. -/
def CompileInfo.samplerSuffix (i : CompileInfo) : String :=
  i.combinedSamplerSuffix.getD "_sampler"

end ShaderBind
