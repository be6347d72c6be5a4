import ShaderBind.Compile.Tool
import ShaderBind.Source.Marker
import ShaderBind.Spirv.Assemble
import ShaderBind.Spirv.Disassemble
import ShaderBind.Wgsl.Lower
import ShaderBind.Wgsl.Print

/-!
# Built-in tools

The tools that a context has by itself: a reflector for WGSL texts and SPIR-V words, a back end that
prints SPIR-V as WGSL, and the compiler from WGSL to SPIR-V.
-/

namespace ShaderBind.BuiltIn

/-- What is said of a WGSL text that cannot be read. -/
def unreadableText : String := "the text is not WGSL"

/-- What is said of words that are no module. -/
def unreadableWords : String := "SPIR-V parse error: the words are not a module"

/-- The module of a WGSL text. -/
def ofWgsl (shader text : String) : Except ShaderError ShaderModule :=
  match Wgsl.toModule? text with
  | some m => .ok m
  | none => .error (.parse shader ⟨unreadableText, text⟩)

/-- The module of SPIR-V words. -/
def ofSpirv (shader : String) (words : List UInt32) : Except ShaderError ShaderModule :=
  match Spirv.disassemble? words with
  | some m => .ok m
  | none => .error (.parse shader ⟨unreadableWords, ""⟩)

/-- The language of a text: text that went through the compilers remembers in its marker what its
author wrote. -/
def languageOfText (language : Language) (text : String) : Language :=
  if language.isWgslLike then
    match Source.languageOf text with
    | .unspecified => language
    | marked => marked
  else language

/-- The reflector. -/
def reflector : Reflector := fun artifact request =>
  match artifact with
  | .wgsl text => do
    let m ← Noted.ofError (ofWgsl request.shader text)
    m.reflect { request with language := languageOfText request.language text }
  | .spirv words => do
    let m ← Noted.ofError (ofSpirv request.shader words)
    m.reflect request
  | .glsl _ => Noted.fail (.unsupported request.shader .reflectedByDriver)

/-- The back end; its text ends with the marker of the author's language. -/
def backEnd : BackEnd := fun request => do
  let m ← Stop.ofError (ofSpirv request.shader request.words)
  return Source.appendMarker (Wgsl.print m) request.language

/-- The compiler of WGSL. -/
def wgslCompiler : WgslCompiler := fun request => do
  let m ← Stop.ofError (ofWgsl request.shader request.source)
  return Spirv.assemble request.target m

end ShaderBind.BuiltIn
