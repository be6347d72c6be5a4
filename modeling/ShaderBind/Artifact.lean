import ShaderBind.Spirv.Instruction

/-!
# Artifacts

What a compile leaves for a device: WGSL text, SPIR-V words, or GLSL text for a driver.
-/

namespace ShaderBind

/-- The product of a compile. -/
inductive Artifact
  | wgsl (text : String)
  | spirv (words : List UInt32)
  | glsl (text : String)
  deriving DecidableEq, Repr

namespace Artifact

/-- Name of the form. -/
def kind : Artifact → String
  | wgsl _ => "WGSL"
  | spirv _ => "SPIR-V"
  | glsl _ => "GLSL"

/-- The text, of an artifact that is text. -/
def text? : Artifact → Option String
  | wgsl text => some text
  | spirv _ => none
  | glsl text => some text

/-- The words, of an artifact that is words. -/
def words? : Artifact → Option (List UInt32)
  | spirv words => some words
  | _ => none

/-- The bytes of a file with the artifact. -/
def toBytes : Artifact → List UInt8
  | wgsl text => text.toUTF8.toList
  | spirv words => Spirv.toBytes words
  | glsl text => text.toUTF8.toList

end Artifact

/-- The environment that SPIR-V is generated for. -/
inductive SpirvTarget
  | vk100
  | vk110
  | vk110Spirv14
  | vk120
  | gl
  | gles
  deriving DecidableEq, Repr, Inhabited

namespace SpirvTarget

/-- Every environment. -/
def all : List SpirvTarget := [vk100, vk110, vk110Spirv14, vk120, gl, gles]

/-- Name in data files. -/
def key : SpirvTarget → String
  | vk100 => "vk100"
  | vk110 => "vk110"
  | vk110Spirv14 => "vk110_spirv14"
  | vk120 => "vk120"
  | gl => "gl"
  | gles => "gles"

/-- The environment with the given key. -/
def ofKey? (s : String) : Option SpirvTarget :=
  all.find? fun t => t.key = s

/-- The version of SPIR-V that the environment takes. -/
def version : SpirvTarget → Nat × Nat
  | vk100 => (1, 0)
  | vk110 => (1, 3)
  | vk110Spirv14 => (1, 4)
  | vk120 => (1, 5)
  | gl => (1, 0)
  | gles => (1, 0)

/-- The version as it stands in the second word of a module. -/
def versionWord (t : SpirvTarget) : UInt32 :=
  UInt32.ofNat (t.version.1 * 65536 + t.version.2 * 256)

end SpirvTarget

end ShaderBind
