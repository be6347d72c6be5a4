import ShaderBind.Language

/-!
# Devices

The kinds of graphics device a shader is compiled for, language versions, and the flags of a
compile.
-/

namespace ShaderBind

/-- A kind of graphics device. -/
inductive Device
  | vulkan
  | webGpu
  | openGl
  | openGles
  | metal
  deriving DecidableEq, Repr, Inhabited

namespace Device

/-- Every kind of device. -/
def all : List Device := [vulkan, webGpu, openGl, openGles, metal]

/-- Name in messages. -/
def label : Device → String
  | vulkan => "Vulkan"
  | webGpu => "WebGpu"
  | openGl => "OpenGl"
  | openGles => "OpenGles"
  | metal => "Metal"

/-- Name in data files. -/
def key : Device → String
  | vulkan => "vulkan"
  | webGpu => "web_gpu"
  | openGl => "open_gl"
  | openGles => "open_gles"
  | metal => "metal"

/-- The device with the given key. -/
def ofKey? (s : String) : Option Device :=
  all.find? fun d => d.key = s

/-- Reads a device in any case of letters. -/
def parse (s : String) : Except UnknownName Device :=
  match Text.toLower s with
  | "vulkan" => .ok vulkan
  | "vk" => .ok vulkan
  | "webgpu" => .ok webGpu
  | "wgpu" => .ok webGpu
  | "gl" => .ok openGl
  | "opengl" => .ok openGl
  | "gles" => .ok openGles
  | "opengles" => .ok openGles
  | "metal" => .ok metal
  | "mtl" => .ok metal
  | _ => .error ⟨"device type", s⟩

/-- The device's driver takes GLSL text. -/
def usesGlslText (d : Device) : Bool :=
  d == openGl || d == openGles

end Device

/-- A language version such as 4.5; 0.0 stands for "not specified". -/
structure Version where
  major : Nat
  minor : Nat
  deriving DecidableEq, Repr

namespace Version

/-- The version that asks for nothing. -/
def unspecified : Version := ⟨0, 0⟩

instance : Inhabited Version := ⟨unspecified⟩

/-- Neither number is set. -/
def isUnspecified (v : Version) : Bool :=
  v == unspecified

/-- Versions are ordered by their major number, then by their minor number. -/
def le (v w : Version) : Bool :=
  v.major < w.major || (v.major == w.major && v.minor ≤ w.minor)

/-- The later of two versions. -/
def max (v w : Version) : Version :=
  if v.le w then w else v

/-- Both numbers with a point between them. -/
def render (v : Version) : String :=
  s!"{v.major}.{v.minor}"

end Version

/-- Flags of a compile. -/
structure CompileFlags where
  /-- Matrices in uniform buffers are packed by rows. -/
  packMatrixRowMajor : Bool := false
  /-- The artifact is produced without a resource list. -/
  skipReflection : Bool := false
  deriving DecidableEq, Repr, Inhabited

end ShaderBind
