import ShaderBind.Resource.Category
import ShaderBind.Text.Class

/-!
# Formats of storage images

The formats that a storage image may have (`StorageFormat`). A resource tells only some of them apart;
the others are one format to it (`StorageFormat.texel`).
-/

namespace ShaderBind

/-- The format of a storage image. -/
inductive StorageFormat
  | r8Unorm
  | r8Snorm
  | r8Uint
  | r8Sint
  | r16Unorm
  | r16Snorm
  | r16Uint
  | r16Sint
  | r16Float
  | rg8Unorm
  | rg8Snorm
  | rg8Uint
  | rg8Sint
  | r32Uint
  | r32Sint
  | r32Float
  | rg16Unorm
  | rg16Snorm
  | rg16Uint
  | rg16Sint
  | rg16Float
  | rgba8Unorm
  | rgba8Snorm
  | rgba8Uint
  | rgba8Sint
  | bgra8Unorm
  | rgb10a2Uint
  | rgb10a2Unorm
  | rg11b10Ufloat
  | r64Uint
  | rg32Uint
  | rg32Sint
  | rg32Float
  | rgba16Unorm
  | rgba16Snorm
  | rgba16Uint
  | rgba16Sint
  | rgba16Float
  | rgba32Uint
  | rgba32Sint
  | rgba32Float
  deriving DecidableEq, Repr, Inhabited

namespace StorageFormat

/-- Every format. -/
def all : List StorageFormat :=
  [r8Unorm, r8Snorm, r8Uint, r8Sint, r16Unorm, r16Snorm, r16Uint, r16Sint, r16Float, rg8Unorm,
   rg8Snorm, rg8Uint, rg8Sint, r32Uint, r32Sint, r32Float, rg16Unorm, rg16Snorm, rg16Uint,
   rg16Sint, rg16Float, rgba8Unorm, rgba8Snorm, rgba8Uint, rgba8Sint, bgra8Unorm, rgb10a2Uint,
   rgb10a2Unorm, rg11b10Ufloat, r64Uint, rg32Uint, rg32Sint, rg32Float, rgba16Unorm, rgba16Snorm,
   rgba16Uint, rgba16Sint, rgba16Float, rgba32Uint, rgba32Sint, rgba32Float]

/-- Name of the format. -/
def name : StorageFormat → String
  | r8Unorm => "R8Unorm"
  | r8Snorm => "R8Snorm"
  | r8Uint => "R8Uint"
  | r8Sint => "R8Sint"
  | r16Unorm => "R16Unorm"
  | r16Snorm => "R16Snorm"
  | r16Uint => "R16Uint"
  | r16Sint => "R16Sint"
  | r16Float => "R16Float"
  | rg8Unorm => "Rg8Unorm"
  | rg8Snorm => "Rg8Snorm"
  | rg8Uint => "Rg8Uint"
  | rg8Sint => "Rg8Sint"
  | r32Uint => "R32Uint"
  | r32Sint => "R32Sint"
  | r32Float => "R32Float"
  | rg16Unorm => "Rg16Unorm"
  | rg16Snorm => "Rg16Snorm"
  | rg16Uint => "Rg16Uint"
  | rg16Sint => "Rg16Sint"
  | rg16Float => "Rg16Float"
  | rgba8Unorm => "Rgba8Unorm"
  | rgba8Snorm => "Rgba8Snorm"
  | rgba8Uint => "Rgba8Uint"
  | rgba8Sint => "Rgba8Sint"
  | bgra8Unorm => "Bgra8Unorm"
  | rgb10a2Uint => "Rgb10a2Uint"
  | rgb10a2Unorm => "Rgb10a2Unorm"
  | rg11b10Ufloat => "Rg11b10Ufloat"
  | r64Uint => "R64Uint"
  | rg32Uint => "Rg32Uint"
  | rg32Sint => "Rg32Sint"
  | rg32Float => "Rg32Float"
  | rgba16Unorm => "Rgba16Unorm"
  | rgba16Snorm => "Rgba16Snorm"
  | rgba16Uint => "Rgba16Uint"
  | rgba16Sint => "Rgba16Sint"
  | rgba16Float => "Rgba16Float"
  | rgba32Uint => "Rgba32Uint"
  | rgba32Sint => "Rgba32Sint"
  | rgba32Float => "Rgba32Float"

/-- The format with the given name. -/
def ofName? (s : String) : Option StorageFormat :=
  all.find? fun f => f.name = s

/-- The word for the format in a shader. -/
def word (f : StorageFormat) : String :=
  if f = rg11b10Ufloat then "rg11b10float" else Text.toLower f.name

/-- The format that a word of a shader means. -/
def ofWord? (s : String) : Option StorageFormat :=
  all.find? fun f => f.word = s

/-- The format of a resource with such texels. -/
def texel : StorageFormat → TexelFormat
  | r8Unorm => .r8Unorm
  | rgba8Unorm => .rgba8Unorm
  | rgba8Snorm => .rgba8Snorm
  | rgba8Uint => .rgba8Uint
  | rgba8Sint => .rgba8Sint
  | bgra8Unorm => .bgra8Unorm
  | rgba16Uint => .rgba16Uint
  | rgba16Sint => .rgba16Sint
  | rgba16Float => .rgba16Float
  | r32Uint => .r32Uint
  | r32Sint => .r32Sint
  | r32Float => .r32Float
  | rg32Uint => .rg32Uint
  | rg32Sint => .rg32Sint
  | rg32Float => .rg32Float
  | rgba32Uint => .rgba32Uint
  | rgba32Sint => .rgba32Sint
  | rgba32Float => .rgba32Float
  | _ => .unknown

/-- How texels of the format are read. -/
def sampleType : StorageFormat → SampleType
  | r8Uint => .uint
  | r16Uint => .uint
  | rg8Uint => .uint
  | r32Uint => .uint
  | rg16Uint => .uint
  | rgba8Uint => .uint
  | rgb10a2Uint => .uint
  | r64Uint => .uint
  | rg32Uint => .uint
  | rgba16Uint => .uint
  | rgba32Uint => .uint
  | r8Sint => .sint
  | r16Sint => .sint
  | rg8Sint => .sint
  | r32Sint => .sint
  | rg16Sint => .sint
  | rgba8Sint => .sint
  | rg32Sint => .sint
  | rgba16Sint => .sint
  | rgba32Sint => .sint
  | _ => .float

end StorageFormat

end ShaderBind
