/-!
# Kinds of resources

What a shader can bind: the category of a resource, the group the category is listed in, the type
it is exposed as, and the shape of its data (dimension, sample type, texel format). Names come in
two forms, the name of the value (`name`) and, where it differs, the wording of messages (`title`).
-/

namespace ShaderBind

/-- Kind of a binding that a shader sees. -/
inductive Category
  | uniformBuffer
  | readOnlyStorageBuffer
  | readWriteStorageBuffer
  | sampler
  | comparisonSampler
  | sampledTexture
  | multisampledTexture
  | depthTexture
  | depthTextureMultisampled
  | writeOnlyStorageTexture
  | readOnlyStorageTexture
  | readWriteStorageTexture
  | externalTexture
  | atomicCounter
  | inputAttachment
  | accelerationStructure
  deriving DecidableEq, Repr, Inhabited

/-- The run of a resource list that a category belongs to. -/
inductive CategoryGroup
  | uniformBuffer
  | storageBuffer
  | texture
  | storageTexture
  | sampler
  | externalTexture
  | atomicCounter
  | inputAttachment
  | accelerationStructure
  deriving DecidableEq, Repr

/-- The type an engine exposes a resource as. -/
inductive ResourceType
  | constantBuffer
  | bufferSrv
  | bufferUav
  | textureSrv
  | textureUav
  | sampler
  | accelStruct
  | inputAttachment
  | unknown
  deriving DecidableEq, Repr

namespace CategoryGroup

/-- Every group, in the order of a resource list. -/
def all : List CategoryGroup :=
  [uniformBuffer, storageBuffer, texture, storageTexture, sampler, externalTexture,
   atomicCounter, inputAttachment, accelerationStructure]

/-- Position of the group in a resource list. -/
def rank : CategoryGroup → Nat
  | uniformBuffer => 0
  | storageBuffer => 1
  | texture => 2
  | storageTexture => 3
  | sampler => 4
  | externalTexture => 5
  | atomicCounter => 6
  | inputAttachment => 7
  | accelerationStructure => 8

theorem rank_inj {g h : CategoryGroup} (e : g.rank = h.rank) : g = h := by
  cases g <;> cases h <;> first | rfl | cases e

/-- Name of the group. -/
def name : CategoryGroup → String
  | uniformBuffer => "UniformBuffer"
  | storageBuffer => "StorageBuffer"
  | texture => "Texture"
  | storageTexture => "StorageTexture"
  | sampler => "Sampler"
  | externalTexture => "ExternalTexture"
  | atomicCounter => "AtomicCounter"
  | inputAttachment => "InputAttachment"
  | accelerationStructure => "AccelerationStructure"

end CategoryGroup

/-- Name of the type. -/
def ResourceType.name : ResourceType → String
  | constantBuffer => "ConstantBuffer"
  | bufferSrv => "BufferSrv"
  | bufferUav => "BufferUav"
  | textureSrv => "TextureSrv"
  | textureUav => "TextureUav"
  | sampler => "Sampler"
  | accelStruct => "AccelStruct"
  | inputAttachment => "InputAttachment"
  | unknown => "Unknown"

namespace Category

/-- Every category. -/
def all : List Category :=
  [uniformBuffer, readOnlyStorageBuffer, readWriteStorageBuffer, sampler, comparisonSampler,
   sampledTexture, multisampledTexture, depthTexture, depthTextureMultisampled,
   writeOnlyStorageTexture, readOnlyStorageTexture, readWriteStorageTexture, externalTexture,
   atomicCounter, inputAttachment, accelerationStructure]

/-- Name of the category. -/
def name : Category → String
  | uniformBuffer => "UniformBuffer"
  | readOnlyStorageBuffer => "ReadOnlyStorageBuffer"
  | readWriteStorageBuffer => "ReadWriteStorageBuffer"
  | sampler => "Sampler"
  | comparisonSampler => "ComparisonSampler"
  | sampledTexture => "SampledTexture"
  | multisampledTexture => "MultisampledTexture"
  | depthTexture => "DepthTexture"
  | depthTextureMultisampled => "DepthTextureMultisampled"
  | writeOnlyStorageTexture => "WriteOnlyStorageTexture"
  | readOnlyStorageTexture => "ReadOnlyStorageTexture"
  | readWriteStorageTexture => "ReadWriteStorageTexture"
  | externalTexture => "ExternalTexture"
  | atomicCounter => "AtomicCounter"
  | inputAttachment => "InputAttachment"
  | accelerationStructure => "AccelerationStructure"

/-- The category with the given name. -/
def ofName? (s : String) : Option Category :=
  all.find? fun c => c.name = s

/-- Name in a resource report. -/
def shortName : Category → String
  | uniformBuffer => "UB"
  | readOnlyStorageBuffer => "RO SB"
  | readWriteStorageBuffer => "RW SB"
  | sampler => "Sampler"
  | comparisonSampler => "Cmp Sampler"
  | sampledTexture => "Tex"
  | multisampledTexture => "Tex MS"
  | depthTexture => "Depth Tex"
  | depthTextureMultisampled => "Depth Tex MS"
  | writeOnlyStorageTexture => "WO StTex"
  | readOnlyStorageTexture => "RO StTex"
  | readWriteStorageTexture => "RW StTex"
  | externalTexture => "Ext Tex"
  | atomicCounter => "Atomic Counter"
  | inputAttachment => "Input Attachment"
  | accelerationStructure => "Accel Struct"

/-- The group a category is listed in. -/
def group : Category → CategoryGroup
  | uniformBuffer => .uniformBuffer
  | readOnlyStorageBuffer => .storageBuffer
  | readWriteStorageBuffer => .storageBuffer
  | sampler => .sampler
  | comparisonSampler => .sampler
  | sampledTexture => .texture
  | multisampledTexture => .texture
  | depthTexture => .texture
  | depthTextureMultisampled => .texture
  | writeOnlyStorageTexture => .storageTexture
  | readOnlyStorageTexture => .storageTexture
  | readWriteStorageTexture => .storageTexture
  | externalTexture => .externalTexture
  | atomicCounter => .atomicCounter
  | inputAttachment => .inputAttachment
  | accelerationStructure => .accelerationStructure

/-- The type a category is exposed as. -/
def resourceType : Category → ResourceType
  | uniformBuffer => .constantBuffer
  | readOnlyStorageBuffer => .bufferSrv
  | readWriteStorageBuffer => .bufferUav
  | atomicCounter => .bufferUav
  | sampler => .sampler
  | comparisonSampler => .sampler
  | sampledTexture => .textureSrv
  | multisampledTexture => .textureSrv
  | depthTexture => .textureSrv
  | depthTextureMultisampled => .textureSrv
  | writeOnlyStorageTexture => .textureUav
  | readOnlyStorageTexture => .textureUav
  | readWriteStorageTexture => .textureUav
  | externalTexture => .unknown
  | inputAttachment => .inputAttachment
  | accelerationStructure => .accelStruct

/-- Uniform and storage buffers. -/
def isBuffer (c : Category) : Bool :=
  c.group == .uniformBuffer || c.group == .storageBuffer

/-- Textures with several samples a texel. -/
def isMultisampled (c : Category) : Bool :=
  c == multisampledTexture || c == depthTextureMultisampled

end Category

/-- Shape of a resource's data. -/
inductive Dimension
  | undefined
  | buffer
  | tex1D
  | tex1DArray
  | tex2D
  | tex2DArray
  | tex3D
  | cube
  | cubeArray
  deriving DecidableEq, Repr, Inhabited

namespace Dimension

/-- Every dimension. -/
def all : List Dimension :=
  [undefined, buffer, tex1D, tex1DArray, tex2D, tex2DArray, tex3D, cube, cubeArray]

/-- Name of the dimension. -/
def name : Dimension → String
  | undefined => "Undefined"
  | buffer => "Buffer"
  | tex1D => "Tex1D"
  | tex1DArray => "Tex1DArray"
  | tex2D => "Tex2D"
  | tex2DArray => "Tex2DArray"
  | tex3D => "Tex3D"
  | cube => "Cube"
  | cubeArray => "CubeArray"

/-- The dimension with the given name. -/
def ofName? (s : String) : Option Dimension :=
  all.find? fun d => d.name = s

/-- Wording in messages. -/
def title : Dimension → String
  | undefined => "undefined"
  | buffer => "buffer"
  | tex1D => "1D"
  | tex1DArray => "1D array"
  | tex2D => "2D"
  | tex2DArray => "2D array"
  | tex3D => "3D"
  | cube => "cube"
  | cubeArray => "cube array"

end Dimension

/-- How the components of a texel are read. -/
inductive SampleType
  | unknown
  | float
  | unfilterableFloat
  | uint
  | sint
  | depth
  deriving DecidableEq, Repr, Inhabited

namespace SampleType

/-- Every sample type. -/
def all : List SampleType := [unknown, float, unfilterableFloat, uint, sint, depth]

/-- Name of the sample type. -/
def name : SampleType → String
  | unknown => "Unknown"
  | float => "Float"
  | unfilterableFloat => "UnfilterableFloat"
  | uint => "UInt"
  | sint => "SInt"
  | depth => "Depth"

/-- The sample type with the given name. -/
def ofName? (s : String) : Option SampleType :=
  all.find? fun t => t.name = s

end SampleType

/-- Format of the texels of a storage texture. -/
inductive TexelFormat
  | unknown
  | r8Unorm
  | rgba8Unorm
  | rgba8Snorm
  | rgba8Uint
  | rgba8Sint
  | bgra8Unorm
  | rgba16Uint
  | rgba16Sint
  | rgba16Float
  | r32Uint
  | r32Sint
  | r32Float
  | rg32Uint
  | rg32Sint
  | rg32Float
  | rgba32Uint
  | rgba32Sint
  | rgba32Float
  deriving DecidableEq, Repr, Inhabited

namespace TexelFormat

/-- Every format. -/
def all : List TexelFormat :=
  [unknown, r8Unorm, rgba8Unorm, rgba8Snorm, rgba8Uint, rgba8Sint, bgra8Unorm, rgba16Uint,
   rgba16Sint, rgba16Float, r32Uint, r32Sint, r32Float, rg32Uint, rg32Sint, rg32Float,
   rgba32Uint, rgba32Sint, rgba32Float]

/-- Name of the format. -/
def name : TexelFormat → String
  | unknown => "Unknown"
  | r8Unorm => "R8Unorm"
  | rgba8Unorm => "Rgba8Unorm"
  | rgba8Snorm => "Rgba8Snorm"
  | rgba8Uint => "Rgba8Uint"
  | rgba8Sint => "Rgba8Sint"
  | bgra8Unorm => "Bgra8Unorm"
  | rgba16Uint => "Rgba16Uint"
  | rgba16Sint => "Rgba16Sint"
  | rgba16Float => "Rgba16Float"
  | r32Uint => "R32Uint"
  | r32Sint => "R32Sint"
  | r32Float => "R32Float"
  | rg32Uint => "Rg32Uint"
  | rg32Sint => "Rg32Sint"
  | rg32Float => "Rg32Float"
  | rgba32Uint => "Rgba32Uint"
  | rgba32Sint => "Rgba32Sint"
  | rgba32Float => "Rgba32Float"

/-- The format with the given name. -/
def ofName? (s : String) : Option TexelFormat :=
  all.find? fun f => f.name = s

/-- The sample type that a format implies. -/
def sampleType : TexelFormat → SampleType
  | unknown => .unknown
  | rgba8Uint => .uint
  | rgba16Uint => .uint
  | r32Uint => .uint
  | rg32Uint => .uint
  | rgba32Uint => .uint
  | rgba8Sint => .sint
  | rgba16Sint => .sint
  | r32Sint => .sint
  | rg32Sint => .sint
  | rgba32Sint => .sint
  | _ => .float

end TexelFormat

end ShaderBind
