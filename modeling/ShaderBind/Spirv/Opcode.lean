import ShaderBind.Module.Basic
import ShaderBind.Spirv.Decoration

/-!
# Numbers of SPIR-V

The opcodes, decorations, storage classes and enumerants that a module of resources is made of.
-/

namespace ShaderBind.Spirv

/-! ## Opcodes -/

def opMemberName : Nat := 6
def opMemoryModel : Nat := 14
def opEntryPoint : Nat := 15
def opExecutionMode : Nat := 16
def opCapability : Nat := 17
def opTypeVoid : Nat := 19
def opTypeBool : Nat := 20
def opTypeInt : Nat := 21
def opTypeFloat : Nat := 22
def opTypeVector : Nat := 23
def opTypeMatrix : Nat := 24
def opTypeImage : Nat := 25
def opTypeSampler : Nat := 26
def opTypeArray : Nat := 28
def opTypeRuntimeArray : Nat := 29
def opTypeStruct : Nat := 30
def opTypePointer : Nat := 32
def opTypeFunction : Nat := 33
def opConstant : Nat := 43
def opFunctionEnd : Nat := 56
def opVariable : Nat := 59
def opAccessChain : Nat := 65
def opMemberDecorate : Nat := 72
def opLabel : Nat := 248
def opReturn : Nat := 253
def opTypeRayQuery : Nat := 4472
def opTypeAccelerationStructure : Nat := 5341
def opDecorateString : Nat := 5632

/-! ## Decorations -/

def decBlock : UInt32 := 2
def decColMajor : UInt32 := 5
def decArrayStride : UInt32 := 6
def decMatrixStride : UInt32 := 7
def decNonWritable : UInt32 := 24
def decNonReadable : UInt32 := 25
def decOffset : UInt32 := 35
def decUserType : UInt32 := 5636

/-- The user type of a sampler that compares. -/
def comparisonUserType : String := "samplercomparisonstate"

/-! ## Enumerants -/

/-- The storage class of an address space. -/
def storageClass : AddressSpace → UInt32
  | .handle => 0
  | .uniform => 2
  | .workgroup => 4
  | .priv => 6
  | .pushConstant => 9
  | .storage _ => 12

/-- The address space of a storage class. -/
def addressSpace? (access : StorageAccess) (c : UInt32) : Option AddressSpace :=
  if c = 0 then some .handle
  else if c = 2 then some .uniform
  else if c = 4 then some .workgroup
  else if c = 6 then some .priv
  else if c = 9 then some .pushConstant
  else if c = 12 then some (.storage access)
  else none

/-- The execution models that stages run as. -/
def executionModels : List (Stage × UInt32) :=
  [(.vertex, 0), (.hull, 1), (.domain, 2), (.geometry, 3), (.pixel, 4), (.compute, 5)]

/-- The execution model of a stage. -/
def executionModel (s : Stage) : UInt32 :=
  ((executionModels.find? fun m => m.1 = s).map Prod.snd).getD 5

/-- The stage of an execution model. -/
def stageOf? (model : UInt32) : Option Stage :=
  (executionModels.find? fun m => m.2 = model).map Prod.fst

/-- The dimensions of images. -/
def dimensions : List (ImageDimension × UInt32) :=
  [(.d1, 0), (.d2, 1), (.d3, 2), (.cube, 3)]

/-- The number of a dimension. -/
def dimensionCode (d : ImageDimension) : UInt32 :=
  ((dimensions.find? fun e => e.1 = d).map Prod.snd).getD 1

/-- The dimension with a number. -/
def dimensionOf? (code : UInt32) : Option ImageDimension :=
  (dimensions.find? fun e => e.2 = code).map Prod.fst

/-- The formats of storage images; one that is not listed has the number zero. -/
def imageFormats : List (StorageFormat × UInt32) :=
  [(.rgba32Float, 1), (.rgba16Float, 2), (.r32Float, 3), (.rgba8Unorm, 4), (.rgba8Snorm, 5),
   (.rg32Float, 6), (.rg16Float, 7), (.rg11b10Ufloat, 8), (.r16Float, 9), (.rgba16Unorm, 10),
   (.rgb10a2Unorm, 11), (.rg16Unorm, 12), (.rg8Unorm, 13), (.r16Unorm, 14), (.r8Unorm, 15),
   (.rgba16Snorm, 16), (.rg16Snorm, 17), (.rg8Snorm, 18), (.r16Snorm, 19), (.r8Snorm, 20),
   (.rgba32Sint, 21), (.rgba16Sint, 22), (.rgba8Sint, 23), (.r32Sint, 24), (.rg32Sint, 25),
   (.rg16Sint, 26), (.rg8Sint, 27), (.r16Sint, 28), (.r8Sint, 29), (.rgba32Uint, 30),
   (.rgba16Uint, 31), (.rgba8Uint, 32), (.r32Uint, 33), (.rgb10a2Uint, 34), (.rg32Uint, 35),
   (.rg16Uint, 36), (.rg8Uint, 37), (.r16Uint, 38), (.r8Uint, 39), (.r64Uint, 40)]

/-- The number of a format. -/
def formatCode (f : StorageFormat) : UInt32 :=
  ((imageFormats.find? fun e => e.1 = f).map Prod.snd).getD 0

/-- The format with a number. -/
def formatOf? (code : UInt32) : Option StorageFormat :=
  (imageFormats.find? fun e => e.2 = code).map Prod.fst

end ShaderBind.Spirv
