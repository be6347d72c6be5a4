import ShaderBind.Buffer.Load
import ShaderBind.Module.Basic
import ShaderBind.Resource.List
import ShaderBind.Text.Cut

/-!
# Reflection

The resources that an entry point of a module uses (`ShaderModule.reflect`). A variable becomes a
resource by its address space and its type (`Global.classify`); one that no resource has is
refused. For authors who did not write WGSL the names that a compiler changed are found again
(`Global.authorName?`): a compiler that writes WGSL appends an underscore to a name that ends in a
digit (`restoreName` takes it away), and one that declares several buffers of one struct names a
variable after the struct with a number (`alternativeName?` finds the struct's name again).
-/

namespace ShaderBind

/-! ## Names that compilers change -/

/-- The name of the struct that a buffer is named after: the variable's name is the struct's with
an underscore and digits. Structs that were copied for atomic access have a name that says so. -/
def alternativeName? (name type : String) : Option String :=
  let type := (Text.dropSuffix? "_atomic".toList type.toList).getD type.toList
  if type.isEmpty then none
  else
    match Text.dropPrefix? (type ++ ['_']) name.toList with
    | none => none
    | some digits =>
      if !digits.isEmpty && digits.all Text.isDigit then some (String.ofList type) else none

/-- The name without the underscore after its last digit. -/
def restoreName (name : String) : String :=
  match name.toList.reverse with
  | '_' :: d :: rest => if Text.isDigit d then String.ofList (d :: rest).reverse else name
  | _ => name

/-! ## Variables and modules -/

/-- What is asked of a reflection. -/
structure ReflectRequest where
  shader : String
  /-- The language the author wrote. -/
  language : Language
  stage : Option Stage := none
  entryPoint : Option String := none
  combinedSamplerSuffix : Option String := none
  loadBufferLayout : Bool := false
  deriving Repr

/-- The resources of an entry point. -/
structure Reflected where
  entryPoint : String
  stage : Stage
  resources : ResourceList
  deriving Repr

/-- Why a variable is no resource. -/
inductive VariableFault
  | runtimeSizedArray
  | oddType (type : ShaderType)

/-- The fault as a module with the given types tells it. -/
def VariableFault.inModule (types : List ShaderType) : VariableFault → ResourceFault
  | runtimeSizedArray => .runtimeSizedArray
  | oddType type => .oddType (type.describe types)

namespace Global

/-- The category of a storage buffer. -/
def bufferCategory (access : StorageAccess) : Category :=
  if access.store then .readWriteStorageBuffer else .readOnlyStorageBuffer

/-- The category of a storage texture. -/
def textureCategory (access : StorageAccess) : Category :=
  if !access.load then .writeOnlyStorageTexture
  else if !access.store then .readOnlyStorageTexture
  else .readWriteStorageTexture

/-- The resource of a texture. -/
def classifyImage (name : String) (place : Coord) (dimension : Dimension) : ImageClass → Resource
  | .sampled kind multi =>
    { Resource.ofCategory name (if multi then .multisampledTexture else .sampledTexture) place with
      dimension, sampleType := kind.sampleType }
  | .depth multi =>
    { Resource.ofCategory name (if multi then .depthTextureMultisampled else .depthTexture) place with
      dimension, sampleType := .depth }
  | .storage format access =>
    { Resource.ofCategory name (textureCategory access) place with
      dimension, sampleType := format.texel.sampleType, format := format.texel }

/-- The resource of a variable that is a handle. -/
def classifyHandle (name : String) (place : Coord) : ShaderType → Except VariableFault Resource
  | .basic _ (.image dimension arrayed imageClass) =>
    .ok (classifyImage name place (dimension.toDimension arrayed) imageClass)
  | .basic _ (.sampler comparison) =>
    .ok (.ofCategory name (if comparison then .comparisonSampler else .sampler) place)
  | .basic _ .accelerationStructure => .ok (.ofCategory name .accelerationStructure place)
  | type => .error (.oddType type)

/-- The type of what is bound, and how many of it. -/
def elementType : ShaderType → Except VariableFault (ShaderType × UInt32)
  | .bindingArray _ base (.constant n _) => .ok (base, n)
  | .bindingArray .. => .error .runtimeSizedArray
  | type => .ok (type, 1)

/-- The resource that a bound variable is. -/
def classify (g : Global) (name : String) (place : Coord) : Except VariableFault Resource := do
  let (type, arraySize) ← elementType g.type
  let resource ←
    match g.space with
    | .uniform => .ok { Resource.ofCategory name .uniformBuffer place with staticSize := type.size }
    | .storage access =>
      .ok { Resource.ofCategory name (bufferCategory access) place with stride := type.elementStride }
    | _ => classifyHandle name place type
  return { resource with arraySize }

/-- The name that the author gave a variable, where a compiler changed it. -/
def authorName? (name : String) (type : ShaderType) (category : Category) : Option String :=
  let restored := restoreName name
  let alternative :=
    if category.isBuffer then alternativeName? restored (restoreName (type.name?.getD "")) else none
  match alternative with
  | some alternative => some alternative
  | none => if restored ≠ name then some restored else none

/-- The resource of a bound variable in the reflection of a module with the given types. -/
def reflect (types : List ShaderType) (request : ReflectRequest) (g : Global) (place : Coord) :
    Noted Resource := do
  let name := g.name.getD ""
  let resource ←
    match g.classify name place with
    | .ok resource => pure resource
    | .error fault =>
      Noted.fail (.unsupportedResource request.shader name (fault.inModule types))
  let altName :=
    if request.language.isWgslLike then none else authorName? name g.type resource.category
  if resource.category = .externalTexture then
    Noted.warn
      s!"External textures are not currently supported (resource '{name}' in shader '{request.shader}')"
  let layout :=
    if request.loadBufferLayout ∧ resource.category = .uniformBuffer then
      some (Buffer.Layout.ofType request.language g.type)
    else none
  return { resource with altName, layout }

end Global

namespace ShaderModule

/-- The bound variables that an entry point uses, with their places. -/
def usedGlobals (m : ShaderModule) (e : EntryPoint) : List (Global × Coord) :=
  m.globals.zipIdx.filterMap fun (g, index) =>
    if g.space.isBound && e.uses.contains index then g.place.map fun place => (g, place) else none

/-- The resources of the entry point that a request means. -/
def reflect (m : ShaderModule) (request : ReflectRequest) : Noted Reflected := do
  let (e, _) ← m.entryPoint request.shader request.stage request.entryPoint
  let resources ← (m.usedGlobals e).mapM fun (g, place) => g.reflect m.types request place
  let list ← Noted.ofError (ResourceList.build request.shader e.stage request.language resources)
  return ⟨e.name, e.stage, list.withCombinedSamplerSuffix request.combinedSamplerSuffix⟩

end ShaderModule

end ShaderBind
