import ShaderBind.Layout.Mapping
import ShaderBind.Resource.List

/-!
# Binding tables

The table of a pipeline lists what its stages bind, each entry of the layout once
(`BindingTable.build`), in the order in which the stages meet them and with all the stages that use
it. On WebGPU an entry also carries what a bind group layout needs (`BindingType.ofResource`).
-/

namespace ShaderBind

/-- What WebGPU tells apart among bindings beyond their category. -/
inductive BindingType
  | unrefined
  | filteringSampler
  | nonFilteringSampler
  | comparisonSampler
  | floatTexture
  | floatTextureMs
  | unfilterableFloatTexture
  | unfilterableFloatTextureMs
  | sintTexture
  | sintTextureMs
  | uintTexture
  | uintTextureMs
  | depthTexture
  | depthTextureMs
  | writeOnlyTexture
  | readOnlyTexture
  | readWriteTexture
  deriving DecidableEq, Repr, Inhabited

namespace BindingType

/-- Every binding type. -/
def all : List BindingType :=
  [unrefined, filteringSampler, nonFilteringSampler, comparisonSampler, floatTexture,
   floatTextureMs, unfilterableFloatTexture, unfilterableFloatTextureMs, sintTexture,
   sintTextureMs, uintTexture, uintTextureMs, depthTexture, depthTextureMs, writeOnlyTexture,
   readOnlyTexture, readWriteTexture]

/-- Name of the binding type. -/
def name : BindingType → String
  | unrefined => "Default"
  | filteringSampler => "FilteringSampler"
  | nonFilteringSampler => "NonFilteringSampler"
  | comparisonSampler => "ComparisonSampler"
  | floatTexture => "FloatTexture"
  | floatTextureMs => "FloatTextureMs"
  | unfilterableFloatTexture => "UnfilterableFloatTexture"
  | unfilterableFloatTextureMs => "UnfilterableFloatTextureMs"
  | sintTexture => "SIntTexture"
  | sintTextureMs => "SIntTextureMs"
  | uintTexture => "UIntTexture"
  | uintTextureMs => "UIntTextureMs"
  | depthTexture => "DepthTexture"
  | depthTextureMs => "DepthTextureMs"
  | writeOnlyTexture => "WriteOnlyTextureUav"
  | readOnlyTexture => "ReadOnlyTextureUav"
  | readWriteTexture => "ReadWriteTextureUav"

/-- The binding type with the given name. -/
def ofName? (s : String) : Option BindingType :=
  all.find? fun t => t.name = s

/-- The type of a sampled texture, by its samples. -/
def ofSamples (sampleType : SampleType) (unfilterable multisampled : Bool) : BindingType :=
  match sampleType with
  | .float =>
    if unfilterable then
      if multisampled then unfilterableFloatTextureMs else unfilterableFloatTexture
    else if multisampled then floatTextureMs else floatTexture
  | .unfilterableFloat =>
    if multisampled then unfilterableFloatTextureMs else unfilterableFloatTexture
  | .sint => if multisampled then sintTextureMs else sintTexture
  | .uint => if multisampled then uintTextureMs else uintTexture
  | .depth => if multisampled then depthTextureMs else depthTexture
  | .unknown => unrefined

/-- The binding type of a resource under the flags of its entry. -/
def ofResource (r : Resource) (flags : LayoutFlags) : BindingType :=
  match r.category with
  | .sampler => if flags.nonFilteringSampler then nonFilteringSampler else filteringSampler
  | .comparisonSampler => comparisonSampler
  | .sampledTexture => ofSamples r.sampleType flags.unfilterableFloatTexture false
  | .multisampledTexture => ofSamples r.sampleType flags.unfilterableFloatTexture true
  | .depthTexture => depthTexture
  | .depthTextureMultisampled => depthTextureMs
  | .writeOnlyStorageTexture => writeOnlyTexture
  | .readOnlyStorageTexture => readOnlyTexture
  | .readWriteStorageTexture => readWriteTexture
  | _ => unrefined

end BindingType

/-- What an entry carries for the interface of a device. -/
inductive Backend
  | webGpu (bindingType : BindingType) (viewDimension : Option Dimension)
      (texelFormat : Option TexelFormat)
  | vulkan
  | gl
  | metal
  deriving DecidableEq, Repr

/-- The part of an entry for a device. Only textures have a view dimension, and only storage
textures a texel format. -/
def Backend.ofResource (device : Device) (r : Resource) (flags : LayoutFlags) : Backend :=
  match device with
  | .webGpu =>
    let storage := r.category.group == .storageTexture
    .webGpu (.ofResource r flags)
      (if storage || r.category.group == .texture then some r.dimension else none)
      (if storage then some r.format else none)
  | .vulkan => .vulkan
  | .openGl => .gl
  | .openGles => .gl
  | .metal => .metal

/-- An entry of a binding table. -/
structure TableEntry where
  /-- The name in the layout. -/
  name : String
  stages : StageSet
  category : Category
  arraySize : UInt32
  place : Coord
  flags : LayoutFlags
  backend : Backend
  deriving DecidableEq, Repr

/-- The bindings of a pipeline. -/
abbrev BindingTable := List TableEntry

namespace BindingTable

/-- The entry of a resource that a stage uses. -/
def entryFor (device : Device) (stage : Stage) (r : Resource) (resolved : Mapping.Resolved) :
    TableEntry where
  name := resolved.key
  stages := .single stage
  category := r.category
  arraySize := resolved.entry.arraySize
  place := ⟨resolved.entry.group, resolved.entry.binding⟩
  flags := resolved.entry.flags
  backend := .ofResource device r resolved.entry.flags

/-- Adds an entry; one of the same name only gains the stages. -/
def add (new : TableEntry) : BindingTable → BindingTable
  | [] => [new]
  | e :: es =>
    if e.name = new.name then { e with stages := e.stages.union new.stages } :: es
    else e :: add new es

/-- Adds the resources of a stage. An entry of the layout that excludes the stage is refused. -/
def addStage (mapping : Mapping) (device : Device) (l : ResourceList) :
    BindingTable → List Resource → Except ShaderError BindingTable
  | table, [] => .ok table
  | table, r :: rs => do
    let resolved ← mapping.resolve l.shader r.name r.altName l.arraySuffix
    if resolved.entry.stages.mem l.stage then
      addStage mapping device l (add (entryFor device l.stage r resolved) table) rs
    else throw (.layout (.excludedStage resolved.key l.stage l.shader))

/-- The table of a pipeline's stages. -/
def build (mapping : Mapping) (device : Device) (stages : List ResourceList) :
    Except ShaderError BindingTable :=
  stages.foldlM (fun table l => addStage mapping device l table l.resources) []

end BindingTable

end ShaderBind
