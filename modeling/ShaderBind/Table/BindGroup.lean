import ShaderBind.Table.Binding

/-!
# Bind group layouts

A binding table for WebGPU as the layouts of bind groups (`BindGroup.ofTable`): one group for every
number up to the highest in use, its entries by binding. Every entry is read by itself
(`BindGroupEntry.ofTableEntry`) and goes to the group of its number (`Gathered.take`), where no two
may share a binding.
-/

namespace ShaderBind

/-- Why a binding table has no bind group layout. -/
inductive BindGroupError
  | notWebGpu (name : String)
  | unsupportedResource (name : String) (category : Category)
  | unsupportedStages (name : String)
  | unsupportedDimension (name : String) (dimension : Dimension)
  | unsupportedFormat (name : String) (format : TexelFormat)
  | duplicateBinding (first second : String) (place : Coord)
  deriving DecidableEq, Repr

namespace BindGroupError

/-- Name of the cause. -/
def name : BindGroupError → String
  | notWebGpu _ => "NotWebGpu"
  | unsupportedResource .. => "UnsupportedResource"
  | unsupportedStages _ => "UnsupportedStages"
  | unsupportedDimension .. => "UnsupportedDimension"
  | unsupportedFormat .. => "UnsupportedFormat"
  | duplicateBinding .. => "DuplicateBinding"

/-- Wording of the failure. -/
def message : BindGroupError → String
  | notWebGpu name => s!"resource '{name}' was not built for a WebGPU device"
  | unsupportedResource name category =>
    s!"resource '{name}' of category {category.name} has no wgpu binding type"
  | unsupportedStages name => s!"resource '{name}' is visible to stages wgpu cannot express"
  | unsupportedDimension name dimension =>
    s!"resource '{name}' has no wgpu view dimension for {dimension.title}"
  | unsupportedFormat name format =>
    s!"storage texture '{name}' has no wgpu format for {format.name}"
  | duplicateBinding first second place =>
    s!"resources '{first}' and '{second}' both use group {place.group} binding {place.binding}"

end BindGroupError

/-- How a buffer is bound. -/
inductive BufferUse
  | uniform
  | readOnlyStorage
  | storage
  deriving DecidableEq, Repr

/-- Name of the use. -/
def BufferUse.name : BufferUse → String
  | uniform => "Uniform"
  | readOnlyStorage => "ReadOnlyStorage"
  | storage => "Storage"

/-- How a sampler is bound. -/
inductive SamplerUse
  | filtering
  | nonFiltering
  | comparison
  deriving DecidableEq, Repr

/-- Name of the use. -/
def SamplerUse.name : SamplerUse → String
  | filtering => "Filtering"
  | nonFiltering => "NonFiltering"
  | comparison => "Comparison"

/-- Samples of a bound texture. -/
inductive TextureSamples
  | float
  | unfilterableFloat
  | sint
  | uint
  | depth
  deriving DecidableEq, Repr

/-- Name of the samples. -/
def TextureSamples.name : TextureSamples → String
  | float => "Float"
  | unfilterableFloat => "UnfilterableFloat"
  | sint => "Sint"
  | uint => "Uint"
  | depth => "Depth"

/-- Access to a storage texture. -/
inductive TextureAccess
  | writeOnly
  | readOnly
  | readWrite
  deriving DecidableEq, Repr

/-- Name of the access. -/
def TextureAccess.name : TextureAccess → String
  | writeOnly => "WriteOnly"
  | readOnly => "ReadOnly"
  | readWrite => "ReadWrite"

/-- Shape in which a texture is viewed. -/
inductive ViewDimension
  | d1
  | d2
  | d2Array
  | cube
  | cubeArray
  | d3
  deriving DecidableEq, Repr

namespace ViewDimension

/-- Name of the shape. -/
def name : ViewDimension → String
  | d1 => "D1"
  | d2 => "D2"
  | d2Array => "D2Array"
  | cube => "Cube"
  | cubeArray => "CubeArray"
  | d3 => "D3"

/-- The view of a dimension; two dimensions when none is given. -/
def ofDimension (resource : String) (d : Option Dimension) :
    Except BindGroupError ViewDimension :=
  match d.getD .tex2D with
  | .tex1D => .ok d1
  | .tex2D => .ok d2
  | .tex2DArray => .ok d2Array
  | .tex3D => .ok d3
  | .cube => .ok cube
  | .cubeArray => .ok cubeArray
  | other => .error (.unsupportedDimension resource other)

end ViewDimension

/-- What a bind group layout says about a binding. -/
inductive BoundType
  | buffer (use : BufferUse)
  | sampler (use : SamplerUse)
  | texture (samples : TextureSamples) (view : ViewDimension) (multisampled : Bool)
  | storageTexture (access : TextureAccess) (format : TexelFormat) (view : ViewDimension)
  deriving DecidableEq, Repr

/-- A stage that WebGPU knows. -/
inductive WebGpuStage
  | vertex
  | fragment
  | compute
  deriving DecidableEq, Repr

namespace WebGpuStage

/-- Name of the stage. -/
def name : WebGpuStage → String
  | vertex => "VERTEX"
  | fragment => "FRAGMENT"
  | compute => "COMPUTE"

/-- The stage a WebGPU stage runs as. -/
def stage : WebGpuStage → Stage
  | vertex => .vertex
  | fragment => .pixel
  | compute => .compute

/-- Every stage. -/
def all : List WebGpuStage := [vertex, fragment, compute]

end WebGpuStage

/-- An entry of a bind group layout. -/
structure BindGroupEntry where
  binding : UInt32
  visibility : List WebGpuStage
  /-- Length of an array of bindings. -/
  count : Option UInt32
  type : BoundType
  deriving DecidableEq, Repr

namespace BindGroupEntry

/-- The stages that see an entry, if WebGPU knows them all. -/
def visibility? (e : TableEntry) : Except BindGroupError (List WebGpuStage) :=
  if e.stages.subset (.ofList (WebGpuStage.all.map WebGpuStage.stage)) then
    .ok (WebGpuStage.all.filter fun s => e.stages.mem s.stage)
  else .error (.unsupportedStages e.name)

/-- A texel format that is known. -/
def format? (resource : String) (format : Option TexelFormat) :
    Except BindGroupError TexelFormat :=
  match format.getD .unknown with
  | .unknown => .error (.unsupportedFormat resource .unknown)
  | known => .ok known

/-- A texture of the given samples. -/
def texture (e : TableEntry) (view : Option Dimension) (samples : TextureSamples)
    (multisampled : Bool) : Except BindGroupError BoundType := do
  return .texture samples (← ViewDimension.ofDimension e.name view) multisampled

/-- A storage texture of the given access; its format is looked at before its dimension. -/
def storageTexture (e : TableEntry) (view : Option Dimension) (format : Option TexelFormat)
    (access : TextureAccess) : Except BindGroupError BoundType := do
  let format ← format? e.name format
  return .storageTexture access format (← ViewDimension.ofDimension e.name view)

/-- What a layout says about an entry. -/
def boundType (e : TableEntry) (bindingType : BindingType) (view : Option Dimension)
    (format : Option TexelFormat) : Except BindGroupError BoundType :=
  match bindingType with
  | .filteringSampler => .ok (.sampler .filtering)
  | .nonFilteringSampler => .ok (.sampler .nonFiltering)
  | .comparisonSampler => .ok (.sampler .comparison)
  | .floatTexture => texture e view .float false
  | .floatTextureMs => texture e view .float true
  | .unfilterableFloatTexture => texture e view .unfilterableFloat false
  | .unfilterableFloatTextureMs => texture e view .unfilterableFloat true
  | .sintTexture => texture e view .sint false
  | .sintTextureMs => texture e view .sint true
  | .uintTexture => texture e view .uint false
  | .uintTextureMs => texture e view .uint true
  | .depthTexture => texture e view .depth false
  | .depthTextureMs => texture e view .depth true
  | .writeOnlyTexture => storageTexture e view format .writeOnly
  | .readOnlyTexture => storageTexture e view format .readOnly
  | .readWriteTexture => storageTexture e view format .readWrite
  | .unrefined =>
    match e.category with
    | .uniformBuffer => .ok (.buffer .uniform)
    | .readOnlyStorageBuffer => .ok (.buffer .readOnlyStorage)
    | .readWriteStorageBuffer => .ok (.buffer .storage)
    | category => .error (.unsupportedResource e.name category)

/-- The layout entry of a table entry. -/
def ofTableEntry (e : TableEntry) : Except BindGroupError BindGroupEntry :=
  match e.backend with
  | .webGpu bindingType view format => do
    let type ← boundType e bindingType view format
    let visibility ← visibility? e
    return { binding := e.place.binding
             visibility
             count := if e.arraySize > 1 then some e.arraySize else none
             type }
  | _ => .error (.notWebGpu e.name)

end BindGroupEntry

/-- The layout of one bind group. -/
structure BindGroup where
  group : Nat
  entries : List BindGroupEntry
  deriving DecidableEq, Repr

namespace BindGroup

/-- What has been gathered from a table: the layout of every bind group, and beside it the bindings
that are taken in the group, with the names of their owners. -/
structure Gathered where
  groups : List BindGroup
  owners : List (List (UInt32 × String))
  deriving DecidableEq, Repr

namespace Gathered

/-- So many bind groups without entries. -/
def start (n : Nat) : Gathered where
  groups := (List.range n).map fun group => ⟨group, []⟩
  owners := List.replicate n []

/-- Takes an entry of a table into its group. A binding that has an owner there is refused before
the entry is read. -/
def take (g : Gathered) (e : TableEntry) : ExceptT BindGroupError (Except Crash) Gathered := do
  let i := e.place.group.toNat
  let owners ← ExceptT.lift (itemAt g.owners i)
  match owners.find? fun o => o.1 = e.place.binding with
  | some first => throw (.duplicateBinding first.2 e.name e.place)
  | none =>
    let group ← ExceptT.lift (itemAt g.groups i)
    let entry ← ExceptT.mk (pure (BindGroupEntry.ofTableEntry e))
    return { groups := g.groups.set i { group with entries := group.entries ++ [entry] }
             owners := g.owners.set i (owners ++ [(e.place.binding, e.name)]) }

end Gathered

/-- One more than the highest group in use, which has to be a word. -/
def groupCount (table : BindingTable) : Except Crash UInt32 :=
  table.foldlM (fun n e => return max n (← addWords e.place.group 1)) 0

/-- The group with its entries by binding. -/
def sorted (g : BindGroup) : BindGroup :=
  { g with entries := g.entries.mergeSort fun a b => decide (a.binding ≤ b.binding) }

/-- The bind groups of a table, those without entries included. The outer result is a crash. -/
def ofTable (table : BindingTable) : Except Crash (Except BindGroupError (List BindGroup)) := do
  let n ← groupCount table
  let gathered ← (table.foldlM Gathered.take (.start n.toNat)).run
  return gathered.map fun g => g.groups.map sorted

end BindGroup

end ShaderBind
