import ShaderBind.Buffer.Layout
import ShaderBind.Coord
import ShaderBind.Error
import ShaderBind.Resource.Category

/-!
# Resources

A resource as a pipeline layout sees it: its names, its kind, its place, and, for an array that a
shader declares as separate variables, the elements it was put together from. `declarations` lists
the variables behind a resource, `difference?` finds the first property in which two resources
differ.
-/

namespace ShaderBind

/-- One separately declared element of an array. -/
structure Element where
  name : String
  index : UInt32
  place : Coord
  deriving DecidableEq, Repr

/-- A variable of a shader and the place it is bound at. -/
structure Declaration where
  name : String
  place : Coord
  deriving DecidableEq, Repr

/-- A resource of a shader. -/
structure Resource where
  /-- The name in the shader's text. -/
  name : String
  /-- The name the author gave, when the compiler changed it. -/
  altName : Option String := none
  category : Category
  arraySize : UInt32 := 1
  dimension : Dimension := .undefined
  sampleType : SampleType := .unknown
  /-- Only storage textures have a format. -/
  format : TexelFormat := .unknown
  place : Coord
  /-- Bytes of a uniform buffer. -/
  staticSize : Nat := 0
  /-- Bytes between the elements of a storage buffer. -/
  stride : Nat := 0
  layout : Option Buffer.Layout := none
  /-- The elements of an array declared piece by piece; none otherwise. -/
  elements : List Element := []
  deriving Repr

namespace Resource

/-- A resource of a category at a place; buffers have the dimension of buffers. -/
def ofCategory (name : String) (category : Category) (place : Coord) : Resource :=
  { name, category, place, dimension := if category.isBuffer then .buffer else .undefined }

/-- The name by which resources are grouped and looked up: the author's, when it is known. -/
def semanticName (r : Resource) : String :=
  r.altName.getD r.name

/-- The variables behind the resource. -/
def declarations (r : Resource) : List Declaration :=
  if r.elements.isEmpty then [⟨r.name, r.place⟩]
  else r.elements.map fun e => ⟨e.name, e.place⟩

/-- The first property in which two resources differ, and its two values. Array sizes are compared
on demand only. -/
def difference? (r s : Resource) (compareArraySize : Bool) :
    Option (Property × String × String) :=
  if r.category ≠ s.category then some (.category, r.category.name, s.category.name)
  else if r.dimension ≠ s.dimension then some (.dimension, r.dimension.title, s.dimension.title)
  else if r.sampleType ≠ s.sampleType then some (.sampleType, r.sampleType.name, s.sampleType.name)
  else if r.format ≠ s.format then some (.format, r.format.name, s.format.name)
  else if compareArraySize ∧ r.arraySize ≠ s.arraySize then
    some (.arraySize, toString r.arraySize, toString s.arraySize)
  else none

end Resource

end ShaderBind
