import ShaderBind.Resource.ElementName
import ShaderBind.Resource.List

/-!
# Merging of declared elements

`ResourceList.merge` folds the separately declared elements of each array into one resource. The
elements have to agree in all but their place and their size, and no index may come twice; indices
may be missing. The array stands where its first element stood, at the place of its lowest element,
and is one larger than its highest index.
-/

namespace ShaderBind

/-- The element that a resource declares, if it is one: a single variable whose name is made of an
array's name, the suffix and an index. -/
def Resource.elementName? (r : Resource) (suffix : String) : Option ElementName :=
  if r.arraySize > 1 ∨ !r.elements.isEmpty then none
  else ElementName.parse? suffix r.semanticName

/-- The declaration of a resource as the element with an index. -/
def Resource.asElement (r : Resource) (index : UInt32) : Element :=
  ⟨r.name, index, r.place⟩

/-- Puts an element where its index belongs. -/
def Element.insert (e : Element) : List Element → List Element
  | [] => [e]
  | f :: fs => if e.index < f.index then e :: f :: fs else f :: Element.insert e fs

namespace Merge

/-- A resource on its way: taken over as it is, or an array that is being put together. -/
inductive Part
  | kept (r : Resource)
  | array (r : Resource)

/-- The resource of a part. -/
def Part.resource : Part → Resource
  | kept r => r
  | array r => r

/-- The array that begins with an element. -/
def start (r : Resource) (n : ElementName) : Resource :=
  { r with
    name := n.base
    altName := none
    arraySize := n.index + 1
    elements := r.elements ++ [r.asElement n.index] }

/-- The array with one more element. -/
def extend (array r : Resource) (index : UInt32) : Resource :=
  let first := (array.elements.head?.map Element.index).getD 0
  { array with
    arraySize := max array.arraySize (index + 1)
    place := if index < first then r.place else array.place
    elements := (r.asElement index).insert array.elements }

/-- Takes one element into an array, if they go together. -/
def join (shader : String) (stage : Stage) (array r : Resource) (n : ElementName) :
    Except ShaderError Resource :=
  match array.difference? r false with
  | some (property, a, b) =>
    .error (.incompatibleResource shader n.base stage stage property a b)
  | none =>
    if array.elements.any fun e => e.index = n.index then
      .error (.unsupported shader (.repeatedElement n.index n.base))
    else .ok (extend array r n.index)

/-- Takes an element into the array of its name, which is begun when there is none yet. -/
def add (shader : String) (stage : Stage) (r : Resource) (n : ElementName) :
    List Part → Except ShaderError (List Part)
  | [] => .ok [.array (start r n)]
  | .kept s :: parts => do return .kept s :: (← add shader stage r n parts)
  | .array a :: parts =>
    if a.name = n.base then do return .array (← join shader stage a r n) :: parts
    else do return .array a :: (← add shader stage r n parts)

/-- Takes one more resource. -/
def step (shader : String) (stage : Stage) (suffix : String) (parts : List Part) (r : Resource) :
    Except ShaderError (List Part) :=
  match r.elementName? suffix with
  | some n => add shader stage r n parts
  | none => .ok (parts ++ [.kept r])

end Merge

/-- The list with its elements merged into arrays. -/
def ResourceList.merge (l : ResourceList) (suffix : String) : Except ShaderError ResourceList :=
  if suffix.isEmpty then .ok l
  else do
    let parts ← l.resources.foldlM (Merge.step l.shader l.stage suffix) []
    let merged ← ResourceList.build l.shader l.stage l.language (parts.map Merge.Part.resource)
    return (merged.withCombinedSamplerSuffix l.combinedSamplerSuffix).withArraySuffix (some suffix)

end ShaderBind
