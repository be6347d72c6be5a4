import ShaderBind.Resource.Basic

/-!
# Resource lists

The resources of one shader stage, in nine runs by category group. `ResourceList.build` makes a
list out of resources whose arrays are not empty and whose declarations are all bound at places of
their own; inside a run the resources keep the order they were given in. A list is never changed:
remapping builds a new one.
-/

namespace ShaderBind

/-- The resources of a stage. -/
structure ResourceList where
  shader : String
  stage : Stage
  language : Language
  resources : List Resource
  /-- What names the sampler of a texture. -/
  combinedSamplerSuffix : Option String := none
  /-- What stands between an array's name and an element's index. -/
  arraySuffix : Option String := none
  deriving Repr

namespace ResourceList

/-- Adds declarations to those already placed; a place that is taken is refused. -/
def placeAll (shader : String) :
    (placed : List Declaration) → List Declaration → Except ShaderError (List Declaration)
  | placed, [] => .ok placed
  | placed, d :: ds =>
    match placed.find? fun e => e.place = d.place with
    | some previous =>
      .error (.unsupported shader (.sharedCoordinates previous.name d.name d.place))
    | none => placeAll shader (d :: placed) ds

/-- Checks resources in turn, with the declarations placed before them. -/
def checkAll (shader : String) : (placed : List Declaration) → List Resource → Except ShaderError Unit
  | _, [] => .ok ()
  | placed, r :: rs =>
    if r.arraySize = 0 then .error (.unsupportedResource shader r.name .zeroSizedArray)
    else do
      let placed ← placeAll shader placed r.declarations
      checkAll shader placed rs

/-- Position of a resource's run. -/
def rank (r : Resource) : Nat :=
  r.category.group.rank

/-- The resources run by run. -/
def arrange (rs : List Resource) : List Resource :=
  rs.mergeSort fun r s => decide (rank r ≤ rank s)

/-- The list of the given resources. -/
def build (shader : String) (stage : Stage) (language : Language) (rs : List Resource) :
    Except ShaderError ResourceList := do
  checkAll shader [] rs
  return { shader, stage, language, resources := arrange rs }

/-- A suffix that says something. -/
def usable (suffix : Option String) : Option String :=
  suffix.filter fun s => !s.isEmpty

/-- The list with another suffix for samplers; an empty suffix is none. -/
def withCombinedSamplerSuffix (l : ResourceList) (suffix : Option String) : ResourceList :=
  { l with combinedSamplerSuffix := usable suffix }

/-- The list with another suffix for array elements; an empty suffix is none. -/
def withArraySuffix (l : ResourceList) (suffix : Option String) : ResourceList :=
  { l with arraySuffix := usable suffix }

/-- Where the runs of the groups begin and how many resources each has; a run is counted from the
end of the one before it. -/
def runsFrom (rs : List Resource) (start : Nat) : List CategoryGroup → List (Nat × Nat)
  | [] => []
  | g :: gs =>
    let count := ((rs.drop start).takeWhile fun r => r.category.group = g).length
    (start, count) :: runsFrom rs (start + count) gs

/-- Beginnings and lengths of all runs, by the rank of the group. -/
def runs (l : ResourceList) : List (Nat × Nat) :=
  runsFrom l.resources 0 CategoryGroup.all

/-- The run of a group, cut out of the list. -/
def group (l : ResourceList) (g : CategoryGroup) : List Resource :=
  match l.runs[g.rank]? with
  | some (start, count) => (l.resources.drop start).take count
  | none => []

/-- The declarations of all resources, in order. -/
def declarations (l : ResourceList) : List Declaration :=
  l.resources.flatMap Resource.declarations

/-- The first resource with a name, be it the shader's or the author's. -/
def find? (l : ResourceList) (name : String) : Option Resource :=
  l.resources.find? fun r => r.name = name || r.altName = some name

/-- The sampler that belongs to a texture by its name. -/
def combinedSampler? (l : ResourceList) (texture : String) : Option Resource := do
  let suffix ← l.combinedSamplerSuffix
  (l.group .sampler).find? fun r => r.semanticName = texture ++ suffix

/-- The line of a resource in a report. -/
def reportLine (r : Resource) : String :=
  let size := if r.arraySize > 1 then s!"[{r.arraySize}]" else ""
  let alt := match r.altName with
    | some name => s!" (alt '{name}')"
    | none => ""
  s!"\n  {r.category.shortName} '{r.name}{size}'{alt} group {r.place.group} binding {r.place.binding}"

/-- A report of the list for people. -/
def report (l : ResourceList) : String :=
  s!"Shader '{l.shader}' resource stats: total resources: {l.resources.length}:" ++
    String.join (l.resources.map reportLine)

end ResourceList

end ShaderBind
