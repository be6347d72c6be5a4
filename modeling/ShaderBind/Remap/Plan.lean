import ShaderBind.Layout.Mapping
import ShaderBind.Noted
import ShaderBind.Resource.List

/-!
# Plans

A remapper moves the resources of a stage to the places that a mapping gives them. Its plan
(`Remapper.plan`) names every declaration with the place it has and the place it gets, and comes
with the list of the resources at their new places. A resource that the mapping does not know, or
whose array does not fit into the entry, makes the plan fail.
-/

namespace ShaderBind

/-- Whether bindings are patched or only looked at. -/
inductive RemapMode
  | patch
  | verifyOnly
  deriving DecidableEq, Repr, Inhabited

/-- What a mismatch does when bindings are only looked at. -/
inductive Severity
  | error
  | warn
  deriving DecidableEq, Repr, Inhabited

/-- How a remapper works. -/
structure RemapOptions where
  mode : RemapMode := .patch
  severity : Severity := .error
  /-- What stands between an array's name and an index; the list's own suffix if not given. -/
  arraySuffix : Option String := none
  deriving DecidableEq, Repr, Inhabited

/-- A declaration with its old and its new place. -/
structure PlannedBinding where
  name : String
  source : Coord
  target : Coord
  deriving DecidableEq, Repr

/-- A mapping to move resources to, and how. -/
structure Remapper where
  mapping : Mapping
  options : RemapOptions := {}
  deriving DecidableEq, Repr

namespace Remapper

/-- The suffix that takes the names of elements apart. -/
def suffixFor (m : Remapper) (l : ResourceList) : Option String :=
  m.options.arraySuffix.or l.arraySuffix

/-- Moves the elements of an array whose first slot is at `base`. -/
def moveElements (base : Coord) : List Element → Except Crash (List Element)
  | [] => .ok []
  | e :: es => do
    let binding ← addWords base.binding e.index
    let es ← moveElements base es
    return { e with place := ⟨base.group, binding⟩ } :: es

/-- A resource at the place `base`; an array made of elements stands where its first element
does. -/
def moveResource (base : Coord) (r : Resource) : Except Crash Resource :=
  if r.elements.isEmpty then .ok { r with place := base }
  else do
    let elements ← moveElements base r.elements
    return { r with elements, place := (elements.head?.map Element.place).getD base }

/-- The declarations of a resource before and after a move. -/
def planned (r moved : Resource) : List PlannedBinding :=
  List.zipWith (fun d e => ⟨d.name, d.place, e.place⟩) r.declarations moved.declarations

/-- The failure of an array that does not fit into its entry: it names the last element, and the
slot that the last one would take, at most the greatest word. -/
def outOfRange (shader : String) (r : Resource) (resolved : Mapping.Resolved) :
    Except Crash ShaderError := do
  let last := (r.elements.getLast?.map Element.name).getD r.name
  let offset ← subWords r.arraySize 1
  let index := min (resolved.slot.toNat + offset.toNat) (UInt32.size - 1)
  return .arrayIndexOutOfRange shader last resolved.key (UInt32.ofNat index)
    resolved.entry.arraySize

/-- Plans one resource of a list. -/
def planResource (m : Remapper) (l : ResourceList) (r : Resource) :
    Except Stop (Resource × List PlannedBinding) := do
  let resolved ← Stop.ofError (m.mapping.resolve l.shader r.name r.altName (m.suffixFor l))
  let base ← Stop.ofCrash resolved.place
  if resolved.entry.arraySize.toNat < resolved.slot.toNat + r.arraySize.toNat then
    throw (.failed (← Stop.ofCrash (outOfRange l.shader r resolved)))
  let moved ← Stop.ofCrash (moveResource base r)
  return (moved, planned r moved)

/-- Plans the resources in turn. -/
def planAll (m : Remapper) (l : ResourceList) :
    List Resource → Except Stop (List (Resource × List PlannedBinding))
  | [] => .ok []
  | r :: rs => do
    let p ← m.planResource l r
    let ps ← planAll m l rs
    return p :: ps

/-- The resources of a list at their new places, and the plan. -/
def plan (m : Remapper) (l : ResourceList) : Except Stop (ResourceList × List PlannedBinding) := do
  let planned ← m.planAll l l.resources
  let moved ← Stop.ofError
    (ResourceList.build l.shader l.stage l.language (planned.map Prod.fst))
  return ((moved.withCombinedSamplerSuffix l.combinedSamplerSuffix).withArraySuffix l.arraySuffix,
    planned.flatMap Prod.snd)

end Remapper

end ShaderBind
