import ShaderBind.Error
import ShaderBind.Resource.ElementName

/-!
# Resource mappings

A mapping gives names their places: the layout that the shaders of a pipeline are moved to. It is
kept in a table of entries by name and a list of the names in the order they came in
(`Mapping.Raw`), which agree on the names (`Mapping.Raw.Consistent`). `Mapping.insert` takes an
entry whose array is not empty and whose bindings stay in range; a name that is there already keeps
its position but gets the new entry, and the insertion is reported as a failure. `Mapping.resolve`
finds the entry of a resource by the shader's name or the author's, as a whole or as an element of
an array.
-/

namespace ShaderBind

/-- Flags of an entry, which refine the type of its WebGPU binding. -/
structure LayoutFlags where
  nonFilteringSampler : Bool := false
  unfilterableFloatTexture : Bool := false
  deriving DecidableEq, Repr, Inhabited

/-- One flag as a layout file writes it. -/
inductive LayoutFlag
  | nonFilteringSampler
  | unfilterableFloatTexture
  deriving DecidableEq, Repr

/-- Name of a flag in a layout file. -/
def LayoutFlag.key : LayoutFlag → String
  | nonFilteringSampler => "non_filtering_sampler"
  | unfilterableFloatTexture => "unfilterable_float_texture"

/-- The flag with the given key. -/
def LayoutFlag.ofKey? (s : String) : Option LayoutFlag :=
  [nonFilteringSampler, unfilterableFloatTexture].find? fun f => f.key = s

namespace LayoutFlags

/-- The flags with one more set. -/
def add (fs : LayoutFlags) : LayoutFlag → LayoutFlags
  | .nonFilteringSampler => { fs with nonFilteringSampler := true }
  | .unfilterableFloatTexture => { fs with unfilterableFloatTexture := true }

/-- The listed flags. -/
def ofList (fs : List LayoutFlag) : LayoutFlags :=
  fs.foldl add {}

/-- The names of the flags that are set, joined by a bar. -/
def render (fs : LayoutFlags) : String :=
  " | ".intercalate <|
    (if fs.nonFilteringSampler then ["NON_FILTERING_SAMPLER"] else []) ++
    (if fs.unfilterableFloatTexture then ["UNFILTERABLE_FLOAT_TEXTURE"] else [])

end LayoutFlags

/-- The place that a layout gives a name. -/
structure Entry where
  group : UInt32
  binding : UInt32
  arraySize : UInt32 := 1
  stages : StageSet := .all
  flags : LayoutFlags := {}
  deriving DecidableEq, Repr

/-- What a mapping is kept in: the entry of each name, and the names in the order they came in. -/
structure Mapping.Raw where
  table : List (String × Entry) := []
  order : List String := []
  deriving DecidableEq, Repr

namespace Mapping.Raw

/-- The entry of a name. -/
def get? (m : Raw) (name : String) : Option Entry :=
  m.table.lookup name

/-- Number of entries. -/
def size (m : Raw) : Nat :=
  m.order.length

/-- A name with its entry. -/
def item? (m : Raw) (name : String) : Option (String × Entry) :=
  (m.get? name).map fun entry => (name, entry)

/-- The entries in the order that their names came in. -/
def entries (m : Raw) : List (String × Entry) :=
  m.order.filterMap m.item?

/-- The table with the entry of a name set. -/
def put (name : String) (entry : Entry) : List (String × Entry) → List (String × Entry)
  | [] => [(name, entry)]
  | (n, e) :: es => if n = name then (n, entry) :: es else (n, e) :: put name entry es

/-- Takes an entry. The second part tells what was wrong with it, if anything; an entry without
elements and one past the last binding change nothing, a repeated name changes its entry. -/
def insert (m : Raw) (name : String) (entry : Entry) : Raw × Option ShaderError :=
  if entry.arraySize = 0 then (m, some (.layout (.zeroArraySize name)))
  else if UInt32.size ≤ entry.binding.toNat + (entry.arraySize.toNat - 1) then
    (m, some (.layout (.pastLastBinding name entry.binding entry.arraySize)))
  else
    let table := put name entry m.table
    if (m.get? name).isSome then ({ m with table }, some (.layout (.repeatedName name)))
    else ({ table, order := m.order ++ [name] }, none)

/-- The names in order are those of the table, each of them once. -/
structure Consistent (m : Raw) : Prop where
  nodup : m.order.Nodup
  perm : (m.table.map Prod.fst).Perm m.order

theorem isSome_get?_iff {m : Raw} {name : String} :
    (m.get? name).isSome ↔ name ∈ m.table.map Prod.fst := by
  rw [get?, List.lookup_isSome_iff, List.mem_map]
  constructor
  · rintro ⟨e, he, hname⟩
    exact ⟨e, he, (eq_of_beq hname).symm⟩
  · rintro ⟨e, he, rfl⟩
    exact ⟨e, he, BEq.rfl⟩

theorem Consistent.mem_order_iff {m : Raw} (h : m.Consistent) {name : String} :
    name ∈ m.order ↔ (m.get? name).isSome :=
  h.perm.mem_iff.symm.trans isSome_get?_iff.symm

theorem names_put_of_mem {name : String} {table : List (String × Entry)}
    (h : name ∈ table.map Prod.fst) (entry : Entry) :
    (put name entry table).map Prod.fst = table.map Prod.fst := by
  induction table with
  | nil => cases h
  | cons e es ih =>
    rw [put]
    split
    · rfl
    next hname =>
      rw [List.map_cons, List.mem_cons] at h
      rw [List.map_cons, ih (h.resolve_left (Ne.symm hname)), List.map_cons]

theorem names_put_of_not_mem {name : String} {table : List (String × Entry)}
    (h : name ∉ table.map Prod.fst) (entry : Entry) :
    (put name entry table).map Prod.fst = table.map Prod.fst ++ [name] := by
  induction table with
  | nil => rfl
  | cons e es ih =>
    rw [List.map_cons, List.mem_cons, not_or] at h
    rw [put, if_neg (Ne.symm h.1), List.map_cons, ih h.2, List.map_cons, List.cons_append]

theorem Consistent.insert {m : Raw} (h : m.Consistent) (name : String) (entry : Entry) :
    (m.insert name entry).1.Consistent := by
  unfold Raw.insert
  split
  · exact h
  split
  · exact h
  dsimp only
  split
  next hold =>
    have hnames := names_put_of_mem (isSome_get?_iff.1 hold) entry
    exact ⟨h.nodup, by rw [hnames]; exact h.perm⟩
  next hnew =>
    have hnames := names_put_of_not_mem (mt isSome_get?_iff.2 hnew) entry
    refine ⟨List.nodup_append.2 ⟨h.nodup, by simp, ?_⟩, by rw [hnames]; exact h.perm.append_right _⟩
    rintro x hx y hy rfl
    exact hnew (h.mem_order_iff.1 (List.mem_singleton.1 hy ▸ hx))

end Mapping.Raw

/-- Entries by name, in the order they came in. -/
structure Mapping extends Mapping.Raw where
  consistent : toRaw.Consistent
  deriving DecidableEq, Repr

namespace Mapping

/-- The mapping without entries. -/
def empty : Mapping := ⟨{}, List.nodup_nil, .nil⟩

/-- The entry of a name. -/
def get? (m : Mapping) (name : String) : Option Entry :=
  m.toRaw.get? name

/-- Number of entries. -/
def size (m : Mapping) : Nat :=
  m.toRaw.size

/-- The entries in the order that their names came in. -/
def entries (m : Mapping) : List (String × Entry) :=
  m.toRaw.entries

/-- Takes an entry, as `Raw.insert` does. -/
def insert (m : Mapping) (name : String) (entry : Entry) : Mapping × Option ShaderError :=
  (⟨(m.toRaw.insert name entry).1, m.consistent.insert name entry⟩,
    (m.toRaw.insert name entry).2)

/-- The mapping with an entry, if nothing is wrong with it. -/
def withEntry (m : Mapping) (name : String) (entry : Entry) : Except ShaderError Mapping :=
  match m.insert name entry with
  | (m, none) => .ok m
  | (_, some e) => .error e

/-- What a resource was found as. -/
structure Resolved where
  /-- The name of the entry. -/
  key : String
  entry : Entry
  /-- The index, when the resource is an element of the entry's array. -/
  element : Option UInt32 := none
  deriving DecidableEq, Repr

namespace Resolved

/-- The first slot of the entry that the resource takes. -/
def slot (r : Resolved) : UInt32 :=
  r.element.getD 0

/-- The place of the resource. -/
def place (r : Resolved) : Except Crash Coord := do
  return ⟨r.entry.group, ← addWords r.entry.binding r.slot⟩

end Resolved

/-- How a look-up of one name ends. -/
inductive Lookup
  | found (resolved : Resolved)
  | outOfRange (resource array : String) (index arraySize : UInt32)
  | missing
  deriving DecidableEq, Repr

/-- Looks a name up, as a whole and then as an element of an array. -/
def lookup (m : Mapping) (suffix : Option String) (name : String) : Lookup :=
  match m.get? name with
  | some entry => .found ⟨name, entry, none⟩
  | none =>
    match suffix.bind fun suffix => ElementName.parse? suffix name with
    | none => .missing
    | some element =>
      match m.get? element.base with
      | none => .missing
      | some entry =>
        if element.index < entry.arraySize then .found ⟨element.base, entry, some element.index⟩
        else .outOfRange name element.base element.index entry.arraySize

/-- Looks names up in turn until one is found; failing that, the first index out of range is told,
and else that the shader's name is not there. -/
def resolveAmong (m : Mapping) (shader name : String) (suffix : Option String) :
    List String → Option ShaderError → Except ShaderError Resolved
  | [], failure => .error (failure.getD (.unresolvedResource shader name))
  | candidate :: candidates, failure =>
    match m.lookup suffix candidate with
    | .found resolved => .ok resolved
    | .missing => resolveAmong m shader name suffix candidates failure
    | .outOfRange resource array index arraySize =>
      resolveAmong m shader name suffix candidates
        (failure.orElse fun _ =>
          some (.arrayIndexOutOfRange shader resource array index arraySize))

/-- Finds the entry of a resource: the shader's name goes before the author's. -/
def resolve (m : Mapping) (shader name : String) (altName suffix : Option String) :
    Except ShaderError Resolved :=
  m.resolveAmong shader name suffix (name :: altName.toList) none

end Mapping

/-- A resource of a layout file. -/
structure ResourceSpec where
  name : String
  group : UInt32
  binding : UInt32
  arraySize : UInt32 := 1
  /-- The stages that see the resource; all when not given. -/
  stages : Option (List Stage) := none
  flags : List LayoutFlag := []
  deriving DecidableEq, Repr

/-- The entry that a resource of a layout file asks for. -/
def ResourceSpec.entry (r : ResourceSpec) : Entry where
  group := r.group
  binding := r.binding
  arraySize := r.arraySize
  stages := (r.stages.map StageSet.ofList).getD .all
  flags := .ofList r.flags

/-- The mapping of a layout's resources; the first faulty one is told. -/
def Mapping.ofSpecs (specs : List ResourceSpec) : Except ShaderError Mapping :=
  specs.foldlM (fun m r => m.withEntry r.name r.entry) .empty

end ShaderBind
