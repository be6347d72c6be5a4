import ShaderBind.Json.Basic
import ShaderBind.Resource.List

/-!
# Resources as JSON

The report of a resource list: its resources with all their properties, buffers with the tree of
their members. A resource without a buffer layout or without elements does not have the field.
-/

namespace ShaderBind

namespace Buffer

mutual

/-- A variable and the members below it. -/
def Variable.toJson : Variable → Json
  | ⟨name, typeName, offset, variableClass, basicType, rows, columns, arraySize, members⟩ =>
    .obj [("name", .str name), ("type_name", .str typeName), ("offset", .nat offset),
      ("class", .str variableClass.name), ("basic_type", .str basicType.name),
      ("num_rows", .nat rows), ("num_columns", .nat columns), ("array_size", .nat arraySize),
      ("members", .arr (Variable.listToJson members))]

/-- Variables in a row. -/
def Variable.listToJson : List Variable → List Json
  | [] => []
  | v :: vs => v.toJson :: Variable.listToJson vs

end

/-- The layout of a buffer. -/
def Layout.toJson (l : Layout) : Json :=
  .obj [("size", .nat l.size), ("variables", .arr (Variable.listToJson l.topLevel))]

end Buffer

/-- An element of an array. -/
def Element.toJson (e : Element) : Json :=
  .obj [("name", .str e.name), ("index", .word e.index), ("bind_group", .word e.place.group),
    ("bind_index", .word e.place.binding)]

/-- A resource with its properties. -/
def Resource.toJson (r : Resource) : Json :=
  .obj <|
    [("name", .str r.name), ("alt_name", .text? r.altName), ("category", .str r.category.name),
      ("array_size", .word r.arraySize), ("dimension", .str r.dimension.name),
      ("sample_type", .str r.sampleType.name), ("format", .str r.format.name),
      ("bind_group", .word r.place.group), ("bind_index", .word r.place.binding),
      ("static_size", .nat r.staticSize), ("stride", .nat r.stride)] ++
    (r.layout.toList.map fun l => ("buffer_layout", l.toJson)) ++
    (if r.elements.isEmpty then [] else [("elements", .arr (r.elements.map Element.toJson))])

/-- A resource list. -/
def ResourceList.toJson (l : ResourceList) : Json :=
  .obj [("shader_name", .str l.shader), ("stage", .str l.stage.key),
    ("source_language", .str l.language.key), ("resources", .arr (l.resources.map Resource.toJson)),
    ("combined_sampler_suffix", .text? l.combinedSamplerSuffix),
    ("emulated_array_suffix", .text? l.arraySuffix)]

end ShaderBind
