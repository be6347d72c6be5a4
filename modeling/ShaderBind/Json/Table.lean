import ShaderBind.Json.Basic
import ShaderBind.Table.BindGroup

/-!
# Layouts and binding tables as JSON

The reports of layout entries, of binding tables and of bind groups.
-/

namespace ShaderBind

/-- The fields of a layout entry. -/
def Entry.jsonFields (e : Entry) : List (String × Json) :=
  [("group", .word e.group), ("binding", .word e.binding), ("array_size", .word e.arraySize),
    ("stages", .str e.stages.render), ("flags", .str e.flags.render)]

/-- The entries of a mapping, in order. -/
def Mapping.toJson (m : Mapping) : Json :=
  .arr (m.entries.map fun (name, e) => .obj (("name", .str name) :: e.jsonFields))

/-- The part of an entry for a device. -/
def Backend.toJson : Backend → Json
  | webGpu bindingType view format =>
    .obj [("WebGpu", .obj [("binding_type", .str bindingType.name),
      ("texture_view_dim", .text? (view.map Dimension.name)),
      ("uav_texture_format", .text? (format.map TexelFormat.name))])]
  | vulkan => .str "Vulkan"
  | gl => .str "Gl"
  | metal => .str "Metal"

/-- An entry of a table. -/
def TableEntry.toJson (e : TableEntry) : Json :=
  .obj [("name", .str e.name), ("stages", .str e.stages.render), ("category", .str e.category.name),
    ("resource_type", .str e.category.resourceType.name), ("array_size", .word e.arraySize),
    ("bind_group", .word e.place.group), ("bind_index", .word e.place.binding),
    ("flags", .str e.flags.render), ("backend", e.backend.toJson)]

/-- A binding table. -/
def BindingTable.toJson (t : BindingTable) : Json :=
  .arr (t.map TableEntry.toJson)

/-- What a bind group layout says about a binding. -/
def BoundType.toJson : BoundType → Json
  | buffer use =>
    .obj [("kind", .str "Buffer"), ("ty", .str use.name), ("has_dynamic_offset", .bool false),
      ("min_binding_size", .null)]
  | sampler use => .obj [("kind", .str "Sampler"), ("ty", .str use.name)]
  | texture samples view multisampled =>
    .obj [("kind", .str "Texture"), ("sample_type", .str samples.name),
      ("view_dimension", .str view.name), ("multisampled", .bool multisampled)]
  | storageTexture access format view =>
    .obj [("kind", .str "StorageTexture"), ("access", .str access.name),
      ("format", .str format.name), ("view_dimension", .str view.name)]

/-- An entry of a bind group. -/
def BindGroupEntry.toJson (e : BindGroupEntry) : Json :=
  .obj [("binding", .word e.binding), ("visibility", .texts (e.visibility.map WebGpuStage.name)),
    ("count", (e.count.map Json.word).getD .null), ("ty", e.type.toJson)]

/-- A failure to lay bind groups out. -/
def BindGroupError.toJson (e : BindGroupError) : Json :=
  .obj [("error", .str e.name), ("message", .str e.message)]

/-- A bind group. -/
def BindGroup.toJson (g : BindGroup) : Json :=
  .obj [("group", .nat g.group), ("entries", .arr (g.entries.map BindGroupEntry.toJson))]

end ShaderBind
