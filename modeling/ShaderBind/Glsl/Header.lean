import ShaderBind.Glsl.Version
import ShaderBind.Source.Macro

/-!
# The header of a GLSL text

What stands before the body of a text for a driver, in this order: the version, extensions, the
dialect, the range of depth, definitions of the caller, the platform and the stage, precisions on
embedded devices, the layout of uniform blocks, and the macros.
-/

namespace ShaderBind.Glsl

/-- What a device offers beyond its version. -/
structure Features where
  separablePrograms : Bool := false
  cubemapArrays : Bool := false
  texture2DMs : Bool := false
  computeShaders : Bool := false
  deriving DecidableEq, Repr, Inhabited

/-- What is known of the compiler that reads a text, and how it is set up. -/
structure Settings where
  compiler : TextCompiler := .driver
  mostVersions : DialectVersions := {}
  features : Features := {}
  /-- Whether depth in clip space goes from zero to one. -/
  zeroToOneClipZ : Bool := false
  /-- Lines of definitions that every text gets. -/
  extraDefinitions : Option String := none
  deriving Repr, Inhabited

/-- The directive that enables an extension. -/
def extensionLine (name : String) : String :=
  s!"#extension {name} : enable\n"

/-- A text if a condition holds. -/
def textIf (b : Bool) (text : String) : String := if b then text else ""

/-- The extensions that an embedded device needs for what later versions have. -/
def embeddedExtensions (stage : Stage) (f : Features) (v : Version) : String :=
  let before31 := !(Version.le ⟨3, 1⟩ v)
  let before32 := !(Version.le ⟨3, 2⟩ v)
  textIf (f.separablePrograms && before31) (extensionLine "GL_EXT_separate_shader_objects") ++
  textIf (f.cubemapArrays && before32) (extensionLine "GL_EXT_texture_cube_map_array") ++
  textIf (stage = .geometry && before32) (extensionLine "GL_EXT_geometry_shader") ++
  textIf ((stage = .hull || stage = .domain) && before32)
    (extensionLine "GL_EXT_tessellation_shader")

/-- The types that every embedded device has at high precision. -/
def basicTypes : List String :=
  ["float", "int", "sampler2D", "sampler3D", "samplerCube", "samplerCubeShadow", "sampler2DShadow",
   "sampler2DArray", "sampler2DArrayShadow", "isampler2D", "isampler3D", "isamplerCube",
   "isampler2DArray", "usampler2D", "usampler3D", "usamplerCube", "usampler2DArray"]

/-- The image types that devices with compute shaders have. -/
def imageTypes : List String :=
  ["image2D", "image3D", "imageCube", "image2DArray", "iimage2D", "iimage3D", "iimageCube",
   "iimage2DArray", "uimage2D", "uimage3D", "uimageCube", "uimage2DArray"]

/-- The types that get high precision on an embedded device. -/
def preciseTypes (f : Features) (v : Version) : List String :=
  let from32 := Version.le ⟨3, 2⟩ v
  basicTypes ++
  (if from32 then ["samplerBuffer", "isamplerBuffer", "usamplerBuffer"] else []) ++
  (if f.cubemapArrays then
    ["samplerCubeArray", "samplerCubeArrayShadow", "isamplerCubeArray", "usamplerCubeArray"]
   else []) ++
  (if f.texture2DMs then ["sampler2DMS", "isampler2DMS", "usampler2DMS"] else []) ++
  (if f.computeShaders then
    imageTypes ++ (if from32 then ["imageBuffer", "iimageBuffer", "uimageBuffer"] else [])
   else [])

/-- The lines that set precisions. -/
def precisionLines (types : List String) : String :=
  String.join (types.map fun t => s!"precision highp {t};\n")

/-- What a header depends on, besides the version. -/
structure HeaderInfo where
  stage : Stage
  device : Device
  settings : Settings := {}
  /-- Directives of the caller. -/
  extensions : Option String := none
  macros : List Source.Macro := []
  deriving Repr

/-- The line that declares the version. -/
def versionLine (v : Version) (embedded : Bool) : String :=
  let dialect := if embedded then "es" else "core"
  s!"#version {v.major}{v.minor}0 {dialect}\n"

/-- The directives of the caller, on lines of their own. -/
def callerExtensions (extensions : Option String) : String :=
  match extensions with
  | some text => textIf (!text.isEmpty) (text ++ "\n")
  | none => ""

/-- The header. -/
def header (h : HeaderInfo) (v : Version) : String :=
  let embedded := isEmbedded h.device
  let features := h.settings.features
  versionLine v embedded ++
  textIf embedded (embeddedExtensions h.stage features v) ++
  callerExtensions h.extensions ++
  (if embedded then "#ifndef GL_ES\n#  define GL_ES 1\n#endif\n" else "#define DESKTOP_GL 1\n") ++
  textIf h.settings.zeroToOneClipZ "#define _NDC_ZERO_TO_ONE 1\n" ++
  h.settings.extraDefinitions.getD "" ++
  Source.platformLine ++
  Source.stageLines h.stage ++
  textIf embedded (precisionLines (preciseTypes features v)) ++
  "layout(std140) uniform;\n" ++
  Source.macroLines h.macros ++
  textIf (embedded && v = ⟨3, 0⟩ && features.separablePrograms && h.stage = .vertex)
    "out vec4 gl_Position;\n"

end ShaderBind.Glsl
