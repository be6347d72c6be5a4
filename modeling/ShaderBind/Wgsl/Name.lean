/-!
# Names of WGSL

The words that a declaration may not give a name to (`isReserved`): the keywords of the language, the
words for its types and address spaces, and words that it keeps for later. Nor may a name be a single
underscore or begin with two (`isName`, `isNewName`).
-/

namespace ShaderBind.Wgsl

/-- The words that declarations and statements begin with or contain. -/
def keywords : List String :=
  ["alias", "break", "case", "const", "const_assert", "continue", "continuing", "default",
   "diagnostic", "discard", "else", "enable", "false", "fn", "for", "if", "let", "loop",
   "override", "requires", "return", "struct", "switch", "true", "var", "while"]

/-- The words for types and address spaces. -/
def typeWords : List String :=
  ["array", "atomic", "bool", "f32", "f16", "i32", "mat2x2", "mat2x3", "mat2x4", "mat3x2",
   "mat3x3", "mat3x4", "mat4x2", "mat4x3", "mat4x4", "ptr", "sampler", "sampler_comparison",
   "texture_1d", "texture_2d", "texture_2d_array", "texture_3d", "texture_cube",
   "texture_cube_array", "texture_multisampled_2d", "texture_storage_1d", "texture_storage_2d",
   "texture_storage_2d_array", "texture_storage_3d", "texture_depth_2d",
   "texture_depth_2d_array", "texture_depth_cube", "texture_depth_cube_array",
   "texture_depth_multisampled_2d", "u32", "vec2", "vec3", "vec4", "bitcast", "function",
   "private", "storage", "type", "uniform", "workgroup"]

/-- The words that are kept for later. -/
def keptWords : List String :=
  ["NULL", "Self", "abstract", "active", "alignas", "alignof", "as", "asm", "asm_fragment",
   "async", "attribute", "auto", "await", "become", "binding_array", "cast", "catch", "class",
   "co_await", "co_return", "co_yield", "coherent", "column_major", "common", "compile",
   "compile_fragment", "concept", "const_cast", "consteval", "constexpr", "constinit", "crate",
   "debugger", "decltype", "delete", "demote", "demote_to_helper", "do", "dynamic_cast", "enum",
   "explicit", "export", "extends", "extern", "external", "fallthrough", "filter", "final",
   "finally", "friend", "from", "fxgroup", "get", "goto", "groupshared", "highp", "impl",
   "implements", "import", "inline", "instanceof", "interface", "layout", "lowp", "macro",
   "macro_rules", "match", "mediump", "meta", "mod", "module", "move", "mut", "mutable",
   "namespace", "new", "nil", "noexcept", "noinline", "nointerpolation", "noperspective", "null",
   "nullptr", "of", "operator", "package", "packoffset", "pass", "patch", "pixelfragment",
   "precise", "precision", "premerge", "priv", "protected", "pub", "public", "readonly", "ref",
   "regardless", "register", "reinterpret_cast", "resource", "restrict", "self", "set", "shared",
   "sizeof", "smooth", "snorm", "static", "static_assert", "static_cast", "std", "subroutine",
   "super", "target", "template", "this", "thread_local", "throw", "trait", "try", "typedef",
   "typeid", "typename", "typeof", "union", "unless", "unorm", "unsafe", "unsized", "use",
   "using", "varying", "virtual", "volatile", "wgsl", "where", "with", "writeonly", "yield"]

/-- Whether a word cannot be declared. -/
def isReserved (s : String) : Bool :=
  keywords.contains s || typeWords.contains s || keptWords.contains s

/-- Whether a word can be a name. -/
def isName (s : String) : Bool := s != "_" && !s.startsWith "__"

/-- Whether a declaration may give the name. -/
def isNewName (s : String) : Bool := isName s && !isReserved s

end ShaderBind.Wgsl
