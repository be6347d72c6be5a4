import ShaderBind.Text.Class

/-!
# Source languages

The language a shader was authored in. Each language has a fixed code (`Language.code`), which
the marker at the end of generated text records, a key for data files (`Language.key`), a title
for messages (`Language.title`), and the spellings a command line takes (`Language.parse`).
-/

namespace ShaderBind

/-- A word that names no value of the enumeration it was read for. -/
structure UnknownName where
  /-- What was to be named. -/
  kind : String
  /-- The word as it was given. -/
  value : String
  deriving DecidableEq, Repr

/-- Wording of the refusal. -/
def UnknownName.message (e : UnknownName) : String :=
  s!"Unknown {e.kind} '{e.value}'"

/-- Language of a shader source; `unspecified` leaves the choice to the device. -/
inductive Language
  | unspecified
  | hlsl
  | glsl
  | glslVerbatim
  | msl
  | mslVerbatim
  | metalBytecode
  | wgsl
  deriving DecidableEq, Repr, Inhabited

namespace Language

/-- Every language, in the order of the codes. -/
def all : List Language :=
  [unspecified, hlsl, glsl, glslVerbatim, msl, mslVerbatim, metalBytecode, wgsl]

/-- The number that stands for the language in a marker. -/
def code : Language → Nat
  | unspecified => 0
  | hlsl => 1
  | glsl => 2
  | glslVerbatim => 3
  | msl => 4
  | mslVerbatim => 5
  | metalBytecode => 6
  | wgsl => 7

/-- The language with the given code. -/
def ofCode? (n : Int) : Option Language :=
  all.find? fun l => (l.code : Int) = n

/-- A code reads back as its language. -/
theorem ofCode?_code (l : Language) : ofCode? l.code = some l := by
  cases l <;> rfl

/-- Name in messages. -/
def title : Language → String
  | unspecified => "default"
  | hlsl => "HLSL"
  | glsl => "GLSL"
  | glslVerbatim => "GLSL verbatim"
  | msl => "MSL"
  | mslVerbatim => "MSL verbatim"
  | metalBytecode => "Metal bytecode"
  | wgsl => "WGSL"

/-- Name in data files. -/
def key : Language → String
  | unspecified => "default"
  | hlsl => "hlsl"
  | glsl => "glsl"
  | glslVerbatim => "glsl_verbatim"
  | msl => "msl"
  | mslVerbatim => "msl_verbatim"
  | metalBytecode => "metal_bytecode"
  | wgsl => "wgsl"

/-- The language with the given key. -/
def ofKey? (s : String) : Option Language :=
  all.find? fun l => l.key = s

/-- Reads a language in any case of letters; the verbatim variants may be written with a
hyphen, and bytecode cannot be asked for. -/
def parse (s : String) : Except UnknownName Language :=
  match Text.toLower s with
  | "default" => .ok unspecified
  | "hlsl" => .ok hlsl
  | "glsl" => .ok glsl
  | "glsl_verbatim" => .ok glslVerbatim
  | "glsl-verbatim" => .ok glslVerbatim
  | "msl" => .ok msl
  | "msl_verbatim" => .ok mslVerbatim
  | "msl-verbatim" => .ok mslVerbatim
  | "wgsl" => .ok wgsl
  | _ => .error ⟨"source language", s⟩

/-- WGSL and unspecified sources keep the names and the matrix conventions of WGSL. -/
def isWgslLike (l : Language) : Bool :=
  l == wgsl || l == unspecified

end Language

end ShaderBind
