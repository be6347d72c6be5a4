import ShaderBind.Device
import ShaderBind.Noted

/-!
# The version of GLSL

Which version of GLSL a text for a driver declares (`chooseVersion`): the one that is asked for, but
never more than the compiler takes; without a wish, the most that the compiler takes; and without
knowledge of that, 4.3, or 3.0 on an embedded device.
-/

namespace ShaderBind.Glsl

/-- The compiler that reads the text. -/
inductive TextCompiler
  | driver
  /-- A front end that goes on to SPIR-V. -/
  | irFrontEnd
  deriving DecidableEq, Repr, Inhabited

/-- A version for the two dialects; unspecified where nothing is known. -/
structure DialectVersions where
  desktop : Version := .unspecified
  embedded : Version := .unspecified
  deriving DecidableEq, Repr, Inhabited

/-- Whether the device takes the dialect for embedded devices. -/
def isEmbedded (device : Device) : Bool := device = .openGles

/-- The version of the dialect of a device. -/
def DialectVersions.on (v : DialectVersions) (device : Device) : Version :=
  if isEmbedded device then v.embedded else v.desktop

/-- The most that the compiler takes. A front end takes 3.1 at least. -/
def compilerVersion (compiler : TextCompiler) (device : Device) (most : DialectVersions) :
    Version :=
  if compiler = .irFrontEnd ∧ isEmbedded device then (most.on device).max ⟨3, 1⟩
  else most.on device

/-- The version when nothing is asked for and nothing is known. -/
def defaultVersion (device : Device) : Version :=
  if isEmbedded device then ⟨3, 0⟩ else ⟨4, 3⟩

/-- The version that a text declares. A wish that is too high is cut down, with a warning. -/
def chooseVersion (requested : DialectVersions) (compiler : TextCompiler) (device : Device)
    (most : DialectVersions) : Noted Version :=
  let limit := compilerVersion compiler device most
  let wish := requested.on device
  if !wish.isUnspecified then
    if !limit.isUnspecified && !wish.le limit then do
      Noted.warn
        s!"Requested GLSL version ({wish.render}) is greater than the maximum supported version ({limit.render})"
      return limit
    else pure wish
  else if !limit.isUnspecified then pure limit
  else pure (defaultVersion device)

end ShaderBind.Glsl
