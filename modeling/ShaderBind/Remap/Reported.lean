import ShaderBind.Remap.Stage

/-!
# Bindings reported by a driver

A driver tells the places of a program's resources after linking, elements of arrays as the array's
name with an index in brackets. `Remapper.verifyReported` compares them with the mapping.
-/

namespace ShaderBind

/-- A resource and the place a driver put it at. -/
structure ReportedBinding where
  name : String
  place : Coord
  deriving DecidableEq, Repr

/-- The text before and after the last opening bracket. -/
def splitLastBracket? (s : List Char) : Option (List Char × List Char) :=
  let after := s.reverse.takeWhile (· != '[')
  match s.reverse.dropWhile (· != '[') with
  | _ :: before => some (before.reverse, after.reverse)
  | [] => none

/-- A name and the index that follows it in brackets, if one does. -/
def splitSubscript (name : String) : String × Option UInt32 :=
  match Text.dropSuffix? [']'] name.toList with
  | none => (name, none)
  | some inner =>
    match splitLastBracket? inner with
    | none => (name, none)
    | some (base, digits) =>
      match Text.readWord? digits with
      | some index => (String.ofList base, some index)
      | none => (name, none)

namespace Remapper

/-- Judges one report; tells whether the place is the expected one. -/
def verifyOne (m : Remapper) (shader : String) (b : ReportedBinding) : Noted Bool := do
  let (name, subscript) := splitSubscript b.name
  let resolved ← Noted.ofError (m.mapping.resolve shader name none m.options.arraySuffix)
  let base ← Noted.ofStop (Stop.ofCrash resolved.place)
  let slot := subscript.getD 0
  let last ← Noted.ofStop (Stop.ofCrash (addWords resolved.slot slot))
  if resolved.entry.arraySize ≤ last then
    Noted.fail (.arrayIndexOutOfRange shader b.name resolved.key slot resolved.entry.arraySize)
  else
    let binding ← Noted.ofStop (Stop.ofCrash (addWords base.binding slot))
    m.check shader b.name ⟨base.group, binding⟩ b.place

/-- Judges reports in turn; the number of mismatches that were noted. -/
def verifyReported (m : Remapper) (shader : String) : List ReportedBinding → Noted Nat
  | [] => pure 0
  | b :: bs => do
    let agrees ← m.verifyOne shader b
    let rest ← verifyReported m shader bs
    return (if agrees then 0 else 1) + rest

end Remapper

end ShaderBind
