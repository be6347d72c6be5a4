import ShaderBind.Layout.Mapping
import ShaderBind.Text.Cut
import ShaderBind.Text.Number
import ShaderBind.Yaml.Node

/-!
# Layout files

A layout file is a YAML document that lists resources with their places (`readLayout`). Fields that
are not known are ignored and a known field may stand only once. Numbers are plain and decimal, or in
base sixteen, eight or two with the mark for it; a name takes any scalar as it is written.
-/

namespace ShaderBind

namespace LayoutFile

open Yaml (Node)

/-- The number that digits write, marked by their base or decimal. A decimal number of several digits
does not begin with zero. -/
def digits? (cs : List Char) : Option Nat :=
  match cs with
  | '0' :: 'x' :: ds => Text.numberIn? 16 ds
  | '0' :: 'o' :: ds => Text.numberIn? 8 ds
  | '0' :: 'b' :: ds => Text.numberIn? 2 ds
  | '0' :: _ :: _ => none
  | ds => Text.numberIn? 10 ds

/-- The number that a plain scalar writes; a plus sign may stand before it. -/
def number? (cs : List Char) : Option Nat :=
  match cs with
  | '+' :: ds => digits? ds
  | ds => digits? ds

/-- Reads a word. -/
def word? : Node → Option UInt32
  | .scalar _ text true => do
    let n ← number? text.toList
    if n < UInt32.size then some (UInt32.ofNat n) else none
  | _ => none

/-- Reads a text. -/
def text? : Node → Option String
  | .scalar _ text _ => some text
  | _ => none

/-- Reads a list; nothing written is the list without items. -/
def list? {α : Type} (item : Node → Option α) : Node → Option (List α)
  | .seq _ items => items.mapM item
  | .scalar _ "" true => some []
  | _ => none

/-- The words that say that there is nothing. -/
def isNullWord (text : String) : Bool := ["~", "null", "Null", "NULL"].contains text

/-- The tag of nothing. -/
def nullAddress : Yaml.Address := .ofText "tag:yaml.org,2002:null"

/-- Reads something that may be missing. With the tag of nothing, nothing has to be said by a word;
any other tag tells that there is something. -/
def optional? {α : Type} (item : Node → Option α) (n : Node) : Option (Option α) :=
  match n with
  | .scalar none text true => if text.isEmpty || isNullWord text then some none else (item n).map some
  | .scalar (some tag) text true =>
    if tag = nullAddress then if isNullWord text then some none else none else (item n).map some
  | _ => (item n).map some

/-- The name that a tag gives by itself: what follows its exclamation mark. -/
def ownName? : Option Yaml.Address → Option String
  | some (0x21 :: []) => some "!"
  | some (0x21 :: name) => String.fromUTF8? ⟨name.toArray⟩
  | _ => none

/-- Reads one of the names of an enumeration. The name may also be the tag of nothing. -/
def choice? {α : Type} (ofKey? : String → Option α) : Node → Option α
  | .scalar tag text plain =>
    match ownName? tag with
    | some name => if plain && (text.isEmpty || isNullWord text) then ofKey? name else none
    | none => ofKey? text
  | _ => none

/-- The value of a field, nothing if it is not there; a field that is there twice is refused. -/
def field? (pairs : List (String × Node)) (name : String) : Option (Option Node) :=
  match pairs.filter fun p => p.1 = name with
  | [] => some none
  | [p] => some (some p.2)
  | _ => none

/-- The fields of a record with the given names; nothing written is the record without fields. -/
def fields? (names : List String) : Node → Option (List (Option Node))
  | .map _ pairs => do
    let pairs ← pairs.mapM fun (key, value) => (text? key).map fun key => (key, value)
    names.mapM (field? pairs)
  | .scalar _ "" true => some (names.map fun _ => none)
  | _ => none

/-- Reads a field that has a default. -/
def orDefault? {α : Type} (item : Node → Option α) (value : α) : Option Node → Option α
  | none => some value
  | some n => item n

/-- Reads a resource. -/
def resource? (n : Node) : Option ResourceSpec := do
  match ← fields? ["name", "group", "binding", "array_size", "stages", "flags"] n with
  | [name, group, binding, arraySize, stages, flags] =>
    return {
      name := ← text? (← name)
      group := ← word? (← group)
      binding := ← word? (← binding)
      arraySize := ← orDefault? word? 1 arraySize
      stages := ← orDefault? (optional? (list? (choice? Stage.ofKey?))) none stages
      flags := ← orDefault? (list? (choice? LayoutFlag.ofKey?)) [] flags }
  | _ => none

/-- Reads the resources of a layout. -/
def resources? (n : Node) : Option (List ResourceSpec) := do
  match ← fields? ["resources"] n with
  | [resources] => list? resource? (← resources)
  | _ => none

/-- The resources that a layout file lists. -/
def specs? (text : String) : Option (List ResourceSpec) :=
  (Yaml.parse? text).bind resources?

end LayoutFile

/-- The mapping that a layout file describes. -/
def readLayout (text : String) : Except ShaderError Mapping :=
  match LayoutFile.specs? text with
  | none => .error (.layout .unreadable)
  | some specs => Mapping.ofSpecs specs

end ShaderBind
