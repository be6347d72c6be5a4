import ShaderBind.Text.Cut
import ShaderBind.Text.Number

/-!
# Names of array elements

Where a language has no arrays of resources, an array is declared as separate variables named by
the array, a suffix, and the index. `ElementName.read?` takes such a name apart. The suffix may
occur several times, and may overlap itself: the last place where it is followed by an index and
nothing else is taken, so the array's name is as long as can be. The search works on positions in
bytes, and no position it cuts the name at may lie inside a character.
-/

namespace ShaderBind

/-- An array and an index into it. -/
structure ElementName where
  base : String
  index : UInt32
  deriving DecidableEq, Repr

namespace ElementName

/-- What a name is read as: an array and an index into it, or the whole name and -1. -/
structure Reading where
  base : String
  index : Int
  deriving DecidableEq, Repr

/-- Whether the name is an element's. -/
def Reading.isValid (r : Reading) : Bool :=
  0 ≤ r.index

/-- A name that is no element's. -/
def Reading.whole (name : String) : Reading :=
  ⟨name, -1⟩

/-- The index in an array named `base` that is written in digits and nothing else. -/
def index? (base digits : List Char) : Option Int :=
  if base ≠ [] ∧ digits ≠ [] ∧ digits.all Text.isDigit then Text.readInt? digits else none

/-- The window that ends before the last suffix of a window does is shorter. -/
theorem next_lt {suffix name window before after : List Char} (hsuffix : suffix ≠ [])
    (hlast : Text.splitLast? suffix window = some (before, after)) :
    Text.boundaryBelow name (Text.bytes before + Text.bytes suffix - 1) < Text.bytes window := by
  have hpos := Text.bytes_pos hsuffix
  have hbelow := Text.boundaryBelow_le name (Text.bytes before + Text.bytes suffix - 1)
  rw [Text.eq_append_of_splitLast? hlast, Text.bytes_append, Text.bytes_append]
  omega

/-- Reads a name by the last suffix among its first `stop` bytes. If no index follows that suffix,
the search goes on with those that end before it does, and these may overlap it. There is no result
if the name would be cut inside a character. -/
def search (suffix name : List Char) (hsuffix : suffix ≠ []) (stop : Nat) : Option Reading :=
  match _hcut : Text.cutAt? stop name with
  | none => none
  | some (window, _) =>
    match _hlast : Text.splitLast? suffix window with
    | none => some (.whole (String.ofList name))
    | some (before, _) =>
      match Text.cutAt? (Text.bytes before + Text.bytes suffix) name with
      | none => none
      | some (_, digits) =>
        match index? before digits with
        | some index => some ⟨String.ofList before, index⟩
        | none =>
          search suffix name hsuffix
            (Text.boundaryBelow name (Text.bytes before + Text.bytes suffix - 1))
termination_by stop
decreasing_by
  rw [← (Text.cutAt?_eq_some _hcut).2]
  exact next_lt hsuffix _hlast

/-- What a name is read as, with the given suffix between arrays and indices. -/
def read? (suffix name : String) : Option Reading :=
  if hsuffix : suffix.toList = [] then some (.whole name)
  else search suffix.toList name.toList hsuffix (Text.bytes name.toList)

/-- The element that was read. -/
def Reading.element? (r : Reading) : Option ElementName :=
  if r.isValid then some ⟨r.base, UInt32.ofNat r.index.toNat⟩ else none

/-- The array and the index that a name stands for. -/
def parse? (suffix name : String) : Option ElementName :=
  (read? suffix name).bind Reading.element?

end ElementName

end ShaderBind
