import ShaderBind.Module.Type

/-!
# Layout of types in buffers

Every type has an alignment: vectors of three components are aligned like those of four, matrices
like their columns, arrays like their elements and structs like the strictest of their members.
Members follow each other at the next offset that suits them (`ShaderType.ofMembers`).
-/

namespace ShaderBind

/-- The least multiple of `a` from `n` on. -/
def roundUp (a n : Nat) : Nat :=
  if a = 0 then n else (n + a - 1) / a * a

/-- Alignment of a type without parts. -/
def BasicShape.alignment : BasicShape → Nat
  | scalar s => s.width
  | atomic s => s.width
  | vector n s => (if n = 2 then 2 else 4) * s.width
  | matrix _ rows s => (if rows = 2 then 2 else 4) * s.width
  | _ => 1

namespace ShaderType

mutual

/-- Alignment of a type. -/
def alignment : ShaderType → Nat
  | basic _ shape => shape.alignment
  | array _ base _ _ => alignment base
  | bindingArray .. => 1
  | struct _ members _ => membersAlignment members

/-- The strictest alignment of members. -/
def membersAlignment : List (Member ShaderType) → Nat
  | [] => 1
  | ⟨_, _, type⟩ :: members => max (alignment type) (membersAlignment members)

end

/-- The array of a type, its elements rounded up to their alignment. -/
def arrayOf (base : ShaderType) (size : ArraySize) : ShaderType :=
  array none base (roundUp base.alignment base.size) size

/-- The offsets of members that follow each other from `start` on, and where they end. -/
def placeMembers (start : Nat) :
    List (Option String × ShaderType) → List (Member ShaderType) × Nat
  | [] => ([], start)
  | (name, type) :: rest =>
    let offset := roundUp type.alignment start
    let (members, stop) := placeMembers (offset + type.size) rest
    (⟨name, offset, type⟩ :: members, stop)

/-- The struct with the given members. -/
def ofMembers (name : Option String) (members : List (Option String × ShaderType)) : ShaderType :=
  let (placed, stop) := placeMembers 0 members
  struct name placed (roundUp (membersAlignment placed) stop)

/-- The struct with members at given offsets. -/
def ofPlaced (name : Option String) (members : List (Member ShaderType)) : ShaderType :=
  let stop := (members.map fun m => m.offset + m.type.size).foldl max 0
  struct name members (roundUp (membersAlignment members) stop)

end ShaderType

end ShaderBind
