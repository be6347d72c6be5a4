/-!
# The conversion cache

Conversion results by path. The cache only grows: the first value stored at a path stays
(`Cache.store`), and a conversion runs only when its path holds no value (`Cache.getOrConvert`).

Callers that share a cache can come between the steps of each other (`Cache.Call.step`): a caller
that missed converts on its own and then stores, and if another caller was faster, both get the
value that is there.
-/

namespace ShaderBind.Source

/-- Values by path, in the order of their storing. -/
structure Cache (α : Type) where
  entries : List (String × α) := []

namespace Cache

variable {α : Type}

/-- The empty cache. -/
def empty : Cache α := ⟨[]⟩

/-- The value at a path. -/
def get? (c : Cache α) (path : String) : Option α :=
  (c.entries.find? fun e => e.1 = path).map Prod.snd

/-- Stores a value at a path that has none; otherwise the cache stays as it is. -/
def store (c : Cache α) (path : String) (value : α) : Cache α :=
  match c.get? path with
  | some _ => c
  | none => ⟨c.entries ++ [(path, value)]⟩

/-- Number of paths with a value. -/
def size (c : Cache α) : Nat :=
  c.entries.length

/-- The value at a path after an attempt to store `value` there. -/
def settle (c : Cache α) (path : String) (value : α) : α :=
  ((c.store path value).get? path).getD value

/-- The value at a path and the cache that holds it. A missing value is converted and stored; a
failed conversion leaves the cache alone. -/
def getOrConvert {ε : Type} (c : Cache α) (path : String) (convert : Except ε α) :
    Except ε α × Cache α :=
  match c.get? path with
  | some value => (.ok value, c)
  | none =>
    match convert with
    | .ok value => (.ok (c.settle path value), c.store path value)
    | .error e => (.error e, c)

/-- What a caller asks a shared cache for, and what its conversion gives if it is run. -/
structure Request (ε α : Type) where
  path : String
  convert : Except ε α

/-- How far a caller of a shared cache is. -/
inductive Call (ε α : Type)
  | begun
  /-- It found no value and has to convert. -/
  | missed
  /-- It has a value to store. -/
  | converted (value : α)
  | returned (result : Except ε α)

/-- One step of a caller, during which no other caller comes to the cache: it looks the path up,
converts, or stores its value and takes the one that is there. -/
def Call.step {ε : Type} (r : Request ε α) (c : Cache α) : Call ε α → Call ε α × Cache α
  | .begun =>
    match c.get? r.path with
    | some value => (.returned (.ok value), c)
    | none => (.missed, c)
  | .missed =>
    match r.convert with
    | .ok value => (.converted value, c)
    | .error e => (.returned (.error e), c)
  | .converted value => (.returned (.ok (c.settle r.path value)), c.store r.path value)
  | .returned result => (.returned result, c)

end Cache

end ShaderBind.Source
