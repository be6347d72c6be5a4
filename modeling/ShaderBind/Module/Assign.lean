import ShaderBind.Module.Basic

/-!
# Assignment of bindings

Variables that are bound need places of their own. `ShaderModule.assignBindings` leaves the first
variable of every place where it is, and gives all others the lowest binding that is free in their
group, in order; those without a place go to group zero.
-/

namespace ShaderBind

namespace Assign

/-- The lowest binding from `start` on that is not taken in a group. The fuel is the number of
places taken, one of which every step passes. -/
def lowestFree (taken : List Coord) (group : UInt32) : (fuel : Nat) → (start : UInt32) → UInt32
  | 0, start => start
  | fuel + 1, start =>
    if taken.contains ⟨group, start⟩ then lowestFree taken group fuel (start + 1) else start

/-- The lowest free binding of a group. -/
def freeBinding (taken : List Coord) (group : UInt32) : UInt32 :=
  lowestFree taken group taken.length 0

/-- The places that are kept: of every place the first variable that has it. -/
def keptPlaces : List Global → List Coord → List Coord
  | [], kept => kept
  | g :: gs, kept =>
    match g.place with
    | some place =>
      if g.space.isBound && !kept.contains place then keptPlaces gs (place :: kept)
      else keptPlaces gs kept
    | none => keptPlaces gs kept

/-- Gives places to variables in turn: `kept` are the places still to be kept by the first
variable that has them, `taken` are those in use. Counts the variables that moved. -/
def assignAll : (kept taken : List Coord) → List Global → List Global × Nat
  | _, _, [] => ([], 0)
  | kept, taken, g :: gs =>
    if !g.space.isBound then
      let (gs, n) := assignAll kept taken gs
      (g :: gs, n)
    else
      match g.place with
      | some place =>
        if kept.contains place then
          let (gs, n) := assignAll (kept.erase place) taken gs
          (g :: gs, n)
        else
          let new := ⟨place.group, freeBinding taken place.group⟩
          let (gs, n) := assignAll kept (new :: taken) gs
          ({ g with place := some new } :: gs, n + 1)
      | none =>
        let new := ⟨0, freeBinding taken 0⟩
        let (gs, n) := assignAll kept (new :: taken) gs
        ({ g with place := some new } :: gs, n + 1)

end Assign

/-- The module with a place of its own for every bound variable, and the number of variables that
got a new one. -/
def ShaderModule.assignBindings (m : ShaderModule) : ShaderModule × Nat :=
  let kept := Assign.keptPlaces m.globals []
  let (globals, n) := Assign.assignAll kept kept m.globals
  ({ m with globals }, n)

end ShaderBind
