/-!
# Binding coordinates

A resource is bound at a group and at a binding inside the group (`Coord`), both 32-bit words.
Sums and differences of words are checked (`addWords`, `subWords`), and so are positions in lists
(`itemAt`): one that is no word, or that the list does not have, stops the computation, as does
every other fault of the machine (`Crash`). A table of moves takes places to places (`Moves`): all
moves act at once, on the places as they were, so that chains and swaps are safe, and of two moves
from one place the later counts.
-/

namespace ShaderBind

/-- What is left of a computation that broke off: the text it broke off with, if it had one. -/
inductive Crash
  | text (message : String)
  | silent
  deriving DecidableEq, Repr

namespace Crash

/-- A sum that does not fit its word. -/
def addOverflow : Crash := text "attempt to add with overflow"

/-- A difference below zero. -/
def subOverflow : Crash := text "attempt to subtract with overflow"

/-- A position that a list does not have. -/
def outOfBounds (length index : Nat) : Crash :=
  text s!"index out of bounds: the len is {length} but the index is {index}"

/-- The text, or a stand-in for it. -/
def message : Crash → String
  | text m => m
  | silent => "unknown panic payload"

end Crash

/-- The place a resource is bound at. -/
structure Coord where
  group : UInt32
  binding : UInt32
  deriving DecidableEq, Repr, Inhabited

/-- Whether a place comes no later than another: by group, then by binding. -/
def Coord.le (a b : Coord) : Bool :=
  a.group < b.group || (a.group = b.group && a.binding ≤ b.binding)

/-- Places in order. -/
def Coord.sort (cs : List Coord) : List Coord := cs.mergeSort Coord.le

/-- The sum of two words, if it is one. -/
def addWords (a b : UInt32) : Except Crash UInt32 :=
  if a.toNat + b.toNat < UInt32.size then .ok (a + b) else .error .addOverflow

theorem addWords_eq_ok_iff {a b c : UInt32} :
    addWords a b = .ok c ↔ a.toNat + b.toNat = c.toNat := by
  unfold addWords
  split
  · rename_i h
    constructor
    · rintro ⟨⟩
      rw [UInt32.toNat_add, Nat.mod_eq_of_lt h]
    · intro hc
      congr 1
      apply UInt32.toNat_inj.1
      rw [UInt32.toNat_add, Nat.mod_eq_of_lt h, hc]
  · rename_i h
    constructor
    · rintro ⟨⟩
    · intro hc
      exact absurd (hc ▸ c.toNat_lt) h

theorem exists_addWords_iff {a b : UInt32} :
    (∃ c, addWords a b = .ok c) ↔ a.toNat + b.toNat < UInt32.size := by
  unfold addWords
  split
  next h => exact ⟨fun _ => h, fun _ => ⟨_, rfl⟩⟩
  next h => exact ⟨fun ⟨_, hc⟩ => (by cases hc), fun hlt => absurd hlt h⟩

theorem one_le_word_iff {a : UInt32} : 1 ≤ a ↔ a ≠ 0 := by
  rw [UInt32.le_iff_toNat_le, Ne, ← UInt32.toNat_inj]
  exact Nat.one_le_iff_ne_zero

/-- The difference of two words, if it is one. -/
def subWords (a b : UInt32) : Except Crash UInt32 :=
  if b ≤ a then .ok (a - b) else .error .subOverflow

theorem subWords_eq_ok_iff {a b c : UInt32} :
    subWords a b = .ok c ↔ c.toNat + b.toNat = a.toNat := by
  unfold subWords
  split
  next h =>
    have hle := UInt32.le_iff_toNat_le.1 h
    rw [Except.ok.injEq, ← UInt32.toNat_inj, UInt32.toNat_sub_of_le a b h]
    omega
  next h =>
    rw [UInt32.le_iff_toNat_le] at h
    constructor
    · rintro ⟨⟩
    · omega

theorem exists_subWords_iff {a b : UInt32} : (∃ c, subWords a b = .ok c) ↔ b ≤ a := by
  unfold subWords
  split
  next h => exact ⟨fun _ => h, fun _ => ⟨_, rfl⟩⟩
  next h => exact ⟨fun ⟨_, hc⟩ => (by cases hc), fun hle => absurd hle h⟩

/-- The item at a position of a list, if it has the position. -/
def itemAt {α : Type} (xs : List α) (i : Nat) : Except Crash α :=
  match xs[i]? with
  | some x => .ok x
  | none => .error (.outOfBounds xs.length i)

theorem itemAt_eq_ok_iff {α : Type} {xs : List α} {i : Nat} {x : α} :
    itemAt xs i = .ok x ↔ xs[i]? = some x := by
  unfold itemAt
  cases xs[i]? <;> simp

/-! ## Moves -/

/-- Moves from places to places. -/
abbrev Moves := List (Coord × Coord)

/-- Where a place is moved to, if it is moved. -/
def Moves.target? (moves : Moves) (place : Coord) : Option Coord :=
  (moves.reverse.find? fun m => m.1 = place).map Prod.snd

/-- Where a place ends up. -/
def Moves.apply (moves : Moves) (place : Coord) : Coord :=
  (moves.target? place).getD place

end ShaderBind
