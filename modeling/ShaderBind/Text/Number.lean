import ShaderBind.Text.Class

/-!
# Numbers in text

Reading of bounded decimal numbers. A number is a non-empty run of ASCII digits, leading zeros
allowed; `readWord?` takes an optional plus sign and the range of 32-bit words, `readInt?` either
sign and the range of signed 32-bit numbers. Digits of a base up to sixteen may be letters in either
case (`digitIn?`), and `numberIn?` is the number that they write.
-/

namespace ShaderBind.Text

/-! ## Decimal numbers -/

/-- Value of a run of digits. -/
def decimalValue (ds : List Char) : Nat :=
  ds.foldl (fun n c => 10 * n + (c.toNat - '0'.toNat)) 0

/-- The number that a non-empty run of ASCII digits denotes. -/
def readNat? (ds : List Char) : Option Nat :=
  if ds ≠ [] ∧ ds.all isDigit then some (decimalValue ds) else none

/-- A 32-bit word, with or without a plus sign. -/
def readWord? (s : List Char) : Option UInt32 :=
  let ds := match s with
    | '+' :: ds => ds
    | _ => s
  (readNat? ds).bind fun n => if n < UInt32.size then some (UInt32.ofNat n) else none

/-- One more than the greatest signed 32-bit number. -/
def signBit : Nat := 0x80000000

/-- A signed 32-bit number. -/
def readInt? (s : List Char) : Option Int :=
  match s with
  | '-' :: ds => (readNat? ds).bind fun n => if n ≤ signBit then some (-n) else none
  | '+' :: ds => (readNat? ds).bind fun n => if n < signBit then some n else none
  | ds => (readNat? ds).bind fun n => if n < signBit then some n else none

/-! ## Numbers in a base -/

/-- The value of a hexadecimal digit. -/
def hexValue? (c : Char) : Option Nat :=
  if '0' ≤ c ∧ c ≤ '9' then some (c.toNat - '0'.toNat)
  else if 'a' ≤ c ∧ c ≤ 'f' then some (c.toNat - 'a'.toNat + 10)
  else if 'A' ≤ c ∧ c ≤ 'F' then some (c.toNat - 'A'.toNat + 10)
  else none

/-- The value of a digit of a base up to sixteen. -/
def digitIn? (base : Nat) (c : Char) : Option Nat :=
  (hexValue? c).filter (· < base)

/-- The number that digits of a base write. -/
def numberIn? (base : Nat) (cs : List Char) : Option Nat :=
  if cs.isEmpty then none
  else cs.foldlM (fun n c => (digitIn? base c).map (base * n + ·)) 0

end ShaderBind.Text
