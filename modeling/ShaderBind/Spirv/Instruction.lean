import ShaderBind.Error

/-!
# SPIR-V instructions

A SPIR-V module is a sequence of words: a header of five words, the first of which is a magic
number, and instructions behind it. The first word of an instruction holds its length in words and
its opcode. `next?` takes one instruction off a sequence, `preamble` reads the instructions before
the first function, `assemble` writes instructions as words. A string in an instruction is written
as the bytes of its UTF-8 form, closed by a zero and filled up to whole words, four bytes a word
from the lowest byte up (`writeText`, `readText?`).
-/

namespace ShaderBind.Spirv

/-- The first word of a module. -/
def magic : UInt32 := 0x07230203

/-- Number of words before the first instruction. -/
def headerSize : Nat := 5

/-- Opcode of a function's first instruction. -/
def opFunction : Nat := 54

/-- An instruction and the word it begins at. -/
structure Instruction where
  position : Nat
  opcode : Nat
  operands : List UInt32
  deriving DecidableEq, Repr

/-- The instruction at the start of a sequence whose first word is at `position`, and the words
behind it; nothing if its length is zero or runs past the end. -/
def next? (position : Nat) : List UInt32 → Option (Instruction × List UInt32)
  | [] => none
  | w :: ws =>
    let length := (w >>> 16).toNat
    if length = 0 ∨ ws.length + 1 < length then none
    else some (⟨position, (w &&& 0xFFFF).toNat, ws.take (length - 1)⟩, ws.drop (length - 1))

theorem next?_length {position : Nat} {ws rest : List UInt32} {i : Instruction}
    (h : next? position ws = some (i, rest)) :
    ws.length = i.operands.length + 1 + rest.length := by
  unfold next? at h
  split at h
  · cases h
  · rename_i w ws
    simp only at h
    split at h
    · cases h
    · cases h
      simp only [List.length_take, List.length_drop, List.length_cons]
      omega

/-- The word behind an instruction. -/
def Instruction.stop (i : Instruction) : Nat :=
  i.position + 1 + i.operands.length

/-- The instructions from `position` on, up to the first function. -/
def preambleFrom (position : Nat) (ws : List UInt32) : Except SpirvFault (List Instruction) :=
  if ws.isEmpty then .ok []
  else
    match _h : next? position ws with
    | none => .error (.malformedInstruction position)
    | some (i, rest) =>
      if i.opcode = opFunction then .ok []
      else do
        let is ← preambleFrom i.stop rest
        return i :: is
termination_by ws.length
decreasing_by
  have := next?_length _h
  omega

/-- The instructions before the first function. -/
def preamble (words : List UInt32) : Except SpirvFault (List Instruction) :=
  if words.length < headerSize ∨ words.head? ≠ some magic then .error .invalidHeader
  else preambleFrom headerSize (words.drop headerSize)

/-- The instructions from `position` on that can be read; reading ends at the first that cannot. -/
def instructionsFrom (position : Nat) (ws : List UInt32) : List Instruction :=
  match _h : next? position ws with
  | none => []
  | some (i, rest) => i :: instructionsFrom i.stop rest
termination_by ws.length
decreasing_by
  have := next?_length _h
  omega

/-- The instructions of a module that can be read. -/
def instructions (words : List UInt32) : List Instruction :=
  instructionsFrom headerSize (words.drop headerSize)

/-- The words of an instruction. -/
def encode (opcode : Nat) (operands : List UInt32) : List UInt32 :=
  UInt32.ofNat ((operands.length + 1) * 65536 + opcode) :: operands

/-! ## Text -/

/-- The bytes of a word, from the lowest up. -/
def wordBytes (w : UInt32) : List UInt8 :=
  [w.toUInt8, (w >>> 8).toUInt8, (w >>> 16).toUInt8, (w >>> 24).toUInt8]

/-- The bytes of words in a row. -/
def toBytes (words : List UInt32) : List UInt8 :=
  words.flatMap wordBytes

/-- The string that words hold, up to the first zero byte, if it is well-formed. -/
def readText? (words : List UInt32) : Option String :=
  String.fromUTF8? (ByteArray.mk ((toBytes words).takeWhile (· != 0)).toArray)

/-- Bytes as words, the last word filled up with zeros. -/
def packBytes : List UInt8 → List UInt32
  | [] => []
  | [a] => [a.toUInt32]
  | [a, b] => [a.toUInt32 ||| (b.toUInt32 <<< 8)]
  | [a, b, c] => [a.toUInt32 ||| (b.toUInt32 <<< 8) ||| (c.toUInt32 <<< 16)]
  | a :: b :: c :: d :: rest =>
    (a.toUInt32 ||| (b.toUInt32 <<< 8) ||| (c.toUInt32 <<< 16) ||| (d.toUInt32 <<< 24))
      :: packBytes rest

/-- The words of a string. -/
def writeText (s : String) : List UInt32 :=
  packBytes (s.toUTF8.toList ++ [0])

end ShaderBind.Spirv
