import ShaderBind.Module.Type
import ShaderBind.Text.Identifier
import ShaderBind.Text.Number

/-!
# Tokens of WGSL

A WGSL text is cut into words, numbers and marks (`tokens?`). White space and comments separate
tokens; comments between stars nest, and one that is not closed hides the rest of the text. A number
tells its type by its form and by the letters behind it (`number?`).
-/

namespace ShaderBind.Wgsl

/-- A number as it is written: its type, and its value if it is an integer. -/
structure Literal where
  scalar : Scalar
  value : Option Nat := none
  deriving DecidableEq, Repr

/-- A token. -/
inductive Token
  | word (text : String)
  | number (l : Literal)
  | mark (c : Char)
  /-- A mark of two characters. -/
  | pair (a b : Char)
  deriving DecidableEq, Repr

/-! ## Types of numbers -/

/-- The type of signed integers. -/
def i32 : Scalar := ⟨.sint, 4⟩

/-- The type of unsigned integers. -/
def u32 : Scalar := ⟨.uint, 4⟩

/-- The type of floating point numbers. -/
def f32 : Scalar := ⟨.float, 4⟩

/-- The type of truth values. -/
def boolean : Scalar := ⟨.bool, 1⟩

/-- The type of an integer that has not been given a type. -/
def abstractInt : Scalar := ⟨.abstractInt, 8⟩

/-- The type of a number with a fraction that has not been given a type. -/
def abstractFloat : Scalar := ⟨.abstractFloat, 8⟩

/-- One more than the greatest integer of a type. -/
def intBound : Scalar → Nat
  | ⟨.sint, 4⟩ => 0x80000000
  | ⟨.uint, 4⟩ => 0x100000000
  | ⟨.uint, _⟩ => 0x10000000000000000
  | _ => 0x8000000000000000

/-! ## Numbers -/

/-- The type that letters behind an integer give, and the rest. -/
def intSuffix : List Char → Scalar × List Char
  | 'i' :: s => (i32, s)
  | 'u' :: s => (u32, s)
  | 'l' :: 'i' :: s => (⟨.sint, 8⟩, s)
  | 'l' :: 'u' :: s => (⟨.uint, 8⟩, s)
  | s => (abstractInt, s)

/-- The type that letters behind a fraction give, and the rest; there are no numbers of half the
width. -/
def floatSuffix? : List Char → Option (Scalar × List Char)
  | 'f' :: s => some (f32, s)
  | 'l' :: 'f' :: s => some (⟨.float, 8⟩, s)
  | 'h' :: _ => none
  | s => some (abstractFloat, s)

/-- The integer of a type with the given digits, unless it is too great. -/
def intLiteral? (base : Nat) (digits : List Char) (s : Scalar) : Option Literal := do
  let n ← Text.numberIn? base digits
  if n < intBound s then some ⟨s, some n⟩ else none

/-- What follows an exponent, which has a sign or not, and at least one digit. -/
def exponentEnd? (s : List Char) : Option (List Char) :=
  let s := match s with
    | '+' :: s => s
    | '-' :: s => s
    | s => s
  if s.head?.any Text.isDigit then some (s.dropWhile Text.isDigit) else none

/-- The number with a fraction or an exponent that ends here. -/
def floatEnd? (s : List Char) : Option (Literal × List Char) :=
  (floatSuffix? s).map fun (scalar, s) => (⟨scalar, none⟩, s)

/-- Reads a hexadecimal number behind its mark. -/
def hexNumber? (s : List Char) : Option (Literal × List Char) :=
  let isHex (c : Char) : Bool := (Text.hexValue? c).isSome
  let digits := s.takeWhile isHex
  match s.dropWhile isHex with
  | '.' :: s =>
    let rest := s.dropWhile isHex
    if digits.isEmpty && !s.head?.any isHex then none
    else
      match rest with
      | 'p' :: s | 'P' :: s => (exponentEnd? s).bind floatEnd?
      | s => some (⟨abstractFloat, none⟩, s)
  | 'p' :: s | 'P' :: s => if digits.isEmpty then none else (exponentEnd? s).bind floatEnd?
  | s =>
    let (scalar, s) := intSuffix s
    (intLiteral? 16 digits scalar).map fun l => (l, s)

/-- Reads a decimal number. One of several digits does not begin with zero, unless a fraction or an
exponent follows. -/
def decimalNumber? (s : List Char) : Option (Literal × List Char) :=
  let digits := s.takeWhile Text.isDigit
  match s.dropWhile Text.isDigit with
  | '.' :: s =>
    match s.dropWhile Text.isDigit with
    | 'e' :: s | 'E' :: s => (exponentEnd? s).bind floatEnd?
    | s => floatEnd? s
  | 'e' :: s | 'E' :: s => (exponentEnd? s).bind floatEnd?
  | s =>
    if digits.length > 1 && digits.head? = some '0' then none
    else
      match s with
      | 'f' :: _ | 'h' :: _ | 'l' :: 'f' :: _ => floatEnd? s
      | s =>
        let (scalar, s) := intSuffix s
        (intLiteral? 10 digits scalar).map fun l => (l, s)

/-- Reads a number. -/
def number? : List Char → Option (Literal × List Char)
  | '0' :: 'x' :: s => hexNumber? s
  | '0' :: 'X' :: s => hexNumber? s
  | s => decimalNumber? s

/-! ## The whole text -/

/-- White space. -/
def isSpace (c : Char) : Bool :=
  c == ' ' || ('\t' ≤ c && c ≤ '\r') || c == '\u0085' || c == '\u200e' || c == '\u200f' ||
    c == '\u2028' || c == '\u2029'

/-- Whether a character ends a comment of one line. -/
def endsComment (c : Char) : Bool :=
  ('\n' ≤ c && c ≤ '\r') || c == '\u0085' || c == '\u2028' || c == '\u2029'

/-- What follows a comment between stars, `depth` more of which are open around it. -/
def afterComment : (depth : Nat) → List Char → List Char
  | _, [] => []
  | 0, '*' :: '/' :: s => s
  | depth + 1, '*' :: '/' :: s => afterComment depth s
  | depth, '/' :: '*' :: s => afterComment (depth + 1) s
  | depth, _ :: s => afterComment depth s

/-- The marks that a token of one character may be. Brackets of types are never part of a longer
mark. -/
def marks : List Char := ":;,.@()\x7b\x7d[]<>=!&|^+-*%/~".toList

/-- The marks of two characters. -/
def pairs : List (Char × Char) :=
  [('-', '>'), ('-', '-'), ('-', '='), ('+', '+'), ('+', '='), ('*', '='), ('/', '='), ('%', '='),
   ('&', '&'), ('&', '='), ('|', '|'), ('|', '='), ('^', '='), ('=', '='), ('!', '=')]

/-- The tokens from here on. Every step takes a character, so that the number of characters is
enough fuel. -/
def tokensFrom : (fuel : Nat) → List Char → Option (List Token)
  | _, [] => some []
  | 0, _ => none
  | fuel + 1, '/' :: '/' :: s => tokensFrom fuel (s.dropWhile (!endsComment ·))
  | fuel + 1, '/' :: '*' :: s => tokensFrom fuel (afterComment 0 s)
  | fuel + 1, c :: s =>
    if isSpace c then tokensFrom fuel s
    else if Text.isIdentifierStart c then do
      let rest ← tokensFrom fuel (s.dropWhile Text.isIdentifierChar)
      return .word (String.ofList (c :: s.takeWhile Text.isIdentifierChar)) :: rest
    else if Text.isDigit c || (c == '.' && s.head?.any Text.isDigit) then do
      let (l, s) ← number? (c :: s)
      return .number l :: (← tokensFrom fuel s)
    else
      match s with
      | d :: s' =>
        if pairs.contains (c, d) then return .pair c d :: (← tokensFrom fuel s')
        else if marks.contains c then return .mark c :: (← tokensFrom fuel s)
        else none
      | [] => if marks.contains c then some [.mark c] else none

/-- The tokens of a text. -/
def tokens? (text : String) : Option (List Token) :=
  tokensFrom text.length text.toList

end ShaderBind.Wgsl
