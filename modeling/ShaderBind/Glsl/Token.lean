import ShaderBind.Text.Cut
import ShaderBind.Text.Identifier
import ShaderBind.Text.Number

/-!
# Tokens of GLSL

A GLSL text is cut into lines of words, numbers and marks (`lines?`), since its directives are lines.
A backslash at the end of a line joins it with the next. A comment between stars does not nest, and the
lines inside it are no lines of the text. Characters that begin no token are refused, also where a
directive hides the line.
-/

namespace ShaderBind.Glsl

/-- A token. -/
inductive Token
  | word (text : String)
  | integer (value : Nat) (isSigned : Bool)
  /-- A number with a fraction or an exponent. -/
  | fraction
  | mark (c : Char)
  deriving DecidableEq, Repr

/-! ## Lines -/

/-- The text with one kind of line break, and without those behind a backslash. -/
def joinLines : List Char → List Char
  | '\\' :: '\r' :: '\n' :: s => joinLines s
  | '\\' :: '\n' :: s => joinLines s
  | '\\' :: '\r' :: s => joinLines s
  | '\r' :: '\n' :: s => '\n' :: joinLines s
  | '\r' :: s => '\n' :: joinLines s
  | c :: s => c :: joinLines s
  | [] => []

/-- Where a character stands. -/
inductive Region
  | code
  | lineComment
  | blockComment

/-- The text with a blank for every comment, nothing if one is not closed. -/
def withoutComments? : Region → List Char → Option (List Char)
  | .blockComment, [] => none
  | _, [] => some []
  | .code, '/' :: '/' :: s => withoutComments? .lineComment s
  | .code, '/' :: '*' :: s => withoutComments? .blockComment s
  | .code, c :: s => (withoutComments? .code s).map (c :: ·)
  | .lineComment, '\n' :: s => (withoutComments? .code s).map ('\n' :: ·)
  | .lineComment, _ :: s => withoutComments? .lineComment s
  | .blockComment, '*' :: '/' :: s => (withoutComments? .code s).map (' ' :: ·)
  | .blockComment, _ :: s => withoutComments? .blockComment s

/-! ## Tokens -/

/-- Whether a character separates tokens of a line. -/
def isBlank (c : Char) : Bool :=
  c == ' ' || c == '\t' || c == '\x0b' || c == '\x0c'

/-- The marks. -/
def marks : List Char :=
  ['(', ')', '\x7b', '\x7d', '[', ']', ';', ',', '.', ':', '?', '~', '=', '+', '-', '*', '/', '%', '<',
   '>', '&', '|', '^', '!', '#']

/-- The value of digits: with a zero in front they are octal, with `0x` in front hexadecimal. -/
def digitsValue? : List Char → Option Nat
  | '0' :: 'x' :: ds => Text.numberIn? 16 ds
  | '0' :: 'X' :: ds => Text.numberIn? 16 ds
  | '0' :: d :: ds => Text.numberIn? 8 (d :: ds)
  | ds => Text.numberIn? 10 ds

/-- The number that a text writes; a letter behind it tells that it has no sign. -/
def number? (s : List Char) : Option Token :=
  let unsigned := (Text.dropSuffix? ['u'] s).or (Text.dropSuffix? ['U'] s)
  match digitsValue? (unsigned.getD s) with
  | some n => if n < UInt64.size then some (.integer n unsigned.isNone) else none
  | none => if s.contains '.' || s.contains 'e' || s.contains 'E' then some .fraction else none

/-- The word or number that was read, its last character first; nothing inside for none. -/
def readToken? (read : List Char) : Option (List Token) :=
  match read.reverse with
  | [] => some []
  | c :: s =>
    if Text.isDigit c then (number? (c :: s)).map ([·]) else some [.word (String.ofList (c :: s))]

/-- Whether a word or number goes on with a character. -/
def goesOn (read : List Char) (c : Char) : Bool :=
  match read.getLast? with
  | none => false
  | some first => Text.isIdentifierChar c || (c == '.' && Text.isDigit first)

/-- The tokens of the rest of a line behind what was read of a word or number. -/
def tokensFrom? : (read : List Char) → List Char → Option (List Token)
  | read, [] => readToken? read
  | read, c :: cs =>
    if goesOn read c then tokensFrom? (c :: read) cs
    else do
      let before ← readToken? read
      if isBlank c then return before ++ (← tokensFrom? [] cs)
      else if Text.isIdentifierStart c || Text.isDigit c then return before ++ (← tokensFrom? [c] cs)
      else if marks.contains c then return before ++ .mark c :: (← tokensFrom? [] cs)
      else none

/-- The tokens of the lines of a text. -/
def lines? (text : String) : Option (List (List Token)) := do
  let s ← withoutComments? .code (joinLines text.toList)
  (Text.splitOn '\n' s).mapM (tokensFrom? [])

end ShaderBind.Glsl
