/-!
# JSON values

The values that reports are made of, and their two written forms: on one line (`Json.compress`)
and laid out with two spaces a level (`Json.pretty`). Fields keep the order they are given in.
-/

namespace ShaderBind

/-- A JSON value whose numbers are integers. -/
inductive Json
  | null
  | bool (b : Bool)
  | int (n : Int)
  | str (s : String)
  | arr (items : List Json)
  | obj (fields : List (String × Json))
  deriving Repr, Inhabited

namespace Json

/-- A word as a number. -/
def word (w : UInt32) : Json := int w.toNat

/-- A natural number. -/
def nat (n : Nat) : Json := int n

/-- A text, or null. -/
def text? (s : Option String) : Json := (s.map str).getD null

/-- Texts in a row. -/
def texts (ss : List String) : Json := arr (ss.map str)

/-- A hexadecimal digit. -/
def hexDigit (n : Nat) : Char := (Nat.digitChar n)

/-- A character as it is written inside a text: the quote, the backslash and what is below the
space are escaped. -/
def escape (c : Char) : String :=
  if c = '"' then "\\\""
  else if c = '\\' then "\\\\"
  else if c = '\n' then "\\n"
  else if c = '\r' then "\\r"
  else if c = '\t' then "\\t"
  else if c = '\x08' then "\\b"
  else if c = '\x0c' then "\\f"
  else if c < ' ' then
    "\\u00" ++ String.ofList [hexDigit (c.toNat / 16), hexDigit (c.toNat % 16)]
  else String.singleton c

/-- A text in quotes. -/
def quote (s : String) : String :=
  "\"" ++ s.foldl (fun written c => written ++ escape c) "" ++ "\""

/-- The text of a truth value. -/
def boolText (b : Bool) : String := if b then "true" else "false"

mutual

/-- The value on one line. -/
def compress : Json → String
  | null => "null"
  | bool b => boolText b
  | int n => toString n
  | str s => quote s
  | arr items => "[" ++ compressItems items ++ "]"
  | obj fields => "\x7b" ++ compressFields fields ++ "\x7d"

/-- Items on one line. -/
def compressItems : List Json → String
  | [] => ""
  | [j] => compress j
  | j :: js => compress j ++ "," ++ compressItems js

/-- Fields on one line. -/
def compressFields : List (String × Json) → String
  | [] => ""
  | [(key, j)] => quote key ++ ":" ++ compress j
  | (key, j) :: fields => quote key ++ ":" ++ compress j ++ "," ++ compressFields fields

end

/-- A new line at a level. -/
def newline (level : Nat) : String :=
  "\n" ++ String.ofList (List.replicate (2 * level) ' ')

mutual

/-- The value at a level, one item or field a line; what is empty stays on its line. -/
def prettyAt (level : Nat) : Json → String
  | null => "null"
  | bool b => boolText b
  | int n => toString n
  | str s => quote s
  | arr [] => "[]"
  | arr (j :: js) =>
    "[" ++ newline (level + 1) ++ prettyItems (level + 1) (j :: js) ++ newline level ++ "]"
  | obj [] => "\x7b\x7d"
  | obj (f :: fs) =>
    "\x7b" ++ newline (level + 1) ++ prettyFields (level + 1) (f :: fs) ++ newline level ++ "\x7d"

/-- Items at a level. -/
def prettyItems (level : Nat) : List Json → String
  | [] => ""
  | [j] => prettyAt level j
  | j :: js => prettyAt level j ++ "," ++ newline level ++ prettyItems level js

/-- Fields at a level. -/
def prettyFields (level : Nat) : List (String × Json) → String
  | [] => ""
  | [(key, j)] => quote key ++ ": " ++ prettyAt level j
  | (key, j) :: fields =>
    quote key ++ ": " ++ prettyAt level j ++ "," ++ newline level ++ prettyFields level fields

end

/-- The value laid out over lines. -/
def pretty (j : Json) : String := prettyAt 0 j

end Json

end ShaderBind
