import ShaderBind.Text.Number
import ShaderBind.Yaml.Cursor

/-!
# Tags, anchors and directives of YAML

What may stand before a node: an anchor, which an alias refers to, and a tag, which names a type. A
tag is written with a handle that stands for the start of an address, with nothing but an exclamation
mark, or as the whole address in angle brackets (`tag?`). What handles stand for may be given by
directives before a document (`Directive`, `resolve?`). Addresses are bytes, since they may hold
escaped ones.
-/

namespace ShaderBind.Yaml

/-- A letter, a digit, an underscore or a hyphen. -/
def isWordChar (c : Char) : Bool := Text.isNameChar c || c == '-'

/-- Reads the name of an anchor or an alias behind its mark; only some marks may follow it. -/
def anchorName? (c : Cursor) : Option (String × Cursor) :=
  let (name, c) := c.span isWordChar
  let ends := atBlank c.rest || c.rest.head?.any fun d => "?:,]\x7d%@\x60".toList.contains d
  if !name.isEmpty && ends then some (String.ofList name, c) else none

/-! ## Tags -/

/-- An address of a type. -/
abbrev Address := List UInt8

/-- The bytes of a text. -/
def Address.ofText (s : String) : Address := s.toUTF8.toList

/-- A tag as it is written: a handle and what follows it. -/
structure Tag where
  handle : String
  suffix : Address
  deriving DecidableEq, Repr

/-- The characters of an address, in brackets or not. -/
def isAddressChar (bracketed : Bool) (c : Char) : Bool :=
  isWordChar c || ";/?:@&=+$.%!~*'()".toList.contains c || (bracketed && ",[]".toList.contains c)

/-- The number of bytes that follow the first byte of a character. -/
def trailingBytes? (b : Nat) : Option Nat :=
  if b < 0x80 then some 0
  else if 0xc0 ≤ b ∧ b < 0xe0 then some 1
  else if 0xe0 ≤ b ∧ b < 0xf0 then some 2
  else if 0xf0 ≤ b ∧ b < 0xf8 then some 3
  else none

/-- The address that characters write, in which `expected` more bytes of a character are due. -/
def addressBytes? : (expected : Nat) → List Char → Option Address
  | 0, [] => some []
  | _ + 1, [] => none
  | expected, '%' :: a :: b :: s => do
    let byte := 16 * (← Text.hexValue? a) + (← Text.hexValue? b)
    match expected with
    | 0 =>
      let more ← trailingBytes? byte
      (addressBytes? more s).map (UInt8.ofNat byte :: ·)
    | n + 1 =>
      if 0x80 ≤ byte ∧ byte < 0xc0 then (addressBytes? n s).map (UInt8.ofNat byte :: ·) else none
  | 0, c :: s => if c == '%' then none else (addressBytes? 0 s).map (UInt8.ofNat c.toNat :: ·)
  | _ + 1, _ :: _ => none

/-- Reads an address. -/
def address? (bracketed : Bool) (c : Cursor) : Option (Address × Cursor) :=
  let (taken, c) := c.span (isAddressChar bracketed)
  (addressBytes? 0 taken).map fun a => (a, c)

/-- Reads a handle: an exclamation mark, a word and, if it is there, a second mark. -/
def handle? (c : Cursor) : Option (String × Cursor) :=
  match c.rest with
  | '!' :: _ =>
    let (word, after) := (c.advance 1).span isWordChar
    if after.rest.head? = some '!' then
      some ("!" ++ String.ofList word ++ "!", after.advance 1)
    else some ("!" ++ String.ofList word, after)
  | _ => none

/-- Whether a handle has both of its marks. -/
def isFullHandle (handle : String) : Bool := handle.length > 1 && handle.endsWith "!"

/-- Reads a tag as it is written, up to what may follow it. -/
def tagBody? (c : Cursor) : Option (Tag × Cursor) :=
  match c.rest with
  | '!' :: '<' :: _ => do
    let (suffix, c) ← address? true (c.advance 2)
    if suffix.isEmpty || c.rest.head? != some '>' then none else some (⟨"", suffix⟩, c.advance 1)
  | _ => do
    let (handle, after) ← handle? c
    if isFullHandle handle then
      let (suffix, c) ← address? false after
      if suffix.isEmpty then none else some (⟨handle, suffix⟩, c)
    else
      let (suffix, c) ← address? false (c.advance 1)
      some (if suffix.isEmpty then ⟨"", .ofText "!"⟩ else ⟨"!", suffix⟩, c)

/-- Reads a tag. White space follows it, or a comma inside a flow collection. -/
def tag? (flow : Bool) (c : Cursor) : Option (Tag × Cursor) := do
  let (tag, c) ← tagBody? c
  if atBlank c.rest || (flow && c.rest.head? = some ',') then some (tag, c) else none

/-! ## Directives -/

/-- A directive before a document. -/
inductive Directive
  /-- The version of the format. -/
  | version (major minor : Nat)
  /-- What a handle stands for. -/
  | handle (name : String) (address : Address)
  deriving DecidableEq, Repr

/-- Reads a number of at most nine digits. -/
def versionNumber? (c : Cursor) : Option (Nat × Cursor) :=
  let (digits, c) := c.span Text.isDigit
  if digits.length ≤ 9 then (Text.numberIn? 10 digits).map fun n => (n, c) else none

/-- Reads what follows the name of a directive. -/
def directiveBody? (name : String) (c : Cursor) : Option (Directive × Cursor) :=
  match name with
  | "YAML" => do
    let (major, c) ← versionNumber? (c.skip isBlank)
    if c.rest.head? != some '.' then none
    else
      let (minor, c) ← versionNumber? (c.advance 1)
      some (.version major minor, c)
  | "TAG" => do
    let (handle, c) ← handle? (c.skip isBlank)
    if !(isFullHandle handle || handle = "!") || !c.rest.head?.any isBlank then none
    else
      let (address, c) ← address? true (c.skip isBlank)
      if address.isEmpty || !atBlank c.rest then none else some (.handle handle address, c)
  | _ => none

/-- Reads a directive behind its mark, and the rest of its line. -/
def directive? (c : Cursor) : Option (Directive × Cursor) := do
  let (name, c) := c.span isWordChar
  if name.isEmpty || !atBlank c.rest then none
  else
    let (directive, c) ← directiveBody? (String.ofList name) c
    return (directive, ← c.endLine?)

/-- The handles that stand for something without a directive. -/
def defaultHandles : List (String × Address) :=
  [("!", .ofText "!"), ("!!", .ofText "tag:yaml.org,2002:")]

/-- What handles stand for after directives. There may be one version, which has to be 1.1 or 1.2,
and one directive for a handle. -/
def handles? (versionSeen : Bool) (known : List (String × Address)) :
    List Directive → Option (List (String × Address))
  | [] => some (known ++ defaultHandles)
  | .version major minor :: ds =>
    if versionSeen || major != 1 || !(minor == 1 || minor == 2) then none
    else handles? true known ds
  | .handle name address :: ds =>
    if known.any (·.1 = name) then none else handles? versionSeen (known ++ [(name, address)]) ds

/-- The address of a tag. -/
def Tag.resolve? (handles : List (String × Address)) (t : Tag) : Option Address :=
  if t.handle.isEmpty then some t.suffix else (handles.lookup t.handle).map (· ++ t.suffix)

end ShaderBind.Yaml
