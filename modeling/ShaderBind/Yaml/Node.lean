import ShaderBind.Yaml.Token

/-!
# YAML documents

The tree of a document (`Node`), read from its tokens. Flow collections stand between brackets,
block collections between the tokens that indentation gives, and the items of a sequence that is a
key or a value may stand in the column of the key. What is left out between two marks is an empty
scalar. An alias stands for the node that its anchor was last given to. A text holds one document
(`parse?`).
-/

namespace ShaderBind.Yaml

/-- A document or a part of one. -/
inductive Node
  | scalar (tag : Option Address) (text : String) (plain : Bool)
  | seq (tag : Option Address) (items : List Node)
  | map (tag : Option Address) (pairs : List (Node × Node))
  /-- An alias for a node that it is itself a part of. -/
  | enclosing
  deriving Repr, Inhabited

/-- What stands where nothing is written. -/
def Node.empty : Node := scalar none "" true

/-- Where a node stands: which forms it may take. -/
inductive Place
  /-- Inside a flow collection. -/
  | flow
  /-- In a block. -/
  | block
  /-- A key or a value of a block mapping, where items may follow without indentation. -/
  | inMapping
  deriving DecidableEq

/-- What the reader has before it and what it has seen. -/
structure ReaderState where
  tokens : List Token
  handles : List (String × Address)
  /-- The anchors by their order in the text, the last first. -/
  anchors : List (String × Nat) := []
  /-- The finished nodes with anchors. -/
  anchored : List (Nat × Node) := []

/-- A reader of tokens. -/
abbrev Reader := StateT ReaderState Option

namespace Reader

/-- The token that comes next. -/
def peek : Reader (Option Token) := do return (← get).tokens.head?

/-- Passes a token. -/
def pass : Reader Unit := modify fun s => { s with tokens := s.tokens.tail }

/-- Passes the token that comes next if it is the given one. -/
def passIf (t : Token) : Reader Bool := do
  if (← peek) = some t then
    pass
    return true
  else return false

/-- Passes the given token, which has to come next. -/
def expect (t : Token) : Reader Unit := do
  if !(← passIf t) then failure

/-- Whether one of the given tokens comes next. -/
def atOneOf (stops : List Token) : Reader Bool := do
  return (← peek).any fun t => stops.contains t

/-- Passes an anchor. -/
def anchor : Reader (Option String) := do
  match ← peek with
  | some (.anchor name) =>
    pass
    return some name
  | _ => return none

/-- Passes a tag. -/
def tag : Reader (Option Address) := do
  match ← peek with
  | some (.tag t) =>
    pass
    return some (← t.resolve? (← get).handles)
  | _ => return none

/-- Passes an anchor and a tag, in either order. -/
def properties : Reader (Option String × Option Address) := do
  match ← anchor with
  | some name => return (some name, ← tag)
  | none =>
    match ← tag with
    | some t => return (← anchor, some t)
    | none => return (none, none)

/-- The number under which the node of an anchor is kept. -/
def register (anchor : Option String) : Reader (Option Nat) := do
  match anchor with
  | none => return none
  | some name =>
    let n := (← get).anchors.length
    modify fun s => { s with anchors := (name, n) :: s.anchors }
    return some n

/-- Keeps a finished node. -/
def keep (number : Option Nat) (node : Node) : Reader Node := do
  match number with
  | none => return node
  | some n =>
    modify fun s => { s with anchored := (n, node) :: s.anchored }
    return node

/-- The node that an alias stands for. -/
def anchored (name : String) : Reader Node := do
  let s ← get
  let n ← s.anchors.lookup name
  return (s.anchored.lookup n).getD .enclosing

/-- The empty node behind properties. -/
def absent (hasProperties : Bool) (tag : Option Address) : Reader Node :=
  if hasProperties then return .scalar tag "" true else failure

mutual

/-- Reads a node. -/
def node (place : Place) : (fuel : Nat) → Reader Node
  | 0 => failure
  | fuel + 1 => do
    match ← peek with
    | some (.aliasTo name) =>
      pass
      anchored name
    | _ =>
      let (anchor, tag) ← properties
      let number ← register anchor
      keep number (← content place (anchor.isSome || tag.isSome) tag fuel)

/-- Reads a node without the properties before it; with properties, nothing may follow them. -/
def content (place : Place) (hasProperties : Bool) (tag : Option Address) : (fuel : Nat) → Reader Node
  | 0 => failure
  | fuel + 1 => do
    match ← peek with
    | some (.scalar text plain) =>
      pass
      return .scalar tag text plain
    | some .openBracket =>
      pass
      return .seq tag (← flowItems true fuel)
    | some .openBrace =>
      pass
      return .map tag (← flowPairs true fuel)
    | some .dash =>
      if place = .inMapping then return .seq tag (← looseItems fuel) else absent hasProperties tag
    | some .sequenceStart =>
      if place = .flow then absent hasProperties tag
      else
        pass
        return .seq tag (← blockItems fuel)
    | some .mappingStart =>
      if place = .flow then absent hasProperties tag
      else
        pass
        return .map tag (← blockPairs fuel)
    | _ => absent hasProperties tag

/-- Reads a node, or nothing before one of the given tokens. -/
def nodeOrEmpty (place : Place) (stops : List Token) : (fuel : Nat) → Reader Node
  | 0 => failure
  | fuel + 1 => do
    if ← atOneOf stops then return .empty else node place fuel

/-- Reads the items of a block sequence. -/
def blockItems : (fuel : Nat) → Reader (List Node)
  | 0 => failure
  | fuel + 1 => do
    if ← passIf .blockEnd then return []
    expect .dash
    let item ← nodeOrEmpty .block [.dash, .blockEnd] fuel
    return item :: (← blockItems fuel)

/-- Reads items that stand in the column of the key they belong to. -/
def looseItems : (fuel : Nat) → Reader (List Node)
  | 0 => failure
  | fuel + 1 => do
    if ← passIf .dash then
      let item ← nodeOrEmpty .block [.dash, .key, .value, .blockEnd] fuel
      return item :: (← looseItems fuel)
    else return []

/-- Reads the pairs of a block mapping. -/
def blockPairs : (fuel : Nat) → Reader (List (Node × Node))
  | 0 => failure
  | fuel + 1 => do
    if ← passIf .blockEnd then return []
    expect .key
    let stops := [Token.key, .value, .blockEnd]
    let key ← nodeOrEmpty .inMapping stops fuel
    let value ← if ← passIf .value then nodeOrEmpty .inMapping stops fuel else pure .empty
    return (key, value) :: (← blockPairs fuel)

/-- Reads the items of a flow sequence; between two stands a comma, and after the last may stand
one. A pair is an item too. -/
def flowItems (first : Bool) : (fuel : Nat) → Reader (List Node)
  | 0 => failure
  | fuel + 1 => do
    if ← passIf .closeBracket then return []
    if !first then expect .comma
    if ← passIf .closeBracket then return []
    let item ← if ← passIf .key then flowPair fuel else node .flow fuel
    return item :: (← flowItems false fuel)

/-- Reads a pair that is an item of a flow sequence. The mark that stands in place of a key is
passed with it. -/
def flowPair : (fuel : Nat) → Reader Node
  | 0 => failure
  | fuel + 1 => do
    let key ← if ← atOneOf [.value, .comma, .closeBracket] then do
        pass
        pure Node.empty
      else node .flow fuel
    let value ← if ← passIf .value then nodeOrEmpty .flow [.comma, .closeBracket] fuel
      else pure .empty
    return .map none [(key, value)]

/-- Reads the pairs of a flow mapping; between two stands a comma, and after the last may stand
one. A key alone has an empty value. -/
def flowPairs (first : Bool) : (fuel : Nat) → Reader (List (Node × Node))
  | 0 => failure
  | fuel + 1 => do
    if ← passIf .closeBrace then return []
    if !first then expect .comma
    if ← passIf .closeBrace then return []
    let pair ← if ← passIf .key then do
        let key ← nodeOrEmpty .flow [.value, .comma, .closeBrace] fuel
        let value ← if ← passIf .value then nodeOrEmpty .flow [.comma, .closeBrace] fuel
          else pure .empty
        pure (key, value)
      else do pure (← node .flow fuel, Node.empty)
    return pair :: (← flowPairs false fuel)

end

end Reader

/-- The directives that tokens begin with, and the tokens behind them. -/
def splitDirectives : List Token → List Directive × List Token
  | .directive d :: ts =>
    let (ds, ts) := splitDirectives ts
    (d :: ds, ts)
  | ts => ([], ts)

/-- Whether a document that has begun is empty. -/
def documentEnds : List Token → Bool
  | [] => true
  | .directive _ :: _ => true
  | .documentStart :: _ => true
  | .documentEnd :: _ => true
  | _ => false

/-- The node of the only document. Directives have to be followed by the mark of the start. A few
calls follow each other before one reads a token, so that the fuel is enough. -/
def ofTokens? (tokens : List Token) : Option Node := do
  let (directives, tokens) := splitDirectives tokens
  let handles ← handles? false [] directives
  let fuel := 4 * (tokens.length + 1)
  let (document, s) ← match tokens with
    | .documentStart :: ts =>
      if documentEnds ts then some (Node.empty, { tokens := ts, handles })
      else (Reader.node .block fuel).run { tokens := ts, handles }
    | ts =>
      if directives.isEmpty then (Reader.node .block fuel).run { tokens := ts, handles } else none
  if s.tokens.all (· = .documentEnd) then some document else none

/-- The node of the only document of a text. -/
def parse? (text : String) : Option Node :=
  (tokens text).bind ofTokens?

end ShaderBind.Yaml
