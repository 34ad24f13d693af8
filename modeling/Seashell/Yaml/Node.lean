import Seashell.Yaml.Token

set_option autoImplicit false

/-! # Nodes of YAML

The tokens of a document spell its nodes: scalars, lists and mappings, with their texts as written.
A list or mapping may be written in block style, between tokens for its begin and end (`blockItems`,
`blockEntries`), or in brackets (`flowItems`, `flowEntries`). A list that is the value of a key may
also do without tokens for its begin and end, since its dashes may stand below the key
(`bareItems`).

`Spelling.node` reads the node at the start of some tokens; what may stand there depends on the
`Position`. The readers call each other, and every second call or so takes a token off, so that four
steps for each token are fuel enough. `Node.ofTokens` reads a whole document. -/

namespace Seashell.Yaml

open Text

/-- A part of a document, as it is spelled. -/
inductive Node where
  /-- A scalar without quotes, which may stand for something else than a text. -/
  | plain (t : Text)
  /-- A scalar that stands for a text. -/
  | literal (t : Text)
  | list (items : List Node)
  | mapping (entries : List (Node × Node))
deriving Repr, Inhabited

/-- The node of nothing. -/
def Node.none : Node := .plain []

/-- A token has no use where it stands; a `Token.broken` says why. -/
def refuse {α : Type} : List Token → Except Fault α
  | .broken f :: _ => .error f
  | _ => .error .malformed

/-- The next token is one of the `options`. -/
def startsWith (options : List Token) (ts : List Token) : Bool := ts.head?.any options.contains

/-- Where a `Node` stands. -/
inductive Position where
  /-- In brackets, where block style has no place. -/
  | flow
  | block
  /-- After a key or a colon in block style, where a list may do without begin and end. -/
  | entry
deriving Repr, DecidableEq

/-- The levels of lists and mappings that a document may have; `node` counts them down. -/
def levelLimit : Nat := 490

namespace Spelling

mutual

/-- The node at the start of some tokens, which may have `room` levels of lists and mappings, and
    the tokens after it. The `fuel` bounds the number of steps. -/
def node : Nat → Nat → Position → List Token → Except Fault (Node × List Token)
  | 0, _, _, _ => .error .malformed
  | fuel + 1, room, position, ts =>
    match ts with
    | .plain t :: ts => .ok (.plain t, ts)
    | .literal t :: ts => .ok (.literal t, ts)
    | .listOpen :: ts => do
      if room = 0 then throw .tooDeep
      let (items, ts) ← flowItems fuel (room - 1) true ts
      return (.list items, ts)
    | .mappingOpen :: ts => do
      if room = 0 then throw .tooDeep
      let (entries, ts) ← flowEntries fuel (room - 1) true ts
      return (.mapping entries, ts)
    | .blockList :: rest =>
      if position = .flow then refuse ts
      else do
        if room = 0 then throw .tooDeep
        let (items, ts) ← blockItems fuel (room - 1) rest
        return (.list items, ts)
    | .blockMapping :: rest =>
      if position = .flow then refuse ts
      else do
        if room = 0 then throw .tooDeep
        let (entries, ts) ← blockEntries fuel (room - 1) rest
        return (.mapping entries, ts)
    | .dash :: _ =>
      if position ≠ .entry then refuse ts
      else do
        if room = 0 then throw .tooDeep
        let (items, ts) ← bareItems fuel (room - 1) ts
        return (.list items, ts)
    | ts => refuse ts

/-- A node that may be missing: it is, if one of the tokens `ends` comes next. -/
def nodeOr : Nat → Nat → Position → List Token → List Token → Except Fault (Node × List Token)
  | 0, _, _, _, _ => .error .malformed
  | fuel + 1, room, position, ends, ts =>
    if startsWith ends ts then .ok (.none, ts) else node fuel room position ts

/-- The value of an entry: a colon and what follows it, by `nodeOr`. Without a colon there is
    none. -/
def valueOr : Nat → Nat → Position → List Token → List Token → Except Fault (Node × List Token)
  | 0, _, _, _, _ => .error .malformed
  | fuel + 1, room, position, ends, ts =>
    match ts with
    | .value :: ts => nodeOr fuel room position ends ts
    | ts => .ok (.none, ts)

/-- The items of a list in block style, up to its `Token.blockEnd`. -/
def blockItems : Nat → Nat → List Token → Except Fault (List Node × List Token)
  | 0, _, _ => .error .malformed
  | fuel + 1, room, ts =>
    match ts with
    | .dash :: ts => do
      let (item, ts) ← nodeOr fuel room .block [.dash, .blockEnd] ts
      let (items, ts) ← blockItems fuel room ts
      return (item :: items, ts)
    | .blockEnd :: ts => .ok ([], ts)
    | ts => refuse ts

/-- The items of a list in block style that has no begin and end: they go on as long as dashes
    follow. -/
def bareItems : Nat → Nat → List Token → Except Fault (List Node × List Token)
  | 0, _, _ => .error .malformed
  | fuel + 1, room, ts =>
    match ts with
    | .dash :: ts => do
      let (item, ts) ← nodeOr fuel room .block [.dash, .key, .value, .blockEnd] ts
      let (items, ts) ← bareItems fuel room ts
      return (item :: items, ts)
    | ts => .ok ([], ts)

/-- The entries of a mapping in block style, up to its `Token.blockEnd`. -/
def blockEntries : Nat → Nat → List Token → Except Fault (List (Node × Node) × List Token)
  | 0, _, _ => .error .malformed
  | fuel + 1, room, ts =>
    match ts with
    | .key :: ts => do
      let (key, ts) ← nodeOr fuel room .entry [.key, .value, .blockEnd] ts
      let (value, ts) ← valueOr fuel room .entry [.key, .value, .blockEnd] ts
      let (entries, ts) ← blockEntries fuel room ts
      return ((key, value) :: entries, ts)
    | .blockEnd :: ts => .ok ([], ts)
    | ts => refuse ts

/-- The items of a list in brackets, up to its end; an entry is a mapping of its own. A comma stands
    before every item but the `first`, and may stand before the end. -/
def flowItems : Nat → Nat → Bool → List Token → Except Fault (List Node × List Token)
  | 0, _, _, _ => .error .malformed
  | fuel + 1, room, first, ts =>
    match ts, first with
    | .listClose :: ts, _ => .ok ([], ts)
    | .comma :: ts, false => flowItems fuel room true ts
    | ts, false => refuse ts
    | .key :: ts, true => do
      if room = 0 then throw .tooDeep
      let (key, ts) ← nodeOr fuel (room - 1) .flow [.value, .comma, .listClose] ts
      let (value, ts) ← valueOr fuel (room - 1) .flow [.comma, .listClose] ts
      let (items, ts) ← flowItems fuel room false ts
      return (.mapping [(key, value)] :: items, ts)
    | ts, true => do
      let (item, ts) ← node fuel room .flow ts
      let (items, ts) ← flowItems fuel room false ts
      return (item :: items, ts)

/-- The entries of a mapping in brackets, up to its end; a node without a colon is a key, and commas
    stand as in `flowItems`. -/
def flowEntries : Nat → Nat → Bool → List Token → Except Fault (List (Node × Node) × List Token)
  | 0, _, _, _ => .error .malformed
  | fuel + 1, room, first, ts =>
    match ts, first with
    | .mappingClose :: ts, _ => .ok ([], ts)
    | .comma :: ts, false => flowEntries fuel room true ts
    | ts, false => refuse ts
    | .key :: ts, true => do
      let (key, ts) ← nodeOr fuel room .flow [.value, .comma, .mappingClose] ts
      let (value, ts) ← valueOr fuel room .flow [.comma, .mappingClose] ts
      let (entries, ts) ← flowEntries fuel room false ts
      return ((key, value) :: entries, ts)
    | ts, true => do
      let (key, ts) ← node fuel room .flow ts
      let (entries, ts) ← flowEntries fuel room false ts
      return ((key, .none) :: entries, ts)

end

/-- The node of a document without a mark, by `node`. -/
def bareDocument (ts : List Token) : Except Fault (Node × List Token) :=
  node (4 * ts.length + 4) levelLimit .block ts

/-- The node of a document after its mark; there may be none (`nodeOr`). -/
def markedDocument (ts : List Token) : Except Fault (Node × List Token) :=
  nodeOr (4 * ts.length + 4) levelLimit .block [.documentStart, .documentEnd, .finish] ts

/-- Nothing but marks for the end of the document follows. -/
def checkEnd (ts : List Token) : Except Fault Unit :=
  match ts.dropWhile (· == .documentEnd) with
  | .finish :: _ => .ok ()
  | rest => refuse rest

end Spelling

/-- The node of the one document that the tokens `ts` spell; no document is the node of nothing. -/
def Node.ofTokens (ts : List Token) : Except Fault Node := do
  if startsWith [.finish] ts then return .none
  let (n, rest) ← match ts with
    | .documentStart :: ts => Spelling.markedDocument ts
    | ts => Spelling.bareDocument ts
  Spelling.checkEnd rest
  return n

end Seashell.Yaml
