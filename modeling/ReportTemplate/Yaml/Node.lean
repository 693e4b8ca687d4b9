import ReportTemplate.Entries
import ReportTemplate.Yaml.Token

/-! YAML nodes: the tree of a document before its scalars get values.
Anchors are numbered in the order of their nodes; an alias keeps the number of its anchor.
-/

namespace ReportTemplate.Yaml

/-- The anchor number and the full tag of a node. -/
structure Properties where
  anchor : Option Nat := none
  tag : Option (List Char) := none

/-- A node of a document. -/
inductive Node where
  | alias (anchor : Nat)
  | scalar (properties : Properties) (text : List Char) (plain : Bool)
  | sequence (properties : Properties) (items : List Node)
  | mapping (properties : Properties) (entries : List (Node × Node))

namespace Node

def empty : Node := .scalar {} [] true

/-- What is left of the tokens, and the anchors so far. -/
structure Cursor where
  tokens : List Token
  anchors : Entries Nat := []

/-- Reading of nodes, which fails on a token out of place. -/
abbrev Reader := StateT Cursor Option

/-- The next token, if there is one. -/
def peek : Reader (Option Token) :=
  return (← get).tokens.head?

def skip : Reader Unit :=
  modify fun cursor => { cursor with tokens := cursor.tokens.drop 1 }

/-- Numbers an anchor. An anchor defined again gets a new number. -/
def define (name : List Char) : Reader Nat := do
  let cursor ← get
  let number := cursor.anchors.length
  set { cursor with anchors := cursor.anchors.insert (String.ofList name) number }
  return number

/-- The number of the anchor that an alias names. -/
def refer (name : List Char) : Reader Nat := do
  match (← get).anchors.lookup (String.ofList name) with
  | some number => return number
  | none => failure

/-- Names of tags by their handles. -/
abbrev Handles := List (List Char × List Char)

def standardHandles : Handles :=
  [(['!'], ['!']), (['!', '!'], "tag:yaml.org,2002:".toList)]

/-- The full name of a tag; its handle has to be known. -/
def fullTag (handles : Handles) (tag : WrittenTag) : Reader (List Char) :=
  if tag.handle.isEmpty then return tag.suffix
  else
    match (handles ++ standardHandles).lookup tag.handle with
    | some name => return name ++ tag.suffix
    | none => failure

/-- Reads an anchor and a tag in either order, both optional. -/
def properties (handles : Handles) : Reader Properties := do
  match ← peek with
  | some (.anchor name) =>
      skip
      match ← peek with
      | some (.tag tag) =>
          skip
          let tag ← fullTag handles tag
          return ⟨some (← define name), some tag⟩
      | _ => return ⟨some (← define name), none⟩
  | some (.tag tag) =>
      skip
      let tag ← fullTag handles tag
      match ← peek with
      | some (.anchor name) =>
          skip
          return ⟨some (← define name), some tag⟩
      | _ => return ⟨none, some tag⟩
  | _ => return {}

/-- Holds where the part of a block mapping is missing. -/
def endsBlockPart : Option Token → Bool
  | some .key => true
  | some .value => true
  | some .blockEnd => true
  | _ => false

/-- Holds where an entry of a sequence is missing. -/
def endsEntry (indentless : Bool) : Option Token → Bool
  | some .blockEntry => true
  | some .blockEnd => true
  | some .key => indentless
  | some .value => indentless
  | _ => false

/-- Holds where the value of a pair inside a bracketed sequence is missing. -/
def endsItemValue : Option Token → Bool
  | some .flowEntry => true
  | some .closeSequence => true
  | _ => false

/-- Holds where the value of a bracketed mapping is missing. -/
def endsFlowValue : Option Token → Bool
  | some .flowEntry => true
  | some .closeMapping => true
  | _ => false

/-- A tag that says nothing has no effect on a scalar. -/
def scalarProperties (properties : Properties) : Properties :=
  if properties.tag = some ['!'] then { properties with tag := none } else properties

mutual

/-- Reads a node: a block collection only if `block` holds, and a sequence without own
indentation only if `indentless` holds.
-/
def read (handles : Handles) (block indentless : Bool) : Nat → Reader Node
  | 0 => failure
  | fuel + 1 => do
      match ← peek with
      | some (.alias name) =>
          skip
          return .alias (← refer name)
      | _ =>
          let properties ← properties handles
          match ← peek with
          | some (.scalar text plain) =>
              skip
              return .scalar (scalarProperties properties) text plain
          | some .openSequence =>
              skip
              return .sequence properties (← flowItems handles true fuel)
          | some .openMapping =>
              skip
              return .mapping properties (← flowEntries handles true fuel)
          | some .blockEntry =>
              if indentless then return .sequence properties (← blockItems handles true fuel)
              else absent properties
          | some .blockSequence =>
              if block then
                skip
                return .sequence properties (← blockItems handles false fuel)
              else absent properties
          | some .blockMapping =>
              if block then
                skip
                return .mapping properties (← blockEntries handles fuel)
              else absent properties
          | _ => absent properties
where
  /-- A node of which only an anchor or a tag is written. -/
  absent (properties : Properties) : Reader Node :=
    if properties.anchor.isNone && properties.tag.isNone then failure
    else return .scalar properties [] true

/-- Reads the entries of a block sequence, and its end unless it is indentless. -/
def blockItems (handles : Handles) (indentless : Bool) : Nat → Reader (List Node)
  | 0 => failure
  | fuel + 1 => do
      match ← peek with
      | some .blockEntry =>
          skip
          let item ←
            if endsEntry indentless (← peek) then pure empty else read handles true false fuel
          return item :: (← blockItems handles indentless fuel)
      | some .blockEnd =>
          if indentless then return []
          else
            skip
            return []
      | _ => if indentless then return [] else failure

/-- Reads the entries of a block mapping and its end. -/
def blockEntries (handles : Handles) : Nat → Reader (List (Node × Node))
  | 0 => failure
  | fuel + 1 => do
      match ← peek with
      | some .key =>
          skip
          let key ← if endsBlockPart (← peek) then pure empty else read handles true true fuel
          let value ← blockValue handles fuel
          return (key, value) :: (← blockEntries handles fuel)
      | some .blockEnd =>
          skip
          return []
      | _ => failure

/-- Reads the value of a block mapping's entry. -/
def blockValue (handles : Handles) : Nat → Reader Node
  | 0 => failure
  | fuel + 1 => do
      match ← peek with
      | some .value =>
          skip
          if endsBlockPart (← peek) then return empty else read handles true true fuel
      | _ => return empty

/-- Reads the items of a bracketed sequence and its end. -/
def flowItems (handles : Handles) (first : Bool) : Nat → Reader (List Node)
  | 0 => failure
  | fuel + 1 => do
      match ← peek with
      | some .closeSequence =>
          skip
          return []
      | token =>
          if !first then
            match token with
            | some .flowEntry => skip
            | _ => failure
          match ← peek with
          | some .closeSequence =>
              skip
              return []
          | some .key =>
              skip
              let key ← pairKey handles fuel
              let value ← pairValue handles fuel
              return .mapping {} [(key, value)] :: (← flowItems handles false fuel)
          | _ =>
              let item ← read handles false false fuel
              return item :: (← flowItems handles false fuel)

/-- Reads the key of a pair in a bracketed sequence; a mark in place of the key is passed. -/
def pairKey (handles : Handles) : Nat → Reader Node
  | 0 => failure
  | fuel + 1 => do
      let token ← peek
      match token with
      | some .value =>
          skip
          return empty
      | _ =>
          if endsItemValue token then
            skip
            return empty
          else read handles false false fuel

/-- Reads the value of a pair in a bracketed sequence. -/
def pairValue (handles : Handles) : Nat → Reader Node
  | 0 => failure
  | fuel + 1 => do
      match ← peek with
      | some .value =>
          skip
          if endsItemValue (← peek) then return empty else read handles false false fuel
      | _ => return empty

/-- Reads the entries of a bracketed mapping and its end. -/
def flowEntries (handles : Handles) (first : Bool) : Nat → Reader (List (Node × Node))
  | 0 => failure
  | fuel + 1 => do
      match ← peek with
      | some .closeMapping =>
          skip
          return []
      | token =>
          if !first then
            match token with
            | some .flowEntry => skip
            | _ => failure
          match ← peek with
          | some .closeMapping =>
              skip
              return []
          | some .key =>
              skip
              let key ← flowKey handles fuel
              let value ← flowValue handles fuel
              return (key, value) :: (← flowEntries handles false fuel)
          | _ =>
              let key ← read handles false false fuel
              return (key, empty) :: (← flowEntries handles false fuel)

/-- Reads the key of a bracketed mapping's entry behind its mark. -/
def flowKey (handles : Handles) : Nat → Reader Node
  | 0 => failure
  | fuel + 1 => do
      match ← peek with
      | some .value => return empty
      | token => if endsFlowValue token then return empty else read handles false false fuel

/-- Reads the value of a bracketed mapping's entry. -/
def flowValue (handles : Handles) : Nat → Reader Node
  | 0 => failure
  | fuel + 1 => do
      match ← peek with
      | some .value =>
          skip
          if endsFlowValue (← peek) then return empty else read handles false false fuel
      | _ => return empty

end

/-- Reads the directives of a document and the mark behind them: at most one version, which
is 1.1 or 1.2, and one name for a handle.
-/
def directives (versioned : Bool) (handles : Handles) : List Token → Option (Handles × List Token)
  | .version major minor :: rest =>
      if !versioned ∧ major = 1 ∧ (minor = 1 ∨ minor = 2) then directives true handles rest
      else none
  | .tagHandle handle name :: rest =>
      if (handles.lookup handle).isSome then none
      else directives versioned (handles ++ [(handle, name)]) rest
  | .documentStart :: rest => some (handles, rest)
  | _ => none

/-- Holds where a document behind its mark has no node. -/
def endsDocument : Option Token → Bool
  | none => true
  | some (.version _ _) => true
  | some (.tagHandle _ _) => true
  | some .documentStart => true
  | some .documentEnd => true
  | _ => false

/-- Holds where a document starts with directives or a mark. -/
def startsMarked : Option Token → Bool
  | some (.version _ _) => true
  | some (.tagHandle _ _) => true
  | some .documentStart => true
  | _ => false

/-- Holds when nothing but marks of the document's end is left. -/
def onlyEndMarks : List Token → Bool
  | [] => true
  | .documentEnd :: rest => onlyEndMarks rest
  | _ => false

/-- The node of the only document in a row of tokens; without tokens it is empty. -/
def ofTokens? (tokens : List Token) : Option Node := do
  if tokens.isEmpty then return empty
  let (handles, content) ←
    if startsMarked tokens.head? then directives false [] tokens else some ([], tokens)
  if startsMarked tokens.head? ∧ endsDocument content.head? then
    if onlyEndMarks content then return empty else none
  else
    let (node, cursor) ← (read handles true false (2 * content.length + 2)).run ⟨content, []⟩
    if onlyEndMarks cursor.tokens then return node else none

end Node

end ReportTemplate.Yaml
