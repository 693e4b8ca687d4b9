import ReportTemplate.Number.Numeral
import ReportTemplate.Yaml.Scalar
import ReportTemplate.Yaml.Tag

/-! Tokens of YAML text.
Indentation opens and closes block collections. A key on one line is recognised only at the
colon behind it, so its mark is inserted before tokens read already.
-/

namespace ReportTemplate.Yaml

/-- A token of YAML text. -/
inductive Token where
  | version (major minor : Nat)
  | tagHandle (handle name : List Char)
  | documentStart
  | documentEnd
  | blockSequence
  | blockMapping
  | blockEnd
  | openSequence
  | closeSequence
  | openMapping
  | closeMapping
  | blockEntry
  | flowEntry
  | key
  | value
  | alias (name : List Char)
  | anchor (name : List Char)
  | tag (tag : WrittenTag)
  | scalar (text : List Char) (plain : Bool)

/-- A place where a key on one line may start: the count of tokens before it and its place.
A required one has to become a key.
-/
structure PossibleKey where
  required : Bool
  position : Nat
  line : Nat
  column : Nat

/-- What is known while tokens are read. -/
structure Reading where
  /-- The tokens read so far, in reverse. -/
  reversed : List Token := []
  /-- The column of the innermost block collection, `-1` outside all. -/
  indent : Int := -1
  /-- The columns of the block collections around that one. -/
  indents : List Int := []
  /-- The possible keys of the brackets around a place, innermost first. -/
  bracketKeys : List (Option PossibleKey) := []
  /-- The possible key outside all brackets, or of the innermost ones. -/
  possibleKey : Option PossibleKey := none
  /-- Whether a key may start here. -/
  keyAllowed : Bool := true

namespace Reading

def inFlow (reading : Reading) : Bool :=
  !reading.bracketKeys.isEmpty

def push (token : Token) (reading : Reading) : Reading :=
  { reading with reversed := token :: reading.reversed }

/-- Inserts a token behind the first `position` ones. -/
def insert (position : Nat) (token : Token) (reading : Reading) : Reading :=
  let later := reading.reversed.length - position
  { reading with
    reversed := reading.reversed.take later ++ token :: reading.reversed.drop later }

/-- Says whether a key may start behind this place. -/
def allowKey (allowed : Bool) (reading : Reading) : Reading :=
  { reading with keyAllowed := allowed }

/-- Gives up the possible key, which must not be a required one. -/
def dropKey? (reading : Reading) : Option Reading :=
  match reading.possibleKey with
  | some ⟨true, _, _, _⟩ => none
  | _ => some { reading with possibleKey := none }

/-- The greatest length of a key on one line. -/
def keyLimit : Nat := 1024

/-- Gives up the possible key when it is on another line or too far back. -/
def dropStaleKey? (source : Source) (reading : Reading) : Option Reading :=
  match reading.possibleKey with
  | none => some reading
  | some key =>
      if key.line < source.line ∨ key.column + keyLimit < source.column then reading.dropKey?
      else some reading

def noteKey? (source : Source) (reading : Reading) : Option Reading :=
  if reading.keyAllowed then
    reading.dropKey?.map fun dropped =>
      { dropped with
        possibleKey := some {
          required := !reading.inFlow && reading.indent == source.column
          position := reading.reversed.length
          line := source.line
          column := source.column } }
  else some reading

/-- Opens a block collection at a column beyond the innermost one, its token behind the first
`position` tokens.
-/
def openBlock (position column : Nat) (token : Token) (reading : Reading) : Reading :=
  if !reading.inFlow && reading.indent < column then
    let opened := { reading with indent := column, indents := reading.indent :: reading.indents }
    opened.insert position token
  else reading

/-- Opens a block collection at the place of the next token. -/
def openBlockHere (source : Source) (token : Token) (reading : Reading) : Reading :=
  reading.openBlock reading.reversed.length source.column token

/-- Closes the block collections beyond a column, of which `indents` are those outside the
innermost one.
-/
def closeIndents (column indent : Int) (reversed : List Token) (indents : List Int)
    : Int × List Int × List Token :=
  if column < indent then
    match indents with
    | outer :: indents => closeIndents column outer (.blockEnd :: reversed) indents
    | [] => (-1, [], .blockEnd :: reversed)
  else (indent, indents, reversed)

/-- Closes the block collections beyond a column, none inside brackets. -/
def closeBlocks (column : Int) (reading : Reading) : Reading :=
  if reading.inFlow then reading
  else
    let (indent, indents, reversed) :=
      closeIndents column reading.indent reading.reversed reading.indents
    { reading with indent, indents, reversed }

def openBracket (reading : Reading) : Reading :=
  { reading with
    bracketKeys := reading.possibleKey :: reading.bracketKeys
    possibleKey := none }

/-- Closes a pair of brackets, if one is open. -/
def closeBracket (reading : Reading) : Reading :=
  match reading.bracketKeys with
  | [] => reading
  | outer :: bracketKeys => { reading with possibleKey := outer, bracketKeys }

end Reading

/-- One step of reading: what is known after it and the rest of the source. -/
abbrev Step := Option (Reading × Source)

/-- Skips blanks, comments and line breaks; `inComment` holds inside a comment. Tabs do not
stand where a key may start. A line break outside brackets allows a key.
-/
def skipBlanks (inComment : Bool) (reading : Reading) : Source → Reading × Source
  | [] => (reading, [])
  | cell :: rest =>
      let c := cell.char
      if isBreak c then
        skipBlanks false (if reading.inFlow then reading else reading.allowKey true) rest
      else if c = endMark then (reading, cell :: rest)
      else if inComment then skipBlanks true reading rest
      else if c = ' ' ∨ (c = '\t' ∧ (reading.inFlow ∨ ¬reading.keyAllowed)) then
        skipBlanks false reading rest
      else if c = '#' then skipBlanks true reading rest
      else (reading, cell :: rest)

/-- The number in a row of at most nine digits. -/
def versionNumber? (digits : List Char) : Option Nat :=
  if digits.isEmpty ∨ 9 < digits.length then none else some (Number.digitsValue digits)

def versionDirective? (source : Source) : Option (Token × Source) := do
  let major ← versionNumber? (source.takeWhile Number.isDigit)
  let rest := source.dropWhile Number.isDigit
  if Source.next rest = '.' then
    let rest := rest.drop 1
    let minor ← versionNumber? (Source.takeWhile Number.isDigit rest)
    some (.version major minor, Source.dropWhile Number.isDigit rest)
  else none

/-- Reads the handle and the name of a directive. -/
def handleDirective? (source : Source) : Option (Token × Source) := do
  let (handle, rest) ← tagHandle? source
  if (handle = ['!'] ∨ isClosedHandle handle) ∧ isBlank (Source.next rest) then
    let (name, rest) ← tagSuffix? true [] (Source.dropWhile isBlank rest)
    if isGap (Source.next rest) then some (.tagHandle handle name, rest) else none
  else none

/-- Reads a directive and the end of its line. -/
def directive? (reading : Reading) (source : Source) : Step := do
  let reading ← (reading.closeBlocks (-1)).dropKey?
  let name := Source.takeWhile isNameChar (source.drop 1)
  let rest := Source.dropWhile isNameChar (source.drop 1)
  if isGap (Source.next rest) then
    let arguments := Source.dropWhile isBlank rest
    let (token, rest) ←
      match String.ofList name with
      | "YAML" => versionDirective? arguments
      | "TAG" => handleDirective? arguments
      | _ => none
    let rest := Source.dropComment rest
    if isLineEnd (Source.next rest) then
      let rest := if isBreak (Source.next rest) then rest.drop 1 else rest
      some ((reading.allowKey false).push token, rest)
    else none
  else none

def documentMark? (token : Token) (reading : Reading) (source : Source) : Step := do
  let reading ← (reading.closeBlocks (-1)).dropKey?
  return ((reading.allowKey false).push token, source.drop 3)

def openBracket? (token : Token) (reading : Reading) (source : Source) : Step := do
  let reading ← reading.noteKey? source
  return ((reading.openBracket.allowKey true).push token, source.drop 1)

def closeBracket? (token : Token) (reading : Reading) (source : Source) : Step := do
  let reading ← reading.dropKey?
  return ((reading.closeBracket.allowKey false).push token, source.drop 1)

def flowEntry? (reading : Reading) (source : Source) : Step := do
  let reading ← reading.dropKey?
  return ((reading.allowKey true).push .flowEntry, source.drop 1)

/-- Opens a block collection for a mark, which outside brackets stands only where a key may
start.
-/
def openForMark? (token : Token) (reading : Reading) (source : Source) : Option Reading :=
  if reading.inFlow then some reading
  else if reading.keyAllowed then some (reading.openBlockHere source token)
  else none

def blockEntry? (reading : Reading) (source : Source) : Step := do
  let reading ← (← openForMark? .blockSequence reading source).dropKey?
  return ((reading.allowKey true).push .blockEntry, source.drop 1)

def keyMark? (reading : Reading) (source : Source) : Step := do
  let reading ← (← openForMark? .blockMapping reading source).dropKey?
  return ((reading.allowKey !reading.inFlow).push .key, source.drop 1)

/-- Reads the mark of a value, behind a key on the same line or by itself. -/
def valueMark? (reading : Reading) (source : Source) : Step :=
  match reading.possibleKey with
  | some key =>
      let keyed := (reading.insert key.position .key).openBlock key.position key.column
        .blockMapping
      let keyed := { keyed with possibleKey := none, keyAllowed := false }
      some (keyed.push .value, source.drop 1)
  | none => do
      let opened ← openForMark? .blockMapping reading source
      return ((opened.allowKey !opened.inFlow).push .value, source.drop 1)

/-- Holds for the characters that may stand behind an anchor's name. -/
def endsAnchor (c : Char) : Bool :=
  isGap c || ['?', ':', ',', ']', '\x7d', '%', '@', '\x60'].contains c

/-- Reads the name of an anchor or alias. -/
def anchor? (token : List Char → Token) (reading : Reading) (source : Source) : Step := do
  let reading ← reading.noteKey? source
  let name := Source.takeWhile isNameChar (source.drop 1)
  let rest := Source.dropWhile isNameChar (source.drop 1)
  if name ≠ [] ∧ endsAnchor (Source.next rest) then
    some ((reading.allowKey false).push (token name), rest)
  else none

/-- Reads a tag, behind which a gap stands, or a comma between brackets. -/
def tag? (reading : Reading) (source : Source) : Step := do
  let reading ← reading.noteKey? source
  let (tag, rest) ← writtenTag? source
  if isGap (Source.next rest) || (reading.inFlow && Source.next rest = ',') then
    some ((reading.allowKey false).push (.tag tag), rest)
  else none

def block? (literal : Bool) (reading : Reading) (source : Source) : Step := do
  let reading ← reading.dropKey?
  let scanned ← blockScalar? literal reading.indent (source.drop 1)
  return ((reading.allowKey true).push (.scalar scanned.text false), scanned.rest)

def quoted? (quote : Char) (reading : Reading) (source : Source) : Step := do
  let reading ← reading.noteKey? source
  let scanned ← quotedScalar? quote 0 [] Gap.none (source.drop 1)
  return ((reading.allowKey false).push (.scalar scanned.text false), scanned.rest)

/-- Reads a plain scalar, behind whose line breaks a key may start. -/
def plain? (reading : Reading) (source : Source) : Step := do
  let reading ← reading.noteKey? source
  let scanned ← plainScalar? reading.inFlow (reading.indent + 1).toNat [] Gap.none source
  return ((reading.allowKey scanned.brokeLine).push (.scalar scanned.text true), scanned.rest)

/-- Holds where a plain scalar may start: at no mark, or outside brackets at one that is not
before a gap. A dash may start one between brackets too.
-/
def startsPlain (inFlow : Bool) (source : Source) : Bool :=
  let c := source.next
  let marks := ['-', '?', ':', ',', '[', ']', '\x7b', '\x7d', '#', '&', '*', '!', '|', '>',
    '\'', '"', '%', '@', '\x60']
  (!isGap c && !marks.contains c) || (c = '-' && !isBlank (source.peek 1))
    || (!inFlow && (c = '?' || c = ':') && !isGap (source.peek 1))

def token? (reading : Reading) (source : Source) : Step :=
  let c := source.next
  let beforeGap := isGap (source.peek 1)
  if source.column = 0 ∧ c = '%' then directive? reading source
  else if source.hasLineMark '-' then documentMark? .documentStart reading source
  else if source.hasLineMark '.' then documentMark? .documentEnd reading source
  else if c = '[' then openBracket? .openSequence reading source
  else if c = '\x7b' then openBracket? .openMapping reading source
  else if c = ']' then closeBracket? .closeSequence reading source
  else if c = '\x7d' then closeBracket? .closeMapping reading source
  else if c = ',' then flowEntry? reading source
  else if c = '-' ∧ beforeGap then blockEntry? reading source
  else if c = '?' ∧ (reading.inFlow ∨ beforeGap) then keyMark? reading source
  else if c = ':' ∧ (reading.inFlow ∨ beforeGap) then valueMark? reading source
  else if c = '*' then anchor? .alias reading source
  else if c = '&' then anchor? .anchor reading source
  else if c = '!' then tag? reading source
  else if c = '|' ∧ !reading.inFlow then block? true reading source
  else if c = '>' ∧ !reading.inFlow then block? false reading source
  else if c = '\'' ∨ c = '"' then quoted? c reading source
  else if startsPlain reading.inFlow source then plain? reading source
  else none

/-- Reads tokens to the end of the source; every step shortens it, so its length bounds their
number.
-/
def readTokens? (fuel : Nat) (reading : Reading) (source : Source) : Option (List Token) :=
  match fuel with
  | 0 => none
  | fuel + 1 => do
      let (reading, source) := skipBlanks false reading source
      let reading ← reading.dropStaleKey? source
      let reading := reading.closeBlocks source.column
      if source.next = endMark then
        let reading ← (reading.closeBlocks (-1)).dropKey?
        return reading.reversed.reverse
      else
        let (reading, source) ← token? reading source
        readTokens? fuel reading source

def tokens? (text : List Char) : Option (List Token) := do
  let source ← sourceOf? text
  readTokens? source.length {} source

end ReportTemplate.Yaml
