import ReportTemplate.Yaml.Layout
import ReportTemplate.Yaml.Schema

/-! The forms of written YAML scalars.
Text that a plain scalar would turn into something else is quoted, text with line feeds is a
block, and what neither can hold is escaped between double quotes.
-/

namespace ReportTemplate.Yaml

/-- The forms of written scalars. -/
inductive Form where
  | plain
  | single
  | double
  | literal
  deriving DecidableEq, Repr

namespace Form

def isPrintable (c : Char) : Bool :=
  let n := c.toNat
  n == 0x0A || (0x20 ≤ n && n ≤ 0x7E) || (0xA0 ≤ n && n ≤ 0xD7FF)
    || (0xE000 ≤ n && n ≤ 0xFFFD && n != 0xFEFF) || 0x10000 ≤ n

/-- Holds when two neighbouring characters pass two tests. -/
def hasNeighbours (first second : Char → Bool) : List Char → Bool
  | a :: b :: rest => (first a && second b) || hasNeighbours first second (b :: rest)
  | _ => false

def isSpace (c : Char) : Bool :=
  c = ' '

/-- Holds when a test passes for the first or the last character. -/
def atEnds (test : Char → Bool) (text : List Char) : Bool :=
  text.head?.any test || text.getLast?.any test

/-- Holds for characters at which no plain scalar starts. -/
def isLeadingMark (c : Char) : Bool :=
  ['#', ',', '[', ']', '\x7b', '\x7d', '&', '*', '!', '|', '>', '\'', '"', '%', '@',
    '\x60'].contains c

/-- Holds for the marks that start no plain scalar before a gap. -/
def isGapMark (c : Char) : Bool :=
  c = '?' || c = ':' || c = '-'

/-- Holds when the start of a text is a mark. -/
def startsMarked : List Char → Bool
  | '-' :: '-' :: '-' :: _ => true
  | '.' :: '.' :: '.' :: _ => true
  | c :: rest => isLeadingMark c || (isGapMark c && isGap (rest.head?.getD endMark))
  | [] => false

/-- Holds when a mark behind the first character would end a plain scalar. -/
def hasInnerMark (text : List Char) : Bool :=
  hasNeighbours (fun c => c = ':') isGap (text.drop 1 ++ [endMark])
    || hasNeighbours isGap (fun c => c = '#') text

/-- Holds when a text has characters or blanks that only escapes keep. -/
def needsEscapes (text : List Char) : Bool :=
  text.any (!isPrintable ·) || hasNeighbours isSpace isBreak text

/-- Holds when a text can be a plain scalar. -/
def allowsPlain (text : List Char) : Bool :=
  !text.isEmpty && !needsEscapes text && !text.any isBreak && !atEnds isSpace text
    && !startsMarked text && !hasInnerMark text

/-- Holds when a text can stand between single quotes. -/
def allowsSingle (text : List Char) : Bool :=
  !needsEscapes text && !hasNeighbours isBreak isSpace text

/-- Holds when a text can be a block. -/
def allowsBlock (text : List Char) : Bool :=
  !text.isEmpty && !needsEscapes text && !text.getLast?.any isSpace

/-- Holds when a plain scalar of a text would not be that text. -/
def isAmbiguous (text : List Char) : Bool :=
  match plainValue? text with
  | some (.string _) => isPaddedRow text
  | _ => true

def of (text : List Char) : Form :=
  let quoted := if allowsSingle text then Form.single else .double
  if text.contains '\n' then if allowsBlock text then .literal else .double
  else if isAmbiguous text || !allowsPlain text then quoted
  else .plain

/-- The escape of a character without a letter of its own. -/
def hexEscape (c : Char) : List Char :=
  let n := c.toNat
  let digits (width : Nat) : List Char :=
    let written := (Nat.toDigits 16 n).map Char.toUpper
    List.replicate (width - written.length) '0' ++ written
  if n ≤ 0xFF then 'x' :: digits 2
  else if n ≤ 0xFFFF then 'u' :: digits 4
  else 'U' :: digits 8

/-- What stands behind the backslash of an escape. -/
def escapeCode (c : Char) : List Char :=
  match c with
  | '\x00' => ['0']
  | '\x07' => ['a']
  | '\x08' => ['b']
  | '\t' => ['t']
  | '\n' => ['n']
  | '\x0b' => ['v']
  | '\x0c' => ['f']
  | '\r' => ['r']
  | '\x1b' => ['e']
  | '"' => ['"']
  | '\\' => ['\\']
  | '\u0085' => ['N']
  | '\u00a0' => ['_']
  | '\u2028' => ['L']
  | '\u2029' => ['P']
  | c => hexEscape c

def escaped (c : Char) : List Char :=
  if !isPrintable c || isBreak c || c = '"' || c = '\\' then '\\' :: escapeCode c else [c]

def writeDouble (text : List Char) (layout : Layout) : Layout :=
  (layout.separate.puts ('"' :: text.flatMap escaped ++ ['"'])).mark false false

/-- Writes the inside of single quotes; a line break is doubled unless it follows another,
and the line behind it is indented.
-/
def writeSingleInside (indent : Nat) (afterBreak : Bool) (layout : Layout)
    : List Char → Layout
  | [] => if afterBreak then layout.indentTo indent else layout
  | c :: rest =>
      if isBreak c then
        let doubled := if !afterBreak && c = '\n' then layout.putBreak '\n' else layout
        writeSingleInside indent true ((doubled.putBreak c).mark doubled.afterBlank true) rest
      else if isSpace c then writeSingleInside indent afterBreak (layout.put c) rest
      else
        let started := if afterBreak then layout.indentTo indent else layout
        let quoted := if c = '\'' then started.put c else started
        writeSingleInside indent false ((quoted.put c).mark quoted.afterBlank false) rest

def writeSingle (indent : Nat) (text : List Char) (layout : Layout) : Layout :=
  let opened := layout.separate.indicator ['\''] false false
  ((writeSingleInside indent false opened text).put '\'').mark false false

def writeLines (indent : Nat) (afterBreak : Bool) (layout : Layout) : List Char → Layout
  | [] => layout
  | c :: rest =>
      if isBreak c then
        writeLines indent true ((layout.putBreak c).mark layout.afterBlank true) rest
      else
        let started := if afterBreak then layout.indentTo indent else layout
        writeLines indent false ((started.put c).mark started.afterBlank false) rest

/-- Holds when a block keeps the line breaks at its end. -/
def keepsBreaks (text : List Char) : Bool :=
  match text.reverse with
  | [last] => isBreak last
  | last :: before :: _ => isBreak last && isBreak before
  | [] => false

/-- The marks behind the first of a block: its indentation where the text starts with a blank
or break, and what is kept of the breaks at its end.
-/
def blockMarks (text : List Char) : List Char :=
  (if text.head?.any fun c => isSpace c || isBreak c then ['2'] else [])
    ++ (if keepsBreaks text then ['+'] else if text.getLast?.any isBreak then [] else ['-'])

def writeLiteral (indent : Nat) (text : List Char) (layout : Layout) : Layout :=
  let opened := (layout.separate.puts ('|' :: blockMarks text)).putBreak '\n'
  writeLines indent true { opened.mark true true with openEnd := keepsBreaks text } text

def writePlain (text : List Char) (layout : Layout) : Layout :=
  (layout.separate.puts text).mark false false

/-- Writes a text in its form; `indent` is the column of its further lines. -/
def write (indent : Nat) (text : List Char) (layout : Layout) : Layout :=
  match of text with
  | .plain => writePlain text layout
  | .single => writeSingle indent text layout
  | .double => writeDouble text layout
  | .literal => writeLiteral indent text layout

end Form

end ReportTemplate.Yaml
