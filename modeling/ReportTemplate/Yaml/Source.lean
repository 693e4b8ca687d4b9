/-! YAML source text as characters with their places.
The indentation of a line decides its nesting, so every character carries its line and column.
-/

namespace ReportTemplate.Yaml

/-- A character and its place, counted from zero. -/
structure Cell where
  char : Char
  line : Nat
  column : Nat

/-- The rest of a source text; the cell of `endMark` is its last. -/
abbrev Source := List Cell

/-- The character of the last cell, which no source text has inside. -/
def endMark : Char := '\x00'

def isBreak (c : Char) : Bool :=
  c = '\n' || c = '\r' || c = '\u0085' || c = '\u2028' || c = '\u2029'

def isBlank (c : Char) : Bool :=
  c = ' ' || c = '\t'

def isLineEnd (c : Char) : Bool :=
  isBreak c || c = endMark

/-- Holds where a word of the source ends. -/
def isGap (c : Char) : Bool :=
  isBlank c || isLineEnd c

/-- Holds for the characters of anchors and tag handles. -/
def isNameChar (c : Char) : Bool :=
  c.isAlphanum || c = '_' || c = '-'

/-- Holds for characters that may stand in a source text. -/
def isAllowed (c : Char) : Bool :=
  let n := c.toNat
  n == 0x09 || n == 0x0A || n == 0x0D || (0x20 ≤ n && n ≤ 0x7E) || n == 0x85
    || (0xA0 ≤ n && n ≤ 0xFFFD) || 0x10000 ≤ n

/-- Gives each character its place. The line breaks of one or two control characters become
line feeds.
-/
def place (line column : Nat) : List Char → Source
  | [] => [⟨endMark, line, column⟩]
  | '\r' :: '\n' :: rest => ⟨'\n', line, column⟩ :: place (line + 1) 0 rest
  | c :: rest =>
      if c = '\r' ∨ c = '\u0085' then ⟨'\n', line, column⟩ :: place (line + 1) 0 rest
      else if isBreak c then ⟨c, line, column⟩ :: place (line + 1) 0 rest
      else ⟨c, line, column⟩ :: place line (column + 1) rest

/-- The mark of byte order that may start a text. -/
def byteOrderMark : Char := '\ufeff'

/-- The places of a text's characters. A byte order mark is skipped but has a column. -/
def sourceOf? (text : List Char) : Option Source :=
  if text.all isAllowed then
    match text with
    | [] => some (place 0 0 [])
    | c :: rest => some (if c = byteOrderMark then place 0 1 rest else place 0 0 (c :: rest))
  else none

namespace Source

def peek (source : Source) (n : Nat) : Char :=
  match source[n]? with
  | some cell => cell.char
  | none => endMark

def next (source : Source) : Char :=
  source.peek 0

def column (source : Source) : Nat :=
  match source with
  | [] => 0
  | cell :: _ => cell.column

def line (source : Source) : Nat :=
  match source with
  | [] => 0
  | cell :: _ => cell.line

/-- Holds where three equal marks at the start of a line stand before a gap. -/
def hasLineMark (mark : Char) (source : Source) : Bool :=
  source.column == 0 && source.peek 0 == mark && source.peek 1 == mark && source.peek 2 == mark
    && isGap (source.peek 3)

def atDocumentMark (source : Source) : Bool :=
  source.hasLineMark '-' || source.hasLineMark '.'

/-- The characters up to the first that fails a test. -/
def takeWhile (test : Char → Bool) (source : Source) : List Char :=
  (List.takeWhile (fun cell => test cell.char) source).map Cell.char

/-- The source from the first character on that fails a test. -/
def dropWhile (test : Char → Bool) (source : Source) : Source :=
  List.dropWhile (fun cell => test cell.char) source

/-- Drops blanks and a comment up to the end of a line. -/
def dropComment (source : Source) : Source :=
  let source := source.dropWhile isBlank
  if source.next = '#' then source.dropWhile (!isLineEnd ·) else source

end Source

end ReportTemplate.Yaml
