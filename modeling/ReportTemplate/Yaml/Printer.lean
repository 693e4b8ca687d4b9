import ReportTemplate.Number.Notation
import ReportTemplate.Yaml.Form

/-! YAML text of values.
Mappings and sequences are blocks, empty ones brackets. A key that is long or has a line break
is marked, and its value is on a line of its own.
-/

namespace ReportTemplate.Yaml

/-- The columns between a block and the one around it. -/
def indentStep : Nat := 2

/-- The column of a block inside the one at a column. -/
def innerColumn : Option Nat → Nat
  | some column => column + indentStep
  | none => 0

/-- The greatest length in bytes of a key without a mark. -/
def plainKeyLimit : Nat := 128

def isPlainKey (key : String) : Bool :=
  !key.toList.any isBreak && key.utf8ByteSize ≤ plainKeyLimit

/-- Writes a key and the mark of its value in the block at a column. -/
def writeKey (column : Nat) (key : String) (layout : Layout) : Layout :=
  let started := layout.indentTo column
  if isPlainKey key then
    (Form.write (column + indentStep) key.toList started).indicator [':'] false false
  else
    let marked := started.separate.indicator ['?'] false true
    let written := Form.write (column + indentStep) key.toList marked
    (written.indentTo column).separate.indicator [':'] false true

/-- Writes the mark of an item of the sequence at a column. -/
def writeDash (column : Nat) (layout : Layout) : Layout :=
  (layout.indentTo column).separate.indicator ['-'] false true

mutual

/-- Writes a value behind a mark of the block at a column, which is `none` at the top. Items
of a sequence behind a key stand in the key's column.
-/
def writeValue (column : Option Nat) (behindKey : Bool) (layout : Layout) : Value → Layout
  | .null => Form.writePlain ['n', 'u', 'l', 'l'] layout
  | .bool true => Form.writePlain ['t', 'r', 'u', 'e'] layout
  | .bool false => Form.writePlain ['f', 'a', 'l', 's', 'e'] layout
  | .number n => Form.writePlain (Number.yamlStyle.plain n) layout
  | .string text => Form.write (max (innerColumn column) indentStep) text.toList layout
  | .list [] => (layout.separate.puts ['[', ']']).mark false false
  | .list (item :: items) =>
      let itemColumn :=
        if behindKey && !layout.inIndent then innerColumn column - indentStep
        else innerColumn column
      writeItems itemColumn
        (writeValue (some itemColumn) false (writeDash itemColumn layout) item) items
  | .map [] => (layout.separate.puts ['\x7b', '\x7d']).mark false false
  | .map ((key, value) :: entries) =>
      let keyColumn := innerColumn column
      writeEntries keyColumn
        (writeValue (some keyColumn) true (writeKey keyColumn key layout) value) entries

/-- Writes further items of the sequence at a column. -/
def writeItems (column : Nat) (layout : Layout) : List Value → Layout
  | [] => layout
  | item :: items =>
      writeItems column (writeValue (some column) false (writeDash column layout) item) items

/-- Writes further entries of the mapping at a column. -/
def writeEntries (column : Nat) (layout : Layout) : List (String × Value) → Layout
  | [] => layout
  | (key, value) :: entries =>
      writeEntries column (writeValue (some column) true (writeKey column key layout) value)
        entries

end

/-- Ends a text: line breaks kept at its end are followed by a mark. -/
def finishText (layout : Layout) : Layout :=
  let ended := layout.indentTo 0
  if ended.openEnd then (ended.separate.indicator ['.', '.', '.'] false false).indentTo 0
  else ended

def print (value : Value) : List Char :=
  (finishText (writeValue none false {} value)).text

end ReportTemplate.Yaml
