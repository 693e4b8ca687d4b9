import ReportTemplate.Filter.Report
import ReportTemplate.Text.Case
import ReportTemplate.Text.Split

/-! Filters for values of all kinds. -/

namespace ReportTemplate.Filter

def json : Filter := fun value _ =>
  okChars (Json.indented 0 value)

/-- Changes the text of a value that is not `null`. -/
def onText (change : List Char → List Char) (value : Value) : Except FilterFailure Value :=
  if value.isNull then .ok .null else okChars (change value.outputChars)

def upper : Filter := fun value _ =>
  onText Text.upper value

def lower : Filter := fun value _ =>
  onText Text.lower value

/-- Replaces `null` by the first argument, or by the mark of a missing measurement. -/
def fallback : Filter := fun value arguments =>
  if !value.isNull then .ok value
  else
    match arguments.head? with
    | none => ok missing
    | some .null => ok missing
    | some replacement => .ok replacement

def count (n : Nat) : Value :=
  .number (Float.ofNat n)

/-- Counts the items of a list or the characters of a text; zero for other kinds. -/
def length : Filter := fun value _ =>
  match value with
  | .list items => .ok (count items.length)
  | .string text => .ok (count text.toList.length)
  | _ => .ok (count 0)

/-- A character as text, `null` without one. -/
def charValue : Option Char → Value
  | some c => .string (String.ofList [c])
  | none => .null

/-- The first item of a list or the first character of a text. -/
def first : Filter := fun value _ =>
  match value with
  | .list items => .ok (items.head?.getD .null)
  | .string text => .ok (charValue text.toList.head?)
  | _ => .ok value

/-- The last item of a list or the last character of a text. -/
def last : Filter := fun value _ =>
  match value with
  | .list items => .ok (items.getLast?.getD .null)
  | .string text => .ok (charValue text.toList.getLast?)
  | _ => .ok value

/-- Joins the texts of a list's items with a separator, `, ` unless given. -/
def join : Filter := fun value arguments =>
  match value with
  | .list items =>
      let separator := (textArgument arguments 0).getD [',', ' ']
      okChars (Text.join separator (items.map Value.outputChars))
  | _ => .ok value

/-- Cuts the value's text to a count of characters and marks the cut with three points. -/
def truncate : Filter := fun value arguments => do
  match ← numberArgument arguments 0 "length" with
  | none => fail (.missingArgument "length")
  | some limit =>
      if limit < 0 then fail (.failed "truncate length cannot be negative")
      else if value.isNull then return .null
      else
        let text := value.outputChars
        let length := Number.truncateCount limit
        if text.length ≤ length then okChars text
        else okChars (text.take length ++ ['.', '.', '.'])

/-- Rounds a number to a count of decimals, none unless given. -/
def round : Filter := fun value arguments => do
  match value with
  | .number n =>
      let decimals := (← numberArgument arguments 0 "decimals").getD 0
      let factor := Number.power 10 (Number.truncateInt32 decimals)
      return .number (Number.roundHalfAway (n * factor) / factor)
  | _ => return value

/-- The keys of a mapping in insertion order. -/
def keys : Filter := fun value _ =>
  match value with
  | .map entries => .ok (.list ((Entries.keys entries).map .string))
  | _ => fail (.failed ("cannot get keys from " ++ value.kind ++ " value"))

def reverse : Filter := fun value _ =>
  match value with
  | .list items => .ok (.list items.reverse)
  | .string text => okChars text.toList.reverse
  | _ => .ok value

end ReportTemplate.Filter
