import ReportTemplate.Json.Numeral
import ReportTemplate.Json.Quoted
import ReportTemplate.Text.Scanner

/-! Tokens of JSON text.
A text is read character by character; the mode says which token is open.
-/

namespace ReportTemplate.Json

/-- A token of JSON text. -/
inductive Token where
  | openList
  | closeList
  | openMap
  | closeMap
  | comma
  | colon
  | null
  | bool (flag : Bool)
  | number (n : Float)
  | string (text : String)

namespace Token

/-- The token that is open while a text is read, with its characters in reverse. -/
inductive Mode where
  | between
  | word (reversed : List Char)
  | string (reversed : List Char)
  | escape (reversed : List Char)

def isSpace (c : Char) : Bool :=
  c = ' ' || c = '\t' || c = '\n' || c = '\r'

/-- Holds for the characters of numbers and of the three literal words. -/
def isWordChar (c : Char) : Bool :=
  c.isAlphanum || c = '-' || c = '+' || c = '.'

/-- The token that is a character by itself. -/
def ofChar? : Char → Option Token
  | '[' => some .openList
  | ']' => some .closeList
  | '\x7b' => some .openMap
  | '\x7d' => some .closeMap
  | ',' => some .comma
  | ':' => some .colon
  | _ => none

def ofWord? (word : List Char) : Option Token :=
  match String.ofList word with
  | "null" => some .null
  | "true" => some (.bool true)
  | "false" => some (.bool false)
  | _ => (number? word).map .number

/-- Reads the first character of a token, or a blank between tokens. -/
def start (c : Char) : Option (List Token × Mode) :=
  if isSpace c then some ([], .between)
  else if c = '"' then some ([], .string [])
  else if isWordChar c then some ([], .word [c])
  else (ofChar? c).map fun token => ([token], .between)

/-- Reads one character: the tokens that it completes and the mode after it. -/
def step : Mode → Char → Option (List Token × Mode)
  | .between, c => start c
  | .word reversed, c =>
      if isWordChar c then some ([], .word (c :: reversed))
      else do
        let token ← ofWord? reversed.reverse
        let (tokens, mode) ← start c
        return (token :: tokens, mode)
  | .string reversed, c =>
      if c = '"' then
        (unescape reversed.reverse).map fun text => ([.string (String.ofList text)], .between)
      else if c = '\\' then some ([], .escape (c :: reversed))
      else some ([], .string (c :: reversed))
  | .escape reversed, c => some ([], .string (c :: reversed))

/-- The tokens completed by the end of the text; a string has to be closed. -/
def finish : Mode → Option (List Token)
  | .between => some []
  | .word reversed => (ofWord? reversed.reverse).map fun token => [token]
  | .string _ => none
  | .escape _ => none

def scanner : Text.Scanner Mode Token where
  initial := .between
  step := step
  finish := finish

end Token

end ReportTemplate.Json
