import ReportTemplate.Number.Numeral
import ReportTemplate.Text.Alphabetic
import ReportTemplate.Text.Scanner
import ReportTemplate.Text.Split

/-! Tokens of conditions.
A word is a keyword, a literal or a dotted path; a keyword stands for itself only where no
further name character or point follows. A token keeps its text, quotes included.
-/

namespace ReportTemplate.Condition

/-- The rules of the grammar of conditions. -/
inductive Rule where
  | condition
  | orExpr
  | andExpr
  | unary
  | comparison
  | operand
  | orOp
  | andOp
  | notOp
  | cmpOp
  | boolean
  | nullLit
  | number
  | string
  | path
  deriving DecidableEq, Repr

def Rule.name : Rule → String
  | .condition => "condition"
  | .orExpr => "or_expr"
  | .andExpr => "and_expr"
  | .unary => "unary"
  | .comparison => "comparison"
  | .operand => "operand"
  | .orOp => "or_op"
  | .andOp => "and_op"
  | .notOp => "not_op"
  | .cmpOp => "cmp_op"
  | .boolean => "boolean"
  | .nullLit => "null_lit"
  | .number => "number"
  | .string => "string"
  | .path => "path"

def Rule.isOperand : Rule → Bool
  | .boolean | .nullLit | .number | .string | .path => true
  | _ => false

/-- A token of a condition: the rule that it follows and its text. -/
structure Token where
  rule : Rule
  text : List Char
  deriving DecidableEq, Repr

namespace Token

/-- The token that is open while a text is read, with its characters in reverse. A comparison
waits for an equals sign.
-/
inductive Mode where
  | between
  | word (reversed : List Char)
  | number (reversed : List Char)
  | sign (first : Char)
  | string (quote : Char) (reversed : List Char)
  | escape (quote : Char) (reversed : List Char)

def isSpace (c : Char) : Bool :=
  c = ' ' || c = '\t' || c = '\r' || c = '\n'

def isNameStart (c : Char) : Bool :=
  Text.isAlphabetic c || c = '_'

def isNameChar (c : Char) : Bool :=
  Text.isAlphabetic c || Number.isDigit c || c = '_'

def isPathChar (c : Char) : Bool :=
  isNameChar c || c = '.'

/-- Holds for characters of numbers: digits, points, signs and the exponent mark. -/
def isNumberChar (c : Char) : Bool :=
  Number.isDigit c || c = '.' || c = '-' || c = '+' || c = 'e' || c = 'E'

def isQuote (c : Char) : Bool :=
  c = '"' || c = '\''

/-- The rule of a keyword or literal word. -/
def ofKeyword? (word : List Char) : Option Rule :=
  match String.ofList word with
  | "and" => some .andOp
  | "or" => some .orOp
  | "not" => some .notOp
  | "true" => some .boolean
  | "false" => some .boolean
  | "null" => some .nullLit
  | _ => none

/-- Reads a row of name characters and points: a keyword alone, or a path, whose segments
are not empty and whose first segment is no keyword.
-/
def ofWord? (word : List Char) : Option Token :=
  match Text.splitOn '.' word with
  | [] => none
  | name :: keys =>
      match ofKeyword? name with
      | some rule => if keys.isEmpty then some ⟨rule, word⟩ else none
      | none =>
          if name.isEmpty || keys.any List.isEmpty then none
          else some ⟨.path, word⟩

/-- Drops a point and the digits behind it. -/
def dropFraction : List Char → List Char
  | '.' :: rest => rest.dropWhile Number.isDigit
  | text => text

/-- Holds for digits with an optional point and digits behind it and an optional exponent. -/
def isUnsigned (text : List Char) : Bool :=
  !(text.takeWhile Number.isDigit).isEmpty
    && (Number.exponentPart (dropFraction (text.dropWhile Number.isDigit))).isSome

/-- Holds for the texts of numbers: a minus sign may stand before the digits. -/
def isNumber : List Char → Bool
  | '-' :: rest => isUnsigned rest
  | text => isUnsigned text

def ofNumber? (text : List Char) : Option Token :=
  if isNumber text then some ⟨.number, text⟩ else none

def ofSign? (c : Char) : Option Token :=
  if c = '>' ∨ c = '<' then some ⟨.cmpOp, [c]⟩ else none

/-- Holds for the signs that make a comparison before an equals sign. -/
def isSign (c : Char) : Bool :=
  c = '=' || c = '!' || c = '>' || c = '<'

/-- Reads the first character of a token, or a blank between tokens. -/
def start (c : Char) : Option Mode :=
  if isSpace c then some .between
  else if isNameStart c then some (.word [c])
  else if Number.isDigit c ∨ c = '-' then some (.number [c])
  else if isQuote c then some (.string c [c])
  else if isSign c then some (.sign c)
  else none

/-- Completes a token at a character that is not part of it. -/
def complete (token : Option Token) (c : Char) : Option (List Token × Mode) := do
  let token ← token
  let mode ← start c
  return ([token], mode)

/-- Reads one character: the tokens that it completes and the mode after it. -/
def step : Mode → Char → Option (List Token × Mode)
  | .between, c => (start c).map ([], ·)
  | .word reversed, c =>
      if isPathChar c then some ([], .word (c :: reversed))
      else complete (ofWord? reversed.reverse) c
  | .number reversed, c =>
      if isNumberChar c then some ([], .number (c :: reversed))
      else complete (ofNumber? reversed.reverse) c
  | .sign first, c =>
      if c = '=' then some ([⟨.cmpOp, [first, c]⟩], .between)
      else complete (ofSign? first) c
  | .string quote reversed, c =>
      if c = quote then some ([⟨.string, (c :: reversed).reverse⟩], .between)
      else if c = '\\' then some ([], .escape quote (c :: reversed))
      else some ([], .string quote (c :: reversed))
  | .escape quote reversed, c => some ([], .string quote (c :: reversed))

/-- The tokens completed by the end of the text; a string has to be closed. -/
def finish : Mode → Option (List Token)
  | .between => some []
  | .word reversed => (ofWord? reversed.reverse).map ([·])
  | .number reversed => (ofNumber? reversed.reverse).map ([·])
  | .sign first => (ofSign? first).map ([·])
  | .string _ _ => none
  | .escape _ _ => none

def scanner : Text.Scanner Mode Token where
  initial := .between
  step := step
  finish := finish

end Token

end ReportTemplate.Condition
