import ReportTemplate.Json.Token
import ReportTemplate.Value.Basic

/-! Reading values from JSON text.
The open lists and mappings form a stack, so one pass over the tokens reads any nesting.
-/

namespace ReportTemplate.Json

/-- A list or mapping whose end has not been read; a mapping waits for the value of a key. -/
inductive Open where
  | list (reversed : List Value)
  | map (entries : Entries Value) (key : String)

/-- What the next token may be. -/
inductive Expected where
  /-- A value. -/
  | value
  /-- A value, or the end of the list just opened. -/
  | firstItem
  /-- A key, or the end of the mapping just opened. -/
  | firstKey
  /-- A key after a comma. -/
  | key (entries : Entries Value)
  /-- The colon after a key. -/
  | colon (entries : Entries Value) (key : String)
  /-- A comma or an end, after a complete value. -/
  | after (value : Value)

/-- The greatest count of lists and mappings around one value. -/
def nestingLimit : Nat := 127

/-- The expectation after an opening token, which needs room on the stack. -/
def opened? (stack : List Open) (expected : Expected) : Option Expected :=
  if stack.length < nestingLimit then some expected else none

/-- Reads a token where a value is expected; a list or mapping is pushed when its first
part has been read.
-/
def startValue? (stack : List Open) : Token → Option Expected
  | .null => some (.after .null)
  | .bool flag => some (.after (.bool flag))
  | .number n => some (.after (.number n))
  | .string text => some (.after (.string text))
  | .openList => opened? stack .firstItem
  | .openMap => opened? stack .firstKey
  | _ => none

def readToken? : List Open → Expected → Token → Option (List Open × Expected)
  | stack, .value, token => (startValue? stack token).map (stack, ·)
  | stack, .firstItem, .closeList => some (stack, .after (.list []))
  | stack, .firstItem, token =>
      (startValue? (.list [] :: stack) token).map (.list [] :: stack, ·)
  | stack, .firstKey, .closeMap => some (stack, .after (.map []))
  | stack, .firstKey, .string key => some (stack, .colon [] key)
  | stack, .key entries, .string key => some (stack, .colon entries key)
  | stack, .colon entries key, .colon => some (.map entries key :: stack, .value)
  | .list reversed :: stack, .after value, .comma =>
      some (.list (value :: reversed) :: stack, .value)
  | .list reversed :: stack, .after value, .closeList =>
      some (stack, .after (.list (value :: reversed).reverse))
  | .map entries key :: stack, .after value, .comma =>
      some (stack, .key (entries.insert key value))
  | .map entries key :: stack, .after value, .closeMap =>
      some (stack, .after (.map (entries.insert key value)))
  | _, _, _ => none

/-- Reads tokens to their end, where exactly one value has to be complete. -/
def readTokens? (stack : List Open) (expected : Expected) : List Token → Option Value
  | [] =>
      match stack, expected with
      | [], .after value => some value
      | _, _ => none
  | token :: rest => do
      let (stack, expected) ← readToken? stack expected token
      readTokens? stack expected rest

/-- Reads a value from JSON text. A repeated key keeps its first position and its last
value.
-/
def read? (text : List Char) : Option Value :=
  (Token.scanner.scan? text).bind (readTokens? [] .value)

end ReportTemplate.Json
