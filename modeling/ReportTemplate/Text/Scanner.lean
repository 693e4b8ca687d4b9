/-! Scanners: texts cut into tokens character by character.
A mode holds the token that is open, so a text is scanned by one fold over its characters.
-/

namespace ReportTemplate.Text

/-- The rules of a scanner with its open modes and its tokens. -/
structure Scanner (Mode Token : Type) where
  /-- The mode between two tokens. -/
  initial : Mode
  /-- Reads one character: the tokens that it completes and the mode after it. -/
  step : Mode → Char → Option (List Token × Mode)
  /-- The tokens completed by the end of the text. -/
  finish : Mode → Option (List Token)

namespace Scanner

variable {Mode Token : Type}

/-- Reads one character after others, whose completed tokens are in reverse. -/
def feed (scanner : Scanner Mode Token) (state : List Token × Mode) (c : Char)
    : Option (List Token × Mode) :=
  (scanner.step state.2 c).map fun (tokens, mode) => (tokens.reverse ++ state.1, mode)

def scan? (scanner : Scanner Mode Token) (text : List Char) : Option (List Token) := do
  let (reversed, mode) ← text.foldlM scanner.feed ([], scanner.initial)
  let last ← scanner.finish mode
  return reversed.reverse ++ last

end Scanner

end ReportTemplate.Text
