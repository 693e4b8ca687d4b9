import ReportTemplate.Template.Expression
import ReportTemplate.Text.TokenReader

/-! Interpolations: expressions in double braces, replaced by the text of their values. -/

namespace ReportTemplate.Template

/-- A fragment of text: the inside of double braces, or a character outside. -/
inductive Fragment where
  | char (c : Char)
  | braced (inside : List Char)
  deriving DecidableEq, Repr

namespace Fragment

/-- The text before the first closing braces on the same line. -/
def inside? : List Char → Option (List Char)
  | [] => none
  | '\x7d' :: '\x7d' :: _ => some []
  | c :: rest => if c = '\n' then none else (inside? rest).map (c :: ·)

/-- Reads the inside of double braces at the start of a text. -/
def read? : List Char → Option (List Char)
  | '\x7b' :: '\x7b' :: rest => inside? rest
  | _ => none

def source : Fragment → List Char
  | .char c => [c]
  | .braced inside => '\x7b' :: '\x7b' :: (inside ++ ['\x7d', '\x7d'])

/-- Double braces are marks, and the characters outside are fragments of their own. -/
def reader : Text.TokenReader Fragment where
  char := .char
  read? text := (read? text).map .braced
  source

/-- Cuts a text into fragments. -/
def scan (text : List Char) : List Fragment :=
  reader.scan text

/-- The text that a fragment becomes; braces around no expression stay. -/
def render (registry : Registry) (scope : Scope) : Fragment → Logged (List Char)
  | .char c => pure [c]
  | .braced inside =>
      match Expression.read? inside with
      | some expression => return (← expression.eval registry scope).outputChars
      | none => pure (Fragment.braced inside).source

end Fragment

def interpolate (registry : Registry) (scope : Scope) (text : List Char)
    : Logged (List Char) :=
  .concat ((Fragment.scan text).map (Fragment.render registry scope))

end ReportTemplate.Template
