/-! Texts cut into tokens where they are found: marks, and the characters between them.
A text is read from its start, and the characters that a mark takes are not read again.
-/

namespace ReportTemplate.Text

/-- How the tokens of a text are read. -/
structure TokenReader (Token : Type) where
  /-- The token of a character at which no mark starts. -/
  char : Char → Token
  /-- Reads a mark at the start of a text. -/
  read? : List Char → Option Token
  /-- The text of a token. -/
  source : Token → List Char

namespace TokenReader

variable {Token : Type}

/-- Cuts a text into tokens, `skip` characters of it being part of a mark already. -/
def scanFrom (reader : TokenReader Token) (skip : Nat) : List Char → List Token
  | [] => []
  | c :: rest =>
      match skip with
      | skip + 1 => scanFrom reader skip rest
      | 0 =>
          match reader.read? (c :: rest) with
          | some mark => mark :: scanFrom reader ((reader.source mark).length - 1) rest
          | none => reader.char c :: scanFrom reader 0 rest

def scan (reader : TokenReader Token) (text : List Char) : List Token :=
  reader.scanFrom 0 text

end TokenReader

end ReportTemplate.Text
