/-! Quoted JSON strings: escapes between the quotes, written and read. -/

namespace ReportTemplate.Json

/-- The lowercase hexadecimal digit of a number below sixteen. -/
def hexDigit (n : Nat) : Char :=
  Nat.digitChar n

/-- The value of a hexadecimal digit in either case. -/
def hexValue? (c : Char) : Option Nat :=
  if '0' ≤ c ∧ c ≤ '9' then some (c.toNat - '0'.toNat)
  else if 'a' ≤ c ∧ c ≤ 'f' then some (c.toNat - 'a'.toNat + 10)
  else if 'A' ≤ c ∧ c ≤ 'F' then some (c.toNat - 'A'.toNat + 10)
  else none

def hexUnit? (a b c d : Char) : Option Nat := do
  let a ← hexValue? a
  let b ← hexValue? b
  let c ← hexValue? c
  let d ← hexValue? d
  return 4096 * a + 256 * b + 16 * c + d

/-- Writes one character of a string: quotes, backslashes and control characters escaped. -/
def escape (c : Char) : List Char :=
  if c = '"' then ['\\', '"']
  else if c = '\\' then ['\\', '\\']
  else if c = '\n' then ['\\', 'n']
  else if c = '\r' then ['\\', 'r']
  else if c = '\t' then ['\\', 't']
  else if c = '\x08' then ['\\', 'b']
  else if c = '\x0c' then ['\\', 'f']
  else if c.toNat < 0x20 then
    ['\\', 'u', '0', '0', hexDigit (c.toNat / 16), hexDigit (c.toNat % 16)]
  else [c]

def quote (text : List Char) : List Char :=
  '"' :: text.flatMap escape ++ ['"']

/-- A piece of a string's inside: a character, or a UTF-16 unit written as an escape. -/
inductive Piece where
  | char (c : Char)
  | unit (n : Nat)

/-- The character named by the letter after a backslash, `u` apart. -/
def simpleEscape? : Char → Option Char
  | '"' => some '"'
  | '\\' => some '\\'
  | '/' => some '/'
  | 'b' => some '\x08'
  | 'f' => some '\x0c'
  | 'n' => some '\n'
  | 'r' => some '\r'
  | 't' => some '\t'
  | _ => none

/-- Cuts the inside of a string into pieces; refuses control characters and bad escapes. -/
def pieces : List Char → Option (List Piece)
  | [] => some []
  | '\\' :: 'u' :: a :: b :: c :: d :: rest => do
      let unit ← hexUnit? a b c d
      return .unit unit :: (← pieces rest)
  | '\\' :: c :: rest => do
      let c ← simpleEscape? c
      return .char c :: (← pieces rest)
  | c :: rest => do
      if c = '\\' ∨ c.toNat < 0x20 then none
      else return .char c :: (← pieces rest)

/-- Joins pieces into text: two units of a surrogate pair give one character, and a lone
surrogate is refused.
-/
def assemble : List Piece → Option (List Char)
  | [] => some []
  | .char c :: rest => (assemble rest).map (c :: ·)
  | .unit high :: rest =>
      if 0xD800 ≤ high ∧ high < 0xDC00 then
        match rest with
        | .unit low :: rest =>
            if 0xDC00 ≤ low ∧ low < 0xE000 then
              (assemble rest).map
                (Char.ofNat (0x10000 + (high - 0xD800) * 0x400 + (low - 0xDC00)) :: ·)
            else none
        | _ => none
      else if 0xDC00 ≤ high ∧ high < 0xE000 then none
      else (assemble rest).map (Char.ofNat high :: ·)

def unescape (text : List Char) : Option (List Char) :=
  (pieces text).bind assemble

end ReportTemplate.Json
