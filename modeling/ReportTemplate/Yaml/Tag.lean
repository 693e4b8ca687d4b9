import ReportTemplate.Json.Quoted
import ReportTemplate.Yaml.Source

/-! YAML tags as written: a handle, which stands for the start of a name, and a suffix. -/

namespace ReportTemplate.Yaml

/-- A tag as written. An empty handle stands for nothing. -/
structure WrittenTag where
  handle : List Char
  suffix : List Char

/-- Holds for the characters of a tag's suffix; `wide` admits commas and brackets. -/
def isTagChar (wide : Bool) (c : Char) : Bool :=
  isNameChar c || [';', '/', '?', ':', '@', '&', '=', '+', '$', '.', '%', '!', '~', '*', '\'',
    '(', ')'].contains c || (wide && [',', '[', ']'].contains c)

/-- Holds for the bytes inside the encoding of one character. -/
def isContinuation (byte : Nat) : Bool :=
  byte / 64 == 2

/-- The count of continuation bytes after a first byte, and the bits of that byte. -/
def leadingByte? (byte : Nat) : Option (Nat × Nat) :=
  if byte < 0x80 then some (0, byte)
  else if byte / 32 = 6 then some (1, byte % 32)
  else if byte / 16 = 14 then some (2, byte % 16)
  else if byte / 8 = 30 then some (3, byte % 8)
  else none

/-- Reads percent escapes: `pending` counts the bytes still to come for the character whose
bits so far are `code`, and `pending` is zero elsewhere.
-/
def unescapeTag? (pending code : Nat) : List Char → Option (List Char)
  | [] => if pending = 0 then some [] else none
  | '%' :: high :: low :: rest => do
      let byte := 16 * (← Json.hexValue? high) + (← Json.hexValue? low)
      match pending with
      | 0 =>
          let (pending, bits) ← leadingByte? byte
          if pending = 0 then return Char.ofNat bits :: (← unescapeTag? 0 0 rest)
          else unescapeTag? pending bits rest
      | pending + 1 =>
          if isContinuation byte then
            let code := 64 * code + byte % 64
            if pending = 0 then return Char.ofNat code :: (← unescapeTag? 0 0 rest)
            else unescapeTag? pending code rest
          else none
  | c :: rest =>
      if pending = 0 ∧ c ≠ '%' then (unescapeTag? 0 0 rest).map (c :: ·) else none

/-- Reads a handle: a mark, name characters and, if one follows, a closing mark. -/
def tagHandle? (source : Source) : Option (List Char × Source) :=
  if source.next = '!' then
    let name := Source.takeWhile isNameChar (source.drop 1)
    let rest := Source.dropWhile isNameChar (source.drop 1)
    if Source.next rest = '!' then some ('!' :: name ++ ['!'], rest.drop 1)
    else some ('!' :: name, rest)
  else none

/-- Reads the characters of a suffix behind those in `start`; there has to be one. -/
def tagSuffix? (wide : Bool) (start : List Char) (source : Source)
    : Option (List Char × Source) := do
  let text ← unescapeTag? 0 0 (source.takeWhile (isTagChar wide))
  if start.isEmpty ∧ text.isEmpty then none
  else some (start.drop 1 ++ text, source.dropWhile (isTagChar wide))

/-- Holds for a handle with a mark at both ends. -/
def isClosedHandle (handle : List Char) : Bool :=
  2 ≤ handle.length && handle.getLast? = some '!'

/-- Reads a tag in angle brackets, or a handle and a suffix. A lone mark has no handle and is
its own suffix.
-/
def writtenTag? (source : Source) : Option (WrittenTag × Source) := do
  if source.peek 1 = '<' then
    let (suffix, rest) ← tagSuffix? true [] (source.drop 2)
    if Source.next rest = '>' then some (⟨[], suffix⟩, rest.drop 1) else none
  else
    let (handle, rest) ← tagHandle? source
    if isClosedHandle handle then
      let (suffix, rest) ← tagSuffix? false [] rest
      some (⟨handle, suffix⟩, rest)
    else
      let (suffix, rest) ← tagSuffix? false handle rest
      if suffix.isEmpty then some (⟨[], ['!']⟩, rest) else some (⟨['!'], suffix⟩, rest)

end ReportTemplate.Yaml
