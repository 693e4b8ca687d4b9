/-! Blank characters and trimming.
Blanks are the twenty-five characters with the White_Space property.
-/

namespace ReportTemplate.Text

/-- Holds for the characters with the White_Space property. -/
def isBlank (c : Char) : Bool :=
  let n := c.toNat
  (9 ≤ n && n ≤ 13) || n == 0x20 || n == 0x85 || n == 0xA0 || n == 0x1680
    || (0x2000 ≤ n && n ≤ 0x200A) || n == 0x2028 || n == 0x2029 || n == 0x202F
    || n == 0x205F || n == 0x3000

def trimStart (text : List Char) : List Char :=
  text.dropWhile isBlank

def trimEnd (text : List Char) : List Char :=
  (text.reverse.dropWhile isBlank).reverse

def trim (text : List Char) : List Char :=
  trimEnd (trimStart text)

/-- Holds for a text of blanks only, the empty text included. -/
def isBlankText (text : List Char) : Bool :=
  text.all isBlank

/-- Blanks around a text do not change how it is trimmed, by cases on whether it has others. -/
theorem trim_between_blanks {first last : Char} (hf : isBlank first = true)
    (hl : isBlank last = true) (text : List Char)
    : trim (first :: (text ++ [last])) = trim text := by
  have hs : trimStart (first :: (text ++ [last]))
      = if (trimStart text).isEmpty then [] else trimStart text ++ [last] := by
    simp [trimStart, hf, hl, List.dropWhile_append]
  rw [trim, hs, trim]
  split
  · next he => rw [List.isEmpty_iff.mp he]
  · simp [trimEnd, hl]

end ReportTemplate.Text
