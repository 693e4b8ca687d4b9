import ReportTemplate.Text.CaseTable
import ReportTemplate.Text.Range

/-! Upper and lower case of characters and texts.
Some characters have several characters in the other case, and the lowercase form of a capital
sigma depends on its place in a word.
-/

namespace ReportTemplate.Text

/-- The character that a run moves a code to, if the run has it. -/
def CaseRun.move? (run : CaseRun) (n : Nat) : Option Char :=
  if run.first ≤ n ∧ n ≤ run.last ∧ (n - run.first) % run.step = 0 then
    some (Char.ofNat ((n : Int) + run.distance).toNat)
  else none

/-- Looks a character up in mappings to one and to several characters. -/
def mapCase (runs : List CaseRun) (sequences : List (Nat × List Nat)) (c : Char)
    : List Char :=
  match runs.findSome? (·.move? c.toNat) with
  | some mapped => [mapped]
  | none =>
      match sequences.lookup c.toNat with
      | some codes => codes.map Char.ofNat
      | none => [c]

def upperChar (c : Char) : List Char :=
  if c.toNat < 128 then [c.toUpper] else mapCase upperRuns upperSequences c

/-- The lowercase form of a character by itself. -/
def lowerChar (c : Char) : List Char :=
  if c.toNat < 128 then [c.toLower] else mapCase lowerRuns lowerSequences c

def isCased (c : Char) : Bool :=
  if c.toNat < 128 then c.isAlpha else inRanges casedRanges c.toNat

/-- Holds for characters that are passed over when a word's cased characters are sought. -/
def isCaseIgnorable (c : Char) : Bool :=
  if c.toNat < 128 then c = '\'' || c = '.' || c = ':' || c = '^' || c = '\x60'
  else inRanges caseIgnorableRanges c.toNat

/-- Holds when the first character that is not passed over has a case. -/
def startsCased (text : List Char) : Bool :=
  match text.dropWhile isCaseIgnorable with
  | [] => false
  | c :: _ => isCased c

/-- The capital sigma, whose lowercase form at the end of a word differs. -/
def capitalSigma : Char := '\u03a3'

/-- Lowercases a text after `before`, which is in reverse. -/
def lowerAfter (before : List Char) : List Char → List Char
  | [] => []
  | c :: rest =>
      (if c = capitalSigma then
        [if startsCased before && !startsCased rest then '\u03c2' else '\u03c3']
      else lowerChar c) ++ lowerAfter (c :: before) rest

def lower (text : List Char) : List Char :=
  lowerAfter [] text

def upper (text : List Char) : List Char :=
  text.flatMap upperChar

/-- Uppercases the first character of a text and lowercases each of the others by itself. -/
def capitalize : List Char → List Char
  | [] => []
  | c :: rest => upperChar c ++ rest.flatMap lowerChar

end ReportTemplate.Text
