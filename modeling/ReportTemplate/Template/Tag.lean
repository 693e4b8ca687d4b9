import ReportTemplate.Text.Blank
import ReportTemplate.Text.TokenReader
import ReportTemplate.Text.Word

/-! Tags of templates: the pieces that open, part and close blocks.
A tag ends at the first closing mark behind its keyword, and its argument is on one line.
-/

namespace ReportTemplate.Template

/-- What a tag does. -/
inductive TagKind where
  | forStart
  | forEnd
  | ifStart
  | elifBranch
  | elseBranch
  | ifEnd
  deriving DecidableEq, Repr

namespace TagKind

def keyword : TagKind → List Char
  | .forStart => ['f', 'o', 'r']
  | .forEnd => ['e', 'n', 'd', 'f', 'o', 'r']
  | .ifStart => ['i', 'f']
  | .elifBranch => ['e', 'l', 'i', 'f']
  | .elseBranch => ['e', 'l', 's', 'e']
  | .ifEnd => ['e', 'n', 'd', 'i', 'f']

def all : List TagKind :=
  [.forStart, .forEnd, .ifStart, .elifBranch, .elseBranch, .ifEnd]

end TagKind

/-- A tag: its kind, the argument behind its keyword, and its text in the template. -/
structure Tag where
  kind : TagKind
  argument : List Char
  source : List Char
  deriving DecidableEq, Repr

namespace Tag

def continuesWord : List Char → Bool
  | [] => false
  | c :: _ => Text.isWordChar c

/-- The text behind a word at the start of a text, where no longer word starts. -/
def afterWord? : List Char → List Char → Option (List Char)
  | [], text => if continuesWord text then none else some text
  | _ :: _, [] => none
  | w :: word, c :: text => if w = c then afterWord? word text else none

/-- The keyword at the start of a text, and the text behind it. -/
def keyword? (text : List Char) : Option (TagKind × List Char) :=
  TagKind.all.findSome? fun kind => (afterWord? kind.keyword text).map (kind, ·)

def beforeEnd? : List Char → Option (List Char)
  | [] => none
  | '%' :: '\x7d' :: _ => some []
  | c :: rest => (beforeEnd? rest).map (c :: ·)

/-- The text of a tag from its parts: the blanks before its keyword and the text between the
keyword and the closing mark.
-/
def sourceOf (blanks : List Char) (kind : TagKind) (inside : List Char) : List Char :=
  '\x7b' :: '%' :: (blanks ++ kind.keyword ++ inside ++ ['%', '\x7d'])

/-- Reads a tag at the start of a text. -/
def read? : List Char → Option Tag
  | '\x7b' :: '%' :: text => do
      let blanks := text.takeWhile Text.isBlank
      let (kind, rest) ← keyword? (text.dropWhile Text.isBlank)
      let inside ← beforeEnd? rest
      let argument := Text.trim inside
      if argument.contains '\n' then none
      else some ⟨kind, argument, sourceOf blanks kind inside⟩
  | _ => none

end Tag

/-- A piece of a template: a tag, or a character that is not part of one. -/
inductive Piece where
  | char (c : Char)
  | tag (found : Tag)
  deriving DecidableEq, Repr

namespace Piece

def source : Piece → List Char
  | .char c => [c]
  | .tag found => found.source

/-- Tags are marks, and the characters between them are pieces of their own. -/
def reader : Text.TokenReader Piece where
  char := .char
  read? text := (Tag.read? text).map .tag
  source

/-- Cuts a text into pieces. -/
def scan (text : List Char) : List Piece :=
  reader.scan text

end Piece

end ReportTemplate.Template
