import ReportTemplate.Template.Interpolation
import ReportTemplate.Template.Tag

/-! Loops: bodies repeated for the items of a list.
A loop closes at the first end behind it that closes no loop inside. What has no end is left
as text.
-/

namespace ReportTemplate.Template

/-- The header of a loop: the name of an item and the path of the list. -/
structure Header where
  binding : String
  path : String
  deriving DecidableEq, Repr

namespace Header

def isNameStart (c : Char) : Bool :=
  c.isAlpha || c = '_'

def isPathChar (c : Char) : Bool :=
  Registry.isNameChar c || c = '.'

def afterBlanks? (text : List Char) : Option (List Char) :=
  match text with
  | [] => none
  | c :: rest => if Text.isBlank c then some (Text.trimStart rest) else none

/-- Takes the longest row of characters that pass a test, the first of which starts a name. -/
def nameAt? (test : Char → Bool) (text : List Char) : Option (List Char × List Char) :=
  match text with
  | [] => none
  | c :: _ =>
      if isNameStart c then some (text.takeWhile test, text.dropWhile test) else none

/-- Reads a header: a name, `in` between blanks, and a path. -/
def read? (text : List Char) : Option Header := do
  let (binding, rest) ← nameAt? Registry.isNameChar text
  match ← afterBlanks? rest with
  | 'i' :: 'n' :: rest =>
      let (path, rest) ← nameAt? isPathChar (← afterBlanks? rest)
      if rest.isEmpty then some ⟨String.ofList binding, String.ofList path⟩ else none
  | _ => none

end Header

/-- A part of a template with its loops found. -/
inductive LoopPart where
  | piece (kept : Piece)
  | unclosed (start : Tag)
  | loop (header : Header) (body : List LoopPart)

namespace LoopPart

/-- Parts before the first end of a loop that is open before them, and behind each end. -/
abbrev Pending := List LoopPart × List (Tag × List LoopPart)

def Pending.cons (part : LoopPart) (pending : Pending) : Pending :=
  (part :: pending.1, pending.2)

/-- Opens a loop in front, which closes at the first end. -/
def Pending.openLoop (tag : Tag) (header : Header) (pending : Pending) : Pending :=
  match pending with
  | (parts, []) => (.unclosed tag :: parts, [])
  | (body, (_, parts) :: ends) => (.loop header body :: parts, ends)

def Pending.add (found : Piece) (pending : Pending) : Pending :=
  match found with
  | .char _ => pending.cons (.piece found)
  | .tag tag =>
      match tag.kind with
      | .forEnd => ([], (tag, pending.1) :: pending.2)
      | .forStart =>
          match Header.read? tag.argument with
          | some header => pending.openLoop tag header
          | none => pending.cons (.piece found)
      | _ => pending.cons (.piece found)

/-- Finds the loops of a row of pieces and the ends that close none of them. -/
def pending (pieces : List Piece) : Pending :=
  pieces.foldr Pending.add ([], [])

/-- Finds the loops of a row of pieces; an end that closes no loop is left as text. -/
def ofPieces (pieces : List Piece) : List LoopPart :=
  let (parts, ends) := pending pieces
  parts ++ ends.flatMap fun (tag, parts) => .piece (.tag tag) :: parts

/-- The data of an iteration under the name `loop`. -/
def loopData (index length : Nat) : Value :=
  .map [
    ("index", .number (Float.ofNat (index + 1))),
    ("index0", .number (Float.ofNat index)),
    ("first", .bool (index == 0)),
    ("last", .bool (index + 1 == length)),
    ("length", .number (Float.ofNat length))]

/-- The frame of an iteration: the item under its name, and the data of the iteration, which
hides an item of that name.
-/
def frame (binding : String) (item : Value) (index length : Nat) : Entries Value :=
  Entries.insert [(binding, item)] "loop" (loopData index length)

/-- The items of the list at a path; anything else has none. -/
def itemsAt (scope : Scope) (path : String) : List Value :=
  match scope.resolve? path with
  | some (.list items) => items
  | _ => []

/-- The scopes of the iterations of a loop, one for each item with a frame of its own. -/
def iterations (header : Header) (scope : Scope) : List Scope :=
  let items := itemsAt scope header.path
  items.mapIdx fun index item => scope.push (frame header.binding item index items.length)

/-- Renders a body in the scope of each iteration. -/
def iterate {α : Type} (header : Header) (scope : Scope) (body : Scope → Logged (List α))
    : Logged (List α) :=
  .concat ((iterations header scope).map body)

mutual

/-- Expands a part. The body of a loop is expanded and then interpolated in its frame. -/
def expand (registry : Registry) (scope : Scope) : LoopPart → Logged (List Char)
  | .piece kept => pure kept.source
  | .unclosed start => .raise (.unclosedLoop (String.ofList start.argument)) start.source
  | .loop header body =>
      iterate header scope fun inner => do
        interpolate registry inner (← expandAll registry inner body)

def expandAll (registry : Registry) (scope : Scope) : List LoopPart → Logged (List Char)
  | [] => pure []
  | part :: parts => do
      let text ← expand registry scope part
      return text ++ (← expandAll registry scope parts)

end

end LoopPart

def expandLoops (registry : Registry) (scope : Scope) (text : List Char)
    : Logged (List Char) :=
  LoopPart.expandAll registry scope (LoopPart.ofPieces (Piece.scan text))

end ReportTemplate.Template
