import ReportTemplate.Template.Log
import ReportTemplate.Template.Tag

/-! Choices: blocks of which only the first branch whose condition holds is kept.
A choice closes at the first end behind it that closes no choice inside. What has no end is
left as text.
-/

namespace ReportTemplate.Template

/-- A part of a template with its choices found; each branch has its tag and its body. -/
inductive ChoicePart where
  | piece (kept : Piece)
  | unclosed (start : Tag)
  | choice (branches : List (Tag × List ChoicePart))

namespace ChoicePart

/-- Parts before the first tag of a choice that is open before them, and behind each. -/
abbrev Pending := List ChoicePart × List (Tag × List ChoicePart)

def Pending.cons (part : ChoicePart) (pending : Pending) : Pending :=
  (part :: pending.1, pending.2)

/-- Cuts a row of branches at the first end of a choice. -/
def cutAtEnd?
    : List (Tag × List ChoicePart) → Option (List (Tag × List ChoicePart) × Pending)
  | [] => none
  | (tag, parts) :: rest =>
      if tag.kind = .ifEnd then some ([], (parts, rest))
      else (cutAtEnd? rest).map fun (branches, after) => ((tag, parts) :: branches, after)

/-- Opens a choice in front, which closes at the first end. -/
def Pending.openChoice (tag : Tag) (pending : Pending) : Pending :=
  match cutAtEnd? pending.2 with
  | none => pending.cons (.unclosed tag)
  | some (branches, after) => after.cons (.choice ((tag, pending.1) :: branches))

def Pending.add (found : Piece) (pending : Pending) : Pending :=
  match found with
  | .char _ => pending.cons (.piece found)
  | .tag tag =>
      match tag.kind with
      | .ifStart => pending.openChoice tag
      | .elifBranch => ([], (tag, pending.1) :: pending.2)
      | .elseBranch => ([], (tag, pending.1) :: pending.2)
      | .ifEnd => ([], (tag, pending.1) :: pending.2)
      | _ => pending.cons (.piece found)

/-- Finds the choices of a row of pieces and the tags that are part of none. -/
def pending (pieces : List Piece) : Pending :=
  pieces.foldr Pending.add ([], [])

/-- Finds the choices of a row of pieces; a tag that is part of none is left as text. -/
def ofPieces (pieces : List Piece) : List ChoicePart :=
  let (parts, tags) := pending pieces
  parts ++ tags.flatMap fun (tag, parts) => .piece (.tag tag) :: parts

/-- The truth of a written condition; one that cannot be read is false and noted. -/
def conditionHolds (scope : Scope) (text : List Char) : Logged Bool :=
  match Condition.read text with
  | .ok condition => pure (condition.holds scope)
  | .error reason => .raise (.invalidCondition (String.ofList text) reason) false

/-- Holds when a branch is taken: always for `else`, else by its condition. -/
def isTaken (scope : Scope) (tag : Tag) : Logged Bool :=
  match tag.kind with
  | .elseBranch => pure true
  | _ => conditionHolds scope tag.argument

mutual

/-- Resolves a part: of a choice only the first branch taken is kept. -/
def resolve (scope : Scope) : ChoicePart → Logged (List Char)
  | .piece kept => pure kept.source
  | .unclosed start => .raise (.unclosedCondition (String.ofList start.argument)) start.source
  | .choice branches => resolveBranches scope branches

def resolveAll (scope : Scope) : List ChoicePart → Logged (List Char)
  | [] => pure []
  | part :: parts => do
      let text ← resolve scope part
      return text ++ (← resolveAll scope parts)

/-- Resolves the first branch taken; without one nothing is left. -/
def resolveBranches (scope : Scope) : List (Tag × List ChoicePart) → Logged (List Char)
  | [] => pure []
  | (tag, parts) :: branches => do
      if ← isTaken scope tag then resolveAll scope parts else resolveBranches scope branches

end

end ChoicePart

def resolveChoices (scope : Scope) (text : List Char) : Logged (List Char) :=
  ChoicePart.resolveAll scope (ChoicePart.ofPieces (Piece.scan text))

end ReportTemplate.Template
