import ReportTemplate.Json.Quoted
import ReportTemplate.Yaml.Source

/-! The text of YAML scalars: plain, quoted and in blocks.
Line breaks inside a flow scalar are folded: one break becomes a blank, and of several the
first is dropped.
-/

namespace ReportTemplate.Yaml

/-- The blanks or line breaks since the last character of a scalar, in reverse. The first
break is missing after an escaped line break.
-/
inductive Gap where
  | blanks (reversed : List Char)
  | breaks (first : Option Char) (reversed : List Char)

namespace Gap

def none : Gap := .blanks []

def isNone : Gap → Bool
  | .blanks [] => true
  | _ => false

/-- Holds when a gap has a line break. -/
def hasBreak : Gap → Bool
  | .blanks _ => false
  | .breaks _ _ => true

/-- Adds a blank, which does not count after a line break. -/
def addBlank (c : Char) : Gap → Gap
  | .blanks reversed => .blanks (c :: reversed)
  | gap => gap

/-- Adds a line break, which makes the blanks before it not count. -/
def addBreak (c : Char) : Gap → Gap
  | .blanks _ => .breaks (some c) []
  | .breaks first reversed => .breaks first (c :: reversed)

def text : Gap → List Char
  | .blanks reversed => reversed.reverse
  | .breaks (some '\n') [] => [' ']
  | .breaks (some '\n') reversed => reversed.reverse
  | .breaks (some c) reversed => c :: reversed.reverse
  | .breaks Option.none reversed => reversed.reverse

end Gap

/-- A scalar's text, whether line breaks stand behind it, and the source after those. -/
structure Scanned where
  text : List Char
  brokeLine : Bool
  rest : Source

/-- Holds for the characters that end a plain scalar inside brackets. -/
def isFlowMark (c : Char) : Bool :=
  c = ',' || c = '[' || c = ']' || c = '\x7b' || c = '\x7d'

/-- Reads a plain scalar, `indent` being the least column of its continuation lines outside
brackets. The characters read so far are in reverse.
-/
def plainScalar? (inFlow : Bool) (indent : Nat) (reversed : List Char) (gap : Gap)
    : Source → Option Scanned
  | [] => some ⟨reversed.reverse, gap.hasBreak, []⟩
  | cell :: rest =>
      let here := cell :: rest
      let finished : Option Scanned := some ⟨reversed.reverse, gap.hasBreak, here⟩
      let c := cell.char
      let following := Source.next rest
      if isBlank c then
        if gap.hasBreak && c = '\t' && decide (cell.column < indent) then none
        else plainScalar? inFlow indent reversed (gap.addBlank c) rest
      else if isBreak c then plainScalar? inFlow indent reversed (gap.addBreak c) rest
      else if c = endMark then finished
      else if !gap.isNone
          && ((!inFlow && decide (cell.column < indent)) || Source.atDocumentMark here || c = '#')
        then finished
      else if inFlow && c = ':' && (isFlowMark following || following = '?') then none
      else if (c = ':' && isGap following) || (inFlow && isFlowMark c) then finished
      else plainScalar? inFlow indent (c :: (gap.text.reverse ++ reversed)) Gap.none rest

/-- The character that a backslash and a letter stand for. -/
def escapedChar? : Char → Option Char
  | '0' => some '\x00'
  | 'a' => some '\x07'
  | 'b' => some '\x08'
  | 't' => some '\t'
  | '\t' => some '\t'
  | 'n' => some '\n'
  | 'v' => some '\x0b'
  | 'f' => some '\x0c'
  | 'r' => some '\r'
  | 'e' => some '\x1b'
  | ' ' => some ' '
  | '"' => some '"'
  | '/' => some '/'
  | '\\' => some '\\'
  | 'N' => some '\u0085'
  | '_' => some '\u00a0'
  | 'L' => some '\u2028'
  | 'P' => some '\u2029'
  | _ => none

/-- The count of hexadecimal digits after a backslash and a letter. -/
def escapedLength? : Char → Option Nat
  | 'x' => some 2
  | 'u' => some 4
  | 'U' => some 8
  | _ => none

/-- The character with a code written in hexadecimal digits. -/
def hexChar? (digits : List Char) : Option Char := do
  let code ← digits.foldlM (fun n c => do return 16 * n + (← Json.hexValue? c)) 0
  if code.isValidChar then some (Char.ofNat code) else none

/-- Reads a scalar after its opening quote up to its closing quote, `skip` cells of which are
read already. The characters read so far are in reverse.
-/
def quotedScalar? (quote : Char) (skip : Nat) (reversed : List Char) (gap : Gap)
    : Source → Option Scanned
  | [] => none
  | cell :: rest =>
      match skip with
      | skip + 1 => quotedScalar? quote skip reversed gap rest
      | 0 =>
          let c := cell.char
          let following := Source.next rest
          let joined := gap.text.reverse ++ reversed
          if c = endMark then none
          else if isBlank c then quotedScalar? quote 0 reversed (gap.addBlank c) rest
          else if isBreak c then quotedScalar? quote 0 reversed (gap.addBreak c) rest
          else if !gap.isNone && Source.atDocumentMark (cell :: rest) then none
          else if c = quote then
            if quote = '\'' ∧ following = quote then
              quotedScalar? quote 1 (c :: joined) Gap.none rest
            else some ⟨joined.reverse, false, rest⟩
          else if quote = '"' ∧ c = '\\' then
            if isBreak following then quotedScalar? quote 1 joined (.breaks none []) rest
            else
              match escapedLength? following with
              | some length => do
                  let escaped ← hexChar? ((rest.drop 1).take length |>.map Cell.char)
                  quotedScalar? quote (length + 1) (escaped :: joined) Gap.none rest
              | none => do
                  let escaped ← escapedChar? following
                  quotedScalar? quote 1 (escaped :: joined) Gap.none rest
          else quotedScalar? quote 0 (c :: joined) Gap.none rest

/-- What is kept of the line breaks at the end of a block. -/
inductive Chomping where
  | strip
  | clip
  | keep

/-- The marks at the start of a block scalar. -/
structure BlockStyle where
  literal : Bool
  chomping : Chomping
  /-- The indentation of the block's lines; zero until it is known. -/
  indent : Nat

/-- What has been read of a block scalar: its text and the breaks behind it in reverse.
`lineBreak` ends the last line, and `blankLine` holds when that line starts with a blank.
-/
structure BlockState where
  reversed : List Char
  lineBreak : Option Char
  breaks : List Char
  blankLine : Bool
  /-- The greatest column of an empty line before the first line. -/
  widest : Nat

/-- The text of a block scalar with the breaks that its chomping keeps. -/
def BlockState.close (state : BlockState) (chomping : Chomping) : List Char :=
  state.reversed.reverse ++
    match chomping with
    | .strip => []
    | .clip => state.lineBreak.toList
    | .keep => state.lineBreak.toList ++ state.breaks.reverse

/-- Joins a line that starts with a character to the lines before it. -/
def BlockState.join (state : BlockState) (literal : Bool) (c : Char) : BlockState :=
  let folds := !literal && state.lineBreak = some '\n' && !state.blankLine && !isBlank c
  let joint :=
    if folds then
      if state.breaks.isEmpty then [' '] else state.breaks
    else state.breaks ++ state.lineBreak.toList
  { state with
    reversed := c :: (joint ++ state.reversed)
    lineBreak := none
    breaks := []
    blankLine := isBlank c }

/-- Reads the lines of a block scalar; `least` is the least indentation of its lines, and
`inLine` holds inside a line.
-/
def blockLines? (style : BlockStyle) (least : Nat) (inLine : Bool) (state : BlockState)
    : Source → Option Scanned
  | [] => some ⟨state.close style.chomping, false, []⟩
  | cell :: rest =>
      let c := cell.char
      let finished : Option Scanned :=
        some ⟨state.close style.chomping, false, cell :: rest⟩
      if inLine then
        if c = endMark then finished
        else if isBreak c then
          blockLines? style least false { state with lineBreak := some c } rest
        else
          blockLines? style least true { state with reversed := c :: state.reversed } rest
      else
        let beforeIndent := style.indent = 0 ∨ cell.column < style.indent
        let widest := max state.widest cell.column
        if beforeIndent ∧ c = ' ' then blockLines? style least false state rest
        else if beforeIndent ∧ c = '\t' then none
        else if isBreak c then
          blockLines? style least false
            { state with breaks := c :: state.breaks, widest := widest } rest
        else
          let indent := if style.indent = 0 then max widest least else style.indent
          if c ≠ endMark ∧ cell.column = indent then
            blockLines? { style with indent := indent } least true (state.join style.literal c)
              rest
          else finished

/-- Reads the marks of a block scalar: chomping and a digit in either order. -/
def blockMarks? (source : Source) : Option (Chomping × Option Nat × Source) :=
  let chomping? : Char → Option Chomping := fun c =>
    if c = '+' then some .keep else if c = '-' then some .strip else none
  let digit? : Char → Option Nat := fun c =>
    if '0' ≤ c ∧ c ≤ '9' then some (c.toNat - '0'.toNat) else none
  let marks : Chomping × Option Nat × Source :=
    match chomping? source.next with
    | some chomping =>
        match digit? (source.peek 1) with
        | some digit => (chomping, some digit, source.drop 2)
        | none => (chomping, none, source.drop 1)
    | none =>
        match digit? source.next with
        | some digit =>
            match chomping? (source.peek 1) with
            | some chomping => (chomping, some digit, source.drop 2)
            | none => (.clip, some digit, source.drop 1)
        | none => (.clip, none, source)
  if marks.2.1 = some 0 then none else some marks

/-- Reads a block scalar after its first mark, inside a collection with the given
indentation, which is `-1` at the top.
-/
def blockScalar? (literal : Bool) (parent : Int) (source : Source) : Option Scanned := do
  let (chomping, digit, source) ← blockMarks? source
  let source := source.dropComment
  if isLineEnd source.next then
    let source := if isBreak source.next then source.drop 1 else source
    let indent :=
      match digit with
      | some digit => (max parent 0).toNat + digit
      | none => 0
    blockLines? ⟨literal, chomping, indent⟩ (max (parent + 1) 1).toNat false
      ⟨[], none, [], false, 0⟩ source
  else none

end ReportTemplate.Yaml
