import ReportTemplate.Condition.Basic
import ReportTemplate.Condition.Token
import ReportTemplate.Text.Blank

/-! Reading conditions and single operands.
The grammar makes a tree of pairs from the tokens, and a builder makes a condition from the
tree. `or` binds less than `and`, which binds less than `not`; chains of `or` and of `and` nest
to the left, and a comparison has exactly two operands.
-/

namespace ReportTemplate

namespace Condition

/-- A pair of the grammar: a token, or a rule with the pairs inside it. -/
inductive Pair where
  | leaf (token : Token)
  | node (rule : Rule) (inner : List Pair)

namespace Pair

def rule : Pair → Rule
  | .leaf token => token.rule
  | .node rule _ => rule

def inner : Pair → List Pair
  | .leaf _ => []
  | .node _ inner => inner

/-- The text of a token; the builder reads no other. -/
def text : Pair → List Char
  | .leaf token => token.text
  | .node _ _ => []

def operand? (token : Token) : Option Pair :=
  if token.rule.isOperand then some (.node .operand [.leaf token]) else none

/-- Takes an operand, or two operands around a comparison. -/
def comparison? : List Token → Option Pair
  | [source] => do return .node .comparison [← operand? source]
  | [left, sign, right] =>
      if sign.rule = .cmpOp then do
        return .node .comparison [← operand? left, .leaf sign, ← operand? right]
      else none
  | _ => none

/-- Takes a comparison after any number of `not`. -/
def unary? : List Token → Option Pair
  | [] => none
  | token :: rest =>
      if token.rule = .notOp then
        (unary? rest).map fun inner => .node .unary [.leaf token, inner]
      else (comparison? (token :: rest)).map fun inner => .node .unary [inner]

/-- Takes parts between the tokens of an operator, which stay between them. -/
def chain? (rule : Rule) (operator : Token) (part? : List Token → Option Pair)
    (tokens : List Token) : Option Pair :=
  ((Text.cut (· == operator) tokens).mapM part?).map fun parts =>
    .node rule (parts.intersperse (.leaf operator))

/-- Takes a chain of `and`. -/
def conjunction? (tokens : List Token) : Option Pair :=
  chain? .andExpr ⟨.andOp, ['a', 'n', 'd']⟩ unary? tokens

/-- Takes a chain of `or`. -/
def disjunction? (tokens : List Token) : Option Pair :=
  chain? .orExpr ⟨.orOp, ['o', 'r']⟩ conjunction? tokens

def condition? (tokens : List Token) : Option Pair := do
  return .node .condition [← disjunction? tokens]

end Pair

/-- Why a text is not a condition. The last two are for pairs that the builder does not
expect.
-/
inductive ReadError where
  | empty
  | malformed
  | invalidNumber (text : String)
  | unexpected (rule : Rule)
  deriving DecidableEq, Repr

def ReadError.message : ReadError → String
  | .empty => "empty expression"
  | .malformed => "syntax error"
  | .invalidNumber text => "invalid number: " ++ text
  | .unexpected rule => "unexpected rule: " ++ rule.name

/-- Drops backslashes, each of which keeps the next character. -/
def unescape : List Char → List Char
  | [] => []
  | ['\\'] => []
  | '\\' :: c :: rest => c :: unescape rest
  | c :: rest => c :: unescape rest

def unquote (quoted : List Char) : List Char :=
  unescape quoted.tail.dropLast

/-- Builds an operand from its literal or path. -/
def buildOperand (pair : Pair) : Except ReadError Operand :=
  match pair.inner with
  | [] => .error (.unexpected .operand)
  | literal :: _ =>
      match literal.rule with
      | .path => .ok (.path (String.ofList literal.text))
      | .number =>
          match Number.float literal.text with
          | some n => .ok (.literal (.number n))
          | none => .error (.invalidNumber (String.ofList literal.text))
      | .string => .ok (.literal (.string (String.ofList (unquote literal.text))))
      | .boolean => .ok (.literal (.bool (literal.text = ['t', 'r', 'u', 'e'])))
      | .nullLit => .ok (.literal .null)
      | other => .error (.unexpected other)

/-- Builds a comparison, or the operand alone. -/
def buildComparison (pair : Pair) : Except ReadError Condition :=
  match pair.inner with
  | [] => .error (.unexpected .comparison)
  | left :: rest => do
      let left ← buildOperand left
      match rest with
      | [] => return .operand left
      | sign :: rest =>
          match Comparison.ofSymbol? sign.text, rest with
          | none, _ => .error (.unexpected .cmpOp)
          | some _, [] => .error (.unexpected .comparison)
          | some comparison, right :: _ =>
              return .compare left comparison (← buildOperand right)

/-- Builds a comparison with the `not` before it. -/
def buildUnary : Pair → Except ReadError Condition
  | .leaf _ => .error (.unexpected .unary)
  | .node _ [] => .error (.unexpected .unary)
  | .node _ (first :: rest) =>
      match first.rule, rest with
      | .notOp, [] => .error (.unexpected .notOp)
      | .notOp, source :: _ => return .not (← buildUnary source)
      | .comparison, _ => buildComparison first
      | other, _ => .error (.unexpected other)

/-- Builds parts in order and nests them to the left. -/
def nest (rule : Rule) (combine : Condition → Condition → Condition)
    (build : Pair → Except ReadError Condition) : List Pair → Except ReadError Condition
  | [] => .error (.unexpected rule)
  | first :: rest => do
      rest.foldlM (fun left right => return combine left (← build right)) (← build first)

/-- Builds a chain from those of its pairs that are parts. -/
def buildChain (rule part : Rule) (combine : Condition → Condition → Condition)
    (build : Pair → Except ReadError Condition) (pair : Pair) : Except ReadError Condition :=
  nest rule combine build (pair.inner.filter (·.rule = part))

/-- Builds a chain of `and`. -/
def buildAnd (pair : Pair) : Except ReadError Condition :=
  buildChain .andExpr .unary .and buildUnary pair

/-- Builds a chain of `or`. -/
def buildOr (pair : Pair) : Except ReadError Condition :=
  buildChain .orExpr .andExpr .or buildAnd pair

def read (text : List Char) : Except ReadError Condition :=
  if Text.isBlankText text then .error .empty
  else
    match (Token.scanner.scan? text).bind Pair.condition? with
    | none => .error .malformed
    | some pair =>
        match pair.inner.find? (·.rule = .orExpr) with
        | some found => buildOr found
        | none => .error (.unexpected .condition)

end Condition

/-- Reads a text that is a single operand. -/
def Operand.read? (text : List Char) : Option Operand :=
  match Condition.Token.scanner.scan? text with
  | some [token] =>
      (Condition.Pair.operand? token).bind fun pair => (Condition.buildOperand pair).toOption
  | _ => none

end ReportTemplate
