import ReportTemplate.Proofs.Template.MarkedContent
import ReportTemplate.Proofs.Template.Spelling

/-! Printed expressions.
An expression is printed with one space around its bars and one behind its commas. Reading gives
it back, whatever stands in its strings, and so does an interpolation of the printed text.
-/

namespace ReportTemplate.Template

open Condition

-----------------------------------------------------------------------------------------
-- Printing
-----------------------------------------------------------------------------------------

/-- Protects the quotes of a kind and the backslashes in a text. -/
def escape (quote : Char) (text : List Char) : List Char :=
  text.flatMap fun c => if c = quote ∨ c = '\\' then ['\\', c] else [c]

/-- An operand to print, with the form of its number and the kind of its quotes. -/
inductive PrintedOperand where
  | path (text : List Char) (h : IsPath text)
  | number (text : List Char) (h : IsNumber text)
  | string (quote : Char) (h : Token.isQuote quote = true) (text : String)
  | bool (value : Bool)
  | null

namespace PrintedOperand

def operand : PrintedOperand → Operand
  | path text _ => .path (String.ofList text)
  | number text h => .literal (.number ((Number.float text).get (float_isSome h)))
  | string _ _ text => .literal (.string text)
  | bool value => .literal (.bool value)
  | null => .literal .null

def source : PrintedOperand → List Char
  | path text _ => text
  | number text _ => text
  | string quote _ text => quote :: (escape quote text.toList ++ [quote])
  | bool true => ['t', 'r', 'u', 'e']
  | bool false => ['f', 'a', 'l', 's', 'e']
  | null => ['n', 'u', 'l', 'l']

end PrintedOperand

/-- A filter call to print: a name of letters, digits and underscores, with arguments. -/
structure PrintedCall where
  name : List Char
  name_ne_nil : name ≠ []
  name_all : name.all Registry.isNameChar = true
  arguments : List PrintedOperand

namespace PrintedCall

def call (printed : PrintedCall) : FilterCall :=
  ⟨String.ofList printed.name, printed.arguments.map PrintedOperand.operand⟩

/-- The name, with the arguments between parentheses if there are any. -/
def source (printed : PrintedCall) : List Char :=
  if printed.arguments.isEmpty then printed.name
  else
    printed.name
      ++ '(' :: (Text.join [',', ' '] (printed.arguments.map PrintedOperand.source) ++ [')'])

end PrintedCall

/-- An expression to print. -/
structure PrintedExpression where
  base : PrintedOperand
  calls : List PrintedCall

namespace PrintedExpression

def expression (printed : PrintedExpression) : Expression :=
  ⟨printed.base.operand, printed.calls.map PrintedCall.call⟩

def source (printed : PrintedExpression) : List Char :=
  Text.join [' ', '|', ' '] (printed.base.source :: printed.calls.map PrintedCall.source)

end PrintedExpression

-----------------------------------------------------------------------------------------
-- What is printed spells the expression
-----------------------------------------------------------------------------------------

/-- A protected text is written as it may stand between the quotes, by induction on the text. -/
theorem quoted_escape (quote : Char) (text : List Char)
    : Quoted quote (escape quote text) text := by
  induction text with
  | nil => exact .nil
  | cons c text ih =>
      rw [escape, List.flatMap_cons, ← escape]
      split
      · exact .escaped ih
      · next hc =>
          rw [not_or] at hc
          exact .plain hc.1 hc.2 ih

theorem PrintedOperand.spells (printed : PrintedOperand)
    : Spells printed.operand printed.source := by
  cases printed with
  | path text h => exact .path h
  | number text h => exact .number h (Option.some_get _).symm
  | string quote h text =>
      have hs := Spells.string h (quoted_escape quote text.toList)
      rwa [String.ofList_toList] at hs
  | bool value =>
      cases value with
      | true => exact .yes
      | false => exact .no
  | null => exact .null

/-- A row is spelled by the row of sources when each member is by its own. -/
theorem forall₂_map_map {α β : Type} {IsText : β → List Char → Prop} {value : α → β}
    {source : α → List Char} (h : ∀ a, IsText (value a) (source a)) (row : List α)
    : List.Forall₂ IsText (row.map value) (row.map source) := by
  rw [List.forall₂_map_left_iff, List.forall₂_map_right_iff, List.forall₂_same]
  exact fun a _ => h a

theorem PrintedCall.spells (printed : PrintedCall)
    : SpellsCall printed.call printed.source := by
  obtain ⟨name, hne, hn, arguments⟩ := printed
  cases arguments with
  | nil => exact .bare hne hn
  | cons first others =>
      have hg : ([] : List Char).all Token.isSpace = true := rfl
      exact .arguments hne hn hg (forall₂_map_map PrintedOperand.spells (first :: others))
        (.of_join [] [' '] rfl rfl _ _)

theorem PrintedExpression.spells (printed : PrintedExpression)
    : SpellsExpression printed.expression printed.source := by
  refine ⟨_, _, printed.base.spells, forall₂_map_map PrintedCall.spells printed.calls, ?_⟩
  exact .of_join [' '] [' '] rfl rfl _ _

-----------------------------------------------------------------------------------------
-- Interpolations of expressions
-----------------------------------------------------------------------------------------

/-- What a filter leaves of a value: its result, or the value if it is unknown or fails. -/
def FilterCall.pass (registry : Registry) (scope : Scope) (value : Value) (call : FilterCall)
    : Value :=
  match registry.apply call.name value (call.arguments.map (·.eval scope)) with
  | .applied result => result
  | .unknown => value
  | .failed _ => value

theorem FilterCall.value_apply (registry : Registry) (scope : Scope) (value : Value)
    (call : FilterCall)
    : (call.apply registry scope value).value = call.pass registry scope value := by
  unfold FilterCall.apply FilterCall.pass
  cases registry.apply call.name value (call.arguments.map (·.eval scope)) <;> rfl

/-- The value of an expression has passed through its calls in order, by induction on the row
of calls.
-/
theorem Expression.value_eval (registry : Registry) (scope : Scope) (expression : Expression)
    : (expression.eval registry scope).value
      = expression.calls.foldl (fun value call => call.pass registry scope value)
          (expression.base.eval scope) := by
  rw [Expression.eval]
  generalize expression.base.eval scope = value
  induction expression.calls generalizing value with
  | nil => rfl
  | cons call calls ih =>
      rw [List.foldlM_cons, Logged.value_bind, ih, FilterCall.value_apply, List.foldl_cons]

/-- An expression in double braces is replaced by the text of its value, when the scanner takes
all of it for the inside of the braces.
-/
theorem interpolate_spelled (registry : Registry) (scope : Scope) {expression : Expression}
    {inside : List Char} (hs : SpellsExpression expression inside) (hn : '\n' ∉ inside)
    (hc : ¬ ['\x7d', '\x7d'] <:+: inside ++ ['\x7d'])
    : interpolate registry scope (Fragment.braced inside).source
      = Value.outputChars <$> expression.eval registry scope := by
  have hscan := Fragment.scan_braced_of_inside? (Fragment.inside?_append_of_not_infix hn hc [])
  rw [List.append_nil] at hscan
  rw [interpolate, hscan]
  ext1 <;> simp [Fragment.scan, Logged.concat, Fragment.render, hs.read?_eq]

/-- Spaces around a text keep its braces from those around it. -/
theorem not_infix_padded {source : List Char} (h : ¬ ['\x7d', '\x7d'] <:+: source)
    : ¬ ['\x7d', '\x7d'] <:+: ' ' :: (source ++ [' ']) ++ ['\x7d'] := by
  have hspace : ∀ front, front ++ ['\x7d'] ≠ source ++ [' '] := by
    intro front he
    have hlast := congrArg List.getLast? he
    simp at hlast
  rw [List.cons_append, List.infix_cons_iff, List.infix_concat_iff, List.infix_concat_iff]
  rintro (⟨rest, he⟩ | ⟨front, he⟩ | ⟨front, he⟩ | hs)
  · simp at he
  · exact hspace front (List.append_cancel_right (by simpa using he))
  · exact hspace (front ++ ['\x7d']) (by simpa using he)
  · exact h hs

/-- A printed expression is cut at its bars into its operand and its calls, and they are read
again. Between double braces it is replaced by the text of its value behind all calls, if it is
one line without closing braces.
-/
theorem PrintedExpression.read_and_interpolate (printed : PrintedExpression)
    : (∃ first rest, splitUnquoted '|' printed.source = some (first :: rest)
        ∧ Operand.read? first = some printed.base.operand
        ∧ rest.mapM FilterCall.read? = some (printed.calls.map PrintedCall.call))
      ∧ ∀ registry scope, '\n' ∉ printed.source → ¬ ['\x7d', '\x7d'] <:+: printed.source
        → (interpolate registry scope
            (['\x7b', '\x7b', ' '] ++ printed.source ++ [' ', '\x7d', '\x7d'])).value
          = Value.outputChars
              ((printed.calls.map PrintedCall.call).foldl
                (fun value call => call.pass registry scope value)
                (printed.base.operand.eval scope)) := by
  refine ⟨printed.spells.parts, fun registry scope hn hc => ?_⟩
  have hsource : ['\x7b', '\x7b', ' '] ++ printed.source ++ [' ', '\x7d', '\x7d']
      = (Fragment.braced (' ' :: (printed.source ++ [' ']))).source := by
    simp [Fragment.source]
  have hspace : [' '].all Token.isSpace = true := rfl
  have hs : SpellsExpression printed.expression (' ' :: (printed.source ++ [' '])) :=
    printed.spells.pad hspace hspace
  rw [hsource, interpolate_spelled registry scope hs (by simpa using hn) (not_infix_padded hc),
    Logged.value_map, Expression.value_eval]
  rfl

/-- Separators, parentheses, backslashes and both kinds of quotes in strings. -/
def PrintedExpression.sample : PrintedExpression where
  base := .string '\'' rfl "it's a|b, (c) \\"
  calls := [
    ⟨"replace".toList, by decide, by decide, [.string '"' rfl "|", .string '"' rfl "\",\\"]⟩,
    ⟨"shout".toList, by decide, by decide,
      [.number "-1.5e3".toList (isNumber_iff.mp rfl), .null]⟩,
    ⟨"upper".toList, by decide, by decide, []⟩]

theorem PrintedExpression.interpolate_sample
    : sample.source
        = ("'it\\'s a|b, (c) \\\\' | replace(\"|\", \"\\\",\\\\\") | " ++
          "shout(-1.5e3, null) | upper").toList
      ∧ '\n' ∉ sample.source
      ∧ ¬ ['\x7d', '\x7d'] <:+: sample.source
      ∧ (interpolate .builtins { data := .map [] }
          (['\x7b', '\x7b', ' '] ++ sample.source ++ [' ', '\x7d', '\x7d'])).value
        = "IT'S A\",\\B, (C) \\".toList := by
  have hn : '\n' ∉ sample.source := by decide +kernel
  have hc : ¬ ['\x7d', '\x7d'] <:+: sample.source := by decide +kernel
  refine ⟨by decide +kernel, hn, hc, ?_⟩
  rw [sample.read_and_interpolate.2 .builtins _ hn hc]
  decide +kernel

end ReportTemplate.Template
