import Mathlib.Data.List.Chain
import ReportTemplate.Proofs.Number.Numeral

/-! Conditions and the words that print them.
The relations say which words print a condition, without a reader: `and` chains nest to the
left inside `or` chains, which nest to the left too.
-/

namespace ReportTemplate.Condition

-----------------------------------------------------------------------------------------
-- The words of conditions
-----------------------------------------------------------------------------------------

/-- An operand and the texts that print it. -/
inductive Spells : Operand → List Char → Prop where
  | path {text : List Char} (h : IsPath text) : Spells (.path (String.ofList text)) text
  | number {text : List Char} {n : Float} (h : IsNumber text)
      (hn : Number.float text = some n)
      : Spells (.literal (.number n)) text
  | string {quote : Char} {body inside : List Char} (hq : Token.isQuote quote = true)
      (h : Quoted quote body inside)
      : Spells (.literal (.string (String.ofList inside))) (quote :: (body ++ [quote]))
  | yes : Spells (.literal (.bool true)) ['t', 'r', 'u', 'e']
  | no : Spells (.literal (.bool false)) ['f', 'a', 'l', 's', 'e']
  | null : Spells (.literal .null) ['n', 'u', 'l', 'l']

/-- An operand, a comparison of two operands, or either behind `not`, with its words. -/
inductive Unary : Condition → List (List Char) → Prop where
  | operand {source : Operand} {word : List Char} (h : Spells source word)
      : Unary (.operand source) [word]
  | compare {left right : Operand} {comparison : Comparison} {first second : List Char}
      (hl : Spells left first) (hr : Spells right second)
      : Unary (.compare left comparison right) [first, comparison.symbol.toList, second]
  | not {inner : Condition} {words : List (List Char)} (h : Unary inner words)
      : Unary (.not inner) (['n', 'o', 't'] :: words)

/-- Parts joined by an operator, nested to the left, with their words. -/
inductive Chain (combine : Condition → Condition → Condition) (operator : List Char)
    (Part : Condition → List (List Char) → Prop) : Condition → List (List Char) → Prop where
  | one {part : Condition} {words : List (List Char)} (h : Part part words)
      : Chain combine operator Part part words
  | more {left right : Condition} {first second : List (List Char)}
      (hl : Chain combine operator Part left first) (hr : Part right second)
      : Chain combine operator Part (combine left right) (first ++ operator :: second)

/-- A chain of `and` with its words. -/
def Conjunction : Condition → List (List Char) → Prop :=
  Chain .and ['a', 'n', 'd'] Unary

def Disjunction : Condition → List (List Char) → Prop :=
  Chain .or ['o', 'r'] Conjunction

-----------------------------------------------------------------------------------------
-- Rows of tokens
-----------------------------------------------------------------------------------------

/-- Holds for tokens that stand one behind the other in a condition: a number before an
operator, and a comparison before an operand.
-/
def Follows (first second : Token) : Prop :=
  (first.rule = .number → second.rule = .andOp ∨ second.rule = .orOp ∨ second.rule = .cmpOp)
  ∧ (first.rule = .cmpOp → second.rule.isOperand = true)

/-- Written tokens that stand one behind the other, up to an operand. -/
structure IsRow (tokens : List Token) : Prop where
  written : ∀ token ∈ tokens, token.IsWritten
  follows : tokens.IsChain Follows
  operand : ∃ last ∈ tokens.getLast?, last.rule.isOperand = true

/-- A written operand is built, and its text prints it, by the cases of its rule. -/
theorem spells_of_isWritten {token : Token} (ho : token.rule.isOperand = true)
    (h : token.IsWritten)
    : ∃ source, buildOperand (.node .operand [.leaf token]) = .ok source
      ∧ Spells source token.text := by
  obtain ⟨rule, text⟩ := token
  cases rule with
  | path => exact ⟨_, rfl, .path h⟩
  | number =>
      obtain ⟨n, hn⟩ := Option.isSome_iff_exists.mp (float_isSome h)
      exact ⟨.literal (.number n), by simp [buildOperand, Pair.inner, Pair.rule, Pair.text, hn],
        .number h hn⟩
  | string =>
      obtain ⟨quote, body, inside, hq, hbody, rfl⟩ : IsString text := h
      refine ⟨.literal (.string (String.ofList inside)), ?_, .string hq hbody⟩
      simp [buildOperand, Pair.inner, Pair.rule, Pair.text, unquote, hbody.unescape_eq]
  | boolean =>
      have hk : text = ['t', 'r', 'u', 'e'] ∨ text = ['f', 'a', 'l', 's', 'e'] := by
        simpa [Token.IsWritten, keywords] using h
      rcases hk with rfl | rfl
      · exact ⟨_, rfl, .yes⟩
      · exact ⟨_, rfl, .no⟩
  | nullLit =>
      obtain rfl : text = ['n', 'u', 'l', 'l'] := by simpa [Token.IsWritten, keywords] using h
      exact ⟨_, rfl, .null⟩
  | _ => exact absurd ho Bool.false_ne_true

/-- A text that prints an operand is that of a written token from which it is built. -/
theorem Spells.isWritten {source : Operand} {text : List Char} (h : Spells source text)
    : ∃ token : Token, token.text = text ∧ token.IsWritten ∧ token.rule.isOperand = true
      ∧ buildOperand (.node .operand [.leaf token]) = .ok source := by
  cases h with
  | path h => exact ⟨⟨.path, text⟩, rfl, h, rfl, rfl⟩
  | number h hn =>
      exact ⟨⟨.number, text⟩, rfl, h, rfl,
        by simp [buildOperand, Pair.inner, Pair.rule, Pair.text, hn]⟩
  | @string quote body inside hq h =>
      have hw : IsString (quote :: (body ++ [quote])) := ⟨quote, body, inside, hq, h, rfl⟩
      refine ⟨⟨.string, quote :: (body ++ [quote])⟩, rfl, hw, rfl, ?_⟩
      simp [buildOperand, Pair.inner, Pair.rule, Pair.text, unquote, h.unescape_eq]
  | yes => exact ⟨⟨.boolean, _⟩, rfl, by simp [Token.IsWritten, keywords], rfl, rfl⟩
  | no => exact ⟨⟨.boolean, _⟩, rfl, by simp [Token.IsWritten, keywords], rfl, rfl⟩
  | null => exact ⟨⟨.nullLit, _⟩, rfl, by simp [Token.IsWritten, keywords], rfl, rfl⟩

/-- A token behind which anything stands, since it is neither a number nor a comparison. -/
theorem follows_of_ne {first : Token} (hn : first.rule ≠ .number) (hc : first.rule ≠ .cmpOp)
    (second : Token)
    : Follows first second :=
  ⟨fun h => absurd h hn, fun h => absurd h hc⟩

theorem IsRow.single {token : Token} (hw : token.IsWritten)
    (ho : token.rule.isOperand = true)
    : IsRow [token] where
  written := by simpa using hw
  follows := .singleton token
  operand := ⟨token, rfl, ho⟩

/-- A token in front of a row gives a row when the row may follow it. -/
theorem IsRow.cons {token : Token} {tokens : List Token} (h : IsRow tokens)
    (hw : token.IsWritten) (hf : ∀ next ∈ tokens.head?, Follows token next)
    : IsRow (token :: tokens) where
  written := by simpa using ⟨hw, h.written⟩
  follows := List.isChain_cons.mpr ⟨hf, h.follows⟩
  operand := by
    obtain ⟨last, hl, ho⟩ := h.operand
    exact ⟨last, List.mem_getLast?_cons hl, ho⟩

/-- Rows on both sides of `and` or `or` give a row, by what stands at the joints: an operand
before the operator, and anything behind it.
-/
theorem IsRow.joined {operator : Token} {left right : List Token} (hl : IsRow left)
    (hr : IsRow right) (hw : operator.IsWritten)
    (ho : operator.rule = .andOp ∨ operator.rule = .orOp)
    : IsRow (left ++ operator :: right) := by
  have hn : operator.rule ≠ .number := by rcases ho with ho | ho <;> simp [ho]
  have hc : operator.rule ≠ .cmpOp := by rcases ho with ho | ho <;> simp [ho]
  have h := hr.cons hw fun next _ => follows_of_ne hn hc next
  refine ⟨fun token hm => ?_, List.isChain_append.mpr ⟨hl.follows, h.follows, ?_⟩, ?_⟩
  · exact (List.mem_append.mp hm).elim (hl.written token) (h.written token)
  · intro last hlast next hnext
    obtain ⟨last', hlast', hoperand⟩ := hl.operand
    obtain rfl : last' = last := Option.mem_unique hlast' hlast
    obtain rfl : operator = next := Option.some.inj hnext
    refine ⟨fun _ => ho.imp_right Or.inl, fun hcmp => ?_⟩
    rw [hcmp] at hoperand
    exact absurd hoperand Bool.false_ne_true
  · obtain ⟨last, hlast, hoperand⟩ := h.operand
    exact ⟨last, by rw [List.getLast?_append, hlast]; rfl, hoperand⟩

end ReportTemplate.Condition
