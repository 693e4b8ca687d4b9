import ReportTemplate.Proofs.Condition.Printing
import ReportTemplate.Proofs.Template.Quoting
import ReportTemplate.Proofs.Text.Blank

/-! Expressions and the texts that spell them.
The relations leave open the quotes of strings and the spaces around operands, names,
parentheses and separators; whatever they are, the expression is read again.
-/

namespace ReportTemplate.Template

open Condition

-----------------------------------------------------------------------------------------
-- Characters
-----------------------------------------------------------------------------------------

theorem isBlank_of_isSpace {c : Char} (h : Token.isSpace c = true) : Text.isBlank c = true := by
  simp only [Token.isSpace, Bool.or_eq_true, decide_eq_true_eq] at h
  rcases h with ((rfl | rfl) | rfl) | rfl <;> rfl

theorem all_isBlank_of_isSpace {spaces : List Char} (h : spaces.all Token.isSpace = true)
    : spaces.all Text.isBlank = true := by
  rw [List.all_eq_true] at h ⊢
  intro c hm
  exact isBlank_of_isSpace (h c hm)

theorem isBlank_of_isCallChar {c : Char} (h : Registry.isNameChar c = true)
    : Text.isBlank c = false :=
  Text.isBlank_eq_false_of_test Registry.isNameChar (by decide) h

/-- The first character of an operand is not blank, by its kind. -/
theorem isBlank_head_of_isWritten {token : Token} (h : token.IsWritten)
    (ho : token.rule.isOperand = true)
    : ∃ c ∈ token.text, Text.isBlank c = false := by
  obtain ⟨c, rest, ht, hk⟩ := h.head
  refine ⟨c, by simp [ht], ?_⟩
  rcases hk with ⟨-, hc⟩ | ⟨-, hc | rfl⟩ | ⟨-, hc⟩ | ⟨hr, -⟩
  · exact Text.isBlank_eq_false_of_test Token.isNameStart (by decide +kernel) hc
  · exact Text.isBlank_eq_false_of_test Number.isDigit (by decide) hc
  · rfl
  · exact Text.isBlank_eq_false_of_test Token.isQuote (by decide) hc
  · simp [hr, Rule.isOperand] at ho

/-- Holds for characters that are part of no operand but a string. -/
structure IsSeparator (separator : Char) : Prop where
  path : Token.isPathChar separator = false
  number : Token.isNumberChar separator = false
  quote : Token.isQuote separator = false
  space : Token.isSpace separator = false

instance (separator : Char) : Decidable (IsSeparator separator) :=
  decidable_of_iff (Token.isPathChar separator = false ∧ Token.isNumberChar separator = false
    ∧ Token.isQuote separator = false ∧ Token.isSpace separator = false)
    ⟨fun ⟨hp, hn, hq, hs⟩ => ⟨hp, hn, hq, hs⟩, fun ⟨hp, hn, hq, hs⟩ => ⟨hp, hn, hq, hs⟩⟩

theorem isSeparator_bar : IsSeparator '|' := by decide

theorem isSeparator_comma : IsSeparator ',' := by decide

/-- An operand is not cut: a separator in it stands between quotes, by the kinds of operands. -/
theorem isWhole_of_isWritten {separator : Char} (hs : IsSeparator separator) {token : Token}
    (h : token.IsWritten) (ho : token.rule.isOperand = true)
    : IsWhole separator token.text := by
  obtain ⟨rule, text⟩ := token
  rcases h.kinds with hw | rfl | rfl | rfl
  · obtain ⟨c, rest, ht, hc, hp⟩ := h.word_chars hw
    have hcp := Token.isPathChar_of_isNameStart hc
    rw [ht]
    exact IsWhole.of_all hs.path (by decide) (by decide) (by rw [List.all_cons, hcp, hp]; rfl)
  · obtain ⟨c, rest, rfl, hc, hn⟩ := IsNumber.chars h
    have hcn : Token.isNumberChar c = true := by
      rcases hc with hc | rfl
      · simp [Token.isNumberChar, hc]
      · rfl
    exact IsWhole.of_all hs.number (by decide) (by decide) (by rw [List.all_cons, hcn, hn]; rfl)
  · obtain ⟨quote, body, inside, hq, hbody, rfl⟩ : IsString text := h
    refine IsWhole.quoted hq ?_ hbody
    rintro rfl
    exact Bool.false_ne_true (hs.quote.symm.trans hq)
  · exact absurd ho Bool.false_ne_true

-----------------------------------------------------------------------------------------
-- Operands
-----------------------------------------------------------------------------------------

theorem isWhole_of_spells {separator : Char} (hs : IsSeparator separator) {operand : Operand}
    {text : List Char} (h : Spells operand text)
    : IsWhole separator text := by
  obtain ⟨token, rfl, hw, ho, -⟩ := h.isWritten
  exact isWhole_of_isWritten hs hw ho

/-- An operand is read between any spaces: its token is the only one. -/
theorem operand_read?_of_spells {operand : Operand} {text padded : List Char}
    (h : Spells operand text) (hp : IsPadded text padded)
    : Operand.read? padded = some operand := by
  obtain ⟨token, rfl, hw, ho, hbuild⟩ := h.isWritten
  obtain ⟨before, after, hb, ha, rfl⟩ := hp
  have hstop : Stops token.continues after := by
    intro c hc
    exact continues_of_isSpace (List.all_eq_true.mp ha c (List.mem_of_mem_head? hc)) token
  have hlaid : Laid [token] (before ++ (token.text ++ after)) := .token hb hw hstop (.blank ha)
  rw [Operand.read?, Token.scan?_eq_some_iff.mpr hlaid]
  dsimp only
  rw [operand?_of_isOperand ho, Option.bind_some, hbuild]
  rfl

/-- A row of texts is not cut when none of its texts is. -/
theorem forall_isWhole {α : Type} {IsText : α → List Char → Prop} {separator : Char}
    (hwhole : ∀ {value text}, IsText value text → IsWhole separator text) {values : List α}
    {texts : List (List Char)} (ht : List.Forall₂ IsText values texts)
    : ∀ text ∈ texts, IsWhole separator text :=
  ((List.forall₂_and_left _ _).mp (ht.flip.imp fun _ _ h => ⟨hwhole h, h⟩)).1

/-- A row of texts is read between any spaces when each text is, by induction on the row. -/
theorem mapM_read?_of_forall₂ {α : Type} {IsText : α → List Char → Prop}
    {read? : List Char → Option α}
    (hread : ∀ {value text padded}, IsText value text → IsPadded text padded
      → read? padded = some value)
    {values : List α} {texts pieces : List (List Char)} (ht : List.Forall₂ IsText values texts)
    (hp : List.Forall₂ IsPadded texts pieces)
    : pieces.mapM read? = some values := by
  induction ht generalizing pieces with
  | nil =>
      cases hp
      rfl
  | cons ht _ ih =>
      cases hp with
      | cons hp hps => simp [hread ht hp, ih hps]

-----------------------------------------------------------------------------------------
-- Filter calls
-----------------------------------------------------------------------------------------

/-- A filter call and the texts that spell it, without spaces around it. -/
inductive SpellsCall : FilterCall → List Char → Prop where
  | bare {name : List Char} (hne : name ≠ []) (hn : name.all Registry.isNameChar = true)
      : SpellsCall ⟨String.ofList name, []⟩ name
  | empty {name gap spaces : List Char} (hne : name ≠ [])
      (hn : name.all Registry.isNameChar = true) (hg : gap.all Token.isSpace = true)
      (hs : spaces.all Token.isSpace = true)
      : SpellsCall ⟨String.ofList name, []⟩ (name ++ (gap ++ '(' :: (spaces ++ [')'])))
  | arguments {name gap inner : List Char} {operands : List Operand} {texts : List (List Char)}
      (hne : name ≠ []) (hn : name.all Registry.isNameChar = true)
      (hg : gap.all Token.isSpace = true) (hs : List.Forall₂ Spells operands texts)
      (hi : Separated ',' texts inner)
      : SpellsCall ⟨String.ofList name, operands⟩ (name ++ (gap ++ '(' :: (inner ++ [')'])))

/-- A call is read from its name and what stands behind the name, when the name is the longest
row of name characters.
-/
theorem call_read?_eq {piece name rest : List Char} (ht : Text.trim piece = name ++ rest)
    (hne : name ≠ []) (hn : name.all Registry.isNameChar = true)
    (hstop : Stops Registry.isNameChar rest)
    : FilterCall.read? piece
      = if (Text.trim rest).isEmpty then some ⟨String.ofList name, []⟩
        else
          ((FilterCall.insideParentheses? (Text.trim rest)).bind FilterCall.arguments?).map
            fun arguments => ⟨String.ofList name, arguments⟩ := by
  obtain ⟨htake, hdrop⟩ := takeWhile_append_of_stops hn hstop
  have hempty : name.isEmpty = false := by simpa using hne
  rw [FilterCall.read?, ht]
  simp only [htake, hdrop, hempty, Bool.false_eq_true, if_false]

/-- A padded text that starts with a name is trimmed to itself, if its last character is not
blank either.
-/
theorem trim_of_isPadded {name rest padded : List Char} (hne : name ≠ [])
    (hn : name.all Registry.isNameChar = true)
    (hl : ∀ c ∈ (name ++ rest).getLast?, Text.isBlank c = false)
    (hp : IsPadded (name ++ rest) padded)
    : Text.trim padded = name ++ rest := by
  obtain ⟨before, after, hb, ha, rfl⟩ := hp
  refine Text.trim_append (all_isBlank_of_isSpace hb) (all_isBlank_of_isSpace ha) (by simp [hne])
    ?_ hl
  obtain ⟨c, name, rfl⟩ := List.exists_cons_of_ne_nil hne
  rw [List.all_cons, Bool.and_eq_true] at hn
  intro d hd
  obtain rfl : c = d := by simpa using hd
  exact isBlank_of_isCallChar hn.1

/-- A name alone is read as a call without arguments. -/
theorem call_read?_of_name {name padded : List Char} (hne : name ≠ [])
    (hn : name.all Registry.isNameChar = true) (hp : IsPadded name padded)
    : FilterCall.read? padded = some ⟨String.ofList name, []⟩ := by
  have hlast : ∀ c ∈ (name ++ []).getLast?, Text.isBlank c = false := by
    intro c hc
    rw [List.append_nil] at hc
    exact isBlank_of_isCallChar (List.all_eq_true.mp hn c (List.mem_of_getLast? hc))
  have htrim := trim_of_isPadded hne hn hlast (by rwa [List.append_nil])
  rw [call_read?_eq htrim hne hn (by simp [Stops])]
  rfl

/-- A name is read with the arguments between the parentheses behind it. -/
theorem call_read?_of_arguments? {name gap inner padded : List Char} {operands : List Operand}
    (hne : name ≠ []) (hn : name.all Registry.isNameChar = true)
    (hg : gap.all Token.isSpace = true) (ha : FilterCall.arguments? inner = some operands)
    (hp : IsPadded (name ++ (gap ++ '(' :: (inner ++ [')']))) padded)
    : FilterCall.read? padded = some ⟨String.ofList name, operands⟩ := by
  have hlast : ∀ front : List Char, ∀ c ∈ (front ++ '(' :: (inner ++ [')'])).getLast?,
      Text.isBlank c = false := by
    intro front c hc
    rw [← List.cons_append, ← List.append_assoc, List.getLast?_concat] at hc
    obtain rfl : ')' = c := Option.some.inj hc
    rfl
  have hstop : Stops Registry.isNameChar (gap ++ '(' :: (inner ++ [')'])) := by
    intro c hc
    cases gap with
    | nil =>
        obtain rfl : '(' = c := by simpa using hc
        rfl
    | cons d gap =>
        obtain rfl : d = c := by simpa using hc
        rw [List.all_cons, Bool.and_eq_true] at hg
        cases hd : Registry.isNameChar d with
        | false => rfl
        | true =>
            have hblank := isBlank_of_isSpace hg.1
            rw [isBlank_of_isCallChar hd] at hblank
            exact absurd hblank Bool.false_ne_true
  have hrest : Text.trim (gap ++ '(' :: (inner ++ [')'])) = '(' :: (inner ++ [')']) := by
    have hopen : ∀ c ∈ ('(' :: (inner ++ [')'])).head?, Text.isBlank c = false := by
      intro c hc
      obtain rfl : '(' = c := Option.some.inj hc
      rfl
    have hnil : ([] : List Char).all Text.isBlank = true := rfl
    have ht := Text.trim_append (all_isBlank_of_isSpace hg) hnil (by simp) hopen (hlast [])
    rwa [List.append_nil] at ht
  have hinside : FilterCall.insideParentheses? ('(' :: (inner ++ [')'])) = some inner := by
    simp [FilterCall.insideParentheses?]
  have htrim := trim_of_isPadded hne hn
    (by simpa only [List.append_assoc] using hlast (name ++ gap)) hp
  rw [call_read?_eq htrim hne hn hstop, hrest, hinside, Option.bind_some, ha]
  rfl

/-- Operands between commas are read as arguments: the first of them is not blank. -/
theorem arguments?_of_separated {inner : List Char} {operands : List Operand}
    {texts : List (List Char)} (hs : List.Forall₂ Spells operands texts)
    (hi : Separated ',' texts inner)
    : FilterCall.arguments? inner = some operands := by
  have hblank : Text.isBlankText inner = false := by
    have hfirst : ∀ {operand text padded}, Spells operand text → IsPadded text padded
        → ∃ c ∈ padded, Text.isBlank c = false := by
      rintro operand text padded ht ⟨before, after, -, -, rfl⟩
      obtain ⟨token, rfl, hw, ho, -⟩ := ht.isWritten
      obtain ⟨c, hm, hc⟩ := isBlank_head_of_isWritten hw ho
      exact ⟨c, by simp [hm], hc⟩
    rw [Text.isBlankText, List.all_eq_false]
    cases hi with
    | last hp =>
        cases hs with
        | cons ht _ => simpa using hfirst ht hp
    | more hp _ =>
        cases hs with
        | cons ht _ =>
            obtain ⟨c, hm, hc⟩ := hfirst ht hp
            exact ⟨c, by simp [hm], by simp [hc]⟩
  have hwhole := forall_isWhole (isWhole_of_spells isSeparator_comma) hs
  obtain ⟨pieces, hsplit, hpieces⟩ := hi.splitUnquoted_eq isSeparator_comma.space hwhole
  rw [FilterCall.arguments?, hblank, if_neg Bool.false_ne_true, hsplit, Option.bind_some]
  exact mapM_read?_of_forall₂ operand_read?_of_spells hs hpieces

/-- A call is read between any spaces, by the ways to spell it. -/
theorem call_read?_of_spells {call : FilterCall} {text padded : List Char}
    (h : SpellsCall call text) (hp : IsPadded text padded)
    : FilterCall.read? padded = some call := by
  cases h with
  | bare hne hn => exact call_read?_of_name hne hn hp
  | @empty name gap spaces hne hn hg hs =>
      have ha : FilterCall.arguments? spaces = some [] := if_pos (all_isBlank_of_isSpace hs)
      exact call_read?_of_arguments? hne hn hg ha hp
  | arguments hne hn hg hs hi =>
      exact call_read?_of_arguments? hne hn hg (arguments?_of_separated hs hi) hp

/-- A call is not cut at bars, by the ways to spell it: bars stand in its strings only. -/
theorem isWhole_of_spellsCall {call : FilterCall} {text : List Char} (h : SpellsCall call text)
    : IsWhole '|' text := by
  have hname : ∀ {name : List Char}, name.all Registry.isNameChar = true → IsWhole '|' name :=
    fun hn => .of_all (by decide) (by decide) (by decide) hn
  have hspace : ∀ {spaces : List Char}, spaces.all Token.isSpace = true → IsWhole '|' spaces :=
    fun hs => .of_all (by decide) (by decide) (by decide) hs
  have hcall : ∀ {name gap inner : List Char}, name.all Registry.isNameChar = true
      → gap.all Token.isSpace = true → IsWhole '|' inner
      → IsWhole '|' (name ++ (gap ++ '(' :: (inner ++ [')']))) := by
    intro name gap inner hn hg hi
    have hclose : IsWhole '|' [')'] := .cons (by decide) (by decide) rfl
    have hopen : IsWhole '|' ('(' :: (inner ++ [')'])) :=
      .cons (by decide) (by decide) (hi.append hclose)
    exact (hname hn).append ((hspace hg).append hopen)
  cases h with
  | bare hne hn => exact hname hn
  | empty hne hn hg hs => exact hcall hn hg (hspace hs)
  | arguments hne hn hg hs hi =>
      refine hcall hn hg (hi.isWhole (by decide) (by decide) (by decide) ?_)
      exact forall_isWhole (isWhole_of_spells isSeparator_bar) hs

-----------------------------------------------------------------------------------------
-- Expressions
-----------------------------------------------------------------------------------------

/-- A text spells an expression: its operand and its calls with bars between them. -/
def SpellsExpression (expression : Expression) (source : List Char) : Prop :=
  ∃ base calls, Spells expression.base base ∧ List.Forall₂ SpellsCall expression.calls calls
    ∧ Separated '|' (base :: calls) source

/-- An expression is cut at its bars, and each part is read again. -/
theorem SpellsExpression.parts {expression : Expression} {source : List Char}
    (h : SpellsExpression expression source)
    : ∃ first rest, splitUnquoted '|' source = some (first :: rest)
      ∧ Operand.read? first = some expression.base
      ∧ rest.mapM FilterCall.read? = some expression.calls := by
  obtain ⟨base, calls, hb, hc, hs⟩ := h
  have hwhole : ∀ text ∈ base :: calls, IsWhole '|' text :=
    List.forall_mem_cons.mpr
      ⟨isWhole_of_spells isSeparator_bar hb, forall_isWhole isWhole_of_spellsCall hc⟩
  obtain ⟨pieces, hsplit, hpieces⟩ := hs.splitUnquoted_eq isSeparator_bar.space hwhole
  cases hpieces with
  | @cons _ first _ rest hfirst hrest =>
      exact ⟨first, rest, hsplit, operand_read?_of_spells hb hfirst,
        mapM_read?_of_forall₂ call_read?_of_spells hc hrest⟩

theorem SpellsExpression.read?_eq {expression : Expression} {source : List Char}
    (h : SpellsExpression expression source)
    : Expression.read? source = some expression := by
  obtain ⟨first, rest, hsplit, hfirst, hrest⟩ := h.parts
  simp [Expression.read?, hsplit, hfirst, hrest]

theorem SpellsExpression.pad {expression : Expression} {source before after : List Char}
    (h : SpellsExpression expression source) (hb : before.all Token.isSpace = true)
    (ha : after.all Token.isSpace = true)
    : SpellsExpression expression (before ++ (source ++ after)) := by
  obtain ⟨base, calls, hbase, hcalls, hs⟩ := h
  exact ⟨base, calls, hbase, hcalls, hs.pad hb ha⟩

end ReportTemplate.Template
