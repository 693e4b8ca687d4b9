import ReportTemplate.Proofs.Condition.Reading
import ReportTemplate.Proofs.Condition.Scanning

/-! Texts that print conditions, and the reader of texts against them.
A printing sets the words of a condition in a row with any spaces around them. Only words of
name characters need a space, and only before another name character: elsewhere the grammar
leaves no two words behind each other that could be taken for one.
-/

namespace ReportTemplate.Condition

-----------------------------------------------------------------------------------------
-- Layouts of words
-----------------------------------------------------------------------------------------

/-- A word that a name character behind it would make longer: a keyword, a literal word or a
path.
-/
def IsName (word : List Char) : Prop :=
  word ∈ keywords.map Prod.snd ∨ IsPath word

/-- Words in a row, with any spaces around them, where no name goes on behind its word. -/
inductive Layout : List (List Char) → List Char → Prop where
  | blank {spaces : List Char} (hs : spaces.all Token.isSpace = true)
      : Layout [] spaces
  | word {spaces word rest : List Char} {words : List (List Char)}
      (hs : spaces.all Token.isSpace = true) (hn : IsName word → Stops Token.isNameChar rest)
      (next : Layout words rest)
      : Layout (word :: words) (spaces ++ (word ++ rest))

/-- Holds for the texts that print a condition. -/
def IsPrinting (condition : Condition) (text : List Char) : Prop :=
  ∃ words, Disjunction condition words ∧ Layout words text

/-- A name is the text of a written word token. -/
theorem IsName.isWritten {word : List Char} (h : IsName word)
    : ∃ token : Token, token.text = word ∧ token.IsWritten ∧ token.rule.isWord = true := by
  rcases h with h | h
  · obtain ⟨⟨rule, word⟩, hk, rfl⟩ := List.mem_map.mp h
    exact ⟨⟨rule, word⟩, rfl, isWritten_of_mem_keywords hk⟩
  · exact ⟨⟨.path, word⟩, rfl, h, rfl⟩

theorem Token.IsWritten.isName {token : Token} (h : token.IsWritten)
    (hw : token.rule.isWord = true)
    : IsName token.text := by
  rcases h.keyword_or_path hw with hk | ⟨-, hp⟩
  · exact Or.inl (List.mem_map.mpr ⟨_, hk, rfl⟩)
  · exact Or.inr hp

/-- A written token whose text is a name is a word: the characters that start other tokens
start no name.
-/
theorem Token.IsWritten.isWord_of_isName {token : Token} (h : token.IsWritten)
    (hn : IsName token.text)
    : token.rule.isWord = true := by
  obtain ⟨word, ht, hwritten, hword⟩ := hn.isWritten
  obtain ⟨c, rest, hc, hstart, -⟩ := hwritten.word_chars hword
  obtain ⟨d, rest', hd, hkind⟩ := h.head
  -- Equal texts start with the same character.
  obtain ⟨rfl, -⟩ : c = d ∧ rest = rest' := List.cons.inj (by rw [← hc, ht, hd])
  rcases hkind with ⟨hw, -⟩ | ⟨-, hdigit | rfl⟩ | ⟨-, hq⟩ | ⟨-, hs⟩
  · exact hw
  · have hm := mem_digits hdigit
    simp only [List.mem_cons, List.not_mem_nil, or_false] at hm
    rcases hm with rfl | rfl | rfl | rfl | rfl | rfl | rfl | rfl | rfl | rfl <;>
      exact absurd hstart (by decide)
  · exact absurd hstart (by decide)
  · simp only [Token.isQuote, Bool.or_eq_true, decide_eq_true_eq] at hq
    rcases hq with rfl | rfl <;> exact absurd hstart (by decide)
  · simp only [Token.isSign, Bool.or_eq_true, decide_eq_true_eq] at hs
    rcases hs with ((rfl | rfl) | rfl) | rfl <;> exact absurd hstart (by decide)

/-- A row of tokens is a layout of their texts, by induction on the row: a word that no path
character follows is followed by no name character.
-/
theorem Laid.layout {tokens : List Token} {text : List Char} (h : Laid tokens text)
    : Layout (tokens.map Token.text) text := by
  induction h with
  | blank hs => exact .blank hs
  | @token spaces rest token tokens hs hw hstop _ ih =>
      refine .word hs (fun hn c hc => ?_) ih
      have hpath : Token.isPathChar c = false := by
        rw [← Token.continues_of_isWord (hw.isWord_of_isName hn)]
        exact hstop c hc
      rw [Token.isPathChar, Bool.or_eq_false_iff] at hpath
      exact hpath.1

-----------------------------------------------------------------------------------------
-- What stands behind a token
-----------------------------------------------------------------------------------------

/-- A space makes no token longer, by the four spaces. -/
theorem continues_of_isSpace {c : Char} (h : Token.isSpace c = true) (token : Token)
    : token.continues c = false := by
  have hc : Token.isPathChar c = false ∧ Token.isNumberChar c = false ∧ c ≠ '=' := by
    simp only [Token.isSpace, Bool.or_eq_true, decide_eq_true_eq] at h
    rcases h with ((rfl | rfl) | rfl) | rfl <;> decide
  unfold Token.continues
  split <;> simp [hc]

theorem Token.IsWritten.head_ne_point {token : Token} (h : token.IsWritten) {c : Char}
    (hc : c ∈ token.text.head?)
    : c ≠ '.' := by
  rintro rfl
  obtain ⟨d, rest, ht, hkind⟩ := h.head
  obtain rfl : d = '.' := by simpa [ht] using hc
  rcases hkind with ⟨-, hd⟩ | ⟨-, hd | hd⟩ | ⟨-, hd⟩ | ⟨-, hd⟩ <;> exact absurd hd (by decide)

/-- No written operand starts with an equals sign, by its kind. -/
theorem Token.IsWritten.head_ne_equals {token : Token} (h : token.IsWritten)
    (ho : token.rule.isOperand = true) {c : Char} (hc : c ∈ token.text.head?)
    : c ≠ '=' := by
  rintro rfl
  obtain ⟨d, rest, ht, hkind⟩ := h.head
  obtain rfl : d = '=' := by simpa [ht] using hc
  rcases hkind with ⟨-, hd⟩ | ⟨-, hd | hd⟩ | ⟨-, hd⟩ | ⟨hr, -⟩
  · exact absurd hd (by decide)
  · exact absurd hd (by decide)
  · exact absurd hd (by decide)
  · exact absurd hd (by decide)
  · exact absurd hr (ne_of_isOperand ho rfl)

/-- An operator starts with no number character, by the words and symbols of operators. -/
theorem Token.IsWritten.head_not_isNumberChar {token : Token} (h : token.IsWritten)
    (ho : token.rule = .andOp ∨ token.rule = .orOp ∨ token.rule = .cmpOp) {c : Char}
    (hc : c ∈ token.text.head?)
    : Token.isNumberChar c = false := by
  obtain ⟨rule, text⟩ := token
  rcases ho with rfl | rfl | rfl
  · obtain rfl : text = ['a', 'n', 'd'] := by simpa [Token.IsWritten, keywords] using h
    obtain rfl := Option.some.inj hc
    decide
  · obtain rfl : text = ['o', 'r'] := by simpa [Token.IsWritten, keywords] using h
    obtain rfl := Option.some.inj hc
    decide
  · obtain ⟨comparison, rfl⟩ : ∃ comparison : Comparison, text = comparison.symbol.toList := h
    cases comparison <;> obtain rfl := Option.some.inj hc <;> decide

/-- A token does not go on with the token behind it in a row, by its kind: only after a word
is this left to the layout.
-/
theorem Follows.not_continues {first second : Token} (h : Follows first second)
    (hf : first.IsWritten) (hs : second.IsWritten) {c : Char} (hc : c ∈ second.text.head?)
    (hn : IsName first.text → Token.isNameChar c = false)
    : first.continues c = false := by
  rcases hf.kinds with hk | hk | hk | hk
  · rw [Token.continues_of_isWord hk]
    simp [Token.isPathChar, hn (hf.isName hk), hs.head_ne_point hc]
  · have hnumber := hs.head_not_isNumberChar (h.1 hk) hc
    simp [Token.continues, hk, hnumber]
  · simp [Token.continues, hk]
  · have hequals := hs.head_ne_equals (h.2 hk) hc
    simp [Token.continues, hk, hequals]

/-- A layout of the texts of a row of tokens is a row of the tokens, by induction on the row.
-/
theorem Layout.laid {tokens : List Token} {text : List Char}
    (hw : ∀ token ∈ tokens, token.IsWritten) (hf : tokens.IsChain Follows)
    (h : Layout (tokens.map Token.text) text)
    : Laid tokens text := by
  induction tokens generalizing text with
  | nil =>
      cases h with
      | blank hs => exact .blank hs
  | cons token tokens ih =>
      obtain ⟨hnext, hf⟩ := List.isChain_cons.mp hf
      cases h with
      | @word spaces _ rest _ hs hn next =>
          have hlaid := ih (fun token hm => hw token (by simp [hm])) hf next
          refine .token hs (hw token (by simp)) (fun c hc => ?_) hlaid
          -- Behind the token stands a space or the first character of the next token.
          cases hlaid with
          | blank hs =>
              have hspace := List.all_eq_true.mp hs c (List.mem_of_mem_head? hc)
              exact continues_of_isSpace hspace token
          | @token spaces after second others hs hsecond _ _ =>
              cases spaces with
              | nil =>
                  have hhead : c ∈ second.text.head? := by
                    obtain ⟨d, more, hd⟩ := List.exists_cons_of_ne_nil hsecond.text_ne_nil
                    simpa [hd] using hc
                  exact (hnext second rfl).not_continues (hw token (by simp)) hsecond hhead
                    fun hname => hn hname c hc
              | cons d spaces =>
                  obtain rfl : d = c := by simpa using hc
                  exact continues_of_isSpace (List.all_eq_true.mp hs d (by simp)) token

-----------------------------------------------------------------------------------------
-- The reader of texts
-----------------------------------------------------------------------------------------

theorem condition?_eq_some_iff {tokens : List Token} {pair : Pair}
    : Pair.condition? tokens = some pair
      ↔ ∃ found, Pair.disjunction? tokens = some found ∧ pair = .node .condition [found] := by
  unfold Pair.condition?
  cases Pair.disjunction? tokens <;> simp [eq_comm]

/-- A text that is not blank is read from the pair of its tokens, which is a chain of `or`. -/
theorem read_of_disjunction? {text : List Char} (hb : Text.isBlankText text = false)
    {tokens : List Token} (hs : Token.scanner.scan? text = some tokens) {pair : Pair}
    (hp : Pair.disjunction? tokens = some pair) (hr : pair.rule = .orExpr)
    : read text = buildOr pair := by
  have hc := condition?_eq_some_iff.mpr ⟨pair, hp, rfl⟩
  simp [read, hb, hs, hc, Pair.inner, hr]

/-- A text that prints a condition is read as that condition: its layout has the tokens of the
words, and the grammar takes them.
-/
theorem IsPrinting.read_eq {condition : Condition} {text : List Char}
    (h : IsPrinting condition text) (hb : Text.isBlankText text = false)
    : read text = .ok condition := by
  obtain ⟨words, hwords, hlayout⟩ := h
  obtain ⟨tokens, pair, rfl, hrow, -, hp, hbuild⟩ :=
    disjunction_isReader.complete condition words hwords
  have hscan := Token.scan?_eq_some_iff.mpr (hlayout.laid hrow.written hrow.follows)
  have hrule := (disjunction_isReader.sound tokens pair hrow.written hp).1
  rw [read_of_disjunction? hb hscan hp hrule, hbuild]

/-- A text that is not blank prints the condition that is read, or is malformed. -/
theorem isPrinting_or_malformed {text : List Char} (hb : Text.isBlankText text = false)
    : (∃ condition, read text = .ok condition ∧ IsPrinting condition text)
      ∨ read text = .error .malformed := by
  cases hs : Token.scanner.scan? text with
  | none => exact Or.inr (by simp [read, hb, hs])
  | some tokens =>
      have hlaid := Token.scan?_eq_some_iff.mp hs
      cases hp : Pair.disjunction? tokens with
      | none => exact Or.inr (by simp [read, hb, hs, Pair.condition?, hp])
      | some pair =>
          obtain ⟨hr, condition, hbuild, hprints⟩ :=
            disjunction_isReader.sound tokens pair hlaid.written hp
          refine Or.inl ⟨condition, ?_, _, hprints, hlaid.layout⟩
          rw [read_of_disjunction? hb hs hp hr, hbuild]

/-- The reader takes exactly the texts that print a condition, and builds that condition. A
blank text is empty and every other text is malformed; the builder has no errors of its own.
-/
theorem read_iff_isPrinting (text : List Char)
    : (∀ condition, read text = .ok condition
        ↔ Text.isBlankText text = false ∧ IsPrinting condition text)
      ∧ (read text = .error .empty ↔ Text.isBlankText text = true)
      ∧ (read text = .error .malformed
        ↔ Text.isBlankText text = false ∧ ∀ condition, ¬ IsPrinting condition text)
      ∧ (∀ number, read text ≠ .error (.invalidNumber number))
      ∧ ∀ rule, read text ≠ .error (.unexpected rule) := by
  cases hb : Text.isBlankText text with
  | true => simp [read, hb]
  | false =>
      rcases isPrinting_or_malformed hb with ⟨condition, hr, hprints⟩ | hr
      · have hunique : ∀ other, IsPrinting other text ↔ condition = other := by
          intro other
          constructor
          · intro h
            have hother := h.read_eq hb
            rw [hr] at hother
            exact Except.ok.inj hother
          · rintro rfl
            exact hprints
        simp [hr, hunique]
      · have hnone : ∀ other, ¬ IsPrinting other text := by
          intro other h
          rw [h.read_eq hb] at hr
          simp at hr
        simp [hr, hnone]

/-- `not` binds most and `or` least, and a sign needs no spaces. -/
example
    : read "not a or b>='1' and c".toList
      = .ok (.or (.not (.operand (.path "a")))
        (.and (.compare (.path "b") .ge (.literal (.string "1"))) (.operand (.path "c")))) := by
  rfl

end ReportTemplate.Condition
