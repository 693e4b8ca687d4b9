import ReportTemplate.Proofs.Condition.Grammar

/-! The reader of tokens against the words that print conditions.
Each rule makes pairs from exactly the words of its relation, and the builder makes from them
the condition that the words print, so it meets only pairs that it expects.
-/

namespace ReportTemplate.Condition

/-- A reader of tokens, with the builder of its pairs, that takes exactly the words of a
relation. Words of a complete reader hold no tokens of the rules that are avoided, which are
left to the rules around it.
-/
structure IsReader (rule : Rule) (read? : List Token → Option Pair)
    (build : Pair → Except ReadError Condition) (Prints : Condition → List (List Char) → Prop)
    (avoided : List Rule) : Prop where
  sound : ∀ tokens pair, (∀ token ∈ tokens, token.IsWritten) → read? tokens = some pair
    → pair.rule = rule ∧ ∃ condition, build pair = .ok condition
      ∧ Prints condition (tokens.map Token.text)
  complete : ∀ condition words, Prints condition words → ∃ tokens pair,
    tokens.map Token.text = words ∧ IsRow tokens
    ∧ (∀ token ∈ tokens, token.rule ∉ avoided)
    ∧ read? tokens = some pair ∧ build pair = .ok condition

-----------------------------------------------------------------------------------------
-- Comparisons and `not`
-----------------------------------------------------------------------------------------

theorem ofSymbol?_symbol (comparison : Comparison)
    : Comparison.ofSymbol? comparison.symbol.toList = some comparison := by
  cases comparison <;> decide

/-- A written operand that is taken is built to what its text spells. -/
theorem operand?_sound {token : Token} {pair : Pair} (hw : token.IsWritten)
    (h : Pair.operand? token = some pair)
    : ∃ source, buildOperand pair = .ok source ∧ Spells source token.text := by
  unfold Pair.operand? at h
  split at h
  · next ho =>
      obtain rfl := Option.some.inj h
      exact spells_of_isWritten ho hw
  · simp at h

/-- Written tokens that are taken as a comparison are built to what their words print, by the
number of tokens.
-/
theorem comparison?_sound {tokens : List Token} {pair : Pair}
    (hw : ∀ token ∈ tokens, token.IsWritten) (h : Pair.comparison? tokens = some pair)
    : pair.rule = .comparison ∧ ∃ condition, buildComparison pair = .ok condition
      ∧ Unary condition (tokens.map Token.text) := by
  unfold Pair.comparison? at h
  split at h
  · next source =>
      obtain ⟨operand, ho, h⟩ := Option.bind_eq_some_iff.mp h
      obtain rfl := Option.some.inj h
      obtain ⟨value, hv, hspells⟩ := operand?_sound (hw source (by simp)) ho
      refine ⟨rfl, .operand value, ?_, .operand hspells⟩
      simp [buildComparison, Pair.inner, hv, bind, Except.bind, pure, Except.pure]
  · next left sign right =>
      split at h
      case isFalse => simp at h
      case isTrue hsign =>
        obtain ⟨first, hf, h⟩ := Option.bind_eq_some_iff.mp h
        obtain ⟨second, hs, h⟩ := Option.bind_eq_some_iff.mp h
        obtain rfl := Option.some.inj h
        obtain ⟨a, ha, hleft⟩ := operand?_sound (hw left (by simp)) hf
        obtain ⟨b, hb, hright⟩ := operand?_sound (hw right (by simp)) hs
        obtain ⟨comparison, hc⟩ : ∃ comparison : Comparison,
            sign.text = comparison.symbol.toList := by
          have hwritten := hw sign (by simp)
          rwa [Token.IsWritten, hsign] at hwritten
        refine ⟨rfl, .compare a comparison b, ?_, ?_⟩
        · simp [buildComparison, Pair.inner, Pair.text, hc, ofSymbol?_symbol, ha, hb, bind,
            Except.bind, pure, Except.pure]
        · simpa [hc] using Unary.compare hleft hright
  · simp at h

theorem buildUnary_not {token : Token} {source : Pair} {condition : Condition}
    (hn : token.rule = .notOp) (hb : buildUnary source = .ok condition)
    : buildUnary (.node .unary [.leaf token, source]) = .ok (.not condition) := by
  rw [buildUnary, hb]
  · rfl
  · exact hn

/-- Written tokens that are taken behind any number of `not` are built to what their words
print, by induction on the tokens.
-/
theorem unary?_sound {tokens : List Token} {pair : Pair}
    (hw : ∀ token ∈ tokens, token.IsWritten) (h : Pair.unary? tokens = some pair)
    : pair.rule = .unary ∧ ∃ condition, buildUnary pair = .ok condition
      ∧ Unary condition (tokens.map Token.text) := by
  induction tokens generalizing pair with
  | nil => simp [Pair.unary?] at h
  | cons token rest ih =>
      rw [Pair.unary?] at h
      split at h
      case isTrue hnot =>
        obtain ⟨inner, hi, rfl⟩ := Option.map_eq_some_iff.mp h
        obtain ⟨-, condition, hb, hu⟩ := ih (fun token hm => hw token (by simp [hm])) hi
        have ht : token.text = ['n', 'o', 't'] := by
          have hwritten := hw token (by simp)
          rw [Token.IsWritten, hnot] at hwritten
          simpa [keywords] using hwritten
        refine ⟨rfl, .not condition, buildUnary_not hnot hb, ?_⟩
        simpa [ht] using Unary.not hu
      case isFalse hnot =>
        obtain ⟨inner, hi, rfl⟩ := Option.map_eq_some_iff.mp h
        obtain ⟨hr, condition, hb, hu⟩ := comparison?_sound hw hi
        exact ⟨rfl, condition, by simp [buildUnary, hr, hb], hu⟩

theorem operand?_of_isOperand {token : Token} (ho : token.rule.isOperand = true)
    : Pair.operand? token = some (.node .operand [.leaf token]) :=
  if_pos ho

theorem ne_of_isOperand {rule other : Rule} (h : rule.isOperand = true)
    (ho : other.isOperand = false)
    : rule ≠ other := by
  rintro rfl
  exact absurd h (Bool.eq_false_iff.mp ho)

/-- Tokens that do not start with `not` are taken and built as the comparison they make. -/
theorem unary?_of_comparison? {token : Token} {rest : List Token} {pair : Pair}
    {condition : Condition} (hn : token.rule ≠ .notOp)
    (h : Pair.comparison? (token :: rest) = some pair) (hr : pair.rule = .comparison)
    (hb : buildComparison pair = .ok condition)
    : Pair.unary? (token :: rest) = some (.node .unary [pair])
      ∧ buildUnary (.node .unary [pair]) = .ok condition := by
  constructor
  · rw [Pair.unary?, if_neg hn, h]
    rfl
  · simp [buildUnary, hr, hb]

/-- The words of a unary condition are those of a row that is taken and built to it, by
induction on how it is written.
-/
theorem unary?_complete {condition : Condition} {words : List (List Char)}
    (h : Unary condition words)
    : ∃ tokens pair, tokens.map Token.text = words ∧ IsRow tokens
      ∧ (∀ token ∈ tokens, token.rule ∉ [Rule.andOp, .orOp])
      ∧ Pair.unary? tokens = some pair ∧ buildUnary pair = .ok condition := by
  have havoid : ∀ {token : Token}, token.rule.isOperand = true
      → token.rule ≠ .andOp ∧ token.rule ≠ .orOp :=
    fun ho => ⟨ne_of_isOperand ho rfl, ne_of_isOperand ho rfl⟩
  induction h with
  | operand h =>
      obtain ⟨token, rfl, hw, ho, hb⟩ := h.isWritten
      have htake : Pair.comparison? [token]
          = some (.node .comparison [.node .operand [.leaf token]]) := by
        simp [Pair.comparison?, operand?_of_isOperand ho]
      have hbuild := unary?_of_comparison? (ne_of_isOperand ho rfl) htake rfl (by
        simp only [buildComparison, Pair.inner, hb]
        rfl)
      exact ⟨[token], _, rfl, .single hw ho, by simpa using havoid ho, hbuild⟩
  | @compare left right comparison first second hl hr =>
      obtain ⟨token, rfl, hw, ho, hb⟩ := hl.isWritten
      obtain ⟨token', rfl, hw', ho', hb'⟩ := hr.isWritten
      have hsign : Token.IsWritten ⟨.cmpOp, comparison.symbol.toList⟩ := ⟨comparison, rfl⟩
      have hrow : IsRow [token, ⟨.cmpOp, comparison.symbol.toList⟩, token'] := by
        refine ((IsRow.single hw' ho').cons hsign ?_).cons hw ?_
        · intro next hn
          obtain rfl : token' = next := Option.some.inj hn
          exact ⟨fun hn => absurd hn (by simp), fun _ => ho'⟩
        · intro next hn
          obtain rfl := Option.some.inj hn
          exact ⟨fun _ => Or.inr (Or.inr rfl), fun hc => absurd hc (ne_of_isOperand ho rfl)⟩
      have htake : Pair.comparison? [token, ⟨.cmpOp, comparison.symbol.toList⟩, token']
          = some (.node .comparison [.node .operand [.leaf token],
            .leaf ⟨.cmpOp, comparison.symbol.toList⟩, .node .operand [.leaf token']]) := by
        simp [Pair.comparison?, operand?_of_isOperand ho, operand?_of_isOperand ho']
      have hbuild := unary?_of_comparison? (ne_of_isOperand ho rfl) htake rfl (by
        simp only [buildComparison, Pair.inner, hb, hb', Pair.text, ofSymbol?_symbol]
        rfl)
      refine ⟨_, _, rfl, hrow, ?_, hbuild⟩
      simpa using ⟨havoid ho, havoid ho'⟩
  | @not inner words _ ih =>
      obtain ⟨tokens, pair, rfl, hrow, ha, htake, hb⟩ := ih
      have hw : Token.IsWritten ⟨.notOp, ['n', 'o', 't']⟩ := by
        simp [Token.IsWritten, keywords]
      refine ⟨⟨.notOp, ['n', 'o', 't']⟩ :: tokens,
        .node .unary [.leaf ⟨.notOp, ['n', 'o', 't']⟩, pair], rfl,
        hrow.cons hw fun next _ => follows_of_ne (by decide) (by decide) next, ?_, ?_, ?_⟩
      · simpa using ha
      · rw [Pair.unary?, if_pos rfl, htake]
        rfl
      · exact buildUnary_not rfl hb

/-- The reader of unary conditions takes exactly their words. -/
theorem unary_isReader : IsReader .unary Pair.unary? buildUnary Unary [.andOp, .orOp] where
  sound _ _ := unary?_sound
  complete _ _ := unary?_complete

-----------------------------------------------------------------------------------------
-- Chains of `and` and of `or`
-----------------------------------------------------------------------------------------

section Chain

variable {rule part : Rule} {part? : List Token → Option Pair}
  {build : Pair → Except ReadError Condition} {Part : Condition → List (List Char) → Prop}
  {combine : Condition → Condition → Condition} {operator : Token} {avoided : List Rule}

/-- The pairs between which operators stand are the parts, by induction on the parts. -/
theorem filter_intersperse {parts : List Pair} (hp : ∀ pair ∈ parts, pair.rule = part)
    (hne : operator.rule ≠ part)
    : (parts.intersperse (.leaf operator)).filter (·.rule = part) = parts := by
  induction parts with
  | nil => rfl
  | cons first rest ih =>
      have hi := ih fun pair hm => hp pair (by simp [hm])
      cases rest with
      | nil => simp [hp first (by simp)]
      | cons second rest =>
          rw [List.intersperse_cons_cons, List.filter_cons_of_pos (by simp [hp first (by simp)]),
            List.filter_cons_of_neg (by simp [Pair.rule, hne]), hi]

theorem buildChain_intersperse {parts : List Pair} (hp : ∀ pair ∈ parts, pair.rule = part)
    (hne : operator.rule ≠ part)
    : buildChain rule part combine build (.node rule (parts.intersperse (.leaf operator)))
      = nest rule combine build parts := by
  rw [buildChain, Pair.inner, filter_intersperse hp hne]

/-- One more part is nested around the parts before it. -/
theorem nest_concat {first last : Pair} {parts : List Pair} {left right : Condition}
    (hl : nest rule combine build (first :: parts) = .ok left) (hr : build last = .ok right)
    : nest rule combine build (first :: parts ++ [last]) = .ok (combine left right) := by
  unfold nest at hl ⊢
  simp only [List.cons_append, List.foldlM_append]
  cases hb : build first with
  | error e => simp [hb, bind, Except.bind] at hl
  | ok value =>
      simp only [hb, bind, Except.bind, pure, Except.pure] at hl ⊢
      simp [hl, hr, bind, Except.bind, pure, Except.pure]

/-- Parts of a chain are read and nested around what stands before them, by induction on the
pieces with the chain so far.
-/
theorem foldlM_sound (h : IsReader part part? build Part avoided) {pieces : List (List Token)}
    {parts : List Pair} (hw : ∀ piece ∈ pieces, ∀ token ∈ piece, token.IsWritten)
    (hp : pieces.mapM part? = some parts) {left : Condition} {words : List (List Char)}
    (hl : Chain combine operator.text Part left words)
    : (∀ pair ∈ parts, pair.rule = part)
      ∧ ∃ condition, parts.foldlM (fun left right => return combine left (← build right)) left
          = .ok condition
        ∧ Chain combine operator.text Part condition
          (words ++ (pieces.flatMap (operator :: ·)).map Token.text) := by
  induction pieces generalizing parts left words with
  | nil =>
      obtain rfl : [] = parts := by simpa using hp
      exact ⟨by simp, left, rfl, by simpa using hl⟩
  | cons piece pieces ih =>
      rw [List.mapM_cons] at hp
      obtain ⟨pair, hpair, hp⟩ := Option.bind_eq_some_iff.mp hp
      obtain ⟨others, ho, hp⟩ := Option.bind_eq_some_iff.mp hp
      obtain rfl : pair :: others = parts := Option.some.inj hp
      -- The piece is one more part of the chain so far.
      obtain ⟨hr, right, hb, hprints⟩ := h.sound piece pair (hw piece (by simp)) hpair
      obtain ⟨hrules, condition, hf, hc⟩ :=
        ih (fun piece hm => hw piece (by simp [hm])) ho (hl.more hprints)
      refine ⟨by simpa [hr] using hrules, condition, ?_, by simpa using hc⟩
      rw [List.foldlM_cons, hb]
      exact hf

/-- Written tokens that are taken as a chain are built to what their words print: they are cut
at the operators, and each piece is a part.
-/
theorem chain?_sound (h : IsReader part part? build Part avoided)
    (hne : operator.rule ≠ part) {tokens : List Token} {pair : Pair}
    (hw : ∀ token ∈ tokens, token.IsWritten)
    (ht : Pair.chain? rule operator part? tokens = some pair)
    : pair.rule = rule ∧ ∃ condition, buildChain rule part combine build pair = .ok condition
      ∧ Chain combine operator.text Part condition (tokens.map Token.text) := by
  obtain ⟨parts, hp, rfl⟩ := Option.map_eq_some_iff.mp ht
  have hpieces : ∀ piece ∈ Text.cut (· == operator) tokens, ∀ token ∈ piece,
      token.IsWritten :=
    fun piece hm token htoken => hw token (Text.mem_of_mem_cut hm token htoken).1
  cases hc : Text.cut (· == operator) tokens with
  | nil => exact absurd hc (Text.cut_ne_nil _ tokens)
  | cons piece pieces =>
      rw [hc, List.mapM_cons] at hp
      rw [hc] at hpieces
      obtain ⟨first, hfirst, hp⟩ := Option.bind_eq_some_iff.mp hp
      obtain ⟨others, ho, hp⟩ := Option.bind_eq_some_iff.mp hp
      obtain rfl : first :: others = parts := Option.some.inj hp
      obtain ⟨hr, left, hb, hprints⟩ := h.sound piece first (hpieces piece (by simp)) hfirst
      obtain ⟨hrules, condition, hf, hchain⟩ :=
        foldlM_sound h (fun piece hm => hpieces piece (by simp [hm])) ho (.one hprints)
      refine ⟨rfl, condition, ?_, ?_⟩
      · rw [buildChain_intersperse (by simpa [hr] using hrules) hne, nest, hb]
        exact hf
      · rwa [Text.eq_append_of_cut hc, List.map_append]

/-- The words of a chain are those of a row whose pieces are its parts, by induction on the
chain.
-/
theorem chain?_complete (h : IsReader part part? build Part (operator.rule :: avoided))
    (hw : operator.IsWritten) (ho : operator.rule = .andOp ∨ operator.rule = .orOp)
    (ha : operator.rule ∉ avoided) {condition : Condition} {words : List (List Char)}
    (hc : Chain combine operator.text Part condition words)
    : ∃ tokens first others, tokens.map Token.text = words ∧ IsRow tokens
      ∧ (∀ token ∈ tokens, token.rule ∉ avoided)
      ∧ (Text.cut (· == operator) tokens).mapM part? = some (first :: others)
      ∧ (∀ pair ∈ first :: others, pair.rule = part)
      ∧ nest rule combine build (first :: others) = .ok condition := by
  have hone : ∀ {condition : Condition} {words : List (List Char)}, Part condition words
      → ∃ tokens pair, tokens.map Token.text = words ∧ IsRow tokens
        ∧ (∀ token ∈ tokens, token.rule ∉ avoided)
        ∧ Text.cut (· == operator) tokens = [tokens] ∧ part? tokens = some pair
        ∧ pair.rule = part ∧ build pair = .ok condition := by
    -- A part holds no operator, so the cut leaves it in one piece.
    intro condition words hp
    obtain ⟨tokens, pair, ht, hrow, havoid, htake, hb⟩ := h.complete condition words hp
    refine ⟨tokens, pair, ht, hrow, fun token hm hin => ?_, ?_, htake,
      (h.sound tokens pair hrow.written htake).1, hb⟩
    · exact havoid token hm (List.mem_cons_of_mem _ hin)
    · refine Text.cut_of_forall_not fun token hm => beq_false_of_ne ?_
      rintro rfl
      exact havoid token hm List.mem_cons_self
  induction hc with
  | one hp =>
      obtain ⟨tokens, pair, ht, hrow, havoid, hcut, htake, hr, hb⟩ := hone hp
      refine ⟨tokens, pair, [], ht, hrow, havoid, ?_, by simpa using hr, ?_⟩
      · simp [hcut, htake]
      · rw [nest, hb]
        rfl
  | more _ hp ih =>
      obtain ⟨left, first, others, rfl, hleft, hal, hparts, hrules, hnest⟩ := ih
      obtain ⟨right, pair, rfl, hright, har, hcut, htake, hr, hb⟩ := hone hp
      refine ⟨left ++ operator :: right, first, others ++ [pair], by simp,
        hleft.joined hright hw ho, ?_, ?_, ?_, nest_concat hnest hb⟩
      · intro token hm
        rcases List.mem_append.mp hm with hm | hm
        · exact hal token hm
        · rcases List.mem_cons.mp hm with rfl | hm
          · exact ha
          · exact har token hm
      · rw [Text.cut_append_cons (by simp), List.mapM_append, hparts, hcut]
        simp [htake]
      · rw [← List.cons_append]
        intro other hm
        rcases List.mem_append.mp hm with hm | hm
        · exact hrules other hm
        · rwa [List.mem_singleton.mp hm]

/-- A reader of parts gives a reader of their chains. -/
theorem IsReader.chain (h : IsReader part part? build Part (operator.rule :: avoided))
    (hne : operator.rule ≠ part) (hw : operator.IsWritten)
    (ho : operator.rule = .andOp ∨ operator.rule = .orOp) (ha : operator.rule ∉ avoided)
    : IsReader rule (Pair.chain? rule operator part?) (buildChain rule part combine build)
        (Chain combine operator.text Part) avoided where
  sound _ _ hw ht := chain?_sound h hne hw ht
  complete condition words hc := by
    obtain ⟨tokens, first, others, ht, hrow, havoid, hparts, hrules, hnest⟩ :=
      chain?_complete h hw ho ha hc
    refine ⟨tokens, .node rule ((first :: others).intersperse (.leaf operator)), ht, hrow,
      havoid, ?_, ?_⟩
    · rw [Pair.chain?, hparts]
      rfl
    · rwa [buildChain_intersperse hrules hne]

end Chain

theorem conjunction_isReader
    : IsReader .andExpr Pair.conjunction? buildAnd Conjunction [.orOp] :=
  unary_isReader.chain (by decide) (by simp [Token.IsWritten, keywords]) (Or.inl rfl)
    (by decide)

theorem disjunction_isReader : IsReader .orExpr Pair.disjunction? buildOr Disjunction [] :=
  conjunction_isReader.chain (by decide) (by simp [Token.IsWritten, keywords]) (Or.inr rfl)
    (by decide)

end ReportTemplate.Condition
