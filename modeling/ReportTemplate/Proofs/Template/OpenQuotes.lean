import ReportTemplate.Proofs.Template.Quoting

/-! Cutting at separators outside quotes loses nothing.
Either all quotes of a text are closed or one of them stays open to the end. A text of the first
kind is cut into parts of the same kind, which are not cut any further.
-/

namespace ReportTemplate.Template

open Condition

-----------------------------------------------------------------------------------------
-- Closed quotes and open quotes
-----------------------------------------------------------------------------------------

/-- Holds for texts all of whose quotes are closed: rows of quoted texts and characters that are
no quotes.
-/
inductive HasClosedQuotes : List Char → Prop where
  | nil : HasClosedQuotes []
  | plain {c : Char} {text : List Char} (hc : Token.isQuote c = false)
      (rest : HasClosedQuotes text)
      : HasClosedQuotes (c :: text)
  | quoted {quote : Char} {body inside text : List Char} (hq : Token.isQuote quote = true)
      (h : Quoted quote body inside) (rest : HasClosedQuotes text)
      : HasClosedQuotes (quote :: (body ++ quote :: text))

/-- Holds for texts in which quotes that are open before them are closed, by a quote of the same
kind that no backslash protects.
-/
def ClosesQuote (quote : Char) (text : List Char) : Prop :=
  ∃ body inside rest, Quoted quote body inside ∧ text = body ++ quote :: rest

/-- Holds for texts with a quote that opens outside quotes and is never closed. -/
def LeavesQuoteOpen (text : List Char) : Prop :=
  ∃ before quote behind, text = before ++ quote :: behind ∧ HasClosedQuotes before
    ∧ Token.isQuote quote = true ∧ ¬ ClosesQuote quote behind

/-- Quotes are all closed or one stays open, by recursion on the text behind the first quoted
text.
-/
theorem hasClosedQuotes_or_leavesQuoteOpen (text : List Char)
    : HasClosedQuotes text ∨ LeavesQuoteOpen text := by
  match text with
  | [] => exact .inl .nil
  | c :: rest =>
      cases hc : Token.isQuote c with
      | false =>
          rcases hasClosedQuotes_or_leavesQuoteOpen rest with h | h
          · exact .inl (.plain hc h)
          · obtain ⟨before, quote, behind, rfl, hb, hq, hn⟩ := h
            exact .inr ⟨c :: before, quote, behind, rfl, .plain hc hb, hq, hn⟩
      | true =>
          by_cases h : ClosesQuote c rest
          · obtain ⟨body, inside, behind, hq, rfl⟩ := h
            rcases hasClosedQuotes_or_leavesQuoteOpen behind with h | h
            · exact .inl (.quoted hc hq h)
            · obtain ⟨before, quote, tail, rfl, hb, hquote, hn⟩ := h
              exact .inr ⟨c :: (body ++ c :: before), quote, tail, by simp, .quoted hc hq hb,
                hquote, hn⟩
          · exact .inr ⟨[], c, rest, rfl, .nil, hc, h⟩
termination_by text.length

namespace Quoting

-----------------------------------------------------------------------------------------
-- The state behind any text
-----------------------------------------------------------------------------------------

/-- The state behind a text, whatever stands outside quotes in it. -/
def behind (state : Quoting) (text : List Char) : Quoting :=
  text.foldl (fun state c => state.next c) state

theorem behind_append (state : Quoting) (left right : List Char)
    : state.behind (left ++ right) = (state.behind left).behind right :=
  List.foldl_append

/-- Where there is no separator outside quotes the state is the same, by induction on the text.
-/
theorem behind_of_after? {separator : Char} {state last : Quoting} {text : List Char}
    (h : after? separator state text = some last)
    : state.behind text = last := by
  induction text generalizing state with
  | nil => exact Option.some.inj h
  | cons c text ih =>
      rw [after?] at h
      split at h
      · cases h
      · exact ih h

theorem next_of_not_isQuote {c : Char} (h : Token.isQuote c = false)
    : outside.next c = .outside := by
  simp only [Token.isQuote, Bool.or_eq_false_iff, decide_eq_false_iff_not] at h
  simp [next, h.1, h.2]

theorem next_of_isQuote {c : Char} (h : Token.isQuote c = true)
    : outside.next c = .inside c := by
  simp only [Token.isQuote, Bool.or_eq_true, decide_eq_true_eq] at h
  simp [next, h]

/-- Closed quotes leave the state outside, by induction on the text's form. -/
theorem behind_of_hasClosedQuotes {text : List Char} (h : HasClosedQuotes text)
    : outside.behind text = .outside := by
  induction h with
  | nil => rfl
  | @plain c text hc _ ih =>
      change (outside.next c).behind text = _
      rw [next_of_not_isQuote hc, ih]
  | @quoted quote body inside text hq hb _ ih =>
      have hbody : (Quoting.inside quote).behind (body ++ [quote]) = .outside :=
        behind_of_after? (after?_quoted (Token.ne_backslash_of_isQuote hq) quote hb)
      have hjoin : body ++ quote :: text = body ++ [quote] ++ text := by simp
      change (outside.next quote).behind (body ++ quote :: text) = _
      rw [next_of_isQuote hq, hjoin, behind_append, hbody, ih]

/-- A text behind which the state is outside closes the quotes that are open before it, by
induction on the text; behind a backslash it does so from its second character on.
-/
theorem closesQuote_of_behind {quote : Char} {text : List Char}
    (h : (Quoting.inside quote).behind text = .outside)
    : ClosesQuote quote text := by
  suffices hboth : ((Quoting.inside quote).behind text = .outside → ClosesQuote quote text)
      ∧ ((Quoting.escaped quote).behind text = .outside
        → ∃ c rest, text = c :: rest ∧ ClosesQuote quote rest) from hboth.1 h
  clear h
  induction text with
  | nil => exact ⟨nofun, nofun⟩
  | cons c text ih =>
      obtain ⟨hinside, hescaped⟩ := ih
      constructor
      · intro h
        change ((Quoting.inside quote).next c).behind text = _ at h
        by_cases hb : c = '\\'
        · subst hb
          obtain ⟨d, rest, rfl, body, inside, tail, hq, rfl⟩ := hescaped (by simpa [next] using h)
          exact ⟨'\\' :: d :: body, d :: inside, tail, .escaped hq, rfl⟩
        · by_cases hc : c = quote
          · subst hc
            exact ⟨[], [], text, .nil, rfl⟩
          · obtain ⟨body, inside, tail, hq, rfl⟩ := hinside (by simpa [next, hb, hc] using h)
            exact ⟨c :: body, c :: inside, tail, .plain hc hb hq, rfl⟩
      · intro h
        exact ⟨c, text, rfl, hinside h⟩

end Quoting

theorem behind_ne_of_leavesQuoteOpen {text : List Char} (h : LeavesQuoteOpen text)
    : Quoting.outside.behind text ≠ .outside := by
  obtain ⟨before, quote, behind, rfl, hb, hq, hn⟩ := h
  intro he
  rw [Quoting.behind_append, Quoting.behind_of_hasClosedQuotes hb] at he
  change (Quoting.outside.next quote).behind behind = _ at he
  rw [Quoting.next_of_isQuote hq] at he
  exact hn (Quoting.closesQuote_of_behind he)

/-- The state behind a text is outside exactly if its quotes are closed. -/
theorem behind_eq_outside_iff {text : List Char}
    : Quoting.outside.behind text = .outside ↔ HasClosedQuotes text := by
  constructor
  · intro h
    rcases hasClosedQuotes_or_leavesQuoteOpen text with hc | ho
    · exact hc
    · exact absurd h (behind_ne_of_leavesQuoteOpen ho)
  · exact Quoting.behind_of_hasClosedQuotes

/-- A quote stays open exactly if not all quotes are closed. -/
theorem leavesQuoteOpen_iff {text : List Char}
    : LeavesQuoteOpen text ↔ ¬ HasClosedQuotes text := by
  constructor
  · intro ho hc
    exact behind_ne_of_leavesQuoteOpen ho (behind_eq_outside_iff.mpr hc)
  · exact (hasClosedQuotes_or_leavesQuoteOpen text).resolve_left

theorem IsWhole.hasClosedQuotes {separator : Char} {text : List Char} (h : IsWhole separator text)
    : HasClosedQuotes text :=
  behind_eq_outside_iff.mp (Quoting.behind_of_after? h)

-----------------------------------------------------------------------------------------
-- Parts
-----------------------------------------------------------------------------------------

/-- Only texts behind which the state is not outside are not cut, by induction on the text. -/
theorem splitFrom_eq_none_iff {separator : Char} (hs : Token.isQuote separator = false)
    {state : Quoting} {text : List Char}
    : splitFrom separator state text = none ↔ state.behind text ≠ .outside := by
  induction text generalizing state with
  | nil => cases state <;> simp [splitFrom, Quoting.behind]
  | cons c text ih =>
      change _ ↔ (state.next c).behind text ≠ .outside
      rw [splitFrom.eq_3]
      split
      case isTrue h =>
        obtain ⟨rfl, rfl⟩ := h
        rw [Option.map_eq_none_iff, ih, Quoting.next_of_not_isQuote hs]
      case isFalse => rw [Option.map_eq_none_iff, ih]

/-- The first part goes on with the open state, and the others are whole behind their separators;
by induction on the text.
-/
theorem exists_of_splitFrom {separator : Char} {state : Quoting} {text : List Char}
    {parts : List (List Char)} (h : splitFrom separator state text = some parts)
    : ∃ first others, parts = first :: others
      ∧ text = first ++ others.flatMap (separator :: ·)
      ∧ Quoting.after? separator state first = some .outside
      ∧ ∀ part ∈ others, IsWhole separator part := by
  induction text generalizing state parts with
  | nil =>
      cases state with
      | outside =>
          obtain rfl := Option.some.inj h
          exact ⟨[], [], rfl, rfl, rfl, by simp⟩
      | inside quote => cases h
      | escaped quote => cases h
  | cons c text ih =>
      rw [splitFrom.eq_3] at h
      split at h
      case isTrue hc =>
        obtain ⟨rfl, rfl⟩ := hc
        obtain ⟨behind, hb, rfl⟩ := Option.map_eq_some_iff.mp h
        obtain ⟨first, others, rfl, rfl, hf, ho⟩ := ih hb
        refine ⟨[], first :: others, rfl, rfl, rfl, ?_⟩
        intro part hm
        rcases List.mem_cons.mp hm with rfl | hm
        · exact hf
        · exact ho part hm
      case isFalse hc =>
        obtain ⟨behind, hb, rfl⟩ := Option.map_eq_some_iff.mp h
        obtain ⟨first, others, rfl, rfl, hf, ho⟩ := ih hb
        refine ⟨c :: first, others, rfl, rfl, ?_, ho⟩
        rw [Quoting.after?, if_neg hc, hf]

/-- A text is not cut exactly if one of its quotes stays open. Otherwise there are parts which
joined with separators make the text again, each with its quotes closed, and none of them is cut
any further.
-/
theorem splitUnquoted_isLossless {separator : Char} (hs : Token.isQuote separator = false)
    (text : List Char)
    : (splitUnquoted separator text = none ↔ LeavesQuoteOpen text)
      ∧ ∀ parts, splitUnquoted separator text = some parts
          → parts ≠ []
            ∧ Text.join [separator] parts = text
            ∧ ∀ part ∈ parts,
                HasClosedQuotes part ∧ splitUnquoted separator part = some [part] := by
  constructor
  · rw [splitUnquoted, splitFrom_eq_none_iff hs, leavesQuoteOpen_iff, Ne, behind_eq_outside_iff]
  · intro parts h
    obtain ⟨first, others, rfl, rfl, hf, ho⟩ := exists_of_splitFrom h
    have hwhole : ∀ part ∈ first :: others, IsWhole separator part := by
      intro part hm
      rcases List.mem_cons.mp hm with rfl | hm
      · exact hf
      · exact ho part hm
    refine ⟨List.cons_ne_nil first others, rfl, ?_⟩
    intro part hm
    exact ⟨(hwhole part hm).hasClosedQuotes, splitUnquoted_of_isWhole (hwhole part hm)⟩

/-- A bar between quotes and one behind a protected quote do not cut; the quote at the end of the
second text stays open.
-/
theorem splitUnquoted_quotedBars
    : Token.isQuote '|' = false
      ∧ splitUnquoted '|' "a | f('|', \"\\\"|\")|é".toList
        = some ["a ".toList, " f('|', \"\\\"|\")".toList, "é".toList]
      ∧ Text.join ['|'] ["a ".toList, " f('|', \"\\\"|\")".toList, "é".toList]
        = "a | f('|', \"\\\"|\")|é".toList
      ∧ HasClosedQuotes " f('|', \"\\\"|\")".toList
      ∧ splitUnquoted '|' " f('|', \"\\\"|\")".toList = some [" f('|', \"\\\"|\")".toList]
      ∧ LeavesQuoteOpen "a | 'b\\'".toList := by
  have hs : Token.isQuote '|' = false := by decide
  have hcut : splitUnquoted '|' "a | f('|', \"\\\"|\")|é".toList
      = some ["a ".toList, " f('|', \"\\\"|\")".toList, "é".toList] := by
    decide
  obtain ⟨-, hjoin, hparts⟩ := (splitUnquoted_isLossless hs _).2 _ hcut
  obtain ⟨hclosed, hagain⟩ := hparts " f('|', \"\\\"|\")".toList (by simp)
  exact ⟨hs, hcut, hjoin, hclosed, hagain, (splitUnquoted_isLossless hs _).1.mp (by decide)⟩

end ReportTemplate.Template
