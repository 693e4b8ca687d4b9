import Mathlib.Data.List.Forall2
import ReportTemplate.Proofs.Condition.Scanning
import ReportTemplate.Proofs.Condition.Grammar
import ReportTemplate.Template.Expression

/-! Cutting at separators outside quotes.
The state of the scanner behind a text without such separators tells how the text behind it is
cut; behind the source of an operand the scanner is outside quotes again.
-/

namespace ReportTemplate.Template

open Condition

namespace Quoting

-----------------------------------------------------------------------------------------
-- The state behind a text
-----------------------------------------------------------------------------------------

/-- The state behind a text, unless a separator stands outside quotes in it. -/
def after? (separator : Char) : Quoting → List Char → Option Quoting
  | state, [] => some state
  | state, c :: rest =>
      if state = .outside ∧ c = separator then none
      else after? separator (state.next c) rest

/-- The state behind two texts is that of the second behind the first, by induction on the
first.
-/
theorem after?_append (separator : Char) (state : Quoting) (left right : List Char)
    : after? separator state (left ++ right)
      = (after? separator state left).bind (after? separator · right) := by
  induction left generalizing state with
  | nil => rfl
  | cons c left ih =>
      rw [List.cons_append, after?, after?]
      split
      · rfl
      · exact ih (state.next c)

/-- A quoted text ends outside its quotes, by induction on how it is written: only the quote
behind it is neither protected nor another character.
-/
theorem after?_quoted {quote : Char} (hq : quote ≠ '\\') (separator : Char)
    {body inside : List Char} (h : Quoted quote body inside)
    : after? separator (.inside quote) (body ++ [quote]) = some .outside := by
  induction h with
  | nil => simp [after?, next, hq]
  | plain hc hb _ ih => simpa [after?, next, hc, hb] using ih
  | escaped _ ih => simpa [after?, next] using ih

end Quoting

/-- Holds for texts with closed quotes and no separator outside them. -/
def IsWhole (separator : Char) (text : List Char) : Prop :=
  Quoting.after? separator .outside text = some .outside

namespace IsWhole

variable {separator : Char}

theorem append {left right : List Char} (hl : IsWhole separator left)
    (hr : IsWhole separator right)
    : IsWhole separator (left ++ right) := by
  rw [IsWhole, Quoting.after?_append, hl]
  exact hr

/-- A character that is neither a separator nor a quote makes no difference. -/
theorem cons {c : Char} (hc : c ≠ separator) (hq : Token.isQuote c = false) {text : List Char}
    (h : IsWhole separator text)
    : IsWhole separator (c :: text) := by
  have hn : Quoting.outside.next c = .outside := by
    simp only [Token.isQuote, Bool.or_eq_false_iff, decide_eq_false_iff_not] at hq
    simp [Quoting.next, hq.1, hq.2]
  rw [IsWhole, Quoting.after?, if_neg fun h => hc h.2, hn]
  exact h

theorem of_forall {text : List Char}
    (h : ∀ c ∈ text, c ≠ separator ∧ Token.isQuote c = false)
    : IsWhole separator text := by
  induction text with
  | nil => rfl
  | cons c text ih =>
      exact cons (h c (by simp)).1 (h c (by simp)).2 (ih fun d hm => h d (by simp [hm]))

/-- Characters that pass a test which the separator and both quotes fail make a whole text. -/
theorem of_all {test : Char → Bool} (hs : test separator = false) (hd : test '"' = false)
    (hq : test '\'' = false) {text : List Char} (h : text.all test = true)
    : IsWhole separator text := by
  refine of_forall fun c hm => ?_
  have hc := List.all_eq_true.mp h c hm
  constructor
  · rintro rfl
    exact Bool.false_ne_true (hs.symm.trans hc)
  · cases hquote : Token.isQuote c with
    | false => rfl
    | true =>
        simp only [Token.isQuote, Bool.or_eq_true, decide_eq_true_eq] at hquote
        rcases hquote with rfl | rfl
        · exact absurd (hd.symm.trans hc) Bool.false_ne_true
        · exact absurd (hq.symm.trans hc) Bool.false_ne_true

theorem quoted {quote : Char} (hq : Token.isQuote quote = true) (hs : quote ≠ separator)
    {body inside : List Char} (h : Quoted quote body inside)
    : IsWhole separator (quote :: (body ++ [quote])) := by
  have hn : Quoting.outside.next quote = .inside quote := by
    simp only [Token.isQuote, Bool.or_eq_true, decide_eq_true_eq] at hq
    simp [Quoting.next, hq]
  rw [IsWhole, Quoting.after?, if_neg fun h => hs h.2, hn]
  exact Quoting.after?_quoted (Token.ne_backslash_of_isQuote hq) separator h

end IsWhole

-----------------------------------------------------------------------------------------
-- Cutting
-----------------------------------------------------------------------------------------

/-- Puts a text in front of the first piece. -/
def prepend (text : List Char) (pieces : List (List Char)) : List (List Char) :=
  text.foldr consFirst pieces

theorem prepend_cons (text piece : List Char) (pieces : List (List Char))
    : prepend text (piece :: pieces) = (text ++ piece) :: pieces := by
  induction text with
  | nil => rfl
  | cons c text ih =>
      rw [prepend, List.foldr_cons, ← prepend, ih]
      rfl

/-- What stands behind a text is cut in the state behind the text, by induction on the text. -/
theorem splitFrom_append {separator : Char} {state behind : Quoting} {text : List Char}
    (h : Quoting.after? separator state text = some behind) (rest : List Char)
    : splitFrom separator state (text ++ rest)
      = (splitFrom separator behind rest).map (prepend text) := by
  induction text generalizing state with
  | nil =>
      obtain rfl : state = behind := Option.some.inj h
      exact Option.map_id'.symm
  | cons c text ih =>
      rw [Quoting.after?] at h
      split at h
      case isTrue => simp at h
      case isFalse hc =>
        rw [List.cons_append, splitFrom.eq_3, if_neg hc, ih h, Option.map_map]
        rfl

theorem splitUnquoted_of_isWhole {separator : Char} {text : List Char}
    (h : IsWhole separator text)
    : splitUnquoted separator text = some [text] := by
  have hs := splitFrom_append h []
  rw [List.append_nil] at hs
  rw [splitUnquoted, hs, splitFrom.eq_1, Option.map_some, prepend_cons, List.append_nil]

/-- A text is cut at a separator behind a whole text. -/
theorem splitUnquoted_append_cons {separator : Char} {text : List Char}
    (h : IsWhole separator text) (rest : List Char)
    : splitUnquoted separator (text ++ separator :: rest)
      = (splitUnquoted separator rest).map (text :: ·) := by
  rw [splitUnquoted, splitFrom_append h, splitFrom.eq_3, if_pos ⟨rfl, rfl⟩, Option.map_map]
  congr 1
  funext pieces
  exact (prepend_cons text [] pieces).trans (by rw [List.append_nil])

-----------------------------------------------------------------------------------------
-- Texts between separators
-----------------------------------------------------------------------------------------

/-- Holds for a text with any spaces around another one. -/
def IsPadded (text padded : List Char) : Prop :=
  ∃ before after, before.all Token.isSpace = true ∧ after.all Token.isSpace = true
    ∧ padded = before ++ (text ++ after)

/-- Texts with separators between them and any spaces around each. -/
inductive Separated (separator : Char) : List (List Char) → List Char → Prop where
  | last {text padded : List Char} (h : IsPadded text padded)
      : Separated separator [text] padded
  | more {text padded rest : List Char} {texts : List (List Char)} (h : IsPadded text padded)
      (next : Separated separator texts rest)
      : Separated separator (text :: texts) (padded ++ separator :: rest)

theorem IsPadded.pad {text padded before after : List Char} (h : IsPadded text padded)
    (hb : before.all Token.isSpace = true) (ha : after.all Token.isSpace = true)
    : IsPadded text (before ++ (padded ++ after)) := by
  obtain ⟨first, last, hf, hl, rfl⟩ := h
  exact ⟨before ++ first, last ++ after, by rw [List.all_append, hb, hf]; rfl,
    by rw [List.all_append, hl, ha]; rfl, by simp⟩

theorem IsPadded.isWhole {separator : Char} (hs : Token.isSpace separator = false)
    {text padded : List Char} (h : IsPadded text padded) (hw : IsWhole separator text)
    : IsWhole separator padded := by
  obtain ⟨before, after, hb, ha, rfl⟩ := h
  exact (IsWhole.of_all hs rfl rfl hb).append (hw.append (IsWhole.of_all hs rfl rfl ha))

namespace Separated

variable {separator : Char} {texts : List (List Char)} {source : List Char}

theorem pad {before after : List Char} (h : Separated separator texts source)
    (hb : before.all Token.isSpace = true) (ha : after.all Token.isSpace = true)
    : Separated separator texts (before ++ (source ++ after)) := by
  have hnil : ([] : List Char).all Token.isSpace = true := rfl
  induction h generalizing before with
  | last h => exact .last (h.pad hb ha)
  | more h next ih => simpa using Separated.more (h.pad hb hnil) (ih hnil)

/-- Texts that another separator does not cut are not cut with a separator between them, by
induction on the row.
-/
theorem isWhole {other : Char} (h : Separated separator texts source)
    (hs : Token.isSpace other = false) (hne : separator ≠ other)
    (hq : Token.isQuote separator = false) (hw : ∀ text ∈ texts, IsWhole other text)
    : IsWhole other source := by
  induction h with
  | last h => exact h.isWhole hs (hw _ (by simp))
  | more h next ih =>
      exact (h.isWhole hs (hw _ (by simp))).append
        (.cons hne hq (ih fun text hm => hw text (by simp [hm])))

/-- Whole texts between separators are cut out again with their spaces, by induction on the
row.
-/
theorem splitUnquoted_eq (h : Separated separator texts source)
    (hs : Token.isSpace separator = false) (hw : ∀ text ∈ texts, IsWhole separator text)
    : ∃ pieces, splitUnquoted separator source = some pieces
      ∧ List.Forall₂ IsPadded texts pieces := by
  induction h with
  | @last text padded h =>
      have hp := h.isWhole hs (hw text (by simp))
      exact ⟨[padded], splitUnquoted_of_isWhole hp, .cons h .nil⟩
  | @more text padded rest texts h next ih =>
      have hp := h.isWhole hs (hw text (by simp))
      obtain ⟨pieces, hsplit, hpieces⟩ := ih fun text hm => hw text (by simp [hm])
      refine ⟨padded :: pieces, ?_, .cons h hpieces⟩
      rw [splitUnquoted_append_cons hp, hsplit, Option.map_some]

/-- Joining texts by a separator between spaces puts the separator between them, by induction
on the texts.
-/
theorem of_join (before after : List Char) (hb : before.all Token.isSpace = true)
    (ha : after.all Token.isSpace = true) (first : List Char) (others : List (List Char))
    : Separated separator (first :: others)
        (Text.join (before ++ separator :: after) (first :: others)) := by
  induction others generalizing first with
  | nil => exact .last ⟨[], [], rfl, rfl, rfl⟩
  | cons second others ih =>
      have hnil : ([] : List Char).all Token.isSpace = true := rfl
      have hpad : IsPadded first (first ++ before) := ⟨[], before, rfl, hb, rfl⟩
      simpa [Text.join] using Separated.more hpad ((ih second).pad ha hnil)

end Separated

end ReportTemplate.Template
