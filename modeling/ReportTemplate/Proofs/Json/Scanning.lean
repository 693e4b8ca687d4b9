import ReportTemplate.Json.Printer
import ReportTemplate.Json.Token
import ReportTemplate.Proofs.Condition.Word
import ReportTemplate.Proofs.Json.Numeral
import ReportTemplate.Proofs.Json.Quoted
import ReportTemplate.Proofs.Text.Scanner

/-! Tokens of printed values.
Both layouts of a value have the same tokens, for they differ in blanks only. A word ends where a
character follows that it cannot go on with, and such characters stand behind every value.
-/

namespace ReportTemplate.Json

open Condition (Stops)
open Token (scanner)

-----------------------------------------------------------------------------------------
-- Tokens of texts
-----------------------------------------------------------------------------------------

/-- Holds when a text has these tokens, whatever follows it. -/
def Scans (text : List Char) (tokens : List Token) : Prop :=
  ∀ rest, scanner.run .between (text ++ rest) = (scanner.run .between rest).map (tokens ++ ·)

/-- Holds when a text has these tokens where no word goes on behind it. -/
def ScansWord (text : List Char) (tokens : List Token) : Prop :=
  ∀ rest, Stops Token.isWordChar rest →
    scanner.run .between (text ++ rest) = (scanner.run .between rest).map (tokens ++ ·)

/-- Holds when a text has these tokens and no word goes on with it. -/
structure Follows (text : List Char) (tokens : List Token) : Prop where
  scans : Scans text tokens
  stops : ∀ rest, Stops Token.isWordChar (text ++ rest)

theorem Scans.append {text more : List Char} {tokens others : List Token}
    (h : Scans text tokens) (hm : Scans more others)
    : Scans (text ++ more) (tokens ++ others) := by
  intro rest
  rw [List.append_assoc, h, hm, Option.map_map]
  simp [Function.comp_def]

theorem ScansWord.append {text more : List Char} {tokens others : List Token}
    (h : ScansWord text tokens) (hm : Follows more others)
    : Scans (text ++ more) (tokens ++ others) := by
  intro rest
  rw [List.append_assoc, h _ (hm.stops rest), hm.scans, Option.map_map]
  simp [Function.comp_def]

theorem Follows.append {text more : List Char} {tokens others : List Token}
    (h : Follows text tokens) (hm : Scans more others)
    : Follows (text ++ more) (tokens ++ others) where
  scans := h.scans.append hm
  stops rest := by
    rw [List.append_assoc]
    exact h.stops (more ++ rest)

theorem Follows.scansWord {text : List Char} {tokens : List Token} (h : Follows text tokens)
    : ScansWord text tokens :=
  fun rest _ => h.scans rest

/-- A character that is a token, or a blank, by itself. -/
theorem follows_start {c : Char} {tokens : List Token}
    (h : Token.start c = some (tokens, .between)) (hw : Token.isWordChar c = false)
    : Follows [c] tokens where
  scans rest := by
    have hstep : scanner.step .between c = some (tokens, .between) := h
    rw [List.singleton_append, Text.Scanner.run, hstep, Option.bind_some]
  stops rest := by
    intro d hd
    obtain rfl : c = d := by simpa using hd
    exact hw

theorem follows_newline (depth : Nat) : Follows (newline depth) [] := by
  have hblanks : ∀ n, Scans (List.replicate n ' ') [] := by
    intro n
    induction n with
    | zero =>
        intro rest
        simp
    | succ n ih => exact (follows_start (c := ' ') rfl rfl).scans.append ih
  exact (follows_start (c := '\n') rfl rfl).append (hblanks (2 * depth))

-----------------------------------------------------------------------------------------
-- Words
-----------------------------------------------------------------------------------------

/-- A word goes on to its end, by induction on what is left of it. -/
theorem run_word {word : List Char} (hw : word.all Token.isWordChar = true)
    (reversed rest : List Char)
    : scanner.run (.word reversed) (word ++ rest)
      = scanner.run (.word (word.reverse ++ reversed)) rest := by
  induction word generalizing reversed with
  | nil => rfl
  | cons c word ih =>
      obtain ⟨hc, hr⟩ := Bool.and_eq_true_iff.mp hw
      have hstep : scanner.step (.word reversed) c = some ([], .word (c :: reversed)) := if_pos hc
      rw [List.cons_append, Text.Scanner.run_cons_of_step hstep, ih hr]
      simp

/-- Behind the end of a word its token is complete. -/
theorem run_behind_word {reversed rest : List Char} (hs : Stops Token.isWordChar rest)
    {token : Token} (h : Token.ofWord? reversed.reverse = some token)
    : scanner.run (.word reversed) rest = (scanner.run .between rest).map ([token] ++ ·) := by
  cases rest with
  | nil =>
      have hfinish : scanner.finish (.word reversed) = some [token] := by
        change (Token.ofWord? reversed.reverse).map _ = _
        rw [h]
        rfl
      rw [Text.Scanner.run, hfinish]
      rfl
  | cons c rest =>
      have hc : Token.isWordChar c = false := hs c rfl
      have hstep : scanner.step (.word reversed) c
          = (Token.start c).map fun read => (token :: read.1, read.2) := by
        change Token.step (.word reversed) c = _
        rw [Token.step, hc, if_neg (by decide), h]
        cases Token.start c <;> rfl
      have hbetween : scanner.step .between c = Token.start c := rfl
      rw [Text.Scanner.run, Text.Scanner.run, hstep, hbetween]
      cases Token.start c with
      | none => rfl
      | some read => simp [Function.comp_def]

theorem start_of_isWordChar {c : Char} (h : Token.isWordChar c = true)
    : Token.start c = some ([], .word [c]) := by
  have hspace : Token.isSpace c = false := by
    by_contra hs
    simp only [Token.isSpace, Bool.not_eq_false, Bool.or_eq_true, decide_eq_true_eq] at hs
    rcases hs with ((rfl | rfl) | rfl) | rfl <;> cases h
  have hquote : c ≠ '"' := by
    rintro rfl
    cases h
  rw [Token.start, hspace, if_neg (by decide), if_neg hquote, if_pos h]

/-- A word has one token. -/
theorem scansWord_word {word : List Char} (hne : word ≠ [])
    (hw : word.all Token.isWordChar = true) {token : Token} (h : Token.ofWord? word = some token)
    : ScansWord word [token] := by
  intro rest hs
  cases word with
  | nil => exact absurd rfl hne
  | cons c word =>
      obtain ⟨hc, hr⟩ := Bool.and_eq_true_iff.mp hw
      have hstep : scanner.step .between c = some ([], .word [c]) := start_of_isWordChar hc
      rw [List.cons_append, Text.Scanner.run_cons_of_step hstep, run_word hr,
        run_behind_word hs (by simpa using h)]

theorem isWordChar_of_isDigit {c : Char} (h : Number.isDigit c = true)
    : Token.isWordChar c = true := by
  rw [Number.isDigit_eq] at h
  simp [Token.isWordChar, Char.isAlphanum, h]

/-- The text of an integer of less than 53 bits is a number that is equal to it. -/
theorem scansWord_intText {z : Int} (h : z.natAbs < 2 ^ 53)
    : ∃ x, ScansWord (Number.intText z) [.number x] ∧ Number.IsWhole x z := by
  obtain ⟨x, hx, hw⟩ := number?_intText h
  have hdigits : (Number.natText z.natAbs).all Token.isWordChar = true := by
    have hall := Number.all_isDigit_natText z.natAbs
    rw [List.all_eq_true] at hall ⊢
    exact fun c hc => isWordChar_of_isDigit (hall c hc)
  have hne := Number.natText_ne_nil z.natAbs
  have htoken : Token.ofWord? (Number.intText z) = some (.number x) := by
    have hword : ∀ word : String, number? word.toList = none
        → String.ofList (Number.intText z) ≠ word := by
      rintro word hn rfl
      rw [String.toList_ofList, hx] at hn
      cases hn
    unfold Token.ofWord?
    split
    · next heq => exact absurd heq (hword "null" rfl)
    · next heq => exact absurd heq (hword "true" rfl)
    · next heq => exact absurd heq (hword "false" rfl)
    · rw [hx]
      rfl
  refine ⟨x, scansWord_word ?_ ?_ htoken, hw⟩
  · rw [Number.intText]
    split
    · simp
    · exact hne
  · rw [Number.intText]
    split
    · rw [List.all_cons, hdigits]
      rfl
    · exact hdigits

-----------------------------------------------------------------------------------------
-- Strings
-----------------------------------------------------------------------------------------

theorem run_string_cons {c : Char} (hq : c ≠ '"') (hb : c ≠ '\\') (reversed rest : List Char)
    : scanner.run (.string reversed) (c :: rest) = scanner.run (.string (c :: reversed)) rest := by
  refine Text.Scanner.run_cons_of_step ?_ rest
  change Token.step (.string reversed) c = _
  rw [Token.step, if_neg hq, if_neg hb]

/-- A backslash protects the character behind it. -/
theorem run_string_backslash (c : Char) (reversed rest : List Char)
    : scanner.run (.string reversed) ('\\' :: c :: rest)
      = scanner.run (.string (c :: '\\' :: reversed)) rest := by
  have hfirst : scanner.step (.string reversed) '\\' = some ([], .escape ('\\' :: reversed)) := rfl
  have hsecond : scanner.step (.escape ('\\' :: reversed)) c
      = some ([], .string (c :: '\\' :: reversed)) := rfl
  rw [Text.Scanner.run_cons_of_step hfirst, Text.Scanner.run_cons_of_step hsecond]

/-- An escaped character stays inside the quotes. -/
theorem run_escape {c : Char} {text : List Char} (h : IsEscape c text) (reversed rest : List Char)
    : scanner.run (.string reversed) (text ++ rest)
      = scanner.run (.string (text.reverse ++ reversed)) rest := by
  cases h with
  | simple h => exact run_string_backslash _ reversed rest
  | hex h =>
      have hdigit : ∀ n < 16, hexDigit n ≠ '"' ∧ hexDigit n ≠ '\\' := by decide
      obtain ⟨hq, hb⟩ := hdigit (c.toNat / 16) (by omega)
      obtain ⟨hquote, hback⟩ := hdigit (c.toNat % 16) (by omega)
      simp only [List.cons_append, List.nil_append]
      rw [run_string_backslash, run_string_cons (by decide) (by decide),
        run_string_cons (by decide) (by decide), run_string_cons hq hb,
        run_string_cons hquote hback]
      rfl
  | plain hq hb hc => exact run_string_cons hq hb reversed rest

/-- Quoted text is one token, by induction on the text behind the opening quote. -/
theorem follows_quote (text : String) : Follows (quote text.toList) [.string text] := by
  have hinside : ∀ (text reversed rest : List Char),
      scanner.run (.string reversed) (text.flatMap escape ++ rest)
        = scanner.run (.string ((text.flatMap escape).reverse ++ reversed)) rest := by
    intro text
    induction text with
    | nil => exact fun _ _ => rfl
    | cons c text ih =>
        intro reversed rest
        rw [List.flatMap_cons, List.append_assoc, run_escape (isEscape_escape c), ih]
        simp
  refine ⟨fun rest => ?_, fun rest c hc => ?_⟩
  · have hopen : scanner.step .between '"' = some ([], .string []) := rfl
    have hclose : scanner.step (.string ((text.toList.flatMap escape).reverse ++ [])) '"'
        = some ([.string text], .between) := by
      change Token.step (.string ((text.toList.flatMap escape).reverse ++ [])) '"' = _
      rw [Token.step, if_pos rfl, List.append_nil, List.reverse_reverse, unescape_flatMap_escape,
        Option.map_some, String.ofList_toList]
    have hquote : quote text.toList ++ rest
        = '"' :: (text.toList.flatMap escape ++ '"' :: rest) := by
      simp [quote]
    rw [hquote, Text.Scanner.run, hopen, Option.bind_some, hinside, Text.Scanner.run, hclose,
      Option.bind_some, Option.map_map]
    rfl
  · obtain rfl : '"' = c := by simpa [quote] using hc
    rfl

end ReportTemplate.Json
