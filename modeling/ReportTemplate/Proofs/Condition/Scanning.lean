import ReportTemplate.Proofs.Condition.Word
import ReportTemplate.Proofs.Text.Scanner

/-! Scanned conditions: tokens in a row with spaces around them, each the longest at its place.
The scanner finds exactly the tokens of such a row. A mode that gathers a row of characters ends
where the row does, so one step of the proof is one token.
-/

namespace ReportTemplate.Condition

namespace Token

-----------------------------------------------------------------------------------------
-- Tokens in a row
-----------------------------------------------------------------------------------------

/-- Holds for the characters behind a token that would be part of it. -/
def continues (token : Token) (c : Char) : Bool :=
  match token.rule with
  | .number => isNumberChar c
  | .string => false
  | .cmpOp => token.text.length = 1 && c = '='
  | _ => isPathChar c

theorem continues_of_isWord {token : Token} (h : token.rule.isWord = true)
    : token.continues = isPathChar := by
  funext c
  unfold continues
  split
  · next hr => simp [hr, Rule.isWord] at h
  · next hr => simp [hr, Rule.isWord] at h
  · next hr => simp [hr, Rule.isWord] at h
  · rfl

end Token

/-- Tokens in a row, with any spaces around them, none of which goes on behind its text. -/
inductive Laid : List Token → List Char → Prop where
  | blank {spaces : List Char} (hs : spaces.all Token.isSpace = true)
      : Laid [] spaces
  | token {spaces rest : List Char} {token : Token} {tokens : List Token}
      (hs : spaces.all Token.isSpace = true) (hw : token.IsWritten)
      (hstop : Stops token.continues rest) (next : Laid tokens rest)
      : Laid (token :: tokens) (spaces ++ (token.text ++ rest))

theorem Laid.written {tokens : List Token} {text : List Char} (h : Laid tokens text)
    : ∀ token ∈ tokens, token.IsWritten := by
  induction h with
  | blank => simp
  | token _ hw _ _ ih => simpa using ⟨hw, ih⟩

theorem Laid.space {c : Char} (hc : Token.isSpace c = true) {tokens : List Token}
    {text : List Char} (h : Laid tokens text)
    : Laid tokens (c :: text) := by
  cases h with
  | blank hs => exact .blank (by rw [List.all_cons, hc, hs]; rfl)
  | @token spaces rest token tokens hs hw hstop next =>
      have hcs : (c :: spaces).all Token.isSpace = true := by rw [List.all_cons, hc, hs]; rfl
      exact .token hcs hw hstop next

/-- A token in front of a row is its first, with no spaces before it. -/
theorem Laid.cons {token : Token} (hw : token.IsWritten) {rest : List Char}
    (hstop : Stops token.continues rest) {tokens : List Token} (next : Laid tokens rest)
    : Laid (token :: tokens) (token.text ++ rest) :=
  @Laid.token [] rest token tokens rfl hw hstop next

namespace Token

-----------------------------------------------------------------------------------------
-- Runs of the scanner
-----------------------------------------------------------------------------------------

/-- Scans a text from between two tokens. -/
abbrev scanBetween (text : List Char) : Option (List Token) :=
  scanner.run .between text

theorem run_cons (mode : Mode) (c : Char) (rest : List Char)
    : scanner.run mode (c :: rest)
      = (step mode c).bind fun read => (scanner.run read.2 rest).map (read.1 ++ ·) :=
  rfl

/-- Between tokens a character decides the mode behind it. -/
theorem scanBetween_cons (c : Char) (rest : List Char)
    : scanBetween (c :: rest) = (start c).bind fun mode => scanner.run mode rest := by
  rw [scanBetween, run_cons, step]
  cases start c with
  | none => rfl
  | some mode => cases hr : scanner.run mode rest <;> simp [hr]

/-- A character behind a token is read as between tokens. -/
theorem run_complete (token : Option Token) (c : Char) (rest : List Char)
    : ((complete token c).bind fun read => (scanner.run read.2 rest).map (read.1 ++ ·))
      = token.bind fun token => (scanBetween (c :: rest)).map (token :: ·) := by
  cases token with
  | none => rfl
  | some token =>
      rw [Option.bind_some, scanBetween_cons]
      cases hs : start c <;> simp [complete, hs]

/-- A mode that gathers a row of characters ends with the longest row, by induction on the
text.
-/
theorem run_row {mode : List Char → Mode} {test : Char → Bool}
    {make : List Char → Option Token}
    (hstep : ∀ reversed c, step (mode reversed) c
      = if test c = true then some ([], mode (c :: reversed))
        else complete (make reversed.reverse) c)
    (hfinish : ∀ reversed, finish (mode reversed) = (make reversed.reverse).map ([·]))
    (reversed text : List Char)
    : scanner.run (mode reversed) text
      = (make (reversed.reverse ++ text.takeWhile test)).bind fun token =>
          (scanBetween (text.dropWhile test)).map (token :: ·) := by
  induction text generalizing reversed with
  | nil =>
      have hf : scanner.run (mode reversed) [] = finish (mode reversed) := rfl
      rw [hf, hfinish, List.takeWhile_nil, List.append_nil]
      cases make reversed.reverse <;> rfl
  | cons c rest ih =>
      rw [run_cons, hstep]
      cases hc : test c with
      | true =>
          have hi := ih (c :: reversed)
          rw [List.reverse_cons, List.append_assoc] at hi
          simp [hc, hi]
      | false => simpa [hc] using run_complete (make reversed.reverse) c rest

theorem run_word (reversed text : List Char)
    : scanner.run (.word reversed) text
      = (ofWord? (reversed.reverse ++ text.takeWhile isPathChar)).bind fun token =>
          (scanBetween (text.dropWhile isPathChar)).map (token :: ·) :=
  run_row (fun _ _ => rfl) (fun _ => rfl) reversed text

theorem run_number (reversed text : List Char)
    : scanner.run (.number reversed) text
      = (ofNumber? (reversed.reverse ++ text.takeWhile isNumberChar)).bind fun token =>
          (scanBetween (text.dropWhile isNumberChar)).map (token :: ·) :=
  run_row (fun _ _ => rfl) (fun _ => rfl) reversed text

/-- A sign takes an equals sign behind it, by cases on the text. -/
theorem run_sign (first : Char) (text : List Char)
    : scanner.run (.sign first) text
      = if text.head? = some '=' then
          (scanBetween text.tail).map (⟨.cmpOp, [first, '=']⟩ :: ·)
        else (ofSign? first).bind fun token => (scanBetween text).map (token :: ·) := by
  cases text with
  | nil =>
      have hf : scanner.run (.sign first) [] = (ofSign? first).map ([·]) := rfl
      rw [hf]
      cases ofSign? first <;> rfl
  | cons c rest =>
      rw [run_cons, step]
      by_cases hc : c = '='
      · subst hc
        rfl
      · simpa [hc] using run_complete (ofSign? first) c rest

/-- A string ends with the first quote that is not protected, by induction on how its inside is
written.
-/
theorem run_string {quote : Char} (hq : quote ≠ '\\') {body inside : List Char}
    (h : Quoted quote body inside) (reversed rest : List Char)
    : scanner.run (.string quote reversed) (body ++ quote :: rest)
      = (scanBetween rest).map (⟨.string, reversed.reverse ++ (body ++ [quote])⟩ :: ·) := by
  induction h generalizing reversed with
  | nil =>
      rw [List.nil_append, run_cons, step, if_pos rfl]
      simp
  | @plain c body inside hc hb _ ih =>
      rw [List.cons_append, run_cons, step, if_neg hc, if_neg hb, Option.bind_some, ih]
      simp [Function.comp_def]
  | @escaped c body inside _ ih =>
      have hescape : step (.escape quote ('\\' :: reversed)) c
          = some ([], .string quote (c :: '\\' :: reversed)) := rfl
      rw [List.cons_append, List.cons_append, run_cons, step, if_neg (Ne.symm hq), if_pos rfl,
        Option.bind_some, run_cons, hescape, Option.bind_some, ih]
      simp [Function.comp_def]

/-- A string that is scanned has a quote at its end, by induction on the text behind the open
quote and behind a backslash.
-/
theorem quoted_of_run {quote : Char} (text : List Char)
    : (∀ reversed tokens, scanner.run (.string quote reversed) text = some tokens
        → ∃ body inside rest, text = body ++ quote :: rest ∧ Quoted quote body inside)
      ∧ ∀ reversed tokens, scanner.run (.escape quote reversed) text = some tokens
        → ∃ c body inside rest, text = c :: (body ++ quote :: rest)
          ∧ Quoted quote body inside := by
  induction text with
  | nil => exact ⟨fun _ _ h => by simp [Text.Scanner.run, scanner, finish] at h,
      fun _ _ h => by simp [Text.Scanner.run, scanner, finish] at h⟩
  | cons c text ih =>
      constructor
      · intro reversed tokens h
        rw [run_cons, step] at h
        split at h
        · next hc => exact ⟨[], [], text, by rw [hc]; rfl, .nil⟩
        · next hc =>
            split at h
            · next hb =>
                obtain ⟨tokens', ht, -⟩ := Option.map_eq_some_iff.mp h
                obtain ⟨d, body, inside, rest, rfl, hq⟩ := ih.2 _ _ ht
                exact ⟨'\\' :: d :: body, d :: inside, rest, by rw [hb]; rfl, .escaped hq⟩
            · next hb =>
                obtain ⟨tokens', ht, -⟩ := Option.map_eq_some_iff.mp h
                obtain ⟨body, inside, rest, rfl, hq⟩ := ih.1 _ _ ht
                exact ⟨c :: body, c :: inside, rest, rfl, .plain hc hb hq⟩
      · intro reversed tokens h
        rw [run_cons, step] at h
        obtain ⟨tokens', ht, -⟩ := Option.map_eq_some_iff.mp h
        obtain ⟨body, inside, rest, rfl, hq⟩ := ih.1 _ _ ht
        exact ⟨c, body, inside, rest, rfl, hq⟩

-----------------------------------------------------------------------------------------
-- Every row is scanned
-----------------------------------------------------------------------------------------

theorem isSpace_of_isNameStart {c : Char} (h : isNameStart c = true) : isSpace c = false := by
  cases hs : isSpace c with
  | false => rfl
  | true =>
      simp only [isSpace, Bool.or_eq_true, decide_eq_true_eq] at hs
      rcases hs with ((rfl | rfl) | rfl) | rfl <;> exact absurd h (by decide)

theorem start_of_isNameStart {c : Char} (h : isNameStart c = true)
    : start c = some (.word [c]) := by
  simp [start, isSpace_of_isNameStart h, h]

theorem start_of_isDigit {c : Char} (h : Number.isDigit c = true ∨ c = '-')
    : start c = some (.number [c]) := by
  rcases h with h | rfl
  · have hm := mem_digits h
    simp only [List.mem_cons, List.not_mem_nil, or_false] at hm
    rcases hm with rfl | rfl | rfl | rfl | rfl | rfl | rfl | rfl | rfl | rfl <;> rfl
  · rfl

theorem start_of_isQuote {c : Char} (h : isQuote c = true) : start c = some (.string c [c]) := by
  simp only [isQuote, Bool.or_eq_true, decide_eq_true_eq] at h
  rcases h with rfl | rfl <;> rfl

theorem ne_backslash_of_isQuote {c : Char} (h : isQuote c = true) : c ≠ '\\' := by
  rintro rfl
  exact absurd h (by decide)

/-- A written token is scanned in front of a text that does not go on with it, by its kind. -/
theorem scanBetween_append {token : Token} (h : token.IsWritten) {rest : List Char}
    (hs : Stops token.continues rest)
    : scanBetween (token.text ++ rest) = (scanBetween rest).map (token :: ·) := by
  rcases h.kinds with hw | hk | hk | hk
  · obtain ⟨c, word, ht, hc, hp⟩ := h.word_chars hw
    rw [continues_of_isWord hw] at hs
    obtain ⟨htake, hdrop⟩ := takeWhile_append_of_stops hp hs
    have ho := ofWord?_of_isWritten h hw
    rw [ht] at ho ⊢
    rw [List.cons_append, scanBetween_cons, start_of_isNameStart hc, Option.bind_some, run_word,
      htake, hdrop, List.reverse_singleton, List.singleton_append, ho, Option.bind_some]
  · obtain ⟨rule, text⟩ := token
    obtain rfl : rule = .number := hk
    have hn : IsNumber text := h
    obtain ⟨c, row, rfl, hc, hrow⟩ := hn.chars
    obtain ⟨htake, hdrop⟩ := takeWhile_append_of_stops hrow hs
    rw [List.cons_append, scanBetween_cons, start_of_isDigit hc, Option.bind_some, run_number,
      htake, hdrop, List.reverse_singleton, List.singleton_append, ofNumber?,
      if_pos (isNumber_iff.mpr hn), Option.bind_some]
  · obtain ⟨rule, text⟩ := token
    obtain rfl : rule = .string := hk
    obtain ⟨quote, body, inside, hq, hbody, rfl⟩ : IsString text := h
    rw [List.cons_append, scanBetween_cons, start_of_isQuote hq, Option.bind_some,
      List.append_assoc, List.singleton_append, run_string (ne_backslash_of_isQuote hq) hbody]
    rfl
  · obtain ⟨rule, text⟩ := token
    obtain rfl : rule = .cmpOp := hk
    obtain ⟨comparison, rfl⟩ : ∃ comparison : Comparison, text = comparison.symbol.toList := h
    -- Only a comparison of one sign could take an equals sign behind it.
    have hone : comparison.symbol.toList.length = 1 → rest.head? ≠ some '=' := by
      intro hl he
      have hc := hs '=' he
      simp [continues, hl] at hc
    have hsign : ∀ sign : Char, start sign = some (.sign sign) →
        (∀ after, scanBetween ([sign, '='] ++ after)
            = (scanBetween after).map (⟨.cmpOp, [sign, '=']⟩ :: ·))
        ∧ (ofSign? sign = some ⟨.cmpOp, [sign]⟩ → rest.head? ≠ some '='
          → scanBetween ([sign] ++ rest) = (scanBetween rest).map (⟨.cmpOp, [sign]⟩ :: ·)) := by
      intro sign hstart
      refine ⟨fun after => ?_, fun ho hne => ?_⟩
      · rw [List.cons_append, scanBetween_cons, hstart, Option.bind_some, run_sign]
        exact if_pos rfl
      · rw [List.singleton_append, scanBetween_cons, hstart, Option.bind_some, run_sign,
          if_neg hne, ho, Option.bind_some]
    cases comparison with
    | eq => exact (hsign '=' rfl).1 rest
    | ne => exact (hsign '!' rfl).1 rest
    | ge => exact (hsign '>' rfl).1 rest
    | le => exact (hsign '<' rfl).1 rest
    | gt => exact (hsign '>' rfl).2 rfl (hone rfl)
    | lt => exact (hsign '<' rfl).2 rfl (hone rfl)

/-- Spaces in front of a text do not change its tokens, by induction on the spaces. -/
theorem scanBetween_spaces {spaces : List Char} (h : spaces.all isSpace = true)
    (text : List Char)
    : scanBetween (spaces ++ text) = scanBetween text := by
  induction spaces with
  | nil => rfl
  | cons c spaces ih =>
      rw [List.all_cons, Bool.and_eq_true] at h
      have hstart : start c = some .between := by simp [start, h.1]
      rw [List.cons_append, scanBetween_cons, hstart, Option.bind_some]
      exact ih h.2

/-- A row of tokens is scanned, by induction on the row. -/
theorem scanBetween_of_laid {tokens : List Token} {text : List Char} (h : Laid tokens text)
    : scanBetween text = some tokens := by
  induction h with
  | @blank spaces hs =>
      have hb := scanBetween_spaces hs []
      rwa [List.append_nil] at hb
  | token hs hw hstop _ ih => rw [scanBetween_spaces hs, scanBetween_append hw hstop, ih]; rfl

-----------------------------------------------------------------------------------------
-- Every scan finds a row
-----------------------------------------------------------------------------------------

/-- Holds when the first token of a scan stands in front of a text with the tokens behind it.
-/
def IsFirst (text : List Char) (tokens : List Token) : Prop :=
  ∃ token others rest, tokens = token :: others ∧ text = token.text ++ rest
    ∧ token.IsWritten ∧ Stops token.continues rest ∧ scanBetween rest = some others

/-- A word that is scanned is a written word, with the longest row as its text. -/
theorem isFirst_of_run_word {c : Char} (hc : isNameStart c = true) {text : List Char}
    {tokens : List Token} (h : scanner.run (.word [c]) text = some tokens)
    : IsFirst (c :: text) tokens := by
  rw [run_word] at h
  obtain ⟨token, ht, h⟩ := Option.bind_eq_some_iff.mp h
  obtain ⟨others, ho, rfl⟩ := Option.map_eq_some_iff.mp h
  have hp : (c :: text.takeWhile isPathChar).all isPathChar = true := by
    have hcp : isPathChar c = true := by
      simp only [isNameStart, Bool.or_eq_true] at hc
      rcases hc with hc | hc <;> simp [isPathChar, isNameChar, hc]
    rw [List.all_cons, hcp, List.all_takeWhile]
    rfl
  have hhead : ∀ d ∈ (c :: text.takeWhile isPathChar).head?, isNameStart d = true := by
    intro d hd
    obtain rfl : c = d := Option.some.inj hd
    exact hc
  obtain ⟨htext, hw, hrule⟩ := isWritten_of_ofWord? hhead hp ht
  have hstop : Stops token.continues (text.dropWhile isPathChar) := by
    rw [continues_of_isWord hrule]
    exact stops_dropWhile isPathChar text
  refine ⟨token, others, _, rfl, ?_, hw, hstop, ho⟩
  rw [htext, List.cons_append, List.takeWhile_append_dropWhile]

theorem isFirst_of_run_number {c : Char} {text : List Char} {tokens : List Token}
    (h : scanner.run (.number [c]) text = some tokens)
    : IsFirst (c :: text) tokens := by
  rw [run_number] at h
  obtain ⟨token, ht, h⟩ := Option.bind_eq_some_iff.mp h
  obtain ⟨others, ho, rfl⟩ := Option.map_eq_some_iff.mp h
  rw [List.reverse_singleton, List.singleton_append, ofNumber?] at ht
  split at ht
  case isFalse => simp at ht
  case isTrue hn =>
    obtain rfl := Option.some.inj ht
    have hw : IsWritten ⟨.number, c :: text.takeWhile isNumberChar⟩ := isNumber_iff.mp hn
    refine ⟨_, others, _, rfl, ?_, hw, stops_dropWhile isNumberChar text, ho⟩
    rw [List.cons_append, List.takeWhile_append_dropWhile]

/-- A string that is scanned is a written string up to its closing quote. -/
theorem isFirst_of_run_string {quote : Char} (hq : isQuote quote = true) {text : List Char}
    {tokens : List Token} (h : scanner.run (.string quote [quote]) text = some tokens)
    : IsFirst (quote :: text) tokens := by
  obtain ⟨body, inside, rest, rfl, hbody⟩ := (quoted_of_run text).1 _ _ h
  rw [run_string (ne_backslash_of_isQuote hq) hbody] at h
  obtain ⟨others, ho, rfl⟩ := Option.map_eq_some_iff.mp h
  have hw : IsWritten ⟨.string, quote :: (body ++ [quote])⟩ :=
    ⟨quote, body, inside, hq, hbody, rfl⟩
  exact ⟨_, others, rest, rfl, by simp, hw, fun _ _ => rfl, ho⟩

/-- A sign that is scanned is a comparison, alone or with the equals sign behind it. -/
theorem isFirst_of_run_sign {c : Char} (hc : isSign c = true) {text : List Char}
    {tokens : List Token} (h : scanner.run (.sign c) text = some tokens)
    : IsFirst (c :: text) tokens := by
  rw [run_sign] at h
  split at h
  case isTrue he =>
    obtain ⟨others, ho, rfl⟩ := Option.map_eq_some_iff.mp h
    obtain ⟨rest, rfl⟩ : ∃ rest, text = '=' :: rest := List.head?_eq_some_iff.mp he
    have hw : IsWritten ⟨.cmpOp, [c, '=']⟩ := by
      simp only [isSign, Bool.or_eq_true, decide_eq_true_eq] at hc
      rcases hc with ((rfl | rfl) | rfl) | rfl
      · exact ⟨.eq, rfl⟩
      · exact ⟨.ne, rfl⟩
      · exact ⟨.ge, rfl⟩
      · exact ⟨.le, rfl⟩
    exact ⟨_, others, rest, rfl, rfl, hw, fun _ _ => rfl, ho⟩
  case isFalse hne =>
    obtain ⟨token, ht, h⟩ := Option.bind_eq_some_iff.mp h
    obtain ⟨others, ho, rfl⟩ := Option.map_eq_some_iff.mp h
    unfold ofSign? at ht
    split at ht
    case isFalse => simp at ht
    case isTrue hone =>
      obtain rfl := Option.some.inj ht
      have hw : IsWritten ⟨.cmpOp, [c]⟩ := by
        rcases hone with rfl | rfl
        · exact ⟨.gt, rfl⟩
        · exact ⟨.lt, rfl⟩
      have hstop : Stops (continues ⟨.cmpOp, [c]⟩) text := by
        intro d hd
        have hde : d ≠ '=' := by
          rintro rfl
          exact hne hd
        simp [continues, hde]
      exact ⟨_, others, text, rfl, rfl, hw, hstop, ho⟩

/-- A character that is no space starts the first token of a scan, by its mode. -/
theorem isFirst_of_scanBetween {c : Char} (hc : isSpace c = false) {text : List Char}
    {tokens : List Token} (h : scanBetween (c :: text) = some tokens)
    : IsFirst (c :: text) tokens := by
  rw [scanBetween_cons] at h
  obtain ⟨mode, hm, hr⟩ := Option.bind_eq_some_iff.mp h
  rw [start, if_neg (by simp [hc])] at hm
  split at hm
  · next hname =>
      obtain rfl := Option.some.inj hm
      exact isFirst_of_run_word hname hr
  split at hm
  · obtain rfl := Option.some.inj hm
    exact isFirst_of_run_number hr
  split at hm
  · next hq =>
      obtain rfl := Option.some.inj hm
      exact isFirst_of_run_string hq hr
  split at hm
  · next hsign =>
      obtain rfl := Option.some.inj hm
      exact isFirst_of_run_sign hsign hr
  · simp at hm

/-- A scanned text is a row of its tokens, by induction on its length: a space or a token in
front is taken off.
-/
theorem laid_of_scanBetween {text : List Char} {tokens : List Token}
    (h : scanBetween text = some tokens)
    : Laid tokens text := by
  match text with
  | [] =>
      obtain rfl : [] = tokens := Option.some.inj h
      exact .blank rfl
  | c :: text =>
      cases hc : isSpace c with
      | true =>
          have hcs : [c].all isSpace = true := by simp [hc]
          have hspaces := scanBetween_spaces hcs text
          rw [List.singleton_append, h] at hspaces
          exact (laid_of_scanBetween hspaces.symm).space hc
      | false =>
          obtain ⟨token, others, rest, rfl, ht, hw, hstop, ho⟩ := isFirst_of_scanBetween hc h
          -- A written token has characters, so less text is left behind it.
          have hlength : rest.length < text.length + 1 := by
            have htoken := List.length_pos_iff.mpr hw.text_ne_nil
            rw [← List.length_cons, ht, List.length_append]
            omega
          rw [ht]
          exact (laid_of_scanBetween ho).cons hw hstop
termination_by text.length

/-- The scanner finds exactly the tokens of a row. -/
theorem scan?_eq_some_iff {text : List Char} {tokens : List Token}
    : scanner.scan? text = some tokens ↔ Laid tokens text := by
  rw [Text.Scanner.scan?_eq_run]
  exact ⟨laid_of_scanBetween, scanBetween_of_laid⟩

end Token

end ReportTemplate.Condition
