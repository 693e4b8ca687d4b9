import ReportTemplate.Condition.Reader
import ReportTemplate.Proofs.Text.Split

/-! Texts of tokens, by the forms of the grammar.
The forms are stated on whole texts, without a scanner: a path is names between points, a
number is digits with optional parts around them, and quotes stand around characters of which
some are protected by a backslash.
-/

namespace ReportTemplate.Condition

-----------------------------------------------------------------------------------------
-- Longest rows of characters
-----------------------------------------------------------------------------------------

/-- Holds where a text does not go on with characters that pass a test. -/
def Stops (test : Char → Bool) (rest : List Char) : Prop :=
  ∀ c ∈ rest.head?, test c = false

/-- A row of characters that pass a test is the longest one in front of a text that does not go
on with them.
-/
theorem takeWhile_append_of_stops {test : Char → Bool} {row rest : List Char}
    (hr : row.all test = true) (hs : Stops test rest)
    : (row ++ rest).takeWhile test = row ∧ (row ++ rest).dropWhile test = rest := by
  rw [List.all_eq_true] at hr
  rw [List.takeWhile_append_of_pos hr, List.dropWhile_append_of_pos hr]
  cases rest with
  | nil => simp
  | cons c rest =>
      have hc : test c = false := hs c rfl
      simp [hc]

/-- What is left behind the longest row does not go on with it. -/
theorem stops_dropWhile (test : Char → Bool) (text : List Char)
    : Stops test (text.dropWhile test) := by
  intro c hc
  have h := List.head?_dropWhile_not test text
  rw [Option.mem_def.mp hc] at h
  simpa using h

-----------------------------------------------------------------------------------------
-- The forms of tokens
-----------------------------------------------------------------------------------------

/-- The words that stand for themselves, with their rules. -/
def keywords : List (Rule × List Char) := [
  (.andOp, ['a', 'n', 'd']), (.orOp, ['o', 'r']), (.notOp, ['n', 'o', 't']),
  (.boolean, ['t', 'r', 'u', 'e']), (.boolean, ['f', 'a', 'l', 's', 'e']),
  (.nullLit, ['n', 'u', 'l', 'l'])]

/-- A segment of a path: one or more name characters. -/
def IsSegment (text : List Char) : Prop :=
  text ≠ [] ∧ text.all Token.isNameChar = true

/-- A path: segments between points, of which the first starts like a name and is no keyword.
-/
def IsPath (text : List Char) : Prop :=
  ∃ first others, text = Text.join ['.'] (first :: others)
    ∧ IsSegment first ∧ (∀ c ∈ first.head?, Token.isNameStart c = true)
    ∧ first ∉ keywords.map Prod.snd ∧ ∀ segment ∈ others, IsSegment segment

/-- An optional fraction: a point and any number of digits. -/
def IsFraction (text : List Char) : Prop :=
  text = [] ∨ ∃ digits, text = '.' :: digits ∧ digits.all Number.isDigit = true

/-- An optional exponent: its mark, an optional sign and one or more digits. -/
def IsExponent (text : List Char) : Prop :=
  text = []
  ∨ ∃ mark sign digits, text = mark :: (sign ++ digits) ∧ (mark = 'e' ∨ mark = 'E')
    ∧ (sign = [] ∨ sign = ['+'] ∨ sign = ['-'])
    ∧ digits ≠ [] ∧ digits.all Number.isDigit = true

/-- A number: an optional minus sign, one or more digits, a fraction and an exponent. -/
def IsNumber (text : List Char) : Prop :=
  ∃ minus digits fraction exponent, text = minus ++ (digits ++ (fraction ++ exponent))
    ∧ (minus = [] ∨ minus = ['-'])
    ∧ (digits ≠ [] ∧ digits.all Number.isDigit = true)
    ∧ IsFraction fraction ∧ IsExponent exponent

/-- A text as it is written between quotes: a backslash protects the next character, and the
quote and the backslash are always protected.
-/
inductive Quoted (quote : Char) : List Char → List Char → Prop where
  | nil : Quoted quote [] []
  | plain {c : Char} {body text : List Char} (hq : c ≠ quote) (hb : c ≠ '\\')
      (rest : Quoted quote body text)
      : Quoted quote (c :: body) (c :: text)
  | escaped {c : Char} {body text : List Char} (rest : Quoted quote body text)
      : Quoted quote ('\\' :: c :: body) (c :: text)

/-- A string: a quoted text between two equal quotes. -/
def IsString (text : List Char) : Prop :=
  ∃ quote body inside, Token.isQuote quote = true ∧ Quoted quote body inside
    ∧ text = quote :: (body ++ [quote])

/-- Holds for the rules of words: keywords, literal words and paths. -/
def Rule.isWord : Rule → Bool
  | .andOp | .orOp | .notOp | .boolean | .nullLit | .path => true
  | _ => false

/-- Holds for tokens whose text has the form of their rule. -/
def Token.IsWritten (token : Token) : Prop :=
  match token.rule with
  | .path => IsPath token.text
  | .number => IsNumber token.text
  | .string => IsString token.text
  | .cmpOp => ∃ comparison : Comparison, token.text = comparison.symbol.toList
  | rule => (rule, token.text) ∈ keywords

-----------------------------------------------------------------------------------------
-- Strings and keywords
-----------------------------------------------------------------------------------------

/-- Unescaping gives the text that is quoted, by induction on how it is written. -/
theorem Quoted.unescape_eq {quote : Char} {body text : List Char} (h : Quoted quote body text)
    : unescape body = text := by
  induction h with
  | nil => rfl
  | plain hq hb rest ih =>
      rw [unescape, ih]
      · rintro rfl
        exact absurd rfl hb
      · rintro c body rfl
        exact absurd rfl hb
  | escaped rest ih => rw [unescape, ih]

/-- The keywords are the words that make a token by themselves, by the six cases. -/
theorem ofKeyword?_eq_some_iff {word : List Char} {rule : Rule}
    : Token.ofKeyword? word = some rule ↔ (rule, word) ∈ keywords := by
  constructor
  · intro h
    unfold Token.ofKeyword? at h
    split at h
    case h_7 => simp at h
    all_goals
      next heq =>
        obtain rfl := Option.some.inj h
        have hw := congrArg String.toList heq
        rw [String.toList_ofList] at hw
        subst hw
        decide
  · intro h
    have hall : ∀ keyword ∈ keywords, Token.ofKeyword? keyword.2 = some keyword.1 := by decide
    exact hall (rule, word) h

-----------------------------------------------------------------------------------------
-- Numbers
-----------------------------------------------------------------------------------------

/-- A digit starts neither a fraction nor an exponent, so digits stop in front of both. -/
theorem stops_isDigit {fraction exponent : List Char} (hf : IsFraction fraction)
    (he : IsExponent exponent)
    : Stops Number.isDigit (fraction ++ exponent) := by
  intro c hc
  rcases hf with rfl | ⟨digits, rfl, -⟩
  · rcases he with rfl | ⟨mark, sign, digits, rfl, hm, -⟩
    · simp at hc
    · obtain rfl : mark = c := by simpa using hc
      rcases hm with rfl | rfl <;> decide
  · obtain rfl : '.' = c := by simpa using hc
    decide

/-- One or more digits have no sign to split off, since a digit is none. -/
theorem splitSign_of_isDigit {digits : List Char} (h : digits.all Number.isDigit = true)
    : Number.splitSign digits = (false, digits) := by
  unfold Number.splitSign
  split
  · simp [Number.isDigit] at h
  · simp [Number.isDigit] at h
  · rfl

/-- An integer is read when digits are left behind the sign, by the definition. -/
theorem integer_isSome_iff {text : List Char}
    : (Number.integer text).isSome = true
      ↔ (Number.splitSign text).2 ≠ [] ∧ (Number.splitSign text).2.all Number.isDigit = true := by
  rw [Number.integer]
  generalize Number.splitSign text = split
  obtain ⟨negative, digits⟩ := split
  cases negative <;> cases hd : digits.isEmpty <;> cases ha : digits.all Number.isDigit <;>
    simp_all

/-- The exponents that are read are those of the form, by the cases of the sign. -/
theorem exponentPart_isSome_iff {text : List Char}
    : (Number.exponentPart text).isSome = true ↔ IsExponent text := by
  cases text with
  | nil => simp [Number.exponentPart, IsExponent]
  | cons mark rest =>
      rw [Number.exponentPart]
      constructor
      · intro h
        split at h
        case isFalse => simp at h
        case isTrue hm =>
          have hi := integer_isSome_iff.mp h
          unfold Number.splitSign at hi
          split at hi
          · next digits => exact Or.inr ⟨mark, ['-'], digits, rfl, hm, by simp, hi⟩
          · next digits => exact Or.inr ⟨mark, ['+'], digits, rfl, hm, by simp, hi⟩
          · exact Or.inr ⟨mark, [], rest, rfl, hm, by simp, hi⟩
      · rintro (h | ⟨mark', sign, digits, h, hm, hs, hne, hall⟩)
        · simp at h
        · obtain ⟨rfl, rfl⟩ := List.cons.inj h
          rw [if_pos hm, integer_isSome_iff]
          rcases hs with rfl | rfl | rfl
          · rw [List.nil_append, splitSign_of_isDigit hall]
            exact ⟨hne, hall⟩
          · exact ⟨hne, hall⟩
          · exact ⟨hne, hall⟩

/-- The unsigned numbers that are scanned are those of the form: digits in front are the
longest row of digits, and what is behind the fraction is the exponent.
-/
theorem isUnsigned_iff {text : List Char}
    : Token.isUnsigned text = true
      ↔ ∃ digits fraction exponent, text = digits ++ (fraction ++ exponent)
        ∧ (digits ≠ [] ∧ digits.all Number.isDigit = true)
        ∧ IsFraction fraction ∧ IsExponent exponent := by
  rw [Token.isUnsigned, Bool.and_eq_true, exponentPart_isSome_iff, Bool.not_eq_true']
  constructor
  · rintro ⟨hd, he⟩
    have hdigits : text.takeWhile Number.isDigit ≠ []
        ∧ (text.takeWhile Number.isDigit).all Number.isDigit = true :=
      ⟨by simpa using hd, List.all_takeWhile⟩
    have htext := List.takeWhile_append_dropWhile (p := Number.isDigit) (l := text)
    unfold Token.dropFraction at he
    split at he
    · next after hr =>
        refine ⟨_, '.' :: after.takeWhile Number.isDigit, _, ?_, hdigits,
          Or.inr ⟨_, rfl, List.all_takeWhile⟩, he⟩
        rw [List.cons_append, List.takeWhile_append_dropWhile, ← hr, htext]
    · exact ⟨_, [], _, htext.symm, hdigits, Or.inl rfl, he⟩
  · rintro ⟨digits, fraction, exponent, rfl, ⟨hne, hall⟩, hf, he⟩
    obtain ⟨ht, hd⟩ := takeWhile_append_of_stops hall (stops_isDigit hf he)
    rw [ht, hd]
    -- Digits stop before both, so the reader cuts where the form does.
    have hdrop : Token.dropFraction (fraction ++ exponent) = exponent := by
      rcases hf with rfl | ⟨after, rfl, ha⟩
      · rcases he with rfl | ⟨mark, sign, after, rfl, rfl | rfl, -⟩ <;> rfl
      · exact (takeWhile_append_of_stops ha (stops_isDigit (Or.inl rfl) he)).2
    exact ⟨by simpa using hne, by rwa [hdrop]⟩

/-- The numbers that are scanned are those of the form, by cases on the minus sign. -/
theorem isNumber_iff {text : List Char} : Token.isNumber text = true ↔ IsNumber text := by
  unfold Token.isNumber
  split
  · next rest =>
      rw [isUnsigned_iff]
      constructor
      · rintro ⟨digits, fraction, exponent, rfl, h⟩
        exact ⟨['-'], digits, fraction, exponent, rfl, by simp, h⟩
      · rintro ⟨minus, digits, fraction, exponent, he, hm, hd, h⟩
        rcases hm with rfl | rfl
        · obtain ⟨c, digits, rfl⟩ := List.exists_cons_of_ne_nil hd.1
          obtain ⟨rfl, -⟩ := List.cons.inj he
          simp [Number.isDigit] at hd
        · exact ⟨digits, fraction, exponent, (List.cons.inj he).2, hd, h⟩
  · next hne =>
      rw [isUnsigned_iff]
      constructor
      · rintro ⟨digits, fraction, exponent, rfl, h⟩
        exact ⟨[], digits, fraction, exponent, rfl, by simp, h⟩
      · rintro ⟨minus, digits, fraction, exponent, he, hm, hd, h⟩
        rcases hm with rfl | rfl
        · exact ⟨digits, fraction, exponent, he, hd, h⟩
        · exact absurd he (hne _)

-----------------------------------------------------------------------------------------
-- Words and paths
-----------------------------------------------------------------------------------------

theorem isWritten_of_mem_keywords {rule : Rule} {word : List Char}
    (h : (rule, word) ∈ keywords)
    : Token.IsWritten ⟨rule, word⟩ ∧ rule.isWord = true := by
  have hr := h
  simp only [keywords, List.mem_cons, Prod.mk.injEq, List.not_mem_nil, or_false] at hr
  rcases hr with ⟨rfl, -⟩ | ⟨rfl, -⟩ | ⟨rfl, -⟩ | ⟨rfl, -⟩ | ⟨rfl, -⟩ | ⟨rfl, -⟩ <;>
    exact ⟨h, rfl⟩

/-- A written word is a keyword or a path, by the cases of the rules. -/
theorem Token.IsWritten.keyword_or_path {token : Token} (h : token.IsWritten)
    (hw : token.rule.isWord = true)
    : (token.rule, token.text) ∈ keywords ∨ token.rule = .path ∧ IsPath token.text := by
  unfold Token.IsWritten at h
  split at h
  · next hr => exact Or.inr ⟨hr, h⟩
  · next hr => simp [hr, Rule.isWord] at hw
  · next hr => simp [hr, Rule.isWord] at hw
  · next hr => simp [hr, Rule.isWord] at hw
  · exact Or.inl h

theorem IsSegment.point_not_mem {segment : List Char} (h : IsSegment segment)
    : '.' ∉ segment := by
  intro hm
  exact absurd (List.all_eq_true.mp h.2 '.' hm) (by decide)

/-- A word that is read has the form of its token: its pieces between points are the segments
of a path, or the only piece is a keyword.
-/
theorem isWritten_of_ofWord? {word : List Char} {token : Token}
    (hs : ∀ c ∈ word.head?, Token.isNameStart c = true)
    (hp : word.all Token.isPathChar = true) (h : Token.ofWord? word = some token)
    : token.text = word ∧ token.IsWritten ∧ token.rule.isWord = true := by
  have hj := Text.join_splitOn '.' word
  -- A path character that is no point is a name character.
  have hm : ∀ piece ∈ Text.splitOn '.' word, piece.all Token.isNameChar = true := by
    intro piece hmp
    rw [List.all_eq_true]
    intro c hc
    obtain ⟨hcw, hcd⟩ := Text.mem_of_mem_cut hmp c hc
    have hpc := List.all_eq_true.mp hp c hcw
    have hne : c ≠ '.' := by simpa using hcd
    simpa [Token.isPathChar, hne] using hpc
  unfold Token.ofWord? at h
  cases hc : Text.splitOn '.' word with
  | nil => exact absurd hc (Text.cut_ne_nil _ word)
  | cons name keys =>
      rw [hc] at h hj hm
      cases hk : Token.ofKeyword? name with
      | some rule =>
          cases keys with
          | cons key keys => simp [hk] at h
          | nil =>
              obtain rfl : name = word := by simpa [Text.join] using hj
              obtain rfl : (⟨rule, name⟩ : Token) = token := by simpa [hk] using h
              exact ⟨rfl, isWritten_of_mem_keywords (ofKeyword?_eq_some_iff.mp hk)⟩
      | none =>
          have hne : name ≠ [] ∧ [] ∉ keys ∧ (⟨.path, word⟩ : Token) = token := by
            simpa [hk, and_assoc] using h
          obtain ⟨hname, hkeys, rfl⟩ := hne
          refine ⟨rfl, ⟨name, keys, hj.symm, ⟨hname, hm name (by simp)⟩, ?_, ?_, ?_⟩, rfl⟩
          · obtain ⟨c, rest, rfl⟩ := List.exists_cons_of_ne_nil hname
            rw [← hj] at hs
            exact hs
          · rintro hmem
            obtain ⟨⟨rule, text⟩, hr, rfl⟩ := List.mem_map.mp hmem
            rw [ofKeyword?_eq_some_iff.mpr hr] at hk
            simp at hk
          · exact fun segment hseg =>
              ⟨fun he => hkeys (he ▸ hseg), hm segment (List.mem_cons_of_mem name hseg)⟩

/-- A written word is read, by the cases of keywords and by cutting a path at its points. -/
theorem ofWord?_of_isWritten {token : Token} (h : token.IsWritten)
    (hw : token.rule.isWord = true)
    : Token.ofWord? token.text = some token := by
  obtain ⟨rule, text⟩ := token
  rcases h.keyword_or_path hw with hk | ⟨hr, hp⟩
  · have hall : ∀ keyword ∈ keywords,
        Token.ofWord? keyword.2 = some ⟨keyword.1, keyword.2⟩ := by decide
    exact hall (rule, text) hk
  · obtain rfl : rule = .path := hr
    obtain ⟨first, others, rfl, hf, -, hreserved, ho⟩ := hp
    have hsplit : Text.splitOn '.' (Text.join ['.'] (first :: others)) = first :: others := by
      refine Text.splitOn_join fun piece hm => ?_
      rcases List.mem_cons.mp hm with rfl | hm
      · exact hf.point_not_mem
      · exact (ho piece hm).point_not_mem
    have hk : Token.ofKeyword? first = none := by
      cases hk : Token.ofKeyword? first with
      | none => rfl
      | some rule =>
          exact absurd (List.mem_map.mpr ⟨_, ofKeyword?_eq_some_iff.mp hk, rfl⟩) hreserved
    have he : [] ∉ others := fun hm => (ho [] hm).1 rfl
    simp [Token.ofWord?, hsplit, hk, hf.1, he]

theorem Token.isPathChar_of_isNameStart {c : Char} (h : Token.isNameStart c = true)
    : Token.isPathChar c = true := by
  simp only [Token.isNameStart, Bool.or_eq_true] at h
  rcases h with h | h <;> simp [Token.isPathChar, Token.isNameChar, h]

/-- A written word starts like a name and goes on like a path. -/
theorem Token.IsWritten.word_chars {token : Token} (h : token.IsWritten)
    (hw : token.rule.isWord = true)
    : ∃ c rest, token.text = c :: rest ∧ Token.isNameStart c = true
      ∧ rest.all Token.isPathChar = true := by
  rcases h.keyword_or_path hw with hk | ⟨-, hp⟩
  · obtain ⟨rule, text⟩ := token
    simp only [keywords, List.mem_cons, Prod.mk.injEq, List.not_mem_nil, or_false] at hk
    rcases hk with ⟨rfl, rfl⟩ | ⟨rfl, rfl⟩ | ⟨rfl, rfl⟩ | ⟨rfl, rfl⟩ | ⟨rfl, rfl⟩ | ⟨rfl, rfl⟩ <;>
      exact ⟨_, _, rfl, by decide, by decide⟩
  · obtain ⟨first, others, ht, hf, hs, -, ho⟩ := hp
    obtain ⟨c, rest, rfl⟩ := List.exists_cons_of_ne_nil hf.1
    refine ⟨c, rest ++ others.flatMap (['.'] ++ ·), ht, hs c rfl, ?_⟩
    have hchars : ∀ segment : List Char, segment.all Token.isNameChar = true
        → segment.all Token.isPathChar = true := by
      intro segment ha
      rw [List.all_eq_true] at ha ⊢
      intro d hd
      simp [Token.isPathChar, ha d hd]
    have hfirst := hchars (c :: rest) hf.2
    rw [List.all_cons, Bool.and_eq_true] at hfirst
    rw [List.all_append, Bool.and_eq_true, List.all_flatMap]
    refine ⟨hfirst.2, List.all_eq_true.mpr fun segment hm => ?_⟩
    have hsegment := hchars segment (ho segment hm).2
    simpa [Token.isPathChar] using hsegment

/-- A path has path characters only, and at least one. -/
theorem IsPath.chars {path : List Char} (h : IsPath path)
    : path ≠ [] ∧ path.all Token.isPathChar = true := by
  have hw : (⟨.path, path⟩ : Token).IsWritten := h
  obtain ⟨c, rest, rfl, hc, hr⟩ : ∃ c rest, path = c :: rest ∧ _ := hw.word_chars rfl
  exact ⟨by simp, by rw [List.all_cons, Token.isPathChar_of_isNameStart hc, hr]; rfl⟩

/-- A written token is a word, a number, a string or a comparison, by the cases of the rules. -/
theorem Token.IsWritten.kinds {token : Token} (h : token.IsWritten)
    : token.rule.isWord = true ∨ token.rule = .number ∨ token.rule = .string
      ∨ token.rule = .cmpOp := by
  unfold Token.IsWritten at h
  split at h
  · next hr => exact Or.inl (by rw [hr]; rfl)
  · next hr => exact Or.inr (Or.inl hr)
  · next hr => exact Or.inr (Or.inr (Or.inl hr))
  · next hr => exact Or.inr (Or.inr (Or.inr hr))
  · exact Or.inl (isWritten_of_mem_keywords h).2

/-- The ASCII digits are the ten between `0` and `9`, by their code points. -/
theorem mem_digits {c : Char} (h : Number.isDigit c = true)
    : c ∈ ['0', '1', '2', '3', '4', '5', '6', '7', '8', '9'] := by
  have hc : Char.ofNat c.toNat = c := Char.ofNat_toNat c
  simp only [Number.isDigit, Bool.and_eq_true, decide_eq_true_eq] at h
  have hlow : 48 ≤ c.toNat := h.1
  have hhigh : c.toNat ≤ 57 := h.2
  have hn : c.toNat = 48 ∨ c.toNat = 49 ∨ c.toNat = 50 ∨ c.toNat = 51 ∨ c.toNat = 52
      ∨ c.toNat = 53 ∨ c.toNat = 54 ∨ c.toNat = 55 ∨ c.toNat = 56 ∨ c.toNat = 57 := by
    omega
  rcases hn with hn | hn | hn | hn | hn | hn | hn | hn | hn | hn <;> rw [hn] at hc <;>
    rw [← hc] <;> decide

/-- A number starts with a digit or a minus sign and goes on with number characters. -/
theorem IsNumber.chars {text : List Char} (h : IsNumber text)
    : ∃ c rest, text = c :: rest ∧ (Number.isDigit c = true ∨ c = '-')
      ∧ rest.all Token.isNumberChar = true := by
  have hdigits : ∀ digits : List Char, digits.all Number.isDigit = true
      → digits.all Token.isNumberChar = true := by
    intro digits hd
    rw [List.all_eq_true] at hd ⊢
    intro c hc
    simp [Token.isNumberChar, hd c hc]
  obtain ⟨minus, digits, fraction, exponent, rfl, hm, ⟨hne, hall⟩, hf, he⟩ := h
  have hfraction : fraction.all Token.isNumberChar = true := by
    rcases hf with rfl | ⟨after, rfl, ha⟩
    · rfl
    · simpa [Token.isNumberChar] using hdigits after ha
  have hexponent : exponent.all Token.isNumberChar = true := by
    rcases he with rfl | ⟨mark, sign, after, rfl, hmark, hs, -, ha⟩
    · rfl
    · have hmark : Token.isNumberChar mark = true := by rcases hmark with rfl | rfl <;> decide
      have hsign : sign.all Token.isNumberChar = true := by
        rcases hs with rfl | rfl | rfl <;> decide
      rw [List.all_cons, List.all_append, hmark, hsign, hdigits after ha]
      rfl
  obtain ⟨c, digits, rfl⟩ := List.exists_cons_of_ne_nil hne
  have hcdigits := hdigits _ hall
  rw [List.all_cons, Bool.and_eq_true] at hall hcdigits
  rcases hm with rfl | rfl
  · refine ⟨c, digits ++ (fraction ++ exponent), rfl, Or.inl hall.1, ?_⟩
    rw [List.all_append, List.all_append, hcdigits.2, hfraction, hexponent]
    rfl
  · refine ⟨'-', c :: digits ++ (fraction ++ exponent), rfl, Or.inr rfl, ?_⟩
    rw [List.all_append, List.all_append, List.all_cons, hcdigits.1, hcdigits.2, hfraction,
      hexponent]
    rfl

/-- A written token starts with the start of a name, a digit or a minus sign, a quote, or a
comparison sign, by its kind.
-/
theorem Token.IsWritten.head {token : Token} (h : token.IsWritten)
    : ∃ c rest, token.text = c :: rest
      ∧ (token.rule.isWord = true ∧ Token.isNameStart c = true
        ∨ token.rule = .number ∧ (Number.isDigit c = true ∨ c = '-')
        ∨ token.rule = .string ∧ Token.isQuote c = true
        ∨ token.rule = .cmpOp ∧ Token.isSign c = true) := by
  obtain ⟨rule, text⟩ := token
  rcases h.kinds with hw | rfl | rfl | rfl
  · obtain ⟨c, rest, ht, hc, -⟩ := h.word_chars hw
    exact ⟨c, rest, ht, Or.inl ⟨hw, hc⟩⟩
  · obtain ⟨c, rest, rfl, hc, -⟩ := IsNumber.chars h
    exact ⟨c, rest, rfl, Or.inr (Or.inl ⟨rfl, hc⟩)⟩
  · obtain ⟨quote, body, inside, hq, -, rfl⟩ : IsString text := h
    exact ⟨quote, _, rfl, Or.inr (Or.inr (Or.inl ⟨rfl, hq⟩))⟩
  · obtain ⟨comparison, rfl⟩ : ∃ comparison : Comparison, text = comparison.symbol.toList := h
    cases comparison <;> exact ⟨_, _, rfl, Or.inr (Or.inr (Or.inr ⟨rfl, rfl⟩))⟩

theorem Token.IsWritten.text_ne_nil {token : Token} (h : token.IsWritten) : token.text ≠ [] := by
  obtain ⟨c, rest, ht, -⟩ := h.head
  exact ht ▸ List.cons_ne_nil c rest

end ReportTemplate.Condition
