import ReportTemplate.Proofs.Template.Inert

/-! Tags written on one line: the content between the marks decides what is read.
The first word of a content is its keyword and the rest its argument. A content whose first
word is no keyword makes no tag, and stands as text with the marks around it.
-/

namespace ReportTemplate.Template

-----------------------------------------------------------------------------------------
-- Plain lines and the tags that they make
-----------------------------------------------------------------------------------------

/-- Holds for texts on one line without braces. -/
def isPlainLine (text : List Char) : Bool :=
  text.all fun c => c != '\n' && c != '\x7b' && c != '\x7d'

/-- A plain line has neither line feeds nor braces, by its definition. -/
theorem isPlainLine_iff {text : List Char}
    : isPlainLine text = true ↔ '\n' ∉ text ∧ '\x7b' ∉ text ∧ '\x7d' ∉ text := by
  simp only [isPlainLine, List.all_eq_true, Bool.and_eq_true, bne_iff_ne]
  constructor
  · intro h
    exact ⟨fun hm => (h _ hm).1.1 rfl, fun hm => (h _ hm).1.2 rfl, fun hm => (h _ hm).2 rfl⟩
  · rintro ⟨hn, ho, hc⟩ c hm
    exact ⟨⟨fun he => hn (he ▸ hm), fun he => ho (he ▸ hm)⟩, fun he => hc (he ▸ hm)⟩

/-- The end of a plain line is a plain line, since it has no other characters. -/
theorem isPlainLine_of_suffix {text whole : List Char} (h : isPlainLine whole = true)
    (hs : text <:+ whole)
    : isPlainLine text = true := by
  simp only [isPlainLine, List.all_eq_true] at h ⊢
  exact fun c hm => h c (hs.subset hm)

namespace Tag

/-- A content between the marks of a tag. -/
def marked (content : List Char) : List Char :=
  '\x7b' :: '%' :: (content ++ ['%', '\x7d'])

/-- The first word of a content, behind its leading blanks. -/
def firstWord (content : List Char) : List Char :=
  (content.dropWhile Text.isBlank).takeWhile Text.isWordChar

def behindFirstWord (content : List Char) : List Char :=
  (content.dropWhile Text.isBlank).dropWhile Text.isWordChar

/-- The tag that a content makes, if its first word is a keyword. -/
def ofContent? (content : List Char) : Option Tag :=
  (TagKind.all.find? fun kind => kind.keyword = firstWord content).map fun kind =>
    ⟨kind, Text.trim (behindFirstWord content), marked content⟩

/-- Holds for tags that a content on one line without braces makes. -/
def IsWritten (tag : Tag) : Prop :=
  ∃ content, isPlainLine content = true ∧ ofContent? content = some tag

-----------------------------------------------------------------------------------------
-- Reading a tag between its marks
-----------------------------------------------------------------------------------------

theorem keyword_isWord (kind : TagKind) : kind.keyword.all Text.isWordChar = true := by
  cases kind <;> decide

/-- A word stands first exactly when the longest row of word characters is that word, by
induction on the word.
-/
theorem afterWord?_eq (word text : List Char) (hw : word.all Text.isWordChar = true)
    : afterWord? word text
      = if word = text.takeWhile Text.isWordChar then some (text.dropWhile Text.isWordChar)
        else none := by
  induction word generalizing text with
  | nil =>
      cases text with
      | nil => rfl
      | cons c text =>
          cases hc : Text.isWordChar c <;> simp [afterWord?, continuesWord, hc]
  | cons w word ih =>
      simp only [List.all_cons, Bool.and_eq_true] at hw
      cases text with
      | nil => simp [afterWord?]
      | cons c text =>
          by_cases he : w = c
          · subst he
            simp [afterWord?, ih text hw.2, hw.1]
          · cases hc : Text.isWordChar c <;> simp [afterWord?, he, hc]

/-- The keyword at the start of a text is its first row of word characters, by the cases of
the kinds.
-/
theorem keyword?_eq (text : List Char)
    : keyword? text
      = (TagKind.all.find? fun kind => kind.keyword = text.takeWhile Text.isWordChar).map
          (·, text.dropWhile Text.isWordChar) := by
  unfold keyword?
  generalize TagKind.all = kinds
  induction kinds with
  | nil => rfl
  | cons kind kinds ih =>
      rw [List.findSome?_cons, List.find?_cons, afterWord?_eq _ _ (keyword_isWord kind)]
      by_cases h : kind.keyword = text.takeWhile Text.isWordChar
      · simp [h]
      · simp [h, ih]

/-- A text without closing braces ends at the closing mark behind it, by induction on the
text.
-/
theorem beforeEnd?_append {text : List Char} (h : '\x7d' ∉ text) (rest : List Char)
    : beforeEnd? (text ++ '%' :: '\x7d' :: rest) = some text := by
  induction text with
  | nil => rfl
  | cons c text ih =>
      simp only [List.mem_cons, not_or] at h
      rw [List.cons_append, beforeEnd?]
      · rw [ih h.2]
        rfl
      · intro after _ he
        cases text with
        | nil => simp at he
        | cons d text =>
            have hd := (List.cons.inj he).1
            simp [hd] at h

/-- Nothing that is taken from the front of a text by a test changes when a character that
fails the test follows, by induction on the text.
-/
theorem takeWhile_append_of_fail {test : Char → Bool} {c : Char} (hc : test c = false)
    (text rest : List Char)
    : (text ++ c :: rest).takeWhile test = text.takeWhile test := by
  induction text with
  | nil => simp [hc]
  | cons d text ih => cases hd : test d <;> simp [hd, ih]

/-- What a test drops from the front of a text does not change when a character that fails
the test follows, by induction on the text.
-/
theorem dropWhile_append_of_fail {test : Char → Bool} {c : Char} (hc : test c = false)
    (text rest : List Char)
    : (text ++ c :: rest).dropWhile test = text.dropWhile test ++ c :: rest := by
  induction text with
  | nil => simp [hc]
  | cons d text ih => cases hd : test d <;> simp [hd, ih]

/-- A plain content between marks is read as the tag that it makes: the keyword is its first
word, and the closing mark is the first one, since the content has no braces.
-/
theorem read?_marked {content : List Char} (h : isPlainLine content = true)
    (rest : List Char)
    : read? (marked content ++ rest) = ofContent? content := by
  have hblank : Text.isBlank '%' = false := by decide
  have hword : Text.isWordChar '%' = false := by decide
  have hend : isPlainLine (behindFirstWord content) = true :=
    isPlainLine_of_suffix h
      ((List.dropWhile_suffix _).trans (List.dropWhile_suffix _))
  obtain ⟨hline, -, hclose⟩ := isPlainLine_iff.mp hend
  -- The percent sign is neither a blank nor a word character, so it ends both rows.
  have hdrop := dropWhile_append_of_fail hblank content ('\x7d' :: rest)
  have hkey : keyword? ((content ++ '%' :: '\x7d' :: rest).dropWhile Text.isBlank)
      = (TagKind.all.find? fun kind => kind.keyword = firstWord content).map
          (·, behindFirstWord content ++ '%' :: '\x7d' :: rest) := by
    rw [keyword?_eq, hdrop, takeWhile_append_of_fail hword, dropWhile_append_of_fail hword]
    rfl
  have htrim : '\n' ∉ Text.trim (behindFirstWord content) := by
    intro hm
    refine hline ((?_ : List.Sublist _ _).subset hm)
    have hs := (List.dropWhile_sublist Text.isBlank
      (l := (Text.trimStart (behindFirstWord content)).reverse)).reverse
    rw [List.reverse_reverse] at hs
    exact hs.trans (List.dropWhile_sublist _)
  -- The source of a tag keeps the blanks in front of its keyword.
  have hsource : ∀ kind : TagKind, kind.keyword = firstWord content
      → sourceOf (content.takeWhile Text.isBlank) kind (behindFirstWord content)
        = marked content := by
    intro kind hk
    have hjoin : content.takeWhile Text.isBlank ++ (firstWord content ++ behindFirstWord content)
        = content := by
      rw [firstWord, behindFirstWord, List.takeWhile_append_dropWhile,
        List.takeWhile_append_dropWhile]
    rw [sourceOf, hk, List.append_assoc (content.takeWhile _), hjoin, marked]
  have hstart : marked content ++ rest
      = '\x7b' :: '%' :: (content ++ '%' :: '\x7d' :: rest) := by
    simp [marked]
  rw [hstart, read?, hkey, takeWhile_append_of_fail hblank, ofContent?]
  cases hf : TagKind.all.find? fun kind => kind.keyword = firstWord content with
  | none => rfl
  | some kind =>
      have hk : kind.keyword = firstWord content := by simpa using List.find?_some hf
      simp [beforeEnd?_append hclose, htrim, hsource kind hk]

/-- The source of a tag is the content that makes it between marks, by the definition. -/
theorem source_of_ofContent? {content : List Char} {tag : Tag}
    (h : ofContent? content = some tag)
    : tag.source = marked content := by
  obtain ⟨kind, -, rfl⟩ := Option.map_eq_some_iff.mp h
  rfl

theorem IsWritten.read? {tag : Tag} (h : tag.IsWritten) (rest : List Char)
    : Tag.read? (tag.source ++ rest) = some tag := by
  obtain ⟨content, hp, hc⟩ := h
  rw [source_of_ofContent? hc, read?_marked hp, hc]

/-- The tag with one blank around its keyword and around its argument, if it has one. -/
def spaced (kind : TagKind) (argument : List Char) : Tag :=
  ⟨kind, argument,
    marked (' ' :: (kind.keyword
      ++ if argument.isEmpty then [' '] else ' ' :: (argument ++ [' '])))⟩

/-- Every trimmed argument on one line without braces has a written tag of every kind: the
blank behind the keyword ends the first word, and the blanks around the argument are trimmed.
-/
theorem isWritten_spaced (kind : TagKind) {argument : List Char}
    (hp : isPlainLine argument = true) (ht : Text.trim argument = argument)
    : (spaced kind argument).IsWritten := by
  have hkey : isPlainLine kind.keyword = true := by cases kind <;> decide
  have hword : kind.keyword.takeWhile Text.isWordChar = kind.keyword
      ∧ kind.keyword.dropWhile Text.isWordChar = [] := by cases kind <;> decide
  have hfind : TagKind.all.find? (fun other => other.keyword = kind.keyword) = some kind := by
    cases kind <;> decide
  have hmake : ∀ rest, Text.trim (' ' :: rest) = argument
      → ofContent? (' ' :: (kind.keyword ++ ' ' :: rest))
        = some ⟨kind, argument, marked (' ' :: (kind.keyword ++ ' ' :: rest))⟩ := by
    intro rest hr
    have hdrop : (' ' :: (kind.keyword ++ ' ' :: rest)).dropWhile Text.isBlank
        = kind.keyword ++ ' ' :: rest := by
      cases kind <;> rfl
    have hspace : Text.isWordChar ' ' = false := by decide
    rw [ofContent?, firstWord, behindFirstWord, hdrop, takeWhile_append_of_fail hspace,
      dropWhile_append_of_fail hspace, hword.1, hword.2, hfind, List.nil_append, hr]
    rfl
  cases argument with
  | nil =>
      refine ⟨' ' :: (kind.keyword ++ [' ']), ?_, hmake [] rfl⟩
      cases kind <;> decide
  | cons c argument =>
      refine ⟨' ' :: (kind.keyword ++ ' ' :: (c :: argument ++ [' '])), ?_, hmake _ ?_⟩
      · simp only [isPlainLine, List.all_cons, List.all_append, Bool.and_eq_true] at hkey hp ⊢
        exact ⟨by decide, hkey, by decide, ⟨hp, by decide⟩⟩
      · exact (Text.trim_between_blanks (by decide) (by decide) _).trans ht

-----------------------------------------------------------------------------------------
-- The scan for tags
-----------------------------------------------------------------------------------------

/-- The text of a content between marks is an opening brace before an inert text without
further opening braces, since the content has none.
-/
theorem isInert_marked_tail {content : List Char} (h : isPlainLine content = true)
    : isInert ('%' :: (content ++ ['%', '\x7d'])) = true := by
  apply isInert_of_not_mem
  simp [(isPlainLine_iff.mp h).2.1]

end Tag

namespace Piece

/-- A tag in front of a text is a piece of its own. -/
theorem scan_append_of_read? {tag : Tag} (hne : tag.source ≠ []) (rest : List Char)
    (h : Tag.read? (tag.source ++ rest) = some tag)
    : scan (tag.source ++ rest) = .tag tag :: scan rest := by
  have hr : reader.read? (reader.source (.tag tag) ++ rest) = some (.tag tag) :=
    Option.map_eq_some_iff.mpr ⟨tag, h, rfl⟩
  exact Text.TokenReader.scan_append_of_read? hne rest hr

/-- A plain content between marks is the tag that it makes, or characters if it makes none.
-/
theorem scan_marked {content : List Char} (h : isPlainLine content = true)
    (rest : List Char)
    : scan (Tag.marked content ++ rest)
      = (match Tag.ofContent? content with
          | some found => [.tag found]
          | none => (Tag.marked content).map .char)
        ++ scan rest := by
  have hr := Tag.read?_marked h rest
  cases hc : Tag.ofContent? content with
  | some found =>
      rw [hc, ← Tag.source_of_ofContent? hc] at hr
      rw [← Tag.source_of_ofContent? hc]
      refine scan_append_of_read? ?_ rest hr
      simp [Tag.source_of_ofContent? hc, Tag.marked]
  | none =>
      have ht := scan_append_of_isInert (Tag.isInert_marked_tail h) rest
      simp only [Tag.marked, List.cons_append] at hr ht ⊢
      rw [scan_cons_of_read?_eq_none (hr.trans hc), ht]
      rfl

theorem scan_source {tag : Tag} (h : tag.IsWritten) (rest : List Char)
    : scan (tag.source ++ rest) = .tag tag :: scan rest := by
  have hr := h.read? rest
  refine scan_append_of_read? ?_ rest hr
  intro he
  obtain ⟨content, -, hc⟩ := h
  rw [Tag.source_of_ofContent? hc] at he
  simp [Tag.marked] at he

/-- No tag starts in double braces around a plain line that does not start with a percent
sign: the first brace stands before a brace, and the second before no mark.
-/
theorem scan_braced {inside : List Char} (h : isPlainLine inside = true)
    (hh : inside.head? ≠ some '%') (rest : List Char)
    : scan ((Fragment.braced inside).source ++ rest)
      = (Fragment.braced inside).source.map .char ++ scan rest := by
  have ho : '\x7b' ∉ inside ++ ['\x7d', '\x7d'] := by simp [(isPlainLine_iff.mp h).2.1]
  have hi : isInert ('\x7b' :: (inside ++ ['\x7d', '\x7d'])) = true := by
    cases inside with
    | nil => decide
    | cons c inside =>
        have hc : c ≠ '%' := by simpa using hh
        have hb : c ≠ '\x7b' := by
          rintro rfl
          simp at ho
        have ht := isInert_of_not_mem ho
        rw [List.cons_append] at ht ⊢
        simp [isInert, hb, hc, ht]
  have hs := scan_append_of_isInert hi rest
  simp only [Fragment.source, List.cons_append] at hs ⊢
  rw [scan_cons_of_read?_eq_none (by rfl), hs]
  rfl

end Piece

namespace Fragment

-----------------------------------------------------------------------------------------
-- The scan for interpolations
-----------------------------------------------------------------------------------------

/-- A text on one line without two closing braces, counting the first behind it, ends at the
closing braces behind it, by induction on the text.
-/
theorem inside?_append_of_not_infix {inside : List Char} (hn : '\n' ∉ inside)
    (hc : ¬ ['\x7d', '\x7d'] <:+: inside ++ ['\x7d']) (rest : List Char)
    : inside? (inside ++ '\x7d' :: '\x7d' :: rest) = some inside := by
  induction inside with
  | nil => rfl
  | cons c inside ih =>
      simp only [List.mem_cons, not_or] at hn
      have hi := ih hn.2 fun h => hc (h.trans (List.suffix_cons c _).isInfix)
      rw [List.cons_append, inside?, if_neg (Ne.symm hn.1), hi]
      · rfl
      · rintro after rfl he
        refine hc (List.IsPrefix.isInfix ?_)
        cases inside with
        | nil => exact List.prefix_rfl
        | cons d inside =>
            obtain ⟨rfl, -⟩ := List.cons.inj he
            exact ⟨inside ++ ['\x7d'], rfl⟩

theorem inside?_append {inside : List Char} (h : isPlainLine inside = true)
    (rest : List Char)
    : inside? (inside ++ '\x7d' :: '\x7d' :: rest) = some inside := by
  obtain ⟨hn, -, hb⟩ := isPlainLine_iff.mp h
  refine inside?_append_of_not_infix hn (fun hc => ?_) rest
  have hcount := hc.sublist.count_le '\x7d'
  simp [List.count_eq_zero_of_not_mem hb] at hcount

/-- Double braces around what is read inside them are a fragment of their own, by one step of
the scanner.
-/
theorem scan_braced_of_inside? {inside rest : List Char}
    (h : inside? (inside ++ '\x7d' :: '\x7d' :: rest) = some inside)
    : scan ((braced inside).source ++ rest) = .braced inside :: scan rest := by
  have hr : read? ((braced inside).source ++ rest) = some inside := by
    simpa [source, read?] using h
  have hm : reader.read? (reader.source (.braced inside) ++ rest) = some (.braced inside) :=
    Option.map_eq_some_iff.mpr ⟨inside, hr, rfl⟩
  exact Text.TokenReader.scan_append_of_read? (List.cons_ne_nil _ _) rest hm

theorem scan_braced {inside : List Char} (h : isPlainLine inside = true)
    (rest : List Char)
    : scan ((braced inside).source ++ rest) = .braced inside :: scan rest :=
  scan_braced_of_inside? (inside?_append h rest)

/-- A plain content between the marks of a tag holds no interpolation, so it is cut into its
characters.
-/
theorem scan_marked {content : List Char} (h : isPlainLine content = true)
    (rest : List Char)
    : scan (Tag.marked content ++ rest) = (Tag.marked content).map .char ++ scan rest := by
  have ht := scan_append_of_isInert (Tag.isInert_marked_tail h) rest
  simp only [Tag.marked, List.cons_append] at ht ⊢
  rw [scan_cons_of_read?_eq_none (read?_brace_of_ne (by decide) _), ht]
  rfl

theorem scan_source {tag : Tag} (h : tag.IsWritten) (rest : List Char)
    : scan (tag.source ++ rest) = tag.source.map .char ++ scan rest := by
  obtain ⟨content, hp, hc⟩ := h
  rw [Tag.source_of_ofContent? hc, scan_marked hp]

end Fragment

end ReportTemplate.Template
