import Mathlib.Data.List.DropRight
import ReportTemplate.Normalize
import ReportTemplate.Proofs.Text.Blank
import ReportTemplate.Proofs.Text.Split

/-! Tidied text, described line by line.
Trimming a text can go before the collapsing of its breaks, so that collapsing only sees texts
between two lines that are not empty, where it squeezes the runs of empty lines between them.
-/

namespace ReportTemplate

open Text

-----------------------------------------------------------------------------------------
-- Lines of a tidied text
-----------------------------------------------------------------------------------------

namespace Text

def dropEmptyEnds (lines : List (List Char)) : List (List Char) :=
  (lines.dropWhile List.isEmpty).rdropWhile List.isEmpty

/-- Leaves one empty line of every run of empty lines. -/
def squeeze : List (List Char) → List (List Char)
  | [] => []
  | line :: rest =>
      if line = [] ∧ rest.head? = some [] then squeeze rest else line :: squeeze rest

/-- Strips the blanks at the start of the first line. -/
def outdent : List (List Char) → List (List Char)
  | [] => []
  | first :: rest => trimStart first :: rest

/-- The lines of a text without blanks at their ends, without empty lines at both ends of the
text, with one empty line for every run of them, and with a first line that is not indented.
-/
def tidyLines (text : List Char) : List (List Char) :=
  outdent (squeeze (dropEmptyEnds ((splitOn '\n' text).map trimEnd)))

/-- Holds for texts, and for lines, that do not end in a blank. -/
def IsStripped (text : List Char) : Prop :=
  ∀ c ∈ text.getLast?, isBlank c = false

/-- Holds for texts without a blank at the end of a line or of the text or at its start, and
without three line feeds in a row.
-/
structure IsTidy (text : List Char) : Prop where
  lines : ∀ line ∈ splitOn '\n' text, IsStripped line
  breaks : ¬ ['\n', '\n', '\n'] <:+: text
  first : ∀ c ∈ text.head?, isBlank c = false
  last : IsStripped text

end Text

-----------------------------------------------------------------------------------------
-- Collapsing and trimming
-----------------------------------------------------------------------------------------

theorem collapseBreaks_sublist (count : Nat) (text : List Char)
    : (collapseBreaks count text).Sublist text := by
  induction text generalizing count with
  | nil => rw [collapseBreaks]
  | cons c rest ih =>
      rw [collapseBreaks]
      split
      · split
        · exact (ih _).cons_cons c
        · exact (ih _).cons c
      · exact (ih _).cons_cons c

/-- Behind a text collapsing goes on with some count, by induction on the text. -/
theorem exists_collapseBreaks_append (count : Nat) (text rest : List Char)
    : ∃ next, collapseBreaks count (text ++ rest)
        = collapseBreaks count text ++ collapseBreaks next rest := by
  induction text generalizing count with
  | nil => exact ⟨count, rfl⟩
  | cons c text ih =>
      rw [List.cons_append, collapseBreaks, collapseBreaks]
      split
      · split
        · obtain ⟨next, hn⟩ := ih (count + 1)
          exact ⟨next, by rw [hn, List.cons_append]⟩
        · exact ih count
      · obtain ⟨next, hn⟩ := ih 0
        exact ⟨next, by rw [hn, List.cons_append]⟩

/-- Collapsing keeps the end of a text that does not end in a blank. -/
theorem isStripped_collapseBreaks {text : List Char} (h : IsStripped text) (count : Nat)
    : IsStripped (collapseBreaks count text) := by
  rcases List.eq_nil_or_concat text with rfl | ⟨front, c, rfl⟩
  · exact h
  · have hc : isBlank c = false := h c (by simp)
    have hne : c ≠ '\n' := by
      rintro rfl
      exact absurd hc (by decide)
    obtain ⟨next, hn⟩ := exists_collapseBreaks_append count front [c]
    rw [List.concat_eq_append, hn]
    simpa [IsStripped, collapseBreaks, hne] using hc

/-- Blanks at the start are trimmed after collapsing as before it, by induction on the text. -/
theorem trimStart_collapseBreaks (count : Nat) (text : List Char)
    : trimStart (collapseBreaks count text) = collapseBreaks 0 (trimStart text) := by
  have hfeed : isBlank '\n' = true := rfl
  induction text generalizing count with
  | nil => rfl
  | cons c rest ih =>
      cases hc : isBlank c with
      | true =>
          have hcons : ∀ others, trimStart (c :: others) = trimStart others :=
            fun others => List.dropWhile_cons_of_pos hc
          rw [collapseBreaks, hcons rest]
          split
          · split
            · rw [hcons, ih]
            · exact ih count
          · rw [hcons, ih]
      | false =>
          have hne : c ≠ '\n' := by
            rintro rfl
            simp [hfeed] at hc
          have hcons : ∀ others, trimStart (c :: others) = c :: others :=
            fun others => List.dropWhile_cons_of_neg (by simp [hc])
          rw [collapseBreaks, if_neg hne, hcons, hcons, collapseBreaks, if_neg hne]

/-- Blanks at the end are trimmed after collapsing as before it: what they become is blank. -/
theorem trimEnd_collapseBreaks (count : Nat) (text : List Char)
    : trimEnd (collapseBreaks count text) = collapseBreaks count (trimEnd text) := by
  obtain ⟨blanks, hb, ht⟩ := exists_trimEnd text
  obtain ⟨next, hn⟩ := exists_collapseBreaks_append count (trimEnd text) blanks
  have hblanks : (collapseBreaks next blanks).all isBlank = true :=
    List.all_eq_true.mpr fun c hc =>
      List.all_eq_true.mp hb c ((collapseBreaks_sublist next blanks).subset hc)
  have hend : IsStripped (trimEnd text) := getLast?_trimEnd
  have hlast := isStripped_collapseBreaks hend count
  rw [ht] at hn
  rw [hn, trimEnd_append hblanks hlast]

theorem trim_collapseBreaks (text : List Char)
    : trim (collapseBreaks 0 text) = collapseBreaks 0 (trim text) := by
  rw [trim, trimStart_collapseBreaks, trimEnd_collapseBreaks, trim]

-----------------------------------------------------------------------------------------
-- Trimming lines that are joined
-----------------------------------------------------------------------------------------

namespace Text

theorem join_concat {separator : List Char} {pieces : List (List Char)} (h : pieces ≠ [])
    (last : List Char)
    : join separator (pieces ++ [last]) = join separator pieces ++ (separator ++ last) := by
  obtain ⟨first, others, rfl⟩ := List.exists_cons_of_ne_nil h
  simp [join]

/-- Trimming the start drops the empty lines there and strips the line behind them, by induction
on the lines.
-/
theorem trimStart_join {lines : List (List Char)} (h : ∀ line ∈ lines, IsStripped line)
    : trimStart (join ['\n'] lines)
      = join ['\n'] (outdent (lines.dropWhile List.isEmpty)) := by
  induction lines with
  | nil => rfl
  | cons line rest ih =>
      obtain ⟨hline, hrest⟩ := List.forall_mem_cons.mp h
      cases line with
      | nil =>
          rw [List.dropWhile_cons_of_pos rfl]
          cases rest with
          | nil => rfl
          | cons next rest => exact ih hrest
      | cons c line =>
          rw [List.dropWhile_cons_of_neg (by simp), outdent, join, join]
          exact trimStart_append_of_getLast? (by simp) hline _

/-- Trimming the end drops the empty lines there, by induction on the lines from the last one. -/
theorem trimEnd_join {lines : List (List Char)} (h : ∀ line ∈ lines, IsStripped line)
    : trimEnd (join ['\n'] lines) = join ['\n'] (lines.rdropWhile List.isEmpty) := by
  induction lines using List.reverseRecOn with
  | nil => rfl
  | append_singleton lines last ih =>
      obtain ⟨hlines, hlast⟩ := List.forall_mem_append.mp h
      rw [List.rdropWhile_concat]
      cases last with
      | nil =>
          rw [if_pos List.isEmpty_nil, ← ih hlines]
          by_cases hne : lines = []
          · subst hne
            rfl
          · rw [join_concat hne, trimEnd_append_blanks rfl]
      | cons c last =>
          have hend : IsStripped (join ['\n'] (lines ++ [c :: last])) := by
            have hl := hlast (c :: last) (by simp)
            by_cases hne : lines = []
            · subst hne
              simpa [join] using hl
            · rw [join_concat hne]
              simpa [IsStripped, List.getLast?_append] using hl
          rw [if_neg (by simp)]
          exact trimEnd_eq_self hend

end Text

-----------------------------------------------------------------------------------------
-- Collapsing breaks between lines
-----------------------------------------------------------------------------------------

/-- The text of lines that follow another line, each behind its line feed. -/
def furtherLines (lines : List (List Char)) : List Char :=
  lines.flatMap (['\n'] ++ ·)

theorem furtherLines_cons (line : List Char) (rest : List (List Char))
    : furtherLines (line :: rest) = '\n' :: (line ++ furtherLines rest) :=
  rfl

theorem join_cons (first : List Char) (rest : List (List Char))
    : join ['\n'] (first :: rest) = first ++ furtherLines rest :=
  rfl

theorem collapseBreaks_zero_feed (rest : List Char)
    : collapseBreaks 0 ('\n' :: rest) = '\n' :: collapseBreaks 1 rest :=
  rfl

theorem collapseBreaks_one_feed (rest : List Char)
    : collapseBreaks 1 ('\n' :: rest) = '\n' :: collapseBreaks 2 rest :=
  rfl

theorem collapseBreaks_two_feed (rest : List Char)
    : collapseBreaks 2 ('\n' :: rest) = collapseBreaks 2 rest :=
  rfl

/-- A line is kept, and behind it the breaks are counted anew, by induction on the line. -/
theorem collapseBreaks_line (count : Nat) {line : List Char} (hne : line ≠ [])
    (hl : '\n' ∉ line) (rest : List Char)
    : collapseBreaks count (line ++ rest) = line ++ collapseBreaks 0 rest := by
  induction line generalizing count with
  | nil => exact absurd rfl hne
  | cons c line ih =>
      have hc : c ≠ '\n' := (List.ne_of_not_mem_cons hl).symm
      rw [List.cons_append, collapseBreaks, if_neg hc, List.cons_append]
      by_cases h : line = []
      · rw [h, List.nil_append, List.nil_append]
      · rw [ih 0 h (List.not_mem_of_not_mem_cons hl)]

/-- Behind an empty line a further one is dropped, and any other line keeps its break. -/
theorem collapseBreaks_one_furtherLines {lines : List (List Char)} (hne : lines ≠ [])
    (hn : ∀ line ∈ lines, '\n' ∉ line) (hl : lines.getLast? ≠ some [])
    : '\n' :: collapseBreaks 1 (furtherLines lines)
      = if lines.head? = some [] then collapseBreaks 0 (furtherLines lines)
        else '\n' :: collapseBreaks 0 (furtherLines lines) := by
  obtain ⟨next, others, rfl⟩ := List.exists_cons_of_ne_nil hne
  rw [furtherLines_cons, collapseBreaks_zero_feed, collapseBreaks_one_feed]
  cases next with
  | nil =>
      cases others with
      | nil => exact absurd rfl hl
      | cons third others =>
          rw [if_pos List.head?_cons, List.nil_append, furtherLines_cons,
            collapseBreaks_one_feed, collapseBreaks_two_feed]
  | cons c next =>
      have hnext : '\n' ∉ c :: next := hn _ (by simp)
      rw [if_neg (by simp), collapseBreaks_line _ (by simp) hnext,
        collapseBreaks_line _ (by simp) hnext]

/-- Of further lines, the last of which is not empty, collapsing squeezes the runs of empty ones,
by induction on the lines.
-/
theorem collapseBreaks_furtherLines {lines : List (List Char)}
    (hn : ∀ line ∈ lines, '\n' ∉ line) (hl : lines.getLast? ≠ some [])
    : collapseBreaks 0 (furtherLines lines) = furtherLines (squeeze lines) := by
  induction lines with
  | nil => rfl
  | cons line rest ih =>
      obtain ⟨hline, hrest⟩ := List.forall_mem_cons.mp hn
      have hlast : rest.getLast? ≠ some [] := by
        rw [List.getLast?_cons] at hl
        intro he
        simp [he] at hl
      have hi := ih hrest hlast
      rw [squeeze, furtherLines_cons, collapseBreaks_zero_feed]
      cases line with
      | nil =>
          have hne : rest ≠ [] := by
            rintro rfl
            exact hl rfl
          rw [List.nil_append, collapseBreaks_one_furtherLines hne hrest hlast, hi]
          by_cases hempty : rest.head? = some []
          · rw [if_pos hempty, if_pos ⟨rfl, hempty⟩]
          · rw [if_neg hempty, if_neg (by simp [hempty]), furtherLines_cons, List.nil_append]
      | cons c line =>
          rw [if_neg (by simp), collapseBreaks_line _ (by simp) hline, hi, furtherLines_cons]

-----------------------------------------------------------------------------------------
-- The lines of the result
-----------------------------------------------------------------------------------------

/-- Holds for lines without a blank at their end. -/
structure IsStrippedLine (line : List Char) : Prop where
  stripped : IsStripped line
  noFeed : '\n' ∉ line

theorem IsStrippedLine.trimStart {line : List Char} (h : IsStrippedLine line)
    : IsStrippedLine (trimStart line) where
  stripped := getLast?_trimStart h.stripped
  noFeed hm := h.noFeed ((List.dropWhile_suffix _).subset hm)

/-- The lines of a text without the blanks at their ends. -/
def strippedLines (text : List Char) : List (List Char) :=
  (splitOn '\n' text).map trimEnd

theorem isStrippedLine_of_mem {text line : List Char} (h : line ∈ strippedLines text)
    : IsStrippedLine line := by
  obtain ⟨piece, hp, rfl⟩ := List.mem_map.mp h
  refine ⟨getLast?_trimEnd, fun hm => ?_⟩
  obtain ⟨blanks, -, ht⟩ := exists_trimEnd piece
  have hmem : '\n' ∈ piece := ht ▸ List.mem_append_left blanks hm
  exact absurd (mem_of_mem_cut hp '\n' hmem).2 (by simp)

/-- An element that is not dropped keeps what is in front of it, by what dropping from the end
does to the rest.
-/
theorem rdropWhile_cons_of_neg {α : Type} {p : α → Bool} {a : α} (h : ¬ p a)
    (rest : List α)
    : (a :: rest).rdropWhile p = a :: rest.rdropWhile p := by
  rw [List.rdropWhile, List.reverse_cons, List.dropWhile_append, List.rdropWhile]
  split
  · next he => simp [List.isEmpty_iff.mp he, h]
  · simp

theorem getLast?_rdropWhile_isEmpty (lines : List (List Char))
    : (lines.rdropWhile List.isEmpty).getLast? ≠ some [] := by
  intro h
  have hne : lines.rdropWhile List.isEmpty ≠ [] := by
    intro he
    simp [he] at h
  have hl := List.rdropWhile_last_not List.isEmpty lines hne
  rw [List.getLast?_eq_some_getLast hne, Option.some.injEq] at h
  exact hl (by rw [h, List.isEmpty_nil])

/-- Trimming goes in front of collapsing, and leaves a first and a last line that are not empty. -/
theorem normalize_eq_join_tidyLines (text : List Char)
    : normalize text = join ['\n'] (tidyLines text) := by
  have hlines : ∀ line ∈ (strippedLines text).dropWhile List.isEmpty, IsStrippedLine line :=
    fun line hm => isStrippedLine_of_mem ((List.dropWhile_suffix _).subset hm)
  have hfirst := List.head?_dropWhile_not List.isEmpty (strippedLines text)
  rw [normalize, trimLines, trim_collapseBreaks, trim, ← strippedLines,
    trimStart_join fun line hm => (isStrippedLine_of_mem hm).stripped, tidyLines,
    ← strippedLines, dropEmptyEnds]
  cases hd : (strippedLines text).dropWhile List.isEmpty with
  | nil => rfl
  | cons first rest =>
      rw [hd] at hlines hfirst
      have hempty : ¬ first.isEmpty = true := by simpa using hfirst
      have hne : first ≠ [] := by simpa using hempty
      obtain ⟨hline, hrest⟩ := List.forall_mem_cons.mp hlines
      have hstart : trimStart first ≠ [] := trimStart_ne_nil hne hline.stripped
      have hstripped : ∀ line ∈ trimStart first :: rest, IsStripped line :=
        List.forall_mem_cons.mpr
          ⟨hline.trimStart.stripped, fun line hm => (hrest line hm).stripped⟩
      -- Stripping leaves text in the first line, so breaks are counted from zero behind it.
      have hsub := (List.rdropWhile_prefix List.isEmpty (l := rest)).subset
      have hbreaks := collapseBreaks_furtherLines
        (fun line hm => (hrest line (hsub hm)).noFeed) (getLast?_rdropWhile_isEmpty rest)
      rw [outdent, trimEnd_join hstripped, rdropWhile_cons_of_neg (by simpa using hstart),
        rdropWhile_cons_of_neg hempty, squeeze, if_neg (by simp [hne]), outdent, join_cons,
        join_cons, collapseBreaks_line 0 hstart hline.trimStart.noFeed, hbreaks]

-----------------------------------------------------------------------------------------
-- Tidy texts
-----------------------------------------------------------------------------------------

theorem squeeze_sublist (lines : List (List Char)) : (squeeze lines).Sublist lines := by
  induction lines with
  | nil => rw [squeeze]
  | cons line rest ih =>
      rw [squeeze]
      split
      · exact ih.cons line
      · exact ih.cons_cons line

theorem isStrippedLine_of_mem_tidyLines {text line : List Char} (h : line ∈ tidyLines text)
    : IsStrippedLine line := by
  have hkept : ∀ other ∈ squeeze (dropEmptyEnds (strippedLines text)),
      IsStrippedLine other := by
    intro other hm
    have hd := (squeeze_sublist _).subset hm
    have hs := (List.dropWhile_suffix _).subset ((List.rdropWhile_prefix _ _).subset hd)
    exact isStrippedLine_of_mem hs
  rw [tidyLines, ← strippedLines] at h
  cases hl : squeeze (dropEmptyEnds (strippedLines text)) with
  | nil => simp [hl, outdent] at h
  | cons first rest =>
      rw [hl] at hkept h
      rcases List.mem_cons.mp h with rfl | hm
      · exact (hkept first (by simp)).trimStart
      · exact hkept line (List.mem_cons_of_mem first hm)

/-- Collapsing leaves no three breaks in a row, those in front of the text counted, by induction
on the text.
-/
theorem not_infix_collapseBreaks {count : Nat} (h : count ≤ 2) (text : List Char)
    : ¬ ['\n', '\n', '\n'] <:+: List.replicate count '\n' ++ collapseBreaks count text := by
  induction text generalizing count with
  | nil =>
      intro hi
      have hl := hi.length_le
      simp [collapseBreaks] at hl
      omega
  | cons c rest ih =>
      rw [collapseBreaks]
      split
      · next hc =>
          subst hc
          split
          · next hcount =>
              have hi := @ih (count + 1) (by omega)
              rwa [List.replicate_succ', List.append_assoc, List.singleton_append] at hi
          · exact ih h
      · next hc =>
          have hi : ¬ ['\n', '\n', '\n'] <:+: collapseBreaks 0 rest := @ih 0 (by omega)
          have hne := Ne.symm hc
          match count with
          | 0 => simp [List.infix_cons_iff, hne, hi]
          | 1 => simp [List.infix_cons_iff, List.replicate, hne, hi]
          | 2 => simp [List.infix_cons_iff, List.replicate, hne, hi]

/-- Collapsing keeps a text without three breaks in a row, by induction on the text. -/
theorem collapseBreaks_of_not_infix {count : Nat} (h : count ≤ 2) {text : List Char}
    (hi : ¬ ['\n', '\n', '\n'] <:+: List.replicate count '\n' ++ text)
    : collapseBreaks count text = text := by
  induction text generalizing count with
  | nil => rfl
  | cons c rest ih =>
      rw [collapseBreaks]
      split
      · next hc =>
          subst hc
          split
          · next hcount =>
              rw [@ih (count + 1) (by omega)]
              rwa [List.replicate_succ', List.append_assoc, List.singleton_append]
          · next hcount =>
              obtain rfl : count = 2 := by omega
              exact absurd ⟨[], rest, by simp [List.replicate]⟩ hi
      · rw [@ih 0 (by omega)]
        intro hr
        refine hi (hr.trans (List.IsSuffix.isInfix ⟨List.replicate count '\n' ++ [c], ?_⟩))
        simp

theorem isTidy_normalize (text : List Char) : IsTidy (normalize text) where
  lines := by
    rw [normalize_eq_join_tidyLines]
    have hlines : ∀ line ∈ tidyLines text, IsStrippedLine line :=
      fun line => isStrippedLine_of_mem_tidyLines
    cases hl : tidyLines text with
    | nil => simp [join, splitOn, cut, IsStripped]
    | cons first rest =>
        rw [hl] at hlines
        rw [splitOn_join fun line hm => (hlines line hm).noFeed]
        exact fun line hm => (hlines line hm).stripped
  breaks := by
    rw [normalize, trim_collapseBreaks]
    exact not_infix_collapseBreaks (Nat.zero_le 2) _
  first := head?_trim
  last := getLast?_trimEnd

/-- A tidy text is kept by every step. -/
theorem normalize_of_isTidy {text : List Char} (h : IsTidy text) : normalize text = text := by
  have hlines : (splitOn '\n' text).map trimEnd = splitOn '\n' text := by
    rw [List.map_congr_left fun line hm => trimEnd_eq_self (h.lines line hm), List.map_id']
  have hbreaks : collapseBreaks 0 text = text :=
    collapseBreaks_of_not_infix (Nat.zero_le 2) h.breaks
  rw [normalize, trimLines, hlines, join_splitOn, hbreaks, trim, trimStart_eq_self h.first,
    trimEnd_eq_self h.last]

-----------------------------------------------------------------------------------------
-- Characters that are not blank
-----------------------------------------------------------------------------------------

/-- The characters of a text that are not blank. -/
def inked (text : List Char) : List Char :=
  text.filter fun c => !isBlank c

theorem inked_append (text more : List Char) : inked (text ++ more) = inked text ++ inked more :=
  List.filter_append text more

theorem inked_of_blanks {blanks : List Char} (hb : blanks.all isBlank = true)
    : inked blanks = [] := by
  rw [inked, List.filter_eq_nil_iff]
  intro c hc
  simp [List.all_eq_true.mp hb c hc]

theorem inked_trimStart (text : List Char) : inked (trimStart text) = inked text := by
  obtain ⟨blanks, hb, ht⟩ := exists_trimStart text
  rw [← congrArg inked ht, inked_append, inked_of_blanks hb, List.nil_append]

theorem inked_trimEnd (text : List Char) : inked (trimEnd text) = inked text := by
  obtain ⟨blanks, hb, ht⟩ := exists_trimEnd text
  rw [← congrArg inked ht, inked_append, inked_of_blanks hb, List.append_nil]

/-- Collapsing drops line feeds only, by induction on the text. -/
theorem inked_collapseBreaks (count : Nat) (text : List Char)
    : inked (collapseBreaks count text) = inked text := by
  induction text generalizing count with
  | nil => rfl
  | cons c rest ih =>
      have hcons : ∀ next, inked (c :: collapseBreaks next rest) = inked (c :: rest) := by
        intro next
        have hi := ih next
        unfold inked at hi ⊢
        rw [List.filter_cons, List.filter_cons, hi]
      rw [collapseBreaks]
      split
      · next hc =>
          split
          · exact hcons (count + 1)
          · subst hc
            exact ih count
      · exact hcons 0

/-- The line feeds between lines are blanks. -/
theorem inked_join (lines : List (List Char))
    : inked (join ['\n'] lines) = lines.flatMap inked := by
  cases lines with
  | nil => rfl
  | cons first rest =>
      have hfurther : inked (furtherLines rest) = rest.flatMap inked :=
        List.filter_flatMap
      rw [join_cons, inked_append, hfurther, List.flatMap_cons]

theorem inked_trimLines (text : List Char) : inked (trimLines text) = inked text := by
  have hlines : ((splitOn '\n' text).map trimEnd).flatMap inked
      = (splitOn '\n' text).flatMap inked := by
    rw [List.flatMap_map]
    exact List.flatMap_congr fun line _ => inked_trimEnd line
  rw [trimLines, inked_join, hlines, ← inked_join, join_splitOn]

theorem inked_normalize (text : List Char) : inked (normalize text) = inked text := by
  rw [normalize, trim, inked_trimEnd, inked_trimStart, inked_collapseBreaks, inked_trimLines]

/-- Tidying a text gives its tidy lines, which make a tidy text. It keeps the tidy texts and no
others, so it changes nothing when it is repeated, and it keeps every character that is not
blank.
-/
theorem normalize_tidies (text : List Char)
    : normalize text = join ['\n'] (tidyLines text)
      ∧ (normalize text = text ↔ IsTidy text)
      ∧ IsTidy (normalize text)
      ∧ normalize (normalize text) = normalize text
      ∧ inked (normalize text) = inked text := by
  have htidy := isTidy_normalize text
  exact ⟨normalize_eq_join_tidyLines text, ⟨fun h => h ▸ htidy, normalize_of_isTidy⟩, htidy,
    normalize_of_isTidy htidy, inked_normalize text⟩

/-- Blanks that are not spaces count as well, and inside a line they stay. -/
example
    : normalize " \u00a0\n\t a\u2003b\x0c\r\n \n\n\t\n  c\u2028\n\n".toList
      = "a\u2003b\n\n  c".toList := by
  decide

end ReportTemplate
