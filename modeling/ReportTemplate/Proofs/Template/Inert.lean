import ReportTemplate.Proofs.Text.TokenReader
import ReportTemplate.Template.Interpolation
import ReportTemplate.Template.Tag

/-! Inert texts: no tag and no interpolation starts in them, whatever follows.
Both scanners pass over an inert text character by character, so a text may be put in front of
another without a mark appearing where the two meet.
-/

namespace ReportTemplate.Template

-----------------------------------------------------------------------------------------
-- Inert texts
-----------------------------------------------------------------------------------------

/-- Holds for texts each of whose opening braces stands before a character of the text that is
neither an opening brace nor a percent sign.
-/
def isInert : List Char → Bool
  | [] => true
  | [c] => c != '\x7b'
  | c :: d :: rest => !(c == '\x7b' && (d == '\x7b' || d == '%')) && isInert (d :: rest)

/-- A text without opening braces is inert, by induction on the text. -/
theorem isInert_of_not_mem {text : List Char} (h : '\x7b' ∉ text)
    : isInert text = true := by
  induction text with
  | nil => rfl
  | cons c rest ih =>
      simp only [List.mem_cons, not_or] at h
      have hc : (c == '\x7b') = false := beq_false_of_ne (Ne.symm h.1)
      cases rest with
      | nil => simp [isInert, bne, hc]
      | cons d rest => simp [isInert, hc, ih h.2]

theorem isInert_tail {c : Char} {rest : List Char} (h : isInert (c :: rest) = true)
    : isInert rest = true := by
  cases rest with
  | nil => rfl
  | cons d rest =>
      simp only [isInert, Bool.and_eq_true] at h
      exact h.2

/-- The character behind an opening brace of an inert text starts no mark, by cases on the
length of the text.
-/
theorem isInert_head {rest : List Char} (h : isInert ('\x7b' :: rest) = true)
    : ∃ d after, rest = d :: after ∧ d ≠ '\x7b' ∧ d ≠ '%' := by
  cases rest with
  | nil => simp [isInert] at h
  | cons d after =>
      simp only [isInert, beq_self_eq_true, Bool.true_and, Bool.not_or, Bool.and_eq_true,
        Bool.not_eq_true', beq_eq_false_iff_ne] at h
      exact ⟨d, after, rfl, h.1.1, h.1.2⟩

/-- Holds for readers that find no mark at a character of an inert text, whatever follows. -/
def PassesInert {Token : Type} (reader : Text.TokenReader Token) : Prop :=
  ∀ {c text}, isInert (c :: text) = true → ∀ rest, reader.read? (c :: (text ++ rest)) = none

/-- An inert text is cut into its characters, by induction on the text. -/
theorem PassesInert.scan_append {Token : Type} {reader : Text.TokenReader Token}
    (hr : PassesInert reader) {text : List Char} (h : isInert text = true) (rest : List Char)
    : reader.scan (text ++ rest) = text.map reader.char ++ reader.scan rest := by
  induction text with
  | nil => rfl
  | cons c text ih =>
      rw [List.cons_append, Text.TokenReader.scan_cons_of_read?_eq_none (hr h rest),
        ih (isInert_tail h), List.map_cons, List.cons_append]

namespace Tag

-----------------------------------------------------------------------------------------
-- The scan for tags
-----------------------------------------------------------------------------------------

theorem read?_of_ne {c : Char} (h : c ≠ '\x7b') (rest : List Char)
    : read? (c :: rest) = none := by
  unfold read?
  split
  · next he => exact absurd (List.cons.inj he).1 h
  · rfl

/-- No tag starts at a character of an inert text, by cases on the character. -/
theorem read?_append_of_isInert {c : Char} {text : List Char}
    (h : isInert (c :: text) = true) (rest : List Char)
    : read? (c :: (text ++ rest)) = none := by
  by_cases hc : c = '\x7b'
  · subst hc
    obtain ⟨d, after, rfl, -, hd⟩ := isInert_head h
    unfold read?
    split
    · next he => exact absurd (List.cons.inj (List.cons.inj he).2).1 hd
    · rfl
  · exact read?_of_ne hc _

end Tag

namespace Piece

theorem passesInert_reader : PassesInert reader := fun h rest =>
  Option.map_eq_none_iff.mpr (Tag.read?_append_of_isInert h rest)

theorem scan_cons_of_read?_eq_none {c : Char} {rest : List Char}
    (h : Tag.read? (c :: rest) = none)
    : scan (c :: rest) = .char c :: scan rest :=
  Text.TokenReader.scan_cons_of_read?_eq_none (Option.map_eq_none_iff.mpr h)

theorem scan_append_of_isInert {text : List Char} (h : isInert text = true)
    (rest : List Char)
    : scan (text ++ rest) = text.map .char ++ scan rest :=
  passesInert_reader.scan_append h rest

end Piece

namespace Fragment

-----------------------------------------------------------------------------------------
-- The scan for interpolations
-----------------------------------------------------------------------------------------

theorem read?_of_ne {c : Char} (h : c ≠ '\x7b') (rest : List Char)
    : read? (c :: rest) = none := by
  unfold read?
  split
  · next he => exact absurd (List.cons.inj he).1 h
  · rfl

theorem read?_brace_of_ne {d : Char} (h : d ≠ '\x7b') (rest : List Char)
    : read? ('\x7b' :: d :: rest) = none := by
  unfold read?
  split
  · next he => exact absurd (List.cons.inj (List.cons.inj he).2).1 h
  · rfl

/-- No interpolation starts at a character of an inert text, by cases on the character. -/
theorem read?_append_of_isInert {c : Char} {text : List Char}
    (h : isInert (c :: text) = true) (rest : List Char)
    : read? (c :: (text ++ rest)) = none := by
  by_cases hc : c = '\x7b'
  · subst hc
    obtain ⟨d, after, rfl, hd, -⟩ := isInert_head h
    exact read?_brace_of_ne hd _
  · exact read?_of_ne hc _

theorem passesInert_reader : PassesInert reader := fun h rest =>
  Option.map_eq_none_iff.mpr (read?_append_of_isInert h rest)

theorem scan_cons_of_read?_eq_none {c : Char} {rest : List Char}
    (h : read? (c :: rest) = none)
    : scan (c :: rest) = .char c :: scan rest :=
  Text.TokenReader.scan_cons_of_read?_eq_none (Option.map_eq_none_iff.mpr h)

theorem scan_append_of_isInert {text : List Char} (h : isInert text = true)
    (rest : List Char)
    : scan (text ++ rest) = text.map .char ++ scan rest :=
  passesInert_reader.scan_append h rest

end Fragment

end ReportTemplate.Template
