import Mathlib.Data.List.TakeWhile
import ReportTemplate.Text.Blank

/-! Trimming a text between blanks. -/

namespace ReportTemplate.Text

/-- The code points of the blanks. -/
def blankCodes : List Nat := [
  0x9, 0xA, 0xB, 0xC, 0xD, 0x20, 0x85, 0xA0, 0x1680, 0x2000, 0x2001, 0x2002, 0x2003, 0x2004,
  0x2005, 0x2006, 0x2007, 0x2008, 0x2009, 0x200A, 0x2028, 0x2029, 0x202F, 0x205F, 0x3000]

/-- A test that no blank passes is passed by other characters only, by the list of blanks. -/
theorem isBlank_eq_false_of_test (test : Char → Bool)
    (hall : ∀ code ∈ blankCodes, test (Char.ofNat code) = false) {c : Char}
    (h : test c = true)
    : isBlank c = false := by
  cases hb : isBlank c with
  | false => rfl
  | true =>
      have hm : c.toNat ∈ blankCodes := by
        simp only [isBlank, Bool.or_eq_true, Bool.and_eq_true, decide_eq_true_eq,
          beq_iff_eq] at hb
        simp only [blankCodes, List.mem_cons, List.not_mem_nil, or_false]
        omega
      have hf := hall c.toNat hm
      rw [Char.ofNat_toNat, h] at hf
      exact absurd hf (by simp)

theorem trimStart_append {blanks text : List Char} (hb : blanks.all isBlank = true)
    (ht : ∀ c ∈ text.head?, isBlank c = false)
    : trimStart (blanks ++ text) = text := by
  rw [trimStart, List.dropWhile_append_of_pos (List.all_eq_true.mp hb)]
  cases text with
  | nil => rfl
  | cons c text => exact List.dropWhile_cons_of_neg (by simp [ht c rfl])

theorem trimEnd_append {blanks text : List Char} (hb : blanks.all isBlank = true)
    (ht : ∀ c ∈ text.getLast?, isBlank c = false)
    : trimEnd (text ++ blanks) = text := by
  have hs := @trimStart_append blanks.reverse text.reverse (by simpa using hb)
    (by simpa [List.head?_reverse] using ht)
  rw [trimEnd, List.reverse_append, ← trimStart, hs, List.reverse_reverse]

/-- A text without blanks at its ends is what trimming leaves of it between blanks. -/
theorem trim_append {before text after : List Char} (hb : before.all isBlank = true)
    (ha : after.all isBlank = true) (hne : text ≠ [])
    (hf : ∀ c ∈ text.head?, isBlank c = false) (hl : ∀ c ∈ text.getLast?, isBlank c = false)
    : trim (before ++ (text ++ after)) = text := by
  have hhead : ∀ c ∈ (text ++ after).head?, isBlank c = false := by
    obtain ⟨c, rest, rfl⟩ := List.exists_cons_of_ne_nil hne
    exact hf
  rw [trim, trimStart_append hb hhead, trimEnd_append ha hl]

theorem trimStart_eq_self {text : List Char} (h : ∀ c ∈ text.head?, isBlank c = false)
    : trimStart text = text :=
  @trimStart_append [] text rfl h

theorem trimEnd_eq_self {text : List Char} (h : ∀ c ∈ text.getLast?, isBlank c = false)
    : trimEnd text = text := by
  simpa using @trimEnd_append [] text rfl h

-----------------------------------------------------------------------------------------
-- What trimming leaves
-----------------------------------------------------------------------------------------

theorem exists_trimStart (text : List Char)
    : ∃ blanks, blanks.all isBlank = true ∧ blanks ++ trimStart text = text :=
  ⟨text.takeWhile isBlank, List.all_takeWhile, List.takeWhile_append_dropWhile⟩

theorem exists_trimEnd (text : List Char)
    : ∃ blanks, blanks.all isBlank = true ∧ trimEnd text ++ blanks = text := by
  obtain ⟨blanks, hb, ht⟩ := exists_trimStart text.reverse
  refine ⟨blanks.reverse, by simpa using hb, ?_⟩
  rw [trimEnd, ← trimStart, ← List.reverse_append, ht, List.reverse_reverse]

theorem head?_trimStart {text : List Char}
    : ∀ c ∈ (trimStart text).head?, isBlank c = false := by
  have h := List.head?_dropWhile_not isBlank text
  intro c hc
  rw [trimStart, Option.mem_def] at hc
  rwa [hc] at h

theorem getLast?_trimEnd {text : List Char}
    : ∀ c ∈ (trimEnd text).getLast?, isBlank c = false := by
  intro c hc
  rw [trimEnd, List.getLast?_reverse] at hc
  exact head?_trimStart c hc

/-- Trimming the end keeps the start of what is left. -/
theorem head?_trim {text : List Char} : ∀ c ∈ (trim text).head?, isBlank c = false := by
  intro c hc
  obtain ⟨blanks, -, ht⟩ := exists_trimEnd (trimStart text)
  refine @head?_trimStart text c ?_
  rw [← ht, List.head?_append, ← trim, Option.mem_def.mp hc]
  rfl

/-- A text is only shortened in front by trimming its start, so it ends as before. -/
theorem getLast?_trimStart {text : List Char}
    (h : ∀ c ∈ text.getLast?, isBlank c = false)
    : ∀ c ∈ (trimStart text).getLast?, isBlank c = false := by
  intro c hc
  obtain ⟨blanks, -, ht⟩ := exists_trimStart text
  refine h c ?_
  rw [← ht, List.getLast?_append, Option.mem_def.mp hc]
  rfl

theorem trimStart_ne_nil {text : List Char} (hne : text ≠ [])
    (h : ∀ c ∈ text.getLast?, isBlank c = false)
    : trimStart text ≠ [] := by
  intro he
  obtain ⟨blanks, hb, ht⟩ := exists_trimStart text
  rw [he, List.append_nil] at ht
  subst ht
  have hl := h _ (List.getLast?_eq_some_getLast hne)
  rw [List.all_eq_true.mp hb _ (List.getLast_mem hne)] at hl
  exact absurd hl (by simp)

/-- Trimming leaves nothing of blank texts only: what its first step leaves does not start with a
blank.
-/
theorem trim_eq_nil_iff {text : List Char} : trim text = [] ↔ isBlankText text = true := by
  have hstart : trimStart text = [] ↔ isBlankText text = true := by
    simp [trimStart, isBlankText, List.dropWhile_eq_nil_iff]
  constructor
  · intro h
    refine hstart.mp (List.eq_nil_iff_forall_not_mem.mpr fun c hm => ?_)
    have hall : ∀ d ∈ trimStart text, isBlank d = true := by
      simpa [trim, trimEnd, List.dropWhile_eq_nil_iff] using h
    obtain ⟨first, rest, ht⟩ := List.exists_cons_of_ne_nil (List.ne_nil_of_mem hm)
    have hf := head?_trimStart first (by rw [ht]; rfl)
    rw [hall first (by simp [ht])] at hf
    exact absurd hf (by simp)
  · intro h
    rw [trim, hstart.mpr h]
    rfl

theorem trim_trim (text : List Char) : trim (trim text) = trim text := by
  rw [trim, trimStart_eq_self head?_trim]
  exact trimEnd_eq_self getLast?_trimEnd

theorem trim_infix (text : List Char) : trim text <:+: text := by
  obtain ⟨after, -, he⟩ := exists_trimEnd (trimStart text)
  obtain ⟨before, -, hs⟩ := exists_trimStart text
  exact ⟨before, after, by rw [trim, List.append_assoc, he, hs]⟩

/-- Behind a text that ends without a blank nothing is trimmed at the start. -/
theorem trimStart_append_of_getLast? {text : List Char} (hne : text ≠ [])
    (h : ∀ c ∈ text.getLast?, isBlank c = false) (rest : List Char)
    : trimStart (text ++ rest) = trimStart text ++ rest := by
  have hs : ¬ (text.dropWhile isBlank).isEmpty = true := by
    rw [List.isEmpty_iff]
    exact trimStart_ne_nil hne h
  rw [trimStart, List.dropWhile_append, if_neg hs, trimStart]

/-- Blanks behind a text are trimmed with those at its end. -/
theorem trimEnd_append_blanks {blanks : List Char} (hb : blanks.all isBlank = true)
    (text : List Char)
    : trimEnd (text ++ blanks) = trimEnd text := by
  have hr : ∀ c ∈ blanks.reverse, isBlank c = true := by simpa using hb
  rw [trimEnd, List.reverse_append, List.dropWhile_append_of_pos hr, ← trimEnd]

end ReportTemplate.Text
