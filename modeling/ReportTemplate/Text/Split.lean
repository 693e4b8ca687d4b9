/-! Cutting a sequence at its separators and joining pieces of text. -/

namespace ReportTemplate.Text

/-- Cuts a sequence at every separator; `n` separators give `n + 1` pieces. -/
def cut {α : Type} (isSeparator : α → Bool) : List α → List (List α)
  | [] => [[]]
  | a :: rest =>
      if isSeparator a then [] :: cut isSeparator rest
      else
        match cut isSeparator rest with
        | [] => [[a]]
        | piece :: pieces => (a :: piece) :: pieces

/-- Cuts a text at every occurrence of a character. -/
def splitOn (separator : Char) (text : List Char) : List (List Char) :=
  cut (· == separator) text

/-- Cuts a text at its first separator, which is in neither half. -/
def splitOnce (separator : Char) : List Char → Option (List Char × List Char)
  | [] => none
  | c :: rest =>
      if c = separator then some ([], rest)
      else (splitOnce separator rest).map fun (before, after) => (c :: before, after)

/-- Joins pieces with a separator text between neighbours. -/
def join (separator : List Char) : List (List Char) → List Char
  | [] => []
  | piece :: pieces => piece ++ pieces.flatMap (separator ++ ·)

/-- A sequence always has at least one piece, by cases on its first element. -/
theorem cut_ne_nil {α : Type} (isSeparator : α → Bool) (sequence : List α)
    : cut isSeparator sequence ≠ [] := by
  cases sequence with
  | nil => simp [cut]
  | cons a rest =>
      rw [cut]
      split
      · simp
      · split <;> simp

/-- Joining the pieces with the separator gives the text back, by induction on the text. -/
theorem join_splitOn (separator : Char) (text : List Char)
    : join [separator] (splitOn separator text) = text := by
  unfold splitOn
  induction text with
  | nil => rfl
  | cons c rest ih =>
      rw [cut]
      split
      · next h =>
          rw [beq_iff_eq] at h
          subst h
          cases hs : cut (· == c) rest with
          | nil => exact absurd hs (cut_ne_nil _ rest)
          | cons piece pieces =>
              rw [hs] at ih
              simpa [join] using ih
      · cases hs : cut (· == separator) rest with
        | nil => exact absurd hs (cut_ne_nil _ rest)
        | cons piece pieces =>
            rw [hs] at ih
            simpa [join] using ih

end ReportTemplate.Text
