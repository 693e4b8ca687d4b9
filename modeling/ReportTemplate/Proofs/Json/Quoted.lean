import ReportTemplate.Json.Quoted

/-! Texts are read back from their quoted form.
Each character is written as one piece, an escape for quotes, backslashes and control characters,
and no piece is one half of a surrogate pair.
-/

namespace ReportTemplate.Json

/-- The forms in which a character is written: a letter that names it or two hexadecimal digits
behind a backslash, or the character itself.
-/
inductive IsEscape (c : Char) : List Char → Prop where
  | simple {letter : Char} (h : simpleEscape? letter = some c) : IsEscape c ['\\', letter]
  | hex (h : c.toNat < 0x20)
      : IsEscape c ['\\', 'u', '0', '0', hexDigit (c.toNat / 16), hexDigit (c.toNat % 16)]
  | plain (hq : c ≠ '"') (hb : c ≠ '\\') (hc : ¬ c.toNat < 0x20) : IsEscape c [c]

/-- Characters are escaped in one of these forms, by the cases of the character. -/
theorem isEscape_escape (c : Char) : IsEscape c (escape c) := by
  by_cases hq : c = '"'
  · exact hq ▸ .simple rfl
  by_cases hb : c = '\\'
  · exact hb ▸ .simple rfl
  by_cases hn : c = '\n'
  · exact hn ▸ .simple rfl
  by_cases hr : c = '\r'
  · exact hr ▸ .simple rfl
  by_cases ht : c = '\t'
  · exact ht ▸ .simple rfl
  by_cases hback : c = '\x08'
  · exact hback ▸ .simple rfl
  by_cases hfeed : c = '\x0c'
  · exact hfeed ▸ .simple rfl
  by_cases hc : c.toNat < 0x20
  · rw [escape, if_neg hq, if_neg hb, if_neg hn, if_neg hr, if_neg ht, if_neg hback, if_neg hfeed,
      if_pos hc]
    exact .hex hc
  · rw [escape, if_neg hq, if_neg hb, if_neg hn, if_neg hr, if_neg ht, if_neg hback, if_neg hfeed,
      if_neg hc]
    exact .plain hq hb hc

theorem hexUnit?_eq : ∀ n < 0x20,
    hexUnit? '0' '0' (hexDigit (n / 16)) (hexDigit (n % 16)) = some n := by
  decide

/-- An escaped character is one piece in front of those behind it, and stands for itself. -/
theorem IsEscape.exists_piece {c : Char} {text : List Char} (h : IsEscape c text)
    : ∃ piece,
        (∀ rest, pieces (text ++ rest) = (pieces rest).map (piece :: ·))
        ∧ ∀ more, assemble (piece :: more) = (assemble more).map (c :: ·) := by
  cases h with
  | @simple letter h =>
      have hu : letter ≠ 'u' := by
        rintro rfl
        cases h
      refine ⟨.char c, fun rest => ?_, fun more => rfl⟩
      rw [List.cons_append, List.cons_append, List.nil_append, pieces]
      · rw [h]
        cases pieces rest <;> rfl
      · rintro a b c d rest rfl
        exact absurd rfl hu
  | hex h =>
      refine ⟨.unit c.toNat, fun rest => ?_, fun more => ?_⟩
      · simp only [List.cons_append, List.nil_append, pieces, hexUnit?_eq c.toNat h]
        cases pieces rest <;> rfl
      · rw [assemble.eq_def]
        dsimp only
        rw [if_neg (by omega), if_neg (by omega), Char.ofNat_toNat]
  | plain hq hb hc =>
      refine ⟨.char c, fun rest => ?_, fun more => rfl⟩
      rw [List.cons_append, List.nil_append, pieces]
      · rw [if_neg (by simp [hb, hc])]
        cases pieces rest <;> rfl
      · exact fun _ _ _ _ _ he _ => hb he
      · exact fun _ _ he _ => hb he

/-- Escaped text is read back, by induction on the text. -/
theorem unescape_flatMap_escape (text : List Char)
    : unescape (text.flatMap escape) = some text := by
  have hpieces : ∃ found,
      pieces (text.flatMap escape) = some found ∧ assemble found = some text := by
    induction text with
    | nil => exact ⟨[], rfl, rfl⟩
    | cons c text ih =>
        obtain ⟨found, hf, ha⟩ := ih
        obtain ⟨piece, hp, hc⟩ := (isEscape_escape c).exists_piece
        refine ⟨piece :: found, ?_, ?_⟩
        · rw [List.flatMap_cons, hp, hf, Option.map_some]
        · rw [hc, ha, Option.map_some]
  obtain ⟨found, hf, ha⟩ := hpieces
  rw [unescape, hf, Option.bind_some, ha]

end ReportTemplate.Json
