import ReportTemplate.Text.TokenReader

/-! The tokens of a text.
What a mark takes of a text is dropped as a whole, so a text is cut at its first token and the text
behind it is cut alone; the tokens of a faithful reader make the text again.
-/

namespace ReportTemplate.Text.TokenReader

variable {Token : Type} {reader : TokenReader Token}

@[simp] theorem scan_nil : reader.scan [] = [] :=
  rfl

/-- Characters that a mark has taken already are dropped, by induction on the text. -/
theorem scanFrom_eq_scan_drop (skip : Nat) (text : List Char)
    : reader.scanFrom skip text = reader.scan (text.drop skip) := by
  induction text generalizing skip with
  | nil => simp [scan, scanFrom]
  | cons c rest ih =>
      cases skip with
      | zero => rfl
      | succ skip => rw [scanFrom, ih, List.drop_succ_cons]

/-- A character at which no mark starts is a token of its own, by one step of the scanner. -/
theorem scan_cons_of_read?_eq_none {c : Char} {rest : List Char}
    (h : reader.read? (c :: rest) = none)
    : reader.scan (c :: rest) = reader.char c :: reader.scan rest := by
  simp [scan, scanFrom, h]

/-- A mark in front of a text is a token of its own, by one step of the scanner. -/
theorem scan_append_of_read? {mark : Token} (hne : reader.source mark ≠ []) (rest : List Char)
    (h : reader.read? (reader.source mark ++ rest) = some mark)
    : reader.scan (reader.source mark ++ rest) = mark :: reader.scan rest := by
  obtain ⟨c, text, hs⟩ := List.exists_cons_of_ne_nil hne
  rw [hs, List.cons_append] at h ⊢
  simp only [scan, scanFrom, h]
  rw [scanFrom_eq_scan_drop, hs, List.length_cons, Nat.add_sub_cancel, List.drop_left, scan]

/-- Holds for readers whose tokens are the text that they take. -/
structure IsFaithful (reader : TokenReader Token) : Prop where
  source_char : ∀ c, reader.source (reader.char c) = [c]
  eq_append_of_read?
    : ∀ {text mark}, reader.read? text = some mark
      → reader.source mark ≠ [] ∧ ∃ rest, text = reader.source mark ++ rest

/-- The tokens of a text make the text again, by induction on the text: a mark that is read is
skipped as far as its source goes.
-/
theorem flatMap_source_scan (h : reader.IsFaithful) (text : List Char)
    : (reader.scan text).flatMap reader.source = text := by
  suffices hskip : ∀ skip, (reader.scanFrom skip text).flatMap reader.source = text.drop skip
    from hskip 0
  induction text with
  | nil => simp [scanFrom]
  | cons c text ih =>
      intro skip
      cases skip with
      | succ skip => exact ih skip
      | zero =>
          rw [scanFrom]
          cases hr : reader.read? (c :: text) with
          | none => simp [h.source_char, ih]
          | some mark =>
              obtain ⟨hne, rest, he⟩ := h.eq_append_of_read? hr
              obtain ⟨d, tail, hs⟩ := List.exists_cons_of_ne_nil hne
              rw [hs, List.cons_append] at he
              obtain ⟨rfl, rfl⟩ := List.cons.inj he
              simp [ih, hs]

end ReportTemplate.Text.TokenReader
