import ReportTemplate.Text.Split

/-! Cutting at separators against joining: pieces are what stands between separators. -/

namespace ReportTemplate.Text

variable {α : Type} {isSeparator : α → Bool}

/-- A sequence is cut at a separator inside it, by induction on the part in front. -/
theorem cut_append_cons {separator : α} (hs : isSeparator separator = true)
    (left right : List α)
    : cut isSeparator (left ++ separator :: right)
      = cut isSeparator left ++ cut isSeparator right := by
  induction left with
  | nil => simp [cut, hs]
  | cons a left ih =>
      cases ha : isSeparator a with
      | true => simp [cut, ha, ih]
      | false =>
          cases hl : cut isSeparator left with
          | nil => exact absurd hl (cut_ne_nil isSeparator left)
          | cons piece pieces => simp [cut, ha, ih, hl]

/-- A sequence without separators is one piece, by induction on the sequence. -/
theorem cut_of_forall_not {sequence : List α} (h : ∀ a ∈ sequence, isSeparator a = false)
    : cut isSeparator sequence = [sequence] := by
  induction sequence with
  | nil => rfl
  | cons a sequence ih =>
      have hi := ih fun b hm => h b (by simp [hm])
      simp [cut, h a (by simp), hi]

/-- A piece has elements of the sequence and no separators, by induction on the sequence. -/
theorem mem_of_mem_cut {sequence piece : List α} (h : piece ∈ cut isSeparator sequence)
    : ∀ a ∈ piece, a ∈ sequence ∧ isSeparator a = false := by
  induction sequence generalizing piece with
  | nil =>
      obtain rfl : piece = [] := by simpa [cut] using h
      simp
  | cons a sequence ih =>
      intro b hb
      cases ha : isSeparator a with
      | true =>
          rcases List.mem_cons.mp (by simpa [cut, ha] using h) with rfl | hm
          · simp at hb
          · exact ⟨List.mem_cons_of_mem a (ih hm b hb).1, (ih hm b hb).2⟩
      | false =>
          cases hc : cut isSeparator sequence with
          | nil => exact absurd hc (cut_ne_nil isSeparator sequence)
          | cons first pieces =>
              rw [hc] at ih
              rcases List.mem_cons.mp (by simpa [cut, ha, hc] using h) with rfl | hm
              · rcases List.mem_cons.mp hb with rfl | hb
                · exact ⟨by simp, ha⟩
                · have hi := ih (by simp) b hb
                  exact ⟨List.mem_cons_of_mem a hi.1, hi.2⟩
              · have hi := ih (List.mem_cons_of_mem first hm) b hb
                exact ⟨List.mem_cons_of_mem a hi.1, hi.2⟩

/-- A sequence is its pieces with the separator between them, by induction on the sequence. -/
theorem eq_append_of_cut [BEq α] [LawfulBEq α] {separator : α} {sequence first : List α}
    {others : List (List α)} (h : cut (· == separator) sequence = first :: others)
    : sequence = first ++ others.flatMap (separator :: ·) := by
  induction sequence generalizing first others with
  | nil =>
      obtain ⟨rfl, rfl⟩ := List.cons.inj h
      rfl
  | cons a sequence ih =>
      cases hc : cut (· == separator) sequence with
      | nil => exact absurd hc (cut_ne_nil _ sequence)
      | cons piece pieces =>
          have hi := ih hc
          by_cases ha : a = separator
          · subst ha
            have he : [] :: piece :: pieces = first :: others := by simpa [cut, hc] using h
            obtain ⟨rfl, rfl⟩ := List.cons.inj he
            simp [hi]
          · have he : (a :: piece) :: pieces = first :: others := by simpa [cut, hc, ha] using h
            obtain ⟨rfl, rfl⟩ := List.cons.inj he
            simp [hi]

/-- A text is cut at its first separator, by induction on the text. -/
theorem splitOnce_eq_some_iff {separator : Char} {text before after : List Char}
    : splitOnce separator text = some (before, after)
      ↔ text = before ++ separator :: after ∧ separator ∉ before := by
  induction text generalizing before after with
  | nil => simp [splitOnce]
  | cons c rest ih =>
      rw [splitOnce]
      split
      · next hc =>
          subst hc
          cases before with
          | nil => simp
          | cons d before => simp +contextual
      · next hc =>
          cases before with
          | nil => simp [hc]
          | cons d before =>
              constructor
              · intro h
                obtain ⟨⟨first, behind⟩, hs, he⟩ := Option.map_eq_some_iff.mp h
                obtain ⟨hfirst, rfl⟩ := Prod.mk.inj he
                obtain ⟨rfl, rfl⟩ := List.cons.inj hfirst
                obtain ⟨rfl, hn⟩ := ih.mp hs
                exact ⟨rfl, List.not_mem_cons_of_ne_of_not_mem (Ne.symm hc) hn⟩
              · rintro ⟨he, hn⟩
                obtain ⟨rfl, rfl⟩ := List.cons.inj he
                rw [ih.mpr ⟨rfl, List.not_mem_of_not_mem_cons hn⟩]
                rfl

theorem splitOn_of_not_mem {separator : Char} {text : List Char} (h : separator ∉ text)
    : splitOn separator text = [text] :=
  cut_of_forall_not fun _ hc => beq_false_of_ne (ne_of_mem_of_not_mem hc h)

/-- A text is cut behind a piece without the separator. -/
theorem splitOn_append_cons {separator : Char} {piece : List Char} (h : separator ∉ piece)
    (rest : List Char)
    : splitOn separator (piece ++ separator :: rest) = piece :: splitOn separator rest := by
  rw [splitOn, cut_append_cons (by simp), ← splitOn, ← splitOn, splitOn_of_not_mem h]
  rfl

/-- Pieces without the separator are cut out of their joined text again, by induction on the
pieces.
-/
theorem splitOn_join {separator : Char} {first : List Char} {others : List (List Char)}
    (h : ∀ piece ∈ first :: others, separator ∉ piece)
    : splitOn separator (join [separator] (first :: others)) = first :: others := by
  induction others generalizing first with
  | nil => simpa [join] using splitOn_of_not_mem (h first (by simp))
  | cons second others ih =>
      have hj : join [separator] (first :: second :: others)
          = first ++ separator :: join [separator] (second :: others) := by
        simp [join]
      rw [hj, splitOn_append_cons (h first (by simp)),
        ih fun piece hm => h piece (List.mem_cons_of_mem first hm)]

end ReportTemplate.Text
