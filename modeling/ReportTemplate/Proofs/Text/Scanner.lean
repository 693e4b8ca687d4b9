import ReportTemplate.Text.Scanner

/-! Scanning from a mode onwards.
A scan is a fold that gathers tokens in reverse; reading it forwards, each character gives its
tokens before those of the text behind it.
-/

namespace ReportTemplate.Text.Scanner

variable {Mode Token : Type}

/-- Scans a text from a mode onwards. -/
def run (scanner : Scanner Mode Token) : Mode → List Char → Option (List Token)
  | mode, [] => scanner.finish mode
  | mode, c :: rest =>
      (scanner.step mode c).bind fun read => (run scanner read.2 rest).map (read.1 ++ ·)

/-- A character that completes no token only changes the mode. -/
theorem run_cons_of_step {scanner : Scanner Mode Token} {mode next : Mode} {c : Char}
    (h : scanner.step mode c = some ([], next)) (rest : List Char)
    : scanner.run mode (c :: rest) = scanner.run next rest := by
  rw [run, h, Option.bind_some]
  exact Option.map_id'

/-- A scan runs from the initial mode, by induction on the text with the tokens gathered so
far.
-/
theorem scan?_eq_run (scanner : Scanner Mode Token) (text : List Char)
    : scanner.scan? text = scanner.run scanner.initial text := by
  suffices h : ∀ gathered mode,
      (do
        let read ← text.foldlM scanner.feed (gathered, mode)
        let last ← scanner.finish read.2
        return read.1.reverse ++ last)
        = (scanner.run mode text).map (gathered.reverse ++ ·) by
    have h := h [] scanner.initial
    rwa [List.reverse_nil, show (([] : List Token) ++ ·) = id from rfl, Option.map_id] at h
  induction text with
  | nil =>
      intro gathered mode
      cases hf : scanner.finish mode <;> simp [run, hf]
  | cons c rest ih =>
      intro gathered mode
      cases hs : scanner.step mode c with
      | none => simp [run, feed, hs]
      | some read =>
          obtain ⟨tokens, next⟩ := read
          have hi := ih (tokens.reverse ++ gathered) next
          cases hr : scanner.run next rest <;>
            simpa [run, feed, hs, hr, Option.map_map, Function.comp_def] using hi

end ReportTemplate.Text.Scanner
