import ReportTemplate.Proofs.Filter.Registration
import ReportTemplate.Proofs.Text.Blank
import ReportTemplate.Proofs.Text.Split

/-! Names in the suggestion for a filter that cannot be registered.
The names stand between backquotes. Those of a hint are registered, and the name alone that is
left of the refused one can be registered unless it starts with a digit.
-/

namespace ReportTemplate

-----------------------------------------------------------------------------------------
-- Text between backquotes
-----------------------------------------------------------------------------------------

namespace Text

/-- Every second one of the pieces, as long as another one follows. -/
def enclosed : List (List Char) → List (List Char)
  | _ :: piece :: next :: rest => piece :: enclosed (next :: rest)
  | _ => []

/-- The pieces of a text that stand between two backquotes. -/
def backquoted (text : List Char) : List (List Char) :=
  enclosed (splitOn '\x60' text)

theorem backquoted_of_not_mem {text : List Char} (h : '\x60' ∉ text) : backquoted text = [] := by
  rw [backquoted, splitOn_of_not_mem h]
  rfl

/-- The first text between backquotes is followed by those behind it. -/
theorem backquoted_append_cons {before inside : List Char} (hb : '\x60' ∉ before)
    (hi : '\x60' ∉ inside) (rest : List Char)
    : backquoted (before ++ '\x60' :: (inside ++ '\x60' :: rest)) = inside :: backquoted rest := by
  rw [backquoted, splitOn_append_cons hb, splitOn_append_cons hi, backquoted]
  cases hs : splitOn '\x60' rest with
  | nil => exact absurd hs (cut_ne_nil _ rest)
  | cons next others => rfl

/-- Texts between backquotes, with others between them, are the ones that are quoted, by
induction on the row.
-/
theorem backquoted_intercalate {before separator after : List Char} (hb : '\x60' ∉ before)
    (hs : '\x60' ∉ separator) (ha : '\x60' ∉ after) {texts : List (List Char)}
    (ht : ∀ text ∈ texts, '\x60' ∉ text)
    : backquoted (before
          ++ (separator.intercalate (texts.map fun text => '\x60' :: (text ++ ['\x60']))
            ++ after))
      = texts := by
  induction texts generalizing before with
  | nil => exact backquoted_of_not_mem (by simp [hb, ha])
  | cons text texts ih =>
      have hi := ht text (by simp)
      cases texts with
      | nil =>
          have h := backquoted_append_cons hb hi after
          rw [backquoted_of_not_mem ha] at h
          simpa using h
      | cons next others =>
          have h := ih hs fun later hm => ht later (by simp [hm])
          rw [List.map_cons, List.intercalate_cons_of_ne_nil (by simp)]
          simp only [List.cons_append, List.append_assoc, List.nil_append]
          rw [backquoted_append_cons hb hi, h]

end Text

-----------------------------------------------------------------------------------------
-- Hints
-----------------------------------------------------------------------------------------

namespace Match

/-- Holds for candidates at a distance from one to three. -/
def IsClose (name candidate : String) : Prop :=
  0 < distanceOf name candidate ∧ distanceOf name candidate ≤ 3

instance (name candidate : String) : Decidable (IsClose name candidate) :=
  inferInstanceAs (Decidable (_ ∧ _))

theorem of?_eq_some_iff {name candidate : String} {found : Match}
    : of? name candidate = some found
      ↔ IsClose name candidate ∧ found = ⟨candidate, distanceOf name candidate⟩ := by
  by_cases h : IsClose name candidate
  · have hm : of? name candidate = some ⟨candidate, distanceOf name candidate⟩ := if_pos h
    simp [hm, h, eq_comm]
  · have hm : of? name candidate = none := if_neg h
    simp [hm, h]

theorem mem_of_mem_closest {name : String} {candidates : List String} {limit : Nat}
    {found : Match} (h : found ∈ closest name candidates limit)
    : found.text ∈ candidates := by
  obtain ⟨candidate, hm, hf⟩ :=
    List.mem_filterMap.mp (List.mem_mergeSort.mp (List.mem_of_mem_take h))
  obtain ⟨-, rfl⟩ := of?_eq_some_iff.mp hf
  exact hm

theorem hintLimit_ne_zero : hintLimit ≠ 0 := by
  decide

/-- There are matches when a candidate is close. -/
theorem closest_ne_nil_iff {name : String} {candidates : List String} {limit : Nat}
    (hl : limit ≠ 0)
    : closest name candidates limit ≠ [] ↔ ∃ candidate ∈ candidates, IsClose name candidate := by
  have hsort : ∀ found : List Match, found.mergeSort before = [] ↔ found = [] := by
    intro found
    rw [← List.length_eq_zero_iff, List.length_mergeSort, List.length_eq_zero_iff]
  rw [closest, Ne, List.take_eq_nil_iff, or_iff_right hl, hsort, List.filterMap_eq_nil_iff]
  push Not
  refine exists_congr fun candidate => and_congr_right fun _ => ?_
  rw [Option.ne_none_iff_exists']
  simp [of?_eq_some_iff]

/-- A hint quotes the best matches. -/
theorem backquoted_of_hint? {name text : String} {candidates : List String}
    (hc : ∀ candidate ∈ candidates, '\x60' ∉ candidate.toList)
    (h : hint? name candidates = some text)
    : Text.backquoted text.toList
      = (closest name candidates hintLimit).map fun found => found.text.toList := by
  have ht : ∀ inside ∈ (closest name candidates hintLimit).map fun found => found.text.toList,
      '\x60' ∉ inside := by
    intro inside hi
    obtain ⟨found, hm, rfl⟩ := List.mem_map.mp hi
    exact hc found.text (mem_of_mem_closest hm)
  have hbefore : '\x60' ∉ "Did you mean ".toList := by decide
  have hseparator : '\x60' ∉ " or ".toList := by decide
  have hafter : '\x60' ∉ ['?'] := by decide
  have hq := Text.backquoted_intercalate hbefore hseparator hafter ht
  rw [hint?] at h
  split at h
  · simp at h
  · next hne =>
      obtain rfl := Option.some.inj h
      rw [← hq]
      simp [String.toList_intercalate, Function.comp_def]

end Match

-----------------------------------------------------------------------------------------
-- Names that suggestions quote
-----------------------------------------------------------------------------------------

/-- The names that the suggestion of an error quotes. -/
def RegistrationError.quotedNames (error : RegistrationError) : List String :=
  match error.suggestion with
  | none => []
  | some text => (Text.backquoted text.toList).map String.ofList

namespace Registry

open Registration

/-- Holds for names whose first character that is not blank is a digit. -/
def StartsWithDigit (name : String) : Prop :=
  ∃ c ∈ (Text.trim name.toList).head?, '0' ≤ c ∧ c ≤ '9'

/-- Holds when a registered name is close to what is left of a name. -/
def HasClose (registry : Registry) (name : String) : Prop :=
  ∃ known ∈ registry.names, Match.IsClose (sanitize name) known

theorem backquote_not_mem {name : String} (h : IsName name) : '\x60' ∉ name.toList := by
  obtain ⟨first, rest, ht, hf, hr⟩ := h
  have hall : ∀ c ∈ name.toList, isNameChar c = true := by
    rw [ht, List.forall_mem_cons]
    exact ⟨isNameChar_iff.mpr (hf.imp_right Or.inr), fun c hm => isNameChar_iff.mpr (hr c hm)⟩
  exact fun hm => absurd (hall _ hm) (by decide)

theorem isNameChar_of_mem_sanitize {name : String} {c : Char} (h : c ∈ (sanitize name).toList)
    : isNameChar c = true := by
  rw [sanitize, String.toList_ofList] at h
  obtain ⟨d, -, rfl⟩ := List.mem_map.mp h
  split
  · next hd => simp [isNameChar, hd]
  · rfl

theorem not_digit_of_isLetter {c : Char} (h : IsLetter c) : ¬ ('0' ≤ c ∧ c ≤ '9') := by
  rintro ⟨-, hd⟩
  rcases h with ⟨hl, -⟩ | ⟨hl, -⟩
  · exact absurd (Char.le_trans hl hd) (by decide)
  · exact absurd (Char.le_trans hl hd) (by decide)

/-- What is left of a name can be registered unless it starts with a digit, since its other
characters are letters, digits and underscores.
-/
theorem isName_sanitize_iff {name : String} (hne : Text.trim name.toList ≠ [])
    : IsName (sanitize name) ↔ ¬ StartsWithDigit name := by
  obtain ⟨first, rest, ht⟩ := List.exists_cons_of_ne_nil hne
  have hs : (sanitize name).toList
      = (if first.isAlphanum then first else '_')
        :: rest.map fun c => if c.isAlphanum then c else '_' := by
    simp [sanitize, ht]
  have hrest : (rest.map fun c => if c.isAlphanum then c else '_').all isNameChar = true :=
    List.all_eq_true.mpr fun c hm => isNameChar_of_mem_sanitize (by rw [hs]; exact .tail _ hm)
  have hstart : StartsWithDigit name ↔ '0' ≤ first ∧ first ≤ '9' := by
    simp [StartsWithDigit, ht]
  rw [hstart, ← isName_iff, hs, isName, hrest, Bool.and_true]
  by_cases hl : IsLetter first
  · simp [Char.isAlphanum, isAlpha_iff.mpr hl, not_digit_of_isLetter hl]
  · have ha : first.isAlpha = false := Bool.eq_false_iff.mpr (mt isAlpha_iff.mp hl)
    by_cases hd : '0' ≤ first ∧ first ≤ '9'
    · have hdigit : first.isDigit = true := by simpa [Char.isDigit, Char.le_def] using hd
      have hu : first ≠ '_' := by
        rintro rfl
        exact absurd hd.2 (by decide)
      simp [Char.isAlphanum, ha, hdigit, hu, hd]
    · have hdigit : first.isDigit = false := by
        rw [Bool.eq_false_iff]
        simpa [Char.isDigit, Char.le_def] using hd
      simp [Char.isAlphanum, ha, hdigit, hd]

/-- A hint is given when a registered name is close, and it quotes registered names. -/
theorem quotedNames_of_hasClose {registry : Registry}
    (hn : ∀ known ∈ registry.names, IsName known) {name : String} (h : registry.HasClose name)
    : RegistrationError.quotedNames ⟨name, registry.suggestion name⟩
      = (Match.closest (sanitize name) registry.names Match.hintLimit).map Match.text := by
  have hc := (Match.closest_ne_nil_iff Match.hintLimit_ne_zero).mpr h
  have hh : ∃ text, Match.hint? (sanitize name) registry.names = some text := by
    unfold Match.hint?
    split
    · next he => exact absurd he hc
    · exact ⟨_, rfl⟩
  obtain ⟨text, ht⟩ := hh
  have hs : registry.suggestion name = some text := by rw [suggestion, ht]
  rw [RegistrationError.quotedNames, hs]
  dsimp only
  rw [Match.backquoted_of_hint? (fun known hm => backquote_not_mem (hn known hm)) ht]
  simp [Function.comp_def]

/-- Without a hint what is left of the name is quoted, if anything is left. -/
theorem quotedNames_of_not_hasClose {registry : Registry} {name : String}
    (h : ¬ registry.HasClose name)
    : RegistrationError.quotedNames ⟨name, registry.suggestion name⟩
      = if Text.isBlankText name.toList then [] else [sanitize name] := by
  have hc : Match.closest (sanitize name) registry.names Match.hintLimit = [] :=
    not_not.mp (mt (Match.closest_ne_nil_iff Match.hintLimit_ne_zero).mp h)
  have hh : Match.hint? (sanitize name) registry.names = none := by rw [Match.hint?, hc]
  have hb : '\x60' ∉ (sanitize name).toList :=
    fun hm => absurd (isNameChar_of_mem_sanitize hm) (by decide)
  have hempty : (sanitize name).isEmpty = Text.isBlankText name.toList := by
    rw [Bool.eq_iff_iff, ← Text.trim_eq_nil_iff]
    simp [sanitize]
  rw [RegistrationError.quotedNames, suggestion, hh]
  dsimp only
  rw [hempty]
  cases Text.isBlankText name.toList with
  | true => rfl
  | false =>
      have ht : ("Try `" ++ sanitize name ++ "`").toList
          = "Try ".toList ++ '\x60' :: ((sanitize name).toList ++ '\x60' :: []) := by
        simp
      rw [if_neg Bool.false_ne_true, if_neg Bool.false_ne_true]
      dsimp only
      rw [ht, Text.backquoted_append_cons (by decide) hb, Text.backquoted_of_not_mem (by simp),
        List.map_singleton, String.ofList_toList]

/-- A name that is refused is answered with names, unless it is blank and no registered name is
close to it. They can all be registered exactly when a name that starts with a digit has a
registered one close to it.
-/
theorem register_quotedNames {start : Registry} (hs : start = builtins ∨ start = {})
    (requests : List Registration) {name : String} {filter : Filter} {cause : RegistrationError}
    (h : (start.run requests).register name filter = .error cause)
    : ((∀ other ∈ cause.quotedNames,
          ∃ changed, (start.run requests).register other filter = .ok changed)
        ↔ (StartsWithDigit name → (start.run requests).HasClose name))
      ∧ (cause.quotedNames = []
        ↔ Text.isBlankText name.toList = true ∧ ¬ (start.run requests).HasClose name) := by
  have hrun := run_isRun hs requests
  generalize start.run requests = registry at *
  have haccepts : ∀ other, (∃ changed, registry.register other filter = .ok changed)
      ↔ IsName other := fun other => hrun.accepts ⟨other, filter⟩
  have hname : ¬ IsName name := by
    rw [← haccepts, h]
    simp
  rw [register_of_not_isName registry hname] at h
  obtain rfl := Except.error.inj h
  simp only [haccepts]
  by_cases hc : registry.HasClose name
  · rw [quotedNames_of_hasClose hrun.named hc]
    have hne := (Match.closest_ne_nil_iff Match.hintLimit_ne_zero).mpr hc
    refine ⟨⟨fun _ _ => hc, fun _ other hm => ?_⟩, by simp [hc, hne]⟩
    obtain ⟨found, hf, rfl⟩ := List.mem_map.mp hm
    exact hrun.named found.text (Match.mem_of_mem_closest hf)
  · rw [quotedNames_of_not_hasClose hc]
    cases hb : Text.isBlankText name.toList with
    | true =>
        have ht : Text.trim name.toList = [] := Text.trim_eq_nil_iff.mpr hb
        simp [StartsWithDigit, ht, hc]
    | false =>
      have hne : Text.trim name.toList ≠ [] := by
        rw [Ne, Text.trim_eq_nil_iff, hb]
        simp
      simp [isName_sanitize_iff hne, hc]

/-- A registered filter that the refused name is close to. -/
def slugRequests : List Registration := [⟨"to_slug", fun value _ => .ok value⟩]

/-- A name that starts with a digit is answered with the registered name that is close to it. -/
theorem register_slugRequests
    : (builtins = builtins ∨ builtins = {})
      ∧ (builtins.run slugRequests).register " 9to-slug" Filter.upper
        = .error ⟨" 9to-slug", some "Did you mean `to_slug`?"⟩
      ∧ StartsWithDigit " 9to-slug"
      ∧ (builtins.run slugRequests).HasClose " 9to-slug"
      ∧ ∃ changed, (builtins.run slugRequests).register "to_slug" Filter.upper = .ok changed := by
  have hs : builtins = builtins ∨ builtins = {} := Or.inl rfl
  have hsuggestion : (builtins.run slugRequests).suggestion " 9to-slug"
      = some "Did you mean `to_slug`?" := by decide +kernel
  have h : (builtins.run slugRequests).register " 9to-slug" Filter.upper
      = .error ⟨" 9to-slug", some "Did you mean `to_slug`?"⟩ := by
    rw [register_of_not_isName _ (by decide), hsuggestion]
  have hdigit : StartsWithDigit " 9to-slug" := ⟨'9', by decide, by decide, by decide⟩
  have hclose : (builtins.run slugRequests).HasClose " 9to-slug" :=
    ⟨"to_slug", by decide +kernel, by decide +kernel⟩
  exact ⟨hs, h, hdigit, hclose,
    (register_quotedNames hs slugRequests h).1.mpr (fun _ => hclose) "to_slug" (by decide +kernel)⟩

/-- Without a close name it is answered with itself, which is refused again. -/
theorem register_nine_lives
    : ∃ cause, builtins.register "9lives" Filter.upper = .error cause
      ∧ "9lives" ∈ cause.quotedNames
      ∧ ¬ ∃ changed, builtins.register "9lives" Filter.upper = .ok changed := by
  have hsuggestion : builtins.suggestion "9lives" = some "Try `9lives`" := by decide +kernel
  have hname : ¬ IsName "9lives" := by decide
  have h := register_of_not_isName builtins hname Filter.upper
  rw [hsuggestion] at h
  exact ⟨_, h, by decide +kernel, by simp [h]⟩

end Registry

end ReportTemplate
