import ReportTemplate.Cli.FileTree
import ReportTemplate.Cli.Program
import ReportTemplate.Proofs.Context.Overriding

/-! Inputs of a rendering and how each of them can fail.
The template comes first, then the context files and then the overrides, each in the order of the
command line. An input fails by itself, whatever the others are.
-/

namespace ReportTemplate

/-- The value that a context file's text spells, in the format that its path tells. -/
def Context.valueOf? (path text : String) : Option Value :=
  if isJsonPath path then Json.read? text.toList else Yaml.read? text.toList

/-- A file with text is loaded from the value that it spells, in either format. -/
theorem Context.ofFile_ok (path text : String)
    : ofFile path (.ok text)
      = (valueOf? path text).elim (.error (if isJsonPath path then .json else .yaml)) ofValue := by
  rw [ofFile, valueOf?]
  split
  · unfold ofJson
    cases Json.read? text.toList <;> rfl
  · unfold ofYaml
    cases Yaml.read? text.toList <;> rfl

namespace Cli

/-- An input of a rendering. -/
inductive Input where
  | template (path : String)
  | context (path : String)
  | override (argument : String)
  deriving DecidableEq, Repr

/-- The inputs of a rendering in the order in which they are used. -/
def RenderOptions.inputs (options : RenderOptions) : List Input :=
  .template options.template
    :: (options.contexts.map .context ++ options.overrides.map .override)

namespace Input

-----------------------------------------------------------------------------------------
-- One input
-----------------------------------------------------------------------------------------

/-- Holds for inputs whose file can be read; an override has none. -/
def isReadable (files : FileTree) : Input → Bool
  | .template path => (files.readText path).isOk
  | .context path => (files.readText path).isOk
  | .override _ => true

/-- How an input fails, if it does: a file has to hold text, the text of a context file has to
spell a mapping or `null`, and an override has to have an equals sign behind a path.
-/
def failure? (files : FileTree) : Input → Option Failure
  | .template path =>
      match files.readText path with
      | .ok _ => none
      | .error reason => some (.atPath path reason)
  | .context path =>
      match files.readText path with
      | .error reason => some (.atPath path reason)
      | .ok text =>
          match Context.valueOf? path text with
          | none => some (.loading path (if Context.isJsonPath path then .json else .yaml))
          | some (.map _) => none
          | some .null => none
          | some value => some (.loading path (.shape value.kind))
  | .override argument =>
      match Text.splitOnce '=' argument.toList with
      | none => some (.ofLoad (.override argument))
      | some (path, _) =>
          if Text.isBlankText path then some (.ofLoad (.override argument)) else none

/-- A failure to read has a code of its own, and all others share one. -/
theorem exitCode_of_failure? {files : FileTree} {input : Input} {failure : Failure}
    (h : input.failure? files = some failure)
    : failure.exitCode = if input.isReadable files then 2 else 5 := by
  cases input with
  | template path =>
      simp only [failure?] at h
      split at h
      · simp at h
      · next hr =>
          obtain rfl := Option.some.inj h
          simp [isReadable, hr, Except.isOk, Except.toBool, Failure.atPath, Failure.exitCode]
  | context path =>
      simp only [failure?] at h
      split at h
      · next hr =>
          obtain rfl := Option.some.inj h
          simp [isReadable, hr, Except.isOk, Except.toBool, Failure.atPath, Failure.exitCode]
      · next text hr =>
          rw [isReadable, hr, Except.isOk, Except.toBool, if_pos rfl]
          split at h
          · obtain rfl := Option.some.inj h
            split <;> rfl
          · simp at h
          · simp at h
          · obtain rfl := Option.some.inj h
            rfl
  | override argument =>
      rw [isReadable, if_pos rfl]
      simp only [failure?] at h
      split at h
      · obtain rfl := Option.some.inj h
        rfl
      · split at h
        · obtain rfl := Option.some.inj h
          rfl
        · simp at h

-----------------------------------------------------------------------------------------
-- Context files
-----------------------------------------------------------------------------------------

/-- Holds for the context in a file: that of the mapping that its text spells, or the empty one
for `null`.
-/
def Holds (files : FileTree) (path : String) (context : Context) : Prop :=
  ∃ text value, files.readText path = .ok text ∧ Context.valueOf? path text = some value
    ∧ (value = .map context.entries ∨ value = .null ∧ context = {})

/-- A context file holds one context only, the one that is loaded. -/
theorem Holds.eq_of_ofFile {files : FileTree} {path : String} {context other : Context}
    (h : Holds files path context) (hr : Context.ofFile path (files.readText path) = .ok other)
    : context = other := by
  obtain ⟨text, value, ht, hv, hc⟩ := h
  rw [ht, Context.ofFile_ok, hv] at hr
  rcases hc with rfl | ⟨rfl, rfl⟩ <;> exact Except.ok.inj hr

/-- A context file is loaded unless it fails, by the kind of the value that its text spells. -/
theorem ofFile_readText (files : FileTree) (path : String)
    : match (Input.context path).failure? files with
      | some failure =>
          (Context.ofFile path (files.readText path)).mapError (Failure.loading path)
          = .error failure
      | none =>
          ∃ context, Holds files path context
            ∧ Context.ofFile path (files.readText path) = .ok context := by
  cases hr : files.readText path with
  | error reason => simp [failure?, hr, Context.ofFile, Except.mapError, Failure.loading]
  | ok text =>
      simp only [failure?, hr, Context.ofFile_ok]
      cases hv : Context.valueOf? path text with
      | none => rfl
      | some value =>
          cases value with
          | map entries => exact ⟨⟨entries⟩, ⟨text, _, hr, hv, .inl rfl⟩, rfl⟩
          | null => exact ⟨{}, ⟨text, _, hr, hv, .inr ⟨rfl, rfl⟩⟩, rfl⟩
          | bool flag => rfl
          | number n => rfl
          | string chars => rfl
          | list items => rfl

-----------------------------------------------------------------------------------------
-- Rows of inputs
-----------------------------------------------------------------------------------------

/-- The first input that fails, with its failure. -/
def firstFailure? (files : FileTree) (inputs : List Input) : Option (Input × Failure) :=
  inputs.findSome? fun input => (input.failure? files).map (input, ·)

theorem firstFailure?_cons (files : FileTree) (input : Input) (inputs : List Input)
    : firstFailure? files (input :: inputs)
      = ((input.failure? files).map (input, ·)).or (firstFailure? files inputs) := by
  cases h : input.failure? files <;> simp [firstFailure?, h]

/-- What fails first is an input that fails so. -/
theorem failure?_of_firstFailure? {files : FileTree} {inputs : List Input} {input : Input}
    {failure : Failure} (h : firstFailure? files inputs = some (input, failure))
    : input.failure? files = some failure := by
  obtain ⟨found, -, hf⟩ := List.exists_of_findSome?_eq_some h
  obtain ⟨cause, hc, heq⟩ := Option.map_eq_some_iff.mp hf
  obtain ⟨rfl, rfl⟩ := Prod.mk.inj heq
  exact hc

theorem firstFailure?_append (files : FileTree) (inputs more : List Input)
    : firstFailure? files (inputs ++ more)
      = (firstFailure? files inputs).or (firstFailure? files more) :=
  List.findSome?_append

-----------------------------------------------------------------------------------------
-- Overrides
-----------------------------------------------------------------------------------------

theorem read_override (files : FileTree) (argument : String)
    : match (Input.override argument).failure? files with
      | some failure =>
          (Context.Override.read argument).mapError Failure.ofLoad = .error failure
      | none => ∃ change, Context.Override.read argument = .ok change := by
  simp only [failure?, Context.Override.read]
  cases Text.splitOnce '=' argument.toList with
  | none => rfl
  | some parts =>
      cases hb : Text.isBlankText parts.1 <;> simp [hb, Except.mapError]

/-- Overrides are stored until one of them fails, by induction on their row. -/
theorem ofOverrides_arguments (files : FileTree) (arguments : List String)
    : match firstFailure? files (arguments.map .override) with
      | some (_, failure) =>
          (Context.ofOverrides arguments).mapError Failure.ofLoad = .error failure
      | none => ∃ overrides, Context.ofOverrides arguments = .ok overrides := by
  unfold Context.ofOverrides
  generalize ({} : Context) = start
  induction arguments generalizing start with
  | nil => exact ⟨start, rfl⟩
  | cons argument arguments ih =>
      have hr := read_override files argument
      rw [List.map_cons, firstFailure?_cons, List.foldlM_cons]
      cases hf : (Input.override argument).failure? files with
      | some failure =>
          rw [hf] at hr
          cases hread : Context.Override.read argument with
          | error reason =>
              rw [hread] at hr
              obtain rfl : Failure.ofLoad reason = failure := Except.error.inj hr
              rfl
          | ok change => simp [hread, Except.mapError] at hr
      | none =>
          rw [hf] at hr
          obtain ⟨change, hread⟩ := hr
          rw [hread]
          exact ih (start.set change.path change.value)

end Input

-----------------------------------------------------------------------------------------
-- All inputs of a rendering
-----------------------------------------------------------------------------------------

/-- Holds for the context of a rendering: the contexts in its files merged in order, and then
what its overrides write.
-/
def RenderSettings.Gives (settings : RenderSettings) (files : FileTree) (context : Context)
    : Prop :=
  ∃ contexts changes, List.Forall₂ (Input.Holds files) settings.contexts contexts
    ∧ List.Forall₂ Context.Override.IsWritten settings.overrides changes
    ∧ context = (Context.mergeAll contexts).merge (({} : Context).setAll changes)

/-- Holds for the text of a rendering: what the template becomes in its context, tidied unless
it is to stay raw.
-/
def RenderOptions.Renders (options : RenderOptions) (files : FileTree) (text : String) : Prop :=
  ∃ template context, files.readText options.template = .ok template
    ∧ options.Gives files context
    ∧ text = (Engine.compile { normalizes := !options.raw } template context.toValue).value

end Cli

end ReportTemplate
